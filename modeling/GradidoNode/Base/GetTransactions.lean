/-
# `GradidoNode.Base.GetTransactions` — the tail of a chain, read in batches

`getTransactions` of the JSON RPC interface makes a `GetTransactionsTask` and has it run until
it is finished.  Each run reads up to `batch_size` rows behind those there are:

    run      if `result.size() + first` is below `get_transaction_count`: reads row
             `first + result.size()`, `batch_size` times; it is finished where
             `get_transaction2` says no, or something is thrown
             otherwise it is finished

`get_transaction_count` is the number of rows without the checksums, and the rows that are
read are all rows, the checksums among them.  So the rows end where the last run that was
begun ends, and that depends on the size of the batches (`fetches_iff`).

`wholeTail_iff` says when it does not: where nothing is asked for, and where the rows in the
files end before the count does.  The latter is so after blocks have been cut off, as
`truncate` leaves `rec_count` as it was.
-/
import GradidoNode.Base.BlockchainBase
import GradidoNode.Ledger.Chain
import GradidoNode.Storage.Counters
import GradidoNode.Storage.Ready
import Mathlib.Data.List.Flatten

namespace GradidoNode.Base

open Lib Blockchain FileTile

variable {T : Type} {F : RowFormat T}

/-! ## The task -/

/-- `get_transaction_count`.  The difference does not wrap (`Ready.counted`). -/
def getTransactionCount (state : State) (s : Blockchain F) : Nat :=
  if state ≠ .ready then 0
  else if getRecCount s = 0 then 0
  else getRecCount s - getBlockCount s

def getTransaction2 (K : Params) (seqNum now : Nat) : ChainM F (Option (Row F.Body)) := do
  let s ← get
  if getRecCount s ≤ seqNum then return none
  else do
    let r ← getRecord K seqNum now
    match r.1 with
    | none => throw (.undefined "null record")
    | some row => return some row

structure GetTransactionsTask (F : RowFormat T) where
  first : Nat
  batchSize : Nat
  result : List (Row F.Body)
  finished : Bool

namespace GetTransactionsTask

/-- The task and the chain. -/
abbrev TaskM (F : RowFormat T) := EStateM Fault (GetTransactionsTask F × Blockchain F)

/-- A call of the chain. -/
def onChain {α : Type} (x : ChainM F α) : TaskM F α := fun s =>
  match x s.2 with
  | .ok a st => .ok a (s.1, st)
  | .error e st => .error e (s.1, st)

/-- `finished = true`. -/
def setFinished (s : GetTransactionsTask F × Blockchain F) : GetTransactionsTask F × Blockchain F :=
  ({ s.1 with finished := true }, s.2)

/-- `result.push_back(rec)`. -/
def pushBack (row : Row F.Body) (s : GetTransactionsTask F × Blockchain F) :
    GetTransactionsTask F × Blockchain F :=
  ({ s.1 with result := s.1.result ++ [row] }, s.2)

/-- The loop, `count` more times; read `i` is at `clock i`. -/
def readBatch (K : Params) (clock : Nat → Nat) : (count i : Nat) → TaskM F Unit
  | 0, _ => return ()
  | count + 1, i => do
    let s ← get
    let seqNum := s.1.first + s.1.result.length
    match ← onChain (getTransaction2 K seqNum (clock i)) with
    | none => modify setFinished
    | some row => do
      modify (pushBack row)
      readBatch K clock count (i + 1)

/-- The `catch` of `run`. -/
def catching (x : TaskM F Unit) : TaskM F Unit := fun s =>
  match x s with
  | .error (.thrown _) s' => .ok () (setFinished s')
  | r => r

def run (K : Params) (state : State) (clock : Nat → Nat) : TaskM F Unit := catching do
  let s ← get
  if !s.1.finished && decide (s.1.result.length + s.1.first < getTransactionCount state s.2) then
    readBatch K clock s.1.batchSize 0
  else modify setFinished

/-- The loop of `getTransactions`, as often as there are clocks. -/
def untilFinished (K : Params) (state : State) : List (Nat → Nat) → TaskM F Unit
  | [] => return ()
  | clock :: clocks => do
    let s ← get
    if s.1.finished then return ()
    else do
      run K state clock
      untilFinished K state clocks

/-- The constructor. -/
def constructed (first batchSize : Nat) : GetTransactionsTask F := ⟨first, batchSize, [], false⟩

end GetTransactionsTask

/-! ## The rows there are -/

/-- The rows `rs` are in `n` blocks, and `rc` are counted. -/
structure Serving (K : Params) (rs : Nat → Nat → Row F.Body) (rc n : Nat) (s : Blockchain F) :
    Prop where
  tiled : Tiled K s rs
  recCount_eq : s.recCount = rc
  length_eq : s.tiles.length = n

/-- How many rows can be read: those that are counted, as far as there are blocks. -/
def readable (rc n : Nat) : Nat := min rc (n * GRADIDO_BLOCK_SIZE)

/-- And how many the chain says it has. -/
def transactions (rc n : Nat) : Nat := if rc = 0 then 0 else rc - n

/-- `k` rows of the chain, from row `first` on. -/
def rowsFrom (K : Params) (rs : Nat → Nat → Row F.Body) (first k : Nat) : List (Row F.Body) :=
  (List.range k).map fun i => rowOf K rs (first + i)

section Serving

variable {K : Params} {rs : Nat → Nat → Row F.Body} {rc n : Nat} {s : Blockchain F}

theorem length_rowsFrom (K : Params) (rs : Nat → Nat → Row F.Body) (first k : Nat) :
    (rowsFrom K rs first k).length = k := by
  rw [rowsFrom, List.length_map, List.length_range]

theorem rowsFrom_succ (K : Params) (rs : Nat → Nat → Row F.Body) (first k : Nat) :
    rowsFrom K rs first (k + 1) = rowsFrom K rs first k ++ [rowOf K rs (first + k)] := by
  rw [rowsFrom, List.range_succ, List.map_append, List.map_singleton]
  rfl

theorem Serving.transactionCount (h : Serving K rs rc n s) :
    getTransactionCount .ready s = transactions rc n := by
  rw [getTransactionCount, if_neg (not_not.mpr rfl), getRecCount, getBlockCount, h.recCount_eq,
    h.length_eq, transactions]

theorem Serving.flush (h : Serving K rs rc n s) (now : Nat) :
    Serving K rs rc n (maybeFlushCache K now s) := by
  obtain ⟨-, hrec, -, hlen, -⟩ := maybeFlushCache_frame now
  exact ⟨h.tiled.flush now, hrec.trans h.recCount_eq, hlen.trans h.length_eq⟩

/-- A row that can be read is read. -/
theorem Serving.getTransaction2_row (h : Serving K rs rc n s)
    (hK : K.RecCount = GRADIDO_BLOCK_SIZE) {i : Nat} (hi : i < readable rc n) (now : Nat) :
    Returns (getTransaction2 K i now) s fun r s' =>
      r = some (rowOf K rs i) ∧ Serving K rs rc n s' := by
  obtain ⟨hcount, hbl⟩ := Nat.lt_min.mp hi
  have hb : i / GRADIDO_BLOCK_SIZE < s.tiles.length := by
    rw [h.length_eq]
    exact Nat.div_lt_of_lt_mul (by rw [Nat.mul_comm]; exact hbl)
  have hnot : ¬ getRecCount s ≤ i := by
    rw [getRecCount, h.recCount_eq]
    exact Nat.not_le.mpr hcount
  have hpos : 0 < GRADIDO_BLOCK_SIZE := by decide
  obtain ⟨r, s', heq, ⟨data, rfl, hda⟩, htl, -, -⟩ := h.tiled.getBlock hb now
  have hus : inUse (Blockchain.getBlock K (i / GRADIDO_BLOCK_SIZE) now s) = some s' := by
    rw [heq]
    rfl
  obtain ⟨hlen, hrec, -⟩ := getBlock_counters hus
  have hrow : getRecord K i now s = .ok (some (rowOf K rs i), .ok) s' := by
    have hmod : i % GRADIDO_BLOCK_SIZE < K.RecCount := by
      rw [hK]
      exact Nat.mod_lt i hpos
    rw [getRecord, get_bind, if_neg (show ¬ s.recCount ≤ i from hnot), bind_eq heq]
    dsimp only
    rw [if_pos hmod, hda _ hmod, rowOf, hK]
    rfl
  refine ⟨_, s', ?_, rfl, htl, hrec.trans h.recCount_eq, hlen.trans h.length_eq⟩
  rw [getTransaction2, get_bind, if_neg hnot, bind_eq hrow]
  rfl

/-- Where there is none, `get_transaction2` says no or throws. -/
theorem Serving.getTransaction2_none (h : Serving K rs rc n s) {i : Nat} (hi : readable rc n ≤ i)
    (now : Nat) :
    getTransaction2 K i now s = .ok none s ∨
      ∃ m s', getTransaction2 K i now s = .error (.thrown m) s' ∧ Serving K rs rc n s' := by
  rw [getTransaction2, get_bind]
  by_cases hcount : getRecCount s ≤ i
  · rw [if_pos hcount]
    exact .inl rfl
  · have hb : (maybeFlushCache K now s).tiles.length ≤ i / GRADIDO_BLOCK_SIZE := by
      rw [(h.flush now).length_eq]
      rw [getRecCount, h.recCount_eq] at hcount
      refine (Nat.le_div_iff_mul_le (by decide)).mpr ?_
      unfold readable at hi
      omega
    have hblock : Blockchain.getBlock K (i / GRADIDO_BLOCK_SIZE) now s
        = .error (.thrown "TileFile: index too large") (maybeFlushCache K now s) := by
      rw [Blockchain.getBlock, modify_bind, bind_error (onTile_outside _ hb)]
    have hrow : getRecord K i now s
        = .error (.thrown "TileFile: index too large") (maybeFlushCache K now s) := by
      rw [getRecord, get_bind, if_neg (show ¬ s.recCount ≤ i from hcount), bind_error hblock]
    rw [if_neg hcount, bind_error hrow]
    exact .inr ⟨_, _, rfl, h.flush now⟩

end Serving

/-! ## One run -/

namespace GetTransactionsTask

section Run

variable {K : Params} {rs : Nat → Nat → Row F.Body} {rc n : Nat} (first batchSize : Nat)
  {s : Blockchain F}

/-- A task that has read `k` rows. -/
def having (K : Params) (rs : Nat → Nat → Row F.Body) (first batchSize k : Nat) (finished : Bool) :
    GetTransactionsTask F :=
  ⟨first, batchSize, rowsFrom K rs first k, finished⟩

theorem onChain_ok {α : Type} {x : ChainM F α} {t : GetTransactionsTask F} {s s' : Blockchain F}
    {a : α} (h : x s = .ok a s') : onChain x (t, s) = .ok a (t, s') := by
  simp only [onChain, h]

theorem onChain_error {α : Type} {x : ChainM F α} {t : GetTransactionsTask F}
    {s s' : Blockchain F} {e : Fault} (h : x s = .error e s') :
    onChain x (t, s) = .error e (t, s') := by
  simp only [onChain, h]

section Read

variable {t : GetTransactionsTask F} {s' : Blockchain F} {clock : Nat → Nat} {count i : Nat}

theorem readBatch_row {row : Row F.Body}
    (h : getTransaction2 K (t.first + t.result.length) (clock i) s = .ok (some row) s') :
    readBatch K clock (count + 1) i (t, s)
      = readBatch K clock count (i + 1) ({ t with result := t.result ++ [row] }, s') := by
  rw [readBatch, get_bind]
  exact (bind_eq (onChain_ok h)).trans modify_bind

theorem readBatch_none
    (h : getTransaction2 K (t.first + t.result.length) (clock i) s = .ok none s') :
    readBatch K clock (count + 1) i (t, s) = .ok () ({ t with finished := true }, s') := by
  rw [readBatch, get_bind]
  exact bind_eq (onChain_ok h)

theorem readBatch_thrown {m : String}
    (h : getTransaction2 K (t.first + t.result.length) (clock i) s = .error (.thrown m) s') :
    readBatch K clock (count + 1) i (t, s) = .error (.thrown m) (t, s') := by
  rw [readBatch, get_bind]
  exact bind_error (onChain_error h)

end Read

theorem catching_congr {x y : TaskM F Unit} {s s' : GetTransactionsTask F × Blockchain F}
    (h : x s = y s') : catching x s = catching y s' := by
  rw [catching, catching, h]

/-- A batch: the task is finished if it goes beyond the rows there are. -/
theorem catching_readBatch (hK : K.RecCount = GRADIDO_BLOCK_SIZE) (clock : Nat → Nat)
    (count i : Nat) {k : Nat} (hk : k ≤ readable rc n - first) (hs : Serving K rs rc n s) :
    ∃ s', catching (readBatch K clock count i) (having K rs first batchSize k false, s)
        = .ok () (having K rs first batchSize (min (readable rc n - first) (k + count))
            (decide (readable rc n - first < k + count)), s') ∧ Serving K rs rc n s' := by
  have hpl : ∀ k, (having K rs first batchSize k false).first
      + (having K rs first batchSize k false).result.length = first + k := fun k =>
    congrArg (first + ·) (length_rowsFrom K rs first k)
  induction count generalizing i k s with
  | zero =>
    refine ⟨s, ?_, hs⟩
    rw [Nat.add_zero, Nat.min_eq_right hk, decide_eq_false (Nat.not_lt.mpr hk)]
    rfl
  | succ count ih =>
    rcases Nat.lt_or_ge k (readable rc n - first) with hlt | hge
    · -- one row more
      obtain ⟨_, s₁, hrow, rfl, hs₁⟩ :=
        hs.getTransaction2_row hK (i := first + k) (by omega) (clock i)
      obtain ⟨s₂, hre, hs₂⟩ := ih (i + 1) hlt hs₁
      refine ⟨s₂, ?_, hs₂⟩
      rw [show k + (count + 1) = k + 1 + count by omega, ← hre]
      refine catching_congr ?_
      rw [← hpl k] at hrow
      rw [readBatch_row hrow, hpl k, having, having, rowsFrom_succ]
    · -- there is none
      obtain rfl : k = readable rc n - first := by omega
      rw [Nat.min_eq_left (Nat.le_add_right _ _), decide_eq_true (by omega)]
      rcases hs.getTransaction2_none (i := first + (readable rc n - first)) (by omega) (clock i)
        with hno | ⟨m, s₁, hth, hs₁⟩
      · rw [← hpl (readable rc n - first)] at hno
        exact ⟨s, by rw [catching, readBatch_none hno]; rfl, hs⟩
      · rw [← hpl (readable rc n - first)] at hth
        exact ⟨s₁, by rw [catching, readBatch_thrown hth]; rfl, hs₁⟩

theorem run_more (hK : K.RecCount = GRADIDO_BLOCK_SIZE) (clock : Nat → Nat) {k : Nat}
    (hk : k ≤ readable rc n - first) (hs : Serving K rs rc n s)
    (hmo : k + first < transactions rc n) :
    ∃ s', run K .ready clock (having K rs first batchSize k false, s)
        = .ok () (having K rs first batchSize (min (readable rc n - first) (k + batchSize))
            (decide (readable rc n - first < k + batchSize)), s') ∧ Serving K rs rc n s' := by
  obtain ⟨s', hba, hs'⟩ := catching_readBatch first batchSize hK clock batchSize 0 hk hs
  refine ⟨s', ?_, hs'⟩
  rw [← hba, run]
  refine catching_congr ?_
  rw [get_bind, hs.transactionCount, having, length_rowsFrom, decide_eq_true hmo]
  rfl

theorem run_over (clock : Nat → Nat) {k : Nat} (hs : Serving K rs rc n s)
    (hov : transactions rc n ≤ k + first) :
    run K .ready clock (having K rs first batchSize k false, s)
      = .ok () (having K rs first batchSize k true, s) := by
  have hbo : run K .ready clock (having K rs first batchSize k false, s)
      = catching (modify setFinished) (having K rs first batchSize k false, s) := by
    rw [run]
    refine catching_congr ?_
    rw [get_bind, hs.transactionCount, having, length_rowsFrom,
      decide_eq_false (Nat.not_lt.mpr hov)]
    rfl
  rw [hbo]
  rfl

/-! ## All runs -/

/-- The number of rows when the task is finished: all batches that were begun, as far as there
are rows. -/
def fetchedCount (rc n first batchSize : Nat) : Nat :=
  min (readable rc n - first)
    ((transactions rc n - first + (batchSize - 1)) / batchSize * batchSize)

variable {first batchSize}

theorem fetchedCount_of_over {j : Nat} (hpos : 1 ≤ batchSize)
    (hj : j * batchSize ≤ readable rc n - first)
    (hbe : ∀ i < j, i * batchSize + first < transactions rc n)
    (hov : transactions rc n ≤ j * batchSize + first) :
    fetchedCount rc n first batchSize = j * batchSize := by
  have hba : (transactions rc n - first + (batchSize - 1)) / batchSize = j := by
    refine Nat.div_eq_of_lt_le ?_ ?_
    · cases j with
      | zero => rw [Nat.zero_mul]; exact Nat.zero_le _
      | succ j =>
        have hla := hbe j (Nat.lt_succ_self j)
        rw [Nat.succ_mul]
        omega
    · rw [Nat.succ_mul]
      omega
  rw [fetchedCount, hba, Nat.min_eq_right hj]

theorem fetchedCount_of_end {j : Nat} (hpos : 1 ≤ batchSize)
    (hmo : j * batchSize + first < transactions rc n)
    (hend : readable rc n - first < j * batchSize + batchSize) :
    fetchedCount rc n first batchSize = readable rc n - first := by
  have hba : j + 1 ≤ (transactions rc n - first + (batchSize - 1)) / batchSize := by
    refine (Nat.le_div_iff_mul_le hpos).mpr ?_
    rw [Nat.succ_mul]
    omega
  have hro := Nat.mul_le_mul_right batchSize hba
  rw [Nat.succ_mul] at hro
  exact Nat.min_eq_left (by omega)

theorem untilFinished_done {clocks : List (Nat → Nat)} {k : Nat} :
    untilFinished K .ready clocks (having K rs first batchSize k true, s)
      = .ok () (having K rs first batchSize k true, s) := by
  cases clocks with
  | nil | cons clock clocks => rfl

/-- After `j` batches: the task gets finished with its rows, or goes on. -/
theorem untilFinished_spec (hK : K.RecCount = GRADIDO_BLOCK_SIZE) (first : Nat)
    (hpos : 1 ≤ batchSize) (clocks : List (Nat → Nat)) {j : Nat}
    (hj : j * batchSize ≤ readable rc n - first)
    (hbe : ∀ i < j, i * batchSize + first < transactions rc n) (hs : Serving K rs rc n s) :
    ∃ k finished s', untilFinished K .ready clocks
        (having K rs first batchSize (j * batchSize) false, s)
          = .ok () (having K rs first batchSize k finished, s') ∧
      (finished = true → k = fetchedCount rc n first batchSize) ∧
      (finished = false → (j + clocks.length) * batchSize ≤ readable rc n - first) := by
  induction clocks generalizing j s with
  | nil => exact ⟨_, _, s, rfl, fun h => absurd h Bool.false_ne_true, fun _ => hj⟩
  | cons clock clocks ih =>
    have hne : untilFinished K .ready (clock :: clocks)
        (having K rs first batchSize (j * batchSize) false, s)
        = (run K .ready clock >>= fun _ => untilFinished K .ready clocks)
            (having K rs first batchSize (j * batchSize) false, s) := rfl
    rw [hne]
    rcases Nat.lt_or_ge (j * batchSize + first) (transactions rc n) with hmo | hov
    · obtain ⟨s₁, hrun, hs₁⟩ := run_more first batchSize hK clock hj hs hmo
      rw [bind_eq hrun]
      rcases Nat.lt_or_ge (readable rc n - first) (j * batchSize + batchSize) with hend | hroom
      · rw [decide_eq_true hend, untilFinished_done]
        refine ⟨_, _, s₁, rfl, fun _ => ?_, fun h => absurd h.symm Bool.false_ne_true⟩
        rw [fetchedCount_of_end hpos hmo hend]
        exact Nat.min_eq_left (Nat.le_of_lt hend)
      · rw [decide_eq_false (Nat.not_lt.mpr hroom), Nat.min_eq_right hroom, ← Nat.succ_mul]
        rw [← Nat.succ_mul] at hroom
        obtain ⟨k, finished, s', heq, hfin, hop⟩ := ih hroom (fun i hi => by
          rcases Nat.lt_succ_iff_lt_or_eq.mp hi with hi | rfl
          · exact hbe i hi
          · exact hmo) hs₁
        refine ⟨k, finished, s', heq, hfin, fun h => ?_⟩
        rw [List.length_cons, ← Nat.add_assoc, Nat.add_right_comm]
        exact hop h
    · rw [bind_eq (run_over first batchSize clock hs hov), untilFinished_done]
      exact ⟨_, _, s, rfl, fun _ => (fetchedCount_of_over hpos hj hbe hov).symm,
        fun h => absurd h.symm Bool.false_ne_true⟩

end Run

end GetTransactionsTask

/-! ## The whole tail -/

section WholeTail

open GetTransactionsTask

variable {K : Params} {rs : Nat → Nat → Row F.Body} {rc n first batchSize : Nat}
  {s : Blockchain F}

/-- The rows of a task that has finished. -/
def Fetches (K : Params) (s : Blockchain F) (first batchSize : Nat) (rows : List (Row F.Body)) :
    Prop :=
  ∃ clocks s', untilFinished K .ready clocks (constructed first batchSize, s) = .ok () s' ∧
    s'.1.finished = true ∧ s'.1.result = rows

/-- The PAYLOAD rows of all blocks. -/
def allPayloadRows (s : Blockchain F) : List (Row F.Body) :=
  (List.range s.tiles.length).flatMap fun b => payloadRows F (s.disk b)

/-- The task comes to its end, with rows that the size of the batches has no part in; and from the
first row on they are all there. -/
structure WholeTail (K : Params) (s : Blockchain F) (first : Nat) : Prop where
  finishes : ∀ batchSize, 1 ≤ batchSize → ∃ m, ∀ clocks : List (Nat → Nat), m ≤ clocks.length →
    Returns (untilFinished K .ready clocks) (constructed first batchSize, s) fun _ s' =>
      s'.1.finished = true
  same : ∀ batchSize batchSize', 1 ≤ batchSize → 1 ≤ batchSize' → ∀ rows rows',
    Fetches K s first batchSize rows → Fetches K s first batchSize' rows' → rows = rows'
  whole : first = 0 → ∀ batchSize, 1 ≤ batchSize → ∀ rows, Fetches K s first batchSize rows →
    (allPayloadRows s).Sublist rows

section

variable (hK : K.RecCount = GRADIDO_BLOCK_SIZE)
include hK

theorem untilFinished_start (hpos : 1 ≤ batchSize)
    (hs : Serving K rs rc n s) (first : Nat) (clocks : List (Nat → Nat)) :
    ∃ k finished s', untilFinished K .ready clocks (constructed first batchSize, s)
          = .ok () (having K rs first batchSize k finished, s') ∧
      (finished = true → k = fetchedCount rc n first batchSize) ∧
      (finished = false → clocks.length * batchSize ≤ readable rc n - first) := by
  have hsp := untilFinished_spec hK first hpos clocks
    (by rw [Nat.zero_mul]; exact Nat.zero_le _) (fun i hi => absurd hi (Nat.not_lt_zero i)) hs
  rw [Nat.zero_mul, Nat.zero_add] at hsp
  exact hsp

theorem untilFinished_finishes (hpos : 1 ≤ batchSize)
    (hs : Serving K rs rc n s) (first : Nat) (clocks : List (Nat → Nat))
    (hlen : readable rc n - first < clocks.length) :
    Returns (untilFinished K .ready clocks) (constructed first batchSize, s) fun _ s' =>
      s'.1.finished = true ∧
        s'.1.result = rowsFrom K rs first (fetchedCount rc n first batchSize) := by
  obtain ⟨k, finished, s', heq, hfin, hop⟩ := untilFinished_start hK hpos hs first clocks
  cases finished with
  | true =>
    refine ⟨_, _, heq, rfl, ?_⟩
    rw [← hfin rfl]
    rfl
  | false =>
    have hle := hop rfl
    have hge := Nat.le_mul_of_pos_right clocks.length hpos
    omega

theorem fetches_iff (hpos : 1 ≤ batchSize)
    (hs : Serving K rs rc n s) (first : Nat) (rows : List (Row F.Body)) :
    Fetches K s first batchSize rows ↔
      rows = rowsFrom K rs first (fetchedCount rc n first batchSize) := by
  constructor
  · rintro ⟨clocks, _, hca, hdo, rfl⟩
    obtain ⟨k, finished, s', heq, hfin, -⟩ := untilFinished_start hK hpos hs first clocks
    cases heq.symm.trans hca
    rw [← hfin hdo]
    rfl
  · rintro rfl
    obtain ⟨_, s', heq, hdo, hro⟩ := untilFinished_finishes hK hpos hs first
      (List.replicate (readable rc n - first + 1) fun _ => 0)
      (by rw [List.length_replicate]; exact Nat.lt_succ_self _)
    exact ⟨_, s', heq, hdo, hro⟩

theorem allPayloadRows_sublist (hs : Serving K rs rc n s) :
    (allPayloadRows s).Sublist (rowsFrom K rs 0 (n * GRADIDO_BLOCK_SIZE)) := by
  have hall : rowsFrom K rs 0 (n * GRADIDO_BLOCK_SIZE)
      = (List.range n).flatMap fun b => (List.range K.RecCount).map (rs b) := by
    rw [flatMap_full, hK, rowsFrom]
    exact List.map_congr_left fun i _ => congrArg (rowOf K rs) (Nat.zero_add i)
  rw [allPayloadRows, hs.length_eq, hall]
  refine List.Sublist.flatMap_right _ fun b hb => ?_
  have hlt : b < s.tiles.length := by
    rw [hs.length_eq]
    exact List.mem_range.mp hb
  rw [payloadRows, fileRows_stores (hs.tiled.stores hlt)]
  exact List.filter_sublist

end

theorem fetchedCount_zero (hpos : 1 ≤ batchSize) (h : transactions rc n ≤ first) :
    fetchedCount rc n first batchSize = 0 := by
  refine (fetchedCount_of_over hpos ?_ ?_ ?_).trans (Nat.zero_mul batchSize)
  · rw [Nat.zero_mul]
    exact Nat.zero_le _
  · exact fun i hi => absurd hi (Nat.not_lt_zero i)
  · rw [Nat.zero_mul, Nat.zero_add]
    exact h

theorem fetchedCount_all (hpos : 1 ≤ batchSize) (h : readable rc n ≤ transactions rc n) :
    fetchedCount rc n first batchSize = readable rc n - first := by
  have hsp := Nat.div_add_mod' (transactions rc n - first + (batchSize - 1)) batchSize
  have hmod := Nat.mod_lt (transactions rc n - first + (batchSize - 1)) hpos
  exact Nat.min_eq_left (by omega)

/-- **The whole tail.**  A task on a READY chain of a group does what it is for, just if it asks
for nothing that is counted, or the rows in the files end before the count does. -/
theorem wholeTail_iff (K : Params) (hK : K.RecCount = GRADIDO_BLOCK_SIZE) (s : Blockchain F)
    (h : Ready K s) (first : Nat) :
    WholeTail K s first ↔ getTransactionCount .ready s ≤ first ∨
      s.tiles.length * GRADIDO_BLOCK_SIZE ≤ getTransactionCount .ready s := by
  obtain ⟨rs, htl⟩ := h.tiled
  have hs : Serving K rs s.recCount s.tiles.length s := ⟨htl, rfl, rfl⟩
  have hcn := h.counted
  rw [hs.transactionCount]
  have hcount : transactions s.recCount s.tiles.length = s.recCount - s.tiles.length := by
    unfold transactions
    split
    · omega
    · rfl
  generalize s.recCount = rc at *
  generalize s.tiles.length = n at *
  constructor
  · intro hwh
    by_contra hno
    obtain ⟨hfi, hbl⟩ := not_or.mp hno
    have hso : n ≠ 0 := by
      rintro rfl
      rw [Nat.zero_mul] at hbl
      exact hbl (Nat.zero_le _)
    have hre : transactions rc n < readable rc n := Nat.lt_min.mpr ⟨by omega, Nat.not_le.mp hbl⟩
    -- one by one, and all at once
    have hone : fetchedCount rc n first 1 = transactions rc n - first := by
      rw [fetchedCount_of_over (j := transactions rc n - first) (Nat.le_refl 1) (by omega)
        (fun i hi => by omega) (by omega), Nat.mul_one]
    have hall : fetchedCount rc n first (readable rc n + 1) = readable rc n - first :=
      fetchedCount_of_end (j := 0) (by omega) (by omega) (by omega)
    have hsa := hwh.same 1 (readable rc n + 1) (Nat.le_refl 1) (by omega) _ _
      ((fetches_iff hK (Nat.le_refl 1) hs first _).mpr rfl)
      ((fetches_iff hK (by omega) hs first _).mpr rfl)
    have hln := congrArg List.length hsa
    rw [length_rowsFrom, length_rowsFrom, hone, hall] at hln
    omega
  · intro hco
    refine ⟨fun batchSize hpos => ⟨readable rc n - first + 1, fun clocks hlen => ?_⟩, ?_, ?_⟩
    · refine (untilFinished_finishes hK hpos hs first clocks (by omega)).mono ?_
      exact fun _ _ hdo => hdo.1
    · intro batchSize batchSize' hpos hpos' rows rows' hro hro'
      rw [(fetches_iff hK hpos hs first rows).mp hro, (fetches_iff hK hpos' hs first rows').mp hro']
      rcases hco with hov | hend
      · rw [fetchedCount_zero hpos hov, fetchedCount_zero hpos' hov]
      · have hle : readable rc n ≤ transactions rc n := Nat.le_trans (Nat.min_le_right _ _) hend
        rw [fetchedCount_all hpos hle, fetchedCount_all hpos' hle]
    · rintro rfl batchSize hpos rows hro
      obtain rfl := (fetches_iff hK hpos hs 0 rows).mp hro
      have hpa := allPayloadRows_sublist hK hs
      rcases hco with hov | hend
      · obtain rfl : n = 0 := by omega
        rw [Nat.zero_mul] at hpa
        rw [List.sublist_nil.mp hpa]
        exact List.nil_sublist _
      · have hle : readable rc n ≤ transactions rc n := Nat.le_trans (Nat.min_le_right _ _) hend
        have hre : readable rc n = n * GRADIDO_BLOCK_SIZE := Nat.min_eq_right (by omega)
        rw [fetchedCount_all hpos hle, Nat.sub_zero, hre]
        exact hpa

/-- Nothing is asked for behind the one payload there is. -/
theorem wholeTail_behind :
    ∃ s : Blockchain (digestFormat Nat), Ready groupParams s ∧ s.tiles.length = 1 ∧
      WholeTail groupParams s 1 := by
  obtain ⟨s, h, hk⟩ := exists_ready (digestFormat Nat) groupParams [7]
  have hcount : getTransactionCount .ready s ≤ 1 := by
    rw [getTransactionCount, getRecCount, getBlockCount, hk.recCount_eq, hk.tiles_length]
    decide
  exact ⟨s, h, hk.tiles_length, (wholeTail_iff groupParams rfl s h 1).mpr (.inl hcount)⟩

/-! ## Chains of payloads -/

variable {ps : List T} {cs : Nat → F.Checksum}

theorem serving_of_holds (h : Holds K s ps cs) :
    Serving K (fun b => blockRows F (chunk K ps b) (cs b)) (rowCount K ps.length)
      (blockCount K ps.length) s :=
  ⟨h.tile, h.recCount_eq, h.tiles_length⟩

theorem allPayloadRows_holds (h : Holds K s ps cs) : allPayloadRows s = ps.map F.payloadRow := by
  have hbl : allPayloadRows s
      = ((List.range s.tiles.length).flatMap (chunk K ps)).map F.payloadRow := by
    rw [List.map_flatMap]
    exact List.flatMap_congr fun b hb => h.payloadRows_eq (List.mem_range.mp hb)
  rw [hbl, flatMap_chunk, List.take_of_length_le h.length_le]

/-- One by one, as many rows are fetched as there are payloads. -/
theorem fetches_one (hK : K.RecCount = GRADIDO_BLOCK_SIZE) (h : Holds K s ps cs)
    (rows : List (Row F.Body)) :
    Fetches K s 0 1 rows ↔
      rows = rowsFrom K (fun b => blockRows F (chunk K ps b) (cs b)) 0 ps.length := by
  have hle := rowCount_le K ps.length
  rw [fetches_iff hK (Nat.le_refl 1) (serving_of_holds h)]
  have hro : rowCount K ps.length = ps.length + blockCount K ps.length := rfl
  have hcount : transactions (rowCount K ps.length) (blockCount K ps.length) = ps.length := by
    unfold transactions
    split <;> omega
  have hfe : fetchedCount (rowCount K ps.length) (blockCount K ps.length) 0 1 = ps.length := by
    have hre : ps.length ≤ readable (rowCount K ps.length) (blockCount K ps.length) :=
      Nat.le_min.mpr ⟨by omega, by rw [← hK]; omega⟩
    rw [fetchedCount_of_over (j := ps.length) (Nat.le_refl 1) (by omega)
      (fun i hi => by omega) (by omega), Nat.mul_one]
  rw [hfe]

/-- Row 999 of a chain that has more payloads than one block takes. -/
theorem rowOf_checksum (hK : K.RecCount = GRADIDO_BLOCK_SIZE) (hlong : 999 < ps.length) :
    rowOf K (fun b => blockRows F (chunk K ps b) (cs b)) 999 = F.checksumRow (cs 0) := by
  have hlen : (chunk K ps 0).length = 999 := by
    rw [chunk, List.length_take, Nat.zero_mul, List.drop_zero, perBlock, hK]
    exact Nat.min_eq_left (Nat.le_of_lt hlong)
  rw [rowOf, hK]
  show blockRows F (chunk K ps 0) (cs 0) 999 = _
  rw [← hlen, blockRows_length]

/-- From the second block on the rows that are fetched one by one are not all: a checksum is
among them, in the place of a payload. -/
theorem payload_missed (hK : K.RecCount = GRADIDO_BLOCK_SIZE) (h : Holds K s ps cs)
    (hbl : 2 ≤ s.tiles.length) {rows : List (Row F.Body)} (hro : Fetches K s 0 1 rows) :
    ¬ (allPayloadRows s).Sublist rows := by
  intro hsub
  have hlong : 999 < ps.length := by
    have hper : perBlock K = 999 := by rw [perBlock, hK]; rfl
    rw [h.tiles_length, blockCount, hper] at hbl
    split at hbl <;> omega
  obtain rfl := (fetches_one hK h rows).mp hro
  rw [allPayloadRows_holds h] at hsub
  have hsa := hsub.eq_of_length (by rw [List.length_map, length_rowsFrom])
  have hmem : F.checksumRow (cs 0) ∈ ps.map F.payloadRow := by
    rw [hsa, rowsFrom]
    refine List.mem_map.mpr ⟨999, List.mem_range.mpr hlong, ?_⟩
    rw [Nat.zero_add]
    exact rowOf_checksum hK hlong
  obtain ⟨p, -, hp⟩ := List.mem_map.mp hmem
  have htype := congrArg Row.type hp
  rw [F.payloadRow_type, F.checksumRow_type] at htype
  exact absurd htype (by decide)

/-- A block of one payload: in batches of two, the checksum is fetched with it.  Two blocks: one
by one, a payload is missing. -/
theorem batchSize_seen :
    (∃ s : Blockchain (digestFormat Nat), Ready groupParams s ∧ s.tiles.length = 1 ∧
      ∃ rows rows', Fetches groupParams s 0 1 rows ∧ Fetches groupParams s 0 2 rows' ∧
        rows.length = 1 ∧ rows'.length = 2) ∧
    ∃ s : Blockchain (digestFormat Nat), Ready groupParams s ∧ s.tiles.length = 2 ∧
      ∃ rows, Fetches groupParams s 0 1 rows ∧ ¬ (allPayloadRows s).Sublist rows := by
  constructor
  · obtain ⟨s, h, hk⟩ := exists_ready (digestFormat Nat) groupParams [7]
    obtain ⟨cs, hcs⟩ := hk.holds
    refine ⟨s, h, hk.tiles_length, _, _,
      (fetches_iff rfl (Nat.le_refl 1) (serving_of_holds hcs) 0 _).mpr rfl,
      (fetches_iff rfl (by decide) (serving_of_holds hcs) 0 _).mpr rfl, ?_, ?_⟩
    · rw [length_rowsFrom]
      decide
    · rw [length_rowsFrom]
      decide
  · obtain ⟨s, h, hk⟩ := exists_ready (digestFormat Nat) groupParams (List.replicate 1000 7)
    obtain ⟨cs, hcs⟩ := hk.holds
    have hlen : s.tiles.length = 2 := by
      rw [hk.tiles_length, List.length_replicate]
      decide
    have hro := (fetches_one rfl hcs _).mpr rfl
    exact ⟨s, h, hlen, _, hro, payload_missed rfl hcs (Nat.le_of_eq hlen.symm) hro⟩

end WholeTail

end GradidoNode.Base
