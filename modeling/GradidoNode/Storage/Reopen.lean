/-
# `GradidoNode.Storage.Reopen` — an object destroyed and constructed again on its folder

A chain is reopened by constructing a new object on the folder and calling
`validate_next_checksum` until it returns false.  How many tiles the new object has
is a matter of the folder: `Fnr::get_file_count` goes through its entries, in the
order the directory iteration gives them, and returns one more than the largest
number of a block file.

* **Row layout** (`run_rowLayout`).  However appends, reads, flushes and reopenings
  alternate, the rows stay where they were put: a chain that `append` wrote is
  accepted block by block, and the new object holds the same payloads (`reopened`).

* **Truncation** (`truncate_reopen_iff`).  `truncate(k)` shortens the vector of tiles
  and leaves the files, so a new object has them again, unless appends have written
  over them meanwhile.  How many blocks `m` appends begin depends on `rec_count`,
  which `truncate` leaves alone as well (`blocksAdded`).
-/
import GradidoNode.Storage.Keeps
import GradidoNode.Storage.Scan

namespace GradidoNode.Blockchain

open FileTile Lib

variable {T : Type} {F : RowFormat T} {K : Params} {s s' : Blockchain F} {ps : List T}
  {cs : Nat → F.Checksum}

/-! ## The files of a folder -/

def isFile {Body : Type} : Entry Body → Bool
  | .regular _ => true
  | _ => false

/-- `Fnr::get_file_count`, over the block numbers in the order the iteration over the
folder meets them. -/
def getFileCount {Body : Type} (listing : List Nat) (disk : Nat → Entry Body) : Nat :=
  listing.foldl
    (fun res blockNum => if isFile (disk blockNum) && decide (res ≤ blockNum) then blockNum + 1
      else res) 0

/-- The iteration meets every block file. -/
def Lists {Body : Type} (listing : List Nat) (disk : Nat → Entry Body) : Prop :=
  ∀ b, isFile (disk b) = true → b ∈ listing

variable {Body : Type} {listing : List Nat} {disk : Nat → Entry F.Body} {n b : Nat}
  {rs : Nat → Nat → Row F.Body} {r : Nat → Row F.Body} {K : Params}

/-- The count is the least number above those of all files. -/
theorem getFileCount_le_iff {disk : Nat → Entry Body} :
    getFileCount listing disk ≤ n ↔ ∀ b ∈ listing, isFile (disk b) = true → b < n := by
  suffices fold : ∀ (l : List Nat) (res : Nat), l.foldl (fun res blockNum =>
      if isFile (disk blockNum) && decide (res ≤ blockNum) then blockNum + 1 else res) res ≤ n ↔
        res ≤ n ∧ ∀ b ∈ l, isFile (disk b) = true → b < n by
    rw [getFileCount, fold, and_iff_right (Nat.zero_le n)]
  intro l
  induction l with
  | nil => simp
  | cons b l ih =>
    intro res
    rw [List.foldl_cons, ih, List.forall_mem_cons, ← and_assoc]
    refine and_congr_left fun _ => ?_
    cases isFile (disk b) with
    | false => simp
    | true =>
      by_cases hle : res ≤ b
      · simp only [hle, decide_true, Bool.and_true, if_true, true_imp_iff]
        omega
      · simp only [hle, decide_false, Bool.and_false, Bool.false_eq_true, if_false]
        omega

theorem lt_getFileCount {disk : Nat → Entry Body} (hb : b ∈ listing)
    (hfi : isFile (disk b) = true) : b < getFileCount listing disk :=
  getFileCount_le_iff.mp (Nat.le_refl _) b hb hfi

theorem getFileCount_eq {disk : Nat → Entry Body}
    (hli : Lists listing disk) (hbe : ∀ b, isFile (disk b) = true → b < n)
    (hla : 0 < n → isFile (disk (n - 1)) = true) : getFileCount listing disk = n := by
  refine Nat.le_antisymm (getFileCount_le_iff.mpr fun b _ => hbe b) ?_
  rcases Nat.eq_zero_or_pos n with rfl | hpos
  · exact Nat.zero_le _
  · have hlt := lt_getFileCount (hli _ (hla hpos)) (hla hpos)
    omega

theorem isFile_stores {N : Nat} {e : Entry Body} {rs : Nat → Row Body}
    (h : Stores N e rs) : isFile e = true := by
  obtain ⟨f, rfl, -⟩ := h
  rfl

/-- The files of the folder are the blocks of the object, and in order. -/
structure OnDisk (K : Params) (s : Blockchain F) : Prop where
  tiled : ∃ rs, Tiled K s rs
  files : ∀ b, isFile (s.disk b) = true → b < s.tiles.length

theorem Tiled.isFile (h : Tiled K s rs) (hb : b < s.tiles.length) : isFile (s.disk b) = true :=
  isFile_stores (h b _ (List.getElem?_eq_getElem hb)).1

theorem OnDisk.getFileCount_eq (h : OnDisk K s) (hl : Lists listing s.disk) :
    getFileCount listing s.disk = s.tiles.length := by
  obtain ⟨rs, ht⟩ := h.tiled
  exact Blockchain.getFileCount_eq hl h.files fun hpos => ht.isFile (by omega)

/-! ## Reopening -/

/-- `validate_next_checksum` called until it returns false, at the given times. -/
def validateUntilFalse (K : Params) : List Nat → ChainM F (List Bool)
  | [] => return []
  | now :: times => do
    let r ← validateNextChecksum K now
    if r.1 then return true :: (← validateUntilFalse K times) else return [false]

/-- The object destroyed, a new one constructed on its folder and validated. -/
def reopen (K : Params) (listing times : List Nat) (s : Blockchain F) : Option (Blockchain F) :=
  match validateUntilFalse K times (create K s.disk (getFileCount listing s.disk)) with
  | .ok results s' => if results.getLast? = some false then some s' else none
  | .error _ _ => none

/-- Over a folder of well-shaped blocks it returns true for each of them and then false, if the
times suffice. -/
theorem Scanned.validateUntilFalse {fc : Nat}
    (hsh : ∀ b < fc, WellShaped (rowTypes K (entryRows F (disk b)))) :
    ∀ (times : List Nat) (i : Nat) (s : Blockchain F), i ≤ fc → Scanned K disk fc i s →
      Unread i s → Returns (validateUntilFalse K times) s fun results s' =>
        (results = List.replicate (fc - i) true ++ [false] ∧ Scanned K disk fc fc s') ∨
          (times.length ≤ fc - i ∧ results = List.replicate times.length true) := by
  intro times
  induction times with
  | nil =>
    intro i s _ _ _
    exact .pure (.inr ⟨Nat.zero_le _, rfl⟩)
  | cons now times ih =>
    intro i s hi h hun
    rcases Nat.lt_or_eq_of_le hi with hlt | rfl
    · refine .bind ((h.validate hlt (hsh i hlt)
        (hun.nextClosed (Nat.le_of_eq h.valid_eq.symm) now)).mono ?_)
      rintro r s' ⟨rfl, h', hun'⟩
      refine .bind ((ih (i + 1) s' hlt h' (hun' hun)).mono ?_)
      have hsub : fc - i = fc - (i + 1) + 1 := by omega
      rintro results s'' (⟨rfl, h''⟩ | ⟨hle, rfl⟩)
      · refine .pure (.inl ⟨?_, h''⟩)
        rw [hsub, List.replicate_succ, List.cons_append]
      · refine .pure (.inr ⟨?_, List.replicate_succ.symm⟩)
        rw [List.length_cons]
        omega
    · refine .bind ⟨_, _, h.validateDone now, .pure (.inl ⟨?_, h.flush now⟩)⟩
      rw [Nat.sub_self]
      rfl

/-! ## A chain that `append` wrote -/

theorem rowTypes_congr {r' : Nat → Row F.Body} (h : ∀ j < K.RecCount, r j = r' j) :
    rowTypes K r = rowTypes K r' :=
  List.map_congr_left fun j hj => by rw [h j (List.mem_range.mp hj)]

/-- The rows in use of a block are its payloads and the checksum. -/
theorem blockRecCount_blockRows {l : List T} {c : F.Checksum}
    (hr : ∀ j < K.RecCount, r j = blockRows F l c j) (hl : l.length < K.RecCount) :
    blockRecCount K r = l.length + 1 := by
  have hty : rowTypes K (blockRows F l c) = l.map (fun _ => RecordType.payload)
      ++ RecordType.checksum :: List.replicate (K.RecCount - l.length - 1) RecordType.empty := by
    have hmap := congrArg (List.map Row.type) (map_blockRows (c := c) hl)
    rw [List.map_map, List.map_append, List.map_map, List.map_cons, List.map_replicate] at hmap
    exact hmap
  have hpay : ∀ x ∈ l.map (fun _ => RecordType.payload), decide (x ≠ RecordType.empty) = true := by
    intro x hx
    obtain ⟨p, -, rfl⟩ := List.mem_map.mp hx
    decide
  rw [blockRecCount, rowTypes_congr hr, hty, List.takeWhile_append_of_pos hpay,
    List.takeWhile_cons_of_pos (by decide), List.length_append, List.length_map, List.length_cons]
  cases K.RecCount - l.length - 1 <;> rfl

theorem sum_chunks (K : Params) (ps : List T) :
    ((List.range (blockCount K ps.length)).map fun b => (chunk K ps b).length + 1).sum
      = rowCount K ps.length := by
  have split : ∀ l : List Nat, (l.map fun b => (chunk K ps b).length + 1).sum
      = (l.flatMap (chunk K ps)).length + l.length := by
    intro l
    induction l with
    | nil => rfl
    | cons b l ih =>
      rw [List.map_cons, List.sum_cons, ih, List.flatMap_cons, List.length_append, List.length_cons]
      omega
  have hle := rowCount_le K ps.length
  rw [rowCount, ← perBlock_add_one K, Nat.mul_add, Nat.mul_one] at hle
  rw [split, flatMap_chunk, List.take_of_length_le (by omega), List.length_range, rowCount]

/-- The new object holds what the old one held. -/
theorem Scanned.holds (h : Holds K s ps cs)
    (hs : Scanned K s.disk s.tiles.length s.tiles.length s') : Holds K s' ps cs := by
  have hro : ∀ b < s.tiles.length, ∀ j < K.RecCount,
      entryRows F (s.disk b) j = blockRows F (chunk K ps b) (cs b) j := by
    intro b hb
    obtain ⟨d, -, hsy⟩ := h.desc hb
    exact entryRows_stores hsy.1
  refine ⟨?_, hs.length_eq.trans h.tiles_length, hs.valid_eq.trans hs.length_eq.symm, ?_, hs.last rfl⟩
  · rw [hs.recCount_eq, ← sum_chunks, ← h.tiles_length]
    refine congrArg List.sum (List.map_congr_left fun b hb => ?_)
    exact blockRecCount_blockRows (hro b (List.mem_range.mp hb)) (chunk_length_lt K ps b)
  · intro b d hd
    have hb : b < s.tiles.length := by
      rw [← hs.length_eq]
      exact (List.getElem?_eq_some_iff.mp hd).1
    obtain ⟨hst, hh⟩ := hs.tiled b d hd
    exact ⟨hst.congr (hro b hb), hh.congr (hro b hb)⟩

/-- A chain of the payloads `ps` whose blocks are all the files there are. -/
structure Written (K : Params) (s : Blockchain F) (ps : List T) : Prop where
  holds : ∃ cs, Holds K s ps cs
  files : ∀ b, isFile (s.disk b) = true → b < s.tiles.length

theorem Written.onDisk (h : Written K s ps) : OnDisk K s := by
  obtain ⟨cs, hcs⟩ := h.holds
  exact ⟨⟨_, hcs.tile⟩, h.files⟩

/-- Every block of a chain that `append` wrote is validated again, and the chain is the same. -/
theorem Written.validated (h : Written K s ps) (hl : Lists listing s.disk) (times : List Nat) :
    Returns (validateUntilFalse K times) (create K s.disk (getFileCount listing s.disk))
      fun results s' =>
        (results = List.replicate s.tiles.length true ++ [false] ∧ Written K s' ps) ∨
          (times.length ≤ s.tiles.length ∧ results = List.replicate times.length true) := by
  obtain ⟨cs, hcs⟩ := h.holds
  rw [h.onDisk.getFileCount_eq hl]
  have hacc : ∀ b < s.tiles.length, Accepted K (s.disk b) := fun b hb => hcs.accepted hb
  refine (Scanned.validateUntilFalse (fun b hb => (hacc b hb).wellShaped) times 0 _
    (Nat.zero_le _) (create_scanned fun b hb => (hacc b hb).1) (create_unread _ _)).mono ?_
  rintro results s' (⟨rfl, hs'⟩ | hfew)
  · refine .inl ⟨rfl, ⟨cs, hs'.holds hcs⟩, ?_⟩
    rw [hs'.disk_eq, hs'.length_eq]
    exact h.files
  · exact .inr hfew

theorem Written.reopened (h : Written K s ps) {times : List Nat} (hl : Lists listing s.disk)
    (hs : reopen K listing times s = some s') : Written K s' ps := by
  obtain ⟨results, s₁, heq, hca⟩ := h.validated hl times
  unfold reopen at hs
  rw [heq] at hs
  obtain ⟨hfa, hs⟩ := Option.ite_none_right_eq_some.mp hs
  cases hs
  rcases hca with ⟨-, h'⟩ | ⟨-, rfl⟩
  · exact h'
  · -- the loop has not come to its end
    rw [List.getLast?_replicate] at hfa
    split at hfa <;> cases hfa

/-! ## Row layout -/

/-- The calls of a run. -/
inductive LayoutOp (T : Type) where
  | call (op : ChainOp T)
  | reopen (listing times : List Nat)

/-- One call; a reopening that does not come to its end ends the run. -/
def layoutStep (K : Params) (s : Blockchain F) : LayoutOp T → Option (Blockchain F)
  | .call op => opStep K s op
  | .reopen listing times => reopen K listing times s

/-- What is assumed of the iteration over a folder: it meets every file. -/
def Listed (s : Blockchain F) : LayoutOp T → Prop
  | .call _ => True
  | .reopen listing _ => Lists listing s.disk

/-- The payload a call appends. -/
def appendedBy : LayoutOp T → Option T
  | .call (.append p _) => some p
  | _ => none

/-- The payloads a run appends, in order. -/
def appended (ops : List (LayoutOp T)) : List T := ops.filterMap appendedBy

theorem Written.call (h : Written K s ps) {op : ChainOp T} (hs : opStep K s op = some s') :
    Written K s' (ps ++ (appendedBy (.call op)).toList) := by
  obtain ⟨cs, hcs⟩ := h.holds
  obtain ⟨hun, hca⟩ := opStep_cases hcs hs
  have hfi : s.tiles.length ≤ s'.tiles.length →
      ∀ b, isFile (s'.disk b) = true → b < s'.tiles.length := by
    intro hlen b hb
    by_contra hge
    rw [hun b (Nat.not_lt.mp hge)] at hb
    exact hge (Nat.lt_of_lt_of_le (h.files b hb) hlen)
  rcases hca with ⟨hot, h'⟩ | ⟨p, now, rfl, h'⟩
  · have hlen : s.tiles.length = s'.tiles.length := by rw [hcs.tiles_length, h'.tiles_length]
    have hno : appendedBy (.call op) = none := by
      cases op with
      | append p now => exact absurd rfl (hot p now)
      | getBlock i now | getRecord i now | flushCache now => rfl
    rw [hno, Option.toList_none, List.append_nil]
    exact ⟨⟨cs, h'⟩, hfi (Nat.le_of_eq hlen)⟩
  · exact ⟨⟨_, h'⟩, hfi (hcs.length_mono h')⟩

theorem Written.run {ops : List (LayoutOp T)} (h : Written K s ps)
    (hli : Along (layoutStep K) Listed s ops) (hrun : run (layoutStep K) s ops = some s') :
    Written K s' (ps ++ appended ops) := by
  induction ops generalizing s ps with
  | nil =>
    cases hrun
    rwa [appended, List.filterMap_nil, List.append_nil]
  | cons op ops ih =>
    obtain ⟨s₁, hs₁, hre⟩ := run_cons hrun
    have h₁ : Written K s₁ (ps ++ (appendedBy op).toList) := by
      cases op with
      | call op => exact h.call hs₁
      | reopen listing times =>
        rw [show appendedBy (.reopen listing times : LayoutOp T) = none from rfl,
          Option.toList_none, List.append_nil]
        exact h.reopened hli.1 hs₁
    have happ : appended (op :: ops) = (appendedBy op).toList ++ appended ops := by
      unfold appended
      cases hop : appendedBy op with
      | none => rw [List.filterMap_cons_none hop]; rfl
      | some p => rw [List.filterMap_cons_some hop]; rfl
    rw [happ, ← List.append_assoc]
    exact ih h₁ (hli.2 s₁ hs₁) hre

/-- The number of blocks is the number of payloads by the payloads of a block, rounded up. -/
theorem blockCount_eq_ceil (K : Params) (n : Nat) :
    blockCount K n = (n + (K.RecCount - 2)) / (K.RecCount - 1) := by
  have hpos := perBlock_pos K
  have hn := Nat.div_add_mod n (perBlock K)
  have hlt := Nat.mod_lt n hpos
  have hper := perBlock_add_one K
  rw [show K.RecCount - 1 = perBlock K by omega, show K.RecCount - 2 = perBlock K - 1 by omega,
    blockCount]
  conv_rhs => rw [← hn, Nat.add_assoc, Nat.mul_add_div hpos]
  congr 1
  split
  · next h0 => rw [h0, Nat.zero_add, Nat.div_eq_of_lt (by omega)]
  · next h0 =>
    refine (Nat.div_eq_of_lt_le ?_ ?_).symm
    · rw [Nat.one_mul]
      omega
    · omega

theorem written_create (hno : ∀ b, isFile (disk b) = false) : Written K (create K disk 0) [] := by
  refine ⟨⟨fun _ => F.zero, holds_nil rfl rfl rfl _⟩, fun b hb => ?_⟩
  rw [show (create K disk 0).disk b = disk b from rfl, hno] at hb
  cases hb

/-- **Row layout.**  From a folder without block files, after any run of appends, reads,
flushes and reopenings: the number of blocks, the number of rows, how a reopening goes, and
the rows of each block. -/
theorem run_rowLayout (K : Params) (disk : Nat → Entry F.Body) (hnone : ∀ b, isFile (disk b) = false)
    (ops : List (LayoutOp T)) (hlist : Along (layoutStep K) Listed (create K disk 0) ops)
    (s : Blockchain F) (hrun : run (layoutStep K) (create K disk 0) ops = some s) :
    getBlockCount s = ((appended ops).length + (K.RecCount - 2)) / (K.RecCount - 1) ∧
    getRecCount s = (appended ops).length + getBlockCount s ∧
    (∀ listing times, Lists listing s.disk → getBlockCount s < times.length →
      Returns (validateUntilFalse K times) (create K s.disk (getFileCount listing s.disk))
        fun results _ => results = List.replicate (getBlockCount s) true ++ [false]) ∧
    ∀ b < getBlockCount s, ∀ now, Returns (getBlock K b now) s fun r _ =>
      let payloads := ((appended ops).drop (b * (K.RecCount - 1))).take (K.RecCount - 1)
      ∃ rows c, r = (some rows, .ok) ∧ (List.range K.RecCount).map rows = payloads.map F.payloadRow
          ++ F.checksumRow c :: List.replicate (K.RecCount - payloads.length - 1) F.blankRow := by
  have h : Written K s (appended ops) := (written_create hnone).run hlist hrun
  obtain ⟨cs, hcs⟩ := h.holds
  have hcount : getBlockCount s = blockCount K (appended ops).length := hcs.tiles_length
  refine ⟨hcount.trans (blockCount_eq_ceil K _), ?_, ?_, ?_⟩
  · rw [hcount]
    exact hcs.recCount_eq
  · intro listing times hl hlt
    refine (h.validated hl times).mono ?_
    rintro results s' (⟨hre, -⟩ | ⟨hle, -⟩)
    · exact hre
    · exact absurd hlt (Nat.not_lt.mpr hle)
  · intro b hb now
    refine (getBlock_holds hcs hb now).mono ?_
    rintro r s' ⟨⟨rows, rfl, hro⟩, -⟩
    refine ⟨rows, cs b, rfl, ?_⟩
    rw [List.map_congr_left fun j hj => hro j (List.mem_range.mp hj)]
    exact map_blockRows (chunk_length_lt K (appended ops) b)

/-- A row, the object reopened, another row. -/
theorem run_rowLayout_reopened :
    let ops : List (LayoutOp Nat) := [.call (.append 7 0), .reopen [0] [0, 0], .call (.append 8 0)]
    ∃ s, run (layoutStep (F := digestFormat Nat) fourRows) (create fourRows (fun _ => .missing) 0) ops
        = some s ∧ getBlockCount s = 1 ∧ getRecCount s = 3 := by
  intro ops
  obtain ⟨s, hs⟩ := Option.isSome_iff_exists.mp
    (show (run (layoutStep (F := digestFormat Nat) fourRows)
      (create fourRows (fun _ => .missing) 0) ops).isSome from by decide)
  refine ⟨s, hs, ?_⟩
  have hli : Along (layoutStep fourRows) Listed
      (create (F := digestFormat Nat) fourRows (fun _ => .missing) 0) ops := by
    refine ⟨trivial, fun s₁ hs₁ => ⟨?_, fun s₂ _ => ⟨trivial, fun _ _ => trivial⟩⟩⟩
    -- the one block is the one file
    have h₀ : Written fourRows (create (F := digestFormat Nat) fourRows (fun _ => .missing) 0) [] :=
      written_create fun _ => rfl
    have hs₁ : opStep fourRows (create fourRows (fun _ => .missing) 0)
      (.append 7 0) = some s₁ := hs₁
    have h₁ : Written fourRows s₁ [7] := h₀.call hs₁
    obtain ⟨cs, hcs⟩ := h₁.holds
    intro b hb
    have hlt : b < 1 := Nat.lt_of_lt_of_eq (h₁.files b hb) hcs.tiles_length
    rw [List.mem_singleton]
    omega
  obtain ⟨hbl, hro, -⟩ := run_rowLayout fourRows _ (fun _ => rfl) ops hli s hs
  have hone : getBlockCount s = 1 := hbl.trans (by decide)
  exact ⟨hone, by rw [hro, hone]; rfl⟩

/-! ## Truncation -/

/-- The blocks that `m` appends begin on an object with `recCount` rows: those that fill the
last block begin none, the others one for every `RecCount - 1` of them. -/
def blocksAdded (K : Params) (recCount m : Nat) : Nat :=
  (m - (K.RecCount - recCount % K.RecCount) % K.RecCount + (K.RecCount - 2)) / (K.RecCount - 1)

theorem blocksAdded_zero (K : Params) (n : Nat) : blocksAdded K n 0 = 0 := by
  have hpos := K.two_le
  rw [blocksAdded, Nat.zero_sub, Nat.zero_add, Nat.div_eq_of_lt (by omega)]

theorem blocksAdded_boundary (h : n % K.RecCount = 0) (m : Nat) :
    blocksAdded K n (m + 1) = 1 + blocksAdded K (n + 2) m := by
  have hpos := K.two_le
  -- the gap to the end of the block, before and after
  have hgap : (K.RecCount - n % K.RecCount) % K.RecCount = 0 := by
    rw [h, Nat.sub_zero, Nat.mod_self]
  have hgap' : (K.RecCount - (n + 2) % K.RecCount) % K.RecCount = K.RecCount - 2 := by
    rcases Nat.eq_or_lt_of_le hpos with heq | hlt
    · rw [← heq] at h ⊢
      omega
    · rw [Nat.add_mod, h, Nat.zero_add, Nat.mod_mod, Nat.mod_eq_of_lt hlt,
        Nat.mod_eq_of_lt (by omega)]
  rw [blocksAdded, blocksAdded, hgap, hgap', Nat.sub_zero]
  by_cases hm : K.RecCount - 2 ≤ m
  · rw [show m + 1 + (K.RecCount - 2) = m - (K.RecCount - 2) + (K.RecCount - 2) + (K.RecCount - 1)
      by omega, Nat.add_div_right _ (by omega), Nat.add_comm 1]
  · rw [show m - (K.RecCount - 2) = 0 by omega, Nat.zero_add,
      Nat.div_eq_of_lt (show K.RecCount - 2 < K.RecCount - 1 by omega),
      show m + 1 + (K.RecCount - 2) = m + (K.RecCount - 1) by omega,
      Nat.add_div_right _ (by omega), Nat.div_eq_of_lt (by omega)]

theorem blocksAdded_inside (h : n % K.RecCount ≠ 0) (m : Nat) :
    blocksAdded K n (m + 1) = blocksAdded K (n + 1) m := by
  have hpos := K.two_le
  have hlt := Nat.mod_lt n (show 0 < K.RecCount by omega)
  have hgap : (K.RecCount - n % K.RecCount) % K.RecCount = K.RecCount - n % K.RecCount :=
    Nat.mod_eq_of_lt (by omega)
  have hgap' : (K.RecCount - (n + 1) % K.RecCount) % K.RecCount
      = K.RecCount - n % K.RecCount - 1 := by
    rcases succ_div_mod (show 0 < K.RecCount by omega) n with ⟨hfull, -, hmod⟩ | ⟨hpa, -, hmod⟩
    · rw [hmod, Nat.sub_zero, Nat.mod_self]
      omega
    · rw [hmod, Nat.mod_eq_of_lt (by omega)]
      omega
  rw [blocksAdded, blocksAdded, hgap, hgap',
    show m + 1 - (K.RecCount - n % K.RecCount) = m - (K.RecCount - n % K.RecCount - 1) by omega]

/-- Rows one after the other, each with the time of its `append`. -/
def appends (ps : List (T × Nat)) : List (ChainOp T) := ps.map fun p => .append p.1 p.2

/-- What appends do to an object with tiles in order: it keeps its files, makes those of its
new blocks, and no others. -/
theorem appends_tiled {ps : List (T × Nat)} (h : Tiled K s rs)
    (hrun : run (opStep K) s (appends ps) = some s') :
    (∃ rs', Tiled K s' rs') ∧
      s'.tiles.length = s.tiles.length + blocksAdded K s.recCount ps.length ∧
      (∀ b, isFile (s.disk b) = true → isFile (s'.disk b) = true) ∧
      ∀ b, isFile (s'.disk b) = true → isFile (s.disk b) = true ∨ b < s'.tiles.length := by
  induction ps generalizing s rs with
  | nil =>
    cases hrun
    exact ⟨⟨rs, h⟩, by rw [List.length_nil, blocksAdded_zero]; rfl, fun _ => id, fun _ => .inl⟩
  | cons p ps ih =>
    obtain ⟨s₁, hs₁, hre⟩ := run_cons hrun
    unfold opStep at hs₁
    dsimp only at hs₁
    split at hs₁
    · next heq =>
      cases hs₁
      have hst : ∃ rs₁, Tiled K s₁ rs₁ ∧ s₁.tiles.length + blocksAdded K s₁.recCount ps.length
            = s.tiles.length + blocksAdded K s.recCount (ps.length + 1) ∧
          ∀ b, s₁.disk b = s.disk b ∨ b < s₁.tiles.length := by
        cases append_appended h heq with
        | newBlock hpos hlen hrec hdi htl =>
          refine ⟨_, htl, ?_, fun b => ?_⟩
          · rw [blocksAdded_boundary hpos, hlen, hrec, Nat.add_assoc]
          · by_cases hb : b = s.tiles.length
            · exact .inr (by omega)
            · exact .inl (hdi b hb)
        | inBlock hpos hso hlen hrec hdi htl =>
          refine ⟨_, htl, ?_, fun b => ?_⟩
          · rw [blocksAdded_inside hpos, hlen, hrec]
          · by_cases hb : b = s.tiles.length - 1
            · exact .inr (by omega)
            · exact .inl (hdi b hb)
      obtain ⟨rs₁, h₁, hcount, hfi⟩ := hst
      obtain ⟨htl, hlen, hke, hnew⟩ := ih h₁ hre
      refine ⟨htl, by rw [hlen, hcount, List.length_cons], fun b hb => ?_, fun b hb => ?_⟩
      · refine hke b ?_
        rcases hfi b with hsa | hlt
        · rw [hsa]
          exact hb
        · exact h₁.isFile hlt
      · rcases hnew b hb with hb | hb
        · rcases hfi b with hsa | hlt
          · rw [hsa] at hb
            exact .inl hb
          · exact .inr (by omega)
        · exact .inr hb
    · cases hs₁

/-- `get_block` returns these rows. -/
def BlockIs (K : Params) (s : Blockchain F) (b now : Nat) (rows : List (Row F.Body)) : Prop :=
  Returns (getBlock K b now) s fun r _ =>
    ∃ data, r = (some data, .ok) ∧ (List.range K.RecCount).map data = rows

/-- The second object has the blocks of the first, and no others. -/
def SameBlocks (K : Params) (s t : Blockchain F) : Prop :=
  getBlockCount t = getBlockCount s ∧
    ∀ b < getBlockCount s, ∀ now, ∃ rows, BlockIs K s b now rows ∧ BlockIs K t b now rows

theorem Tiled.blockIs (h : Tiled K s rs) (hb : b < s.tiles.length) (now : Nat) :
    BlockIs K s b now ((List.range K.RecCount).map (rs b)) := by
  obtain ⟨d, hd, hsy⟩ := h.desc hb now
  obtain ⟨data, t, heq, hro, -⟩ := getBlock_tile hd hsy
  exact ⟨_, _, heq, data, rfl, List.map_congr_left fun j hj => hro j (List.mem_range.mp hj)⟩

/-- **Truncation and restart.**  For every object that has the files of its folder for blocks,
every `truncate(k)` and any appends after it: the object then has `k` blocks and those the
appends have begun, and a new object on the folder has the same ones exactly when these are
no fewer than there were before. -/
theorem truncate_reopen_iff (K : Params) (s : Blockchain F) (h : OnDisk K s) (k : Nat)
    (hk : k ≤ getBlockCount s) (ps : List (T × Nat)) (s' : Blockchain F)
    (hrun : run (opStep K) (truncate k s) (appends ps) = some s') (listing : List Nat)
    (hl : Lists listing s'.disk) :
    getBlockCount s' = k + blocksAdded K (getRecCount s) ps.length ∧
    (SameBlocks K s' (create K s'.disk (getFileCount listing s'.disk)) ↔
      getBlockCount s ≤ k + blocksAdded K (getRecCount s) ps.length) := by
  obtain ⟨rs, ht⟩ := h.tiled
  have htr : Tiled K (truncate k s) rs := by
    intro b d hd
    refine ht b d ?_
    rw [show (truncate k s).tiles = s.tiles.take k from rfl, List.getElem?_take] at hd
    exact (Option.ite_none_right_eq_some.mp hd).2
  obtain ⟨⟨rs', ht'⟩, hlen, hke, hnew⟩ := appends_tiled htr hrun
  have hcount : getBlockCount s' = k + blocksAdded K (getRecCount s) ps.length := by
    rw [show (truncate k s).tiles.length = k from
      List.length_take_of_le (show k ≤ s.tiles.length from hk)] at hlen
    exact hlen
  -- the files: those of the old blocks and those of the new ones
  have hfi : getFileCount listing s'.disk = max s.tiles.length s'.tiles.length := by
    refine getFileCount_eq hl (fun b hb => ?_) fun hpos => ?_
    · rcases hnew b hb with hb | hb
      · have := h.files b hb
        omega
      · omega
    · by_cases hmo : s.tiles.length ≤ s'.tiles.length
      · exact ht'.isFile (by omega)
      · rw [Nat.max_eq_left (by omega)]
        exact hke _ (ht.isFile (by omega))
  refine ⟨hcount, ?_⟩
  rw [← hcount]
  constructor
  · rintro ⟨hsa, -⟩
    rw [getBlockCount, (create_opened _ _).length_eq, hfi] at hsa
    show s.tiles.length ≤ s'.tiles.length
    have : max s.tiles.length s'.tiles.length = s'.tiles.length := hsa
    omega
  · intro hle
    have hle' : s.tiles.length ≤ s'.tiles.length := hle
    rw [hfi, Nat.max_eq_right hle']
    have hcr : Tiled K (create K s'.disk s'.tiles.length) rs' :=
      create_tiled fun b hb => (ht' b _ (List.getElem?_eq_getElem hb)).1
    refine ⟨(create_opened s'.disk s'.tiles.length).length_eq, fun b hb now => ?_⟩
    refine ⟨_, ht'.blockIs hb now, hcr.blockIs ?_ now⟩
    rw [(create_opened s'.disk s'.tiles.length).length_eq]
    exact hb

theorem calls_written {ops : List (ChainOp T)}
    (hrun : run (opStep K) (create K (fun _ => .missing) 0) ops = some s) :
    ∃ ps, Written K s ps :=
  run_keeps (fun s : Blockchain F => ∃ ps, Written K s ps)
    (fun _ _ _ ⟨_, h⟩ hs => ⟨_, h.call hs⟩) ⟨[], written_create fun _ => rfl⟩ hrun

/-- A full block, truncated away and begun again. -/
theorem truncate_reopen_iff_overwritten :
    ∃ s s', run (opStep (F := digestFormat Nat) fourRows) (create fourRows (fun _ => .missing) 0)
        (appends [(7, 0), (8, 0), (9, 0)]) = some s ∧
      run (opStep fourRows) (truncate 0 s) (appends [(10, 0)]) = some s' ∧
      SameBlocks fourRows s' (create fourRows s'.disk (getFileCount [0] s'.disk)) := by
  obtain ⟨s, hs, hrec, hlen, s', hs', hlen'⟩ : ∃ s, run (opStep (F := digestFormat Nat) fourRows)
      (create fourRows (fun _ => .missing) 0) (appends [(7, 0), (8, 0), (9, 0)]) = some s ∧
      s.recCount = 4 ∧ s.tiles.length = 1 ∧ ∃ s', run (opStep fourRows) (truncate 0 s)
        (appends [(10, 0)]) = some s' ∧ s'.tiles.length = 1 := by decide
  obtain ⟨ps, hwr⟩ := calls_written hs
  have hem : Tiled fourRows (truncate 0 s) fun _ _ => (digestFormat Nat).blankRow := by
    intro b d hd
    cases hd
  obtain ⟨-, -, -, hnew⟩ := appends_tiled hem hs'
  have hl : Lists [0] s'.disk := by
    intro b hb
    have hlt : b < 1 := by
      rcases hnew b hb with hold | hlt
      · rw [← hlen]
        exact hwr.files b hold
      · rw [← hlen']
        exact hlt
    rw [List.mem_singleton]
    omega
  refine ⟨s, s', hs, hs', (truncate_reopen_iff fourRows s hwr.onDisk 0 (Nat.zero_le _)
    [(10, 0)] s' hs' [0] hl).2.mpr ?_⟩
  rw [getBlockCount, getRecCount, hrec, hlen]
  decide

/-- Two blocks, one of them truncated away: a new object has both. -/
theorem truncated_block_reappears :
    ∃ s, run (opStep (F := digestFormat Nat) fourRows) (create fourRows (fun _ => .missing) 0)
        (appends [(7, 0), (8, 0), (9, 0), (10, 0)]) = some s ∧
      Lists [0, 1] (truncate 1 s).disk ∧
      getBlockCount (truncate 1 s) = 1 ∧
      getBlockCount (create fourRows (truncate 1 s).disk (getFileCount [0, 1] (truncate 1 s).disk))
        = 2 ∧
      ¬ SameBlocks fourRows (truncate 1 s)
        (create fourRows (truncate 1 s).disk (getFileCount [0, 1] (truncate 1 s).disk)) := by
  obtain ⟨s, hs, hlen, hold, hnew⟩ : ∃ s, run (opStep (F := digestFormat Nat) fourRows)
      (create fourRows (fun _ => .missing) 0) (appends [(7, 0), (8, 0), (9, 0), (10, 0)]) = some s ∧
      s.tiles.length = 2 ∧ getBlockCount (truncate 1 s) = 1 ∧ getBlockCount (create fourRows
        (truncate 1 s).disk (getFileCount [0, 1] (truncate 1 s).disk)) = 2 := by decide
  obtain ⟨ps, hwr⟩ := calls_written hs
  refine ⟨s, hs, fun b hb => ?_, hold, hnew, fun hsa => ?_⟩
  · have hlt := hwr.files b hb
    rw [hlen] at hlt
    simp only [List.mem_cons, List.not_mem_nil, or_false]
    omega
  · have hcount := hsa.1
    rw [hold, hnew] at hcount
    cases hcount

end GradidoNode.Blockchain
