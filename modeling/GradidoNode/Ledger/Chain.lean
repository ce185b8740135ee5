/-
# `GradidoNode.Ledger.Chain` — a group chain that processes and stores

A group chain processes one batch after the other: the first record is a
transaction and goes through `calc_fields_and_update_indexes_for`, then the batch
is appended to the storage; a batch whose paired transaction is missing goes back
to the queue and is tried again later (it is simply another event here).  A throw
or an undefined execution ends the run: the worker that meets it exits the
process.

The storage is seen as the list of the payloads appended to it, which is what
`GradidoNode.Storage.Layout` proves it to be: `recCount_storage` says that
`get_rec_count()` is that of the object.
-/
import GradidoNode.Ledger.CalcFields
import GradidoNode.Storage.ChecksumChain

namespace GradidoNode

open Lib Blockchain

/-- The storage of `BlockchainBaseDeprecated`: `GRADIDO_BLOCK_SIZE` rows to a block,
100 blocks cached, a flush every 100 seconds. -/
def groupParams : Params :=
  { Params.ofRecCount GRADIDO_BLOCK_SIZE (by decide) with
    optimalCacheSize := 100
    cacheAutoFlushMinIntervalSec := 100 }

/-- The records of a batch behind its transaction. -/
inductive Part where
  | memo
  | signatures
  deriving DecidableEq, Repr

def Part.record : Part → GradidoRecord
  | .memo => .memo
  | .signatures => .signatures

/-- A group chain: its ledger, and the records it has stored. -/
structure Chain where
  ledger : Ledger
  rows : List GradidoRecord

namespace Chain

/-- `storage.get_rec_count()`. -/
def recCount (rows : List GradidoRecord) : Nat := rowCount groupParams rows.length

/-- The number of the row that payload `n` is stored in. -/
def recNum (n : Nat) : Nat :=
  n / perBlock groupParams * GRADIDO_BLOCK_SIZE + n % perBlock groupParams

def initial : Chain := ⟨Ledger.initial, []⟩

/-- What happens to a chain. -/
inductive Event where
  | process (env : Env) (tr : Transaction) (parts : List Part)
  | pairedTransactionDone (t : Transaction)

/-- A batch as it is stored. -/
def batch (tr : Transaction) (parts : List Part) : List GradidoRecord :=
  .gradidoTransaction tr :: parts.map Part.record

/-- One event. -/
def step (calculateDecay : DecayFunction) (s : Chain) : Event → Option Chain
  | .process env tr parts =>
    match s.ledger.calcFieldsAndUpdateIndexesFor calculateDecay env (recCount s.rows) tr with
    | .ready l tr' => some ⟨l, s.rows ++ batch tr' parts⟩
    | .waiting l _ => some { s with ledger := l }
    | .failed _ => none
  | .pairedTransactionDone t => some { s with ledger := s.ledger.onPairedTransactionDone t }

variable {calculateDecay : DecayFunction} {s s' : Chain} {e : Event}

/-- What one event does: the indexes and the rows stay, or a batch was applied and stored. -/
theorem step_cases (h : step calculateDecay s e = some s') :
    (s'.ledger.toIndexes = s.ledger.toIndexes ∧ s'.rows = s.rows) ∨
      ∃ env tr parts tr', e = .process env tr parts ∧
        Ledger.Applied calculateDecay env (recCount s.rows) s.ledger tr s'.ledger tr' ∧
        s'.rows = s.rows ++ batch tr' parts := by
  cases e with
  | process env tr parts =>
    unfold step at h
    dsimp only at h
    split at h
    · rename_i l tr' hca
      cases h
      exact .inr ⟨env, tr, parts, tr', rfl, Ledger.calc_applied hca, rfl⟩
    · rename_i l request hca
      cases h
      exact .inl ⟨Ledger.calc_waiting hca, rfl⟩
    · cases h
  | pairedTransactionDone t =>
    cases h
    exact .inl ⟨rfl, rfl⟩

/-- A chain that waits puts everything off. -/
theorem step_waiting {env : Env} {tr : Transaction} {parts : List Part}
    (hwa : s.ledger.waitingForPaired = true)
    (h : step calculateDecay s (.process env tr parts) = some s') : s' = s := by
  have hca : s.ledger.calcFieldsAndUpdateIndexesFor calculateDecay env (recCount s.rows) tr
      = .waiting s.ledger none := by
    unfold Ledger.calcFieldsAndUpdateIndexesFor
    rw [if_pos hwa]
  rw [step, hca] at h
  cases h
  rfl

/-! ## The numbers of the rows -/

theorem recNum_eq (n : Nat) : recNum n = n / 999 * 1000 + n % 999 := rfl

theorem recNum_injective {m n : Nat} (h : recNum m = recNum n) : m = n := by
  rw [recNum_eq, recNum_eq] at h
  omega

/-- The rows before payload `n` is stored: `get_rec_count()` is the number of its row where a
block begins, and otherwise counts the CHECKSUM row that it replaces as well. -/
theorem rowCount_eq (n : Nat) :
    rowCount groupParams n = if n % 999 = 0 then recNum n else recNum n + 1 := by
  have hper : perBlock groupParams = 999 := rfl
  rw [rowCount, blockCount, hper, recNum_eq]
  split
  · omega
  · omega

/-! ## The rows of a batch -/

theorem batch_row (rows : List GradidoRecord) (tr : Transaction) (parts : List Part) :
    (rows ++ batch tr parts)[rows.length]? = some (.gradidoTransaction tr) := by
  rw [List.getElem?_append_right (Nat.le_refl _), Nat.sub_self]
  rfl

/-- A transaction is in one of the rows before the batch, or is that of the batch. -/
theorem batch_cases {rows : List GradidoRecord} {n : Nat} {tr tr' : Transaction}
    {parts : List Part} (h : (rows ++ batch tr parts)[n]? = some (.gradidoTransaction tr')) :
    rows[n]? = some (.gradidoTransaction tr') ∨ (n = rows.length ∧ tr' = tr) := by
  rcases Nat.lt_or_ge n rows.length with hn | hn
  · rw [List.getElem?_append_left hn] at h
    exact .inl h
  · rw [List.getElem?_append_right hn] at h
    obtain ⟨i, rfl⟩ : ∃ i, n = rows.length + i := ⟨n - rows.length, by omega⟩
    rw [Nat.add_sub_cancel_left] at h
    cases i with
    | zero =>
      cases h
      exact .inr ⟨rfl, rfl⟩
    | succ i =>
      rw [batch, List.getElem?_cons_succ] at h
      obtain ⟨p, -, hp⟩ := List.mem_map.mp (List.mem_of_getElem? h)
      cases p <;> cases hp

/-! ## Sums over the rows -/

/-- A batch adds to a sum over the rows what its transaction adds. -/
theorem sum_batch {f : GradidoRecord → Nat} (hf : ∀ p : Part, f p.record = 0)
    (rows : List GradidoRecord) (tr : Transaction) (parts : List Part) :
    ((rows ++ batch tr parts).map f).sum = (rows.map f).sum + f (.gradidoTransaction tr) := by
  have hpa : ((parts.map Part.record).map f).sum = 0 := by
    induction parts with
    | nil => rfl
    | cons p parts ih =>
      rw [List.map_cons, List.map_cons, List.sum_cons, hf, ih]
  simp only [batch, List.map_append, List.sum_append, List.map_cons, List.sum_cons, hpa,
    Nat.add_zero]

/-! ## What other chains see -/

/-- A record of type GRADIDO_TRANSACTION. -/
def asTransaction : GradidoRecord → Option Transaction
  | .gradidoTransaction t => some t
  | _ => none

/-- `get_transaction(seq_num, t)`.  A CHECKSUM row is read as if it were a payload;
`garbage` says as what. -/
def getTransaction (garbage : Nat → Option Transaction) (rows : List GradidoRecord)
    (seqNum : Nat) : Option Transaction :=
  if recCount rows ≤ seqNum then none
  else
    match rows[seqNum / GRADIDO_BLOCK_SIZE * perBlock groupParams
        + seqNum % GRADIDO_BLOCK_SIZE]? with
    | some r =>
      if seqNum % GRADIDO_BLOCK_SIZE = perBlock groupParams then garbage seqNum
      else asTransaction r
    | none => garbage seqNum

/-- The chain as another chain of the node sees it. -/
def view (garbage : Nat → Option Transaction) (s : Chain) : ChainView where
  getPairedTransaction := s.ledger.outboundTransactions
  getTransaction seqNum := getTransaction garbage s.rows seqNum.toNat

/-! ## Against the storage object -/

section Storage

variable {F : RowFormat GradidoRecord} {K : Params} {st : Blockchain F}
  {rows : List GradidoRecord} {cs : Nat → F.Checksum}

theorem perBlock_group (hK : K.RecCount = GRADIDO_BLOCK_SIZE) :
    perBlock K = perBlock groupParams := by
  rw [perBlock, hK]
  rfl

theorem recCount_storage (hK : K.RecCount = GRADIDO_BLOCK_SIZE) (h : Holds K st rows cs) :
    st.recCount = recCount rows := by
  rw [h.recCount_eq, recCount, rowCount, rowCount, blockCount, blockCount, perBlock_group hK]

end Storage

end Chain

end GradidoNode
