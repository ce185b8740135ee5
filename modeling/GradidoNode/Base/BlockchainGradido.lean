/-
# `GradidoNode.Base.BlockchainGradido` — a group chain as a child of the base class

The methods `BlockchainGradido` brings: the ledger of `GradidoNode.Ledger.CalcFields`
and `GradidoNode.Ledger.AddIndexData`, its comparator, and
`get_latest_transaction_id`, which looks for the last transaction from the second
last row backwards, over checksum rows and over the other records of a batch.

A batch is a transaction and the memo and signature records behind it: that is what
the translation from the ledger service makes.  The comparator and
`get_transaction_id` read `buff[0].transaction` whatever `buff[0]` is.

`latest_keeps` is the one fact about the scan: on a chain that keeps a list of
records it finds the sequence number of the last transaction in the list.
-/
import GradidoNode.Base.BlockchainBase
import GradidoNode.Ledger.AddIndexData
import GradidoNode.Storage.Keeps

namespace GradidoNode

open Lib Blockchain

/-- A batch of a group chain. -/
structure GradidoBatch where
  transaction : Transaction
  parts : List Part
  deriving DecidableEq, Repr

namespace BlockchainGradido

variable {F : RowFormat GradidoRecord}

/-! ## `get_latest_transaction_id` -/

/-- The sequence number of a record that is a transaction. -/
def sequenceOf : GradidoRecord → Option UInt64
  | .gradidoTransaction t => some t.sequenceNumber
  | _ => none

/-- The sequence number in a row, if the row is a transaction. -/
def rowSequence (row : Row F.Body) : Option UInt64 :=
  if row.type = RecordType.payload then sequenceOf (F.payload row.body) else none

/-- The loop, from row `last` backwards. -/
def latestFrom (K : Params) (now : Nat) : Nat → ChainM F (Option UInt64)
  | 0 => do
    let r ← getRecord K 0 now
    return r.1.bind rowSequence
  | last + 1 => do
    let r ← getRecord K (last + 1) now
    match r.1 with
    | none => return none
    | some row =>
      match rowSequence row with
      | some seqNum => return some seqNum
      | none => latestFrom K now last

def getLatestTransactionId (K : Params) (now : Nat) : ChainM F (Option UInt64) := do
  let s ← get
  if s.recCount ≤ 1 then return none else latestFrom K now (s.recCount - 2)

/-- `get_transaction(seq_num, t)`: the row is read as a payload, whatever its type. -/
def getTransaction (K : Params) (seqNum now : Nat) : ChainM F (Option Transaction) := do
  let s ← get
  if s.recCount ≤ seqNum then return none
  else do
    let r ← getRecord K seqNum now
    match r.1 with
    | none => throw (.undefined "null record")
    | some row => return Chain.asTransaction (F.payload row.body)

/-! ## The child -/

/-- `calc_fields_and_update_indexes_for`, on the first record of a batch. -/
def calcBatch (calculateDecay : DecayFunction) (env : Env) (recCount : Nat) (l : Ledger)
    (b : GradidoBatch) : Calculated Ledger GradidoBatch :=
  match l.calcFieldsAndUpdateIndexesFor calculateDecay env recCount b.transaction with
  | .ready l' tr => .ready l' ⟨tr, b.parts⟩
  | .waiting l' request => .notReady l' request
  | .failed e => .failed e

/-- `BlockchainGradido`. -/
abbrev child (F : RowFormat GradidoRecord) (K : Params) (calculateDecay : DecayFunction) :
    Child F where
  Fields := Ledger
  Content := GradidoBatch
  Env := Env
  records b := Chain.batch b.transaction b.parts
  less a b := decide (a.transaction.sequenceNumber < b.transaction.sequenceNumber)
  getTransactionId b := b.transaction.sequenceNumber
  getLatestTransactionId := getLatestTransactionId K
  calcFieldsAndUpdateIndexesFor := calcBatch calculateDecay
  clearIndexes l := { l with toIndexes := Ledger.clearIndexes }
  addIndexData indexedBlocks now l := do
    let idx ← Ledger.addIndexData K indexedBlocks now l.toIndexes
    return (true, { l with toIndexes := idx })

/-- A group chain as a node has it. -/
def groupConf : Base.Conf := ⟨groupParams, "group", 100, false⟩

def onPairedTransactionDone {K : Params} {calculateDecay : DecayFunction} (t : Transaction) :
    Base.BaseM (child F K calculateDecay) Unit :=
  modify fun s => { s with
    fields := Ledger.onPairedTransactionDone t s.fields
    out := s.out ++ [.continueTransactions] }

/-! ## What the scan finds -/

/-- The sequence numbers of the transactions of a list of records. -/
def sequenceNumbers (rows : List GradidoRecord) : List UInt64 := rows.filterMap sequenceOf

theorem sequenceNumbers_batch (rows : List GradidoRecord) (tr : Transaction) (parts : List Part) :
    sequenceNumbers (rows ++ Chain.batch tr parts) = sequenceNumbers rows ++ [tr.sequenceNumber] := by
  have hpa : (parts.map Part.record).filterMap sequenceOf = [] := by
    rw [List.filterMap_map]
    refine List.filterMap_eq_nil_iff.mpr fun p _ => ?_
    cases p <;> rfl
  rw [sequenceNumbers, List.filterMap_append, Chain.batch]
  show _ ++ tr.sequenceNumber :: (parts.map Part.record).filterMap sequenceOf = _
  rw [hpa]
  rfl

variable {K : Params} {st : Blockchain F} {rows : List GradidoRecord}

theorem rowSequence_blockRows (l : List GradidoRecord) (c : F.Checksum) (j : Nat) :
    rowSequence (blockRows F l c j) = l[j]?.bind sequenceOf := by
  cases hj : l[j]? with
  | some r =>
    rw [blockRows_payload hj]
    simp [rowSequence]
  | none =>
    have hle : l.length ≤ j := List.getElem?_eq_none_iff.mp hj
    rcases Nat.eq_or_lt_of_le hle with heq | hlt
    · rw [← heq, blockRows_length]
      exact if_neg (by simp [RecordType.checksum, RecordType.payload])
    · rw [blockRows_blank hlt]
      exact if_neg (by simp [RecordType.empty, RecordType.payload])

/-- The number of payloads in the rows up to row `i`, of full blocks. -/
def payloadsUpTo (i : Nat) : Nat := i / 1000 * 999 + min (i % 1000 + 1) 999

theorem sequenceNumbers_take_succ (rows : List GradidoRecord) (p : Nat) :
    sequenceNumbers (rows.take (p + 1))
      = sequenceNumbers (rows.take p) ++ (rows[p]?.bind sequenceOf).toList := by
  rw [List.take_add_one, sequenceNumbers, List.filterMap_append]
  congr 1
  cases rows[p]? with
  | none => rfl
  | some r =>
    cases hr : sequenceOf r <;> simp [hr]

section

variable (hK : K.RecCount = GRADIDO_BLOCK_SIZE)
include hK

/-- What one row adds to the numbers up to it. -/
theorem latest_step (c : F.Checksum) (i : Nat) :
    (sequenceNumbers (rows.take (payloadsUpTo i))).getLast? =
      match rowSequence (blockRows F (chunk K rows (i / GRADIDO_BLOCK_SIZE)) c
        (i % GRADIDO_BLOCK_SIZE)) with
      | some seqNum => some seqNum
      | none =>
        match i with
        | 0 => none
        | last + 1 => (sequenceNumbers (rows.take (payloadsUpTo last))).getLast? := by
  rw [rowSequence_blockRows, chunk_row hK]
  by_cases h : i % 1000 = 999
  · -- the checksum row of a full block
    obtain ⟨last, rfl⟩ : ∃ last, i = last + 1 := ⟨i - 1, by omega⟩
    have hsa : payloadsUpTo (last + 1) = payloadsUpTo last := by
      simp only [payloadsUpTo]
      omega
    simp only [h, if_true, Option.bind_none, hsa]
  · rw [if_neg h]
    have hsu : payloadsUpTo i = i / 1000 * 999 + i % 1000 + 1 := by
      simp only [payloadsUpTo]
      omega
    rw [hsu, sequenceNumbers_take_succ]
    cases hseq : rows[i / 1000 * 999 + i % 1000]?.bind sequenceOf with
    | some seqNum => simp
    | none =>
      simp only [Option.toList_none, List.append_nil]
      cases i with
      | zero => rfl
      | succ last =>
        have hpr : payloadsUpTo last = (last + 1) / 1000 * 999 + (last + 1) % 1000 := by
          simp only [payloadsUpTo]
          omega
        rw [← hpr]

theorem latestFrom_keeps (now : Nat) :
    ∀ (i : Nat) (st : Blockchain F), Keeps K st rows → i < rowCount K rows.length →
      Returns (latestFrom K now i) st fun r st' =>
        r = (sequenceNumbers (rows.take (payloadsUpTo i))).getLast? ∧ Keeps K st' rows := by
  intro i
  induction i with
  | zero =>
    intro st h hi
    refine .bind ((h.getRecord hK hi now).mono ?_)
    rintro r st' ⟨⟨c, rfl⟩, h'⟩
    refine .pure ⟨?_, h'⟩
    rw [latest_step hK c 0, Option.bind_some]
    split <;> assumption
  | succ last ih =>
    intro st h hi
    refine .bind ((h.getRecord hK hi now).mono ?_)
    rintro r st' ⟨⟨c, rfl⟩, h'⟩
    have hst := @latest_step _ _ rows hK c (last + 1)
    dsimp only at hst ⊢
    split
    · rename_i seqNum hseq
      rw [hseq] at hst
      exact .pure ⟨hst.symm, h'⟩
    · rename_i hseq
      rw [hseq] at hst
      rw [hst]
      exact ih st' h' (by omega)

/-- `get_latest_transaction_id` finds the number of the last transaction. -/
theorem latest_keeps (h : Keeps K st rows) (now : Nat) :
    Returns (getLatestTransactionId K now) st fun r st' =>
      r = (sequenceNumbers rows).getLast? ∧ Keeps K st' rows := by
  have hper : perBlock K = 999 := by rw [perBlock, hK]; rfl
  refine .bind (.get ?_)
  rw [h.recCount_eq]
  by_cases hnil : rows = []
  · subst hnil
    rw [if_pos (by simp [rowCount, blockCount])]
    exact .pure ⟨rfl, h⟩
  · have hpos : 0 < rows.length := List.length_pos_iff.mpr hnil
    have hcount : rowCount K rows.length
        = rows.length + (rows.length / 999 + if rows.length % 999 = 0 then 0 else 1) := by
      rw [rowCount, blockCount, hper]
    have hro : 2 ≤ rowCount K rows.length ∧
        rows.length ≤ payloadsUpTo (rowCount K rows.length - 2) := by
      rw [hcount, payloadsUpTo]
      by_cases hfull : rows.length % 999 = 0
      · rw [if_pos hfull]
        omega
      · rw [if_neg hfull]
        omega
    rw [if_neg (by omega)]
    refine (latestFrom_keeps hK now _ st h (by omega)).mono ?_
    rintro r st' ⟨hr, h'⟩
    rw [List.take_of_length_le hro.2] at hr
    exact ⟨hr, h'⟩

/-- `get_transaction` reads the row of the list, or a CHECKSUM row as something. -/
theorem getTransaction_keeps (h : Keeps K st rows)
    (seqNum now : Nat) :
    Returns (getTransaction K seqNum now) st fun r st' =>
      (∃ garbage, r = Chain.getTransaction garbage rows seqNum) ∧ Keeps K st' rows := by
  have hcount : st.recCount = Chain.recCount rows := by
    rw [h.recCount_eq, Chain.recCount, rowCount, rowCount, blockCount, blockCount,
      Chain.perBlock_group hK]
  refine .bind (.get ?_)
  rw [hcount]
  by_cases hout : Chain.recCount rows ≤ seqNum
  · rw [if_pos hout]
    exact .pure ⟨⟨fun _ => none, by rw [Chain.getTransaction, if_pos hout]⟩, h⟩
  · rw [if_neg hout]
    have hlt : seqNum < rowCount K rows.length := by
      rw [← h.recCount_eq, hcount]
      exact Nat.not_le.mp hout
    refine .bind ((h.getRecord hK hlt now).mono ?_)
    rintro r st' ⟨⟨c, rfl⟩, h'⟩
    refine .pure ⟨⟨fun _ => Chain.asTransaction (F.payload (blockRows F
      (chunk K rows (seqNum / GRADIDO_BLOCK_SIZE)) c (seqNum % GRADIDO_BLOCK_SIZE)).body), ?_⟩, h'⟩
    rw [Chain.getTransaction, if_neg hout]
    split
    · rename_i r hr
      split
      · rfl
      · -- a payload row
        rename_i hne
        have hrow := chunk_row hK rows seqNum
        rw [if_neg (show ¬ seqNum % 1000 = 999 from hne),
          show rows[seqNum / 1000 * 999 + seqNum % 1000]? = some r from hr] at hrow
        rw [blockRows_payload hrow, RowFormat.payload_payloadRow]
    · rfl

end

end BlockchainGradido

end GradidoNode
