/-
# `GradidoNode.Wire.Parts` — the records of one transaction

A transaction is as many records as its memo and its signatures need.  Whoever reads it
back takes

    the signatures    the one of record 0, then as many slots of the SIGNATURES records as
                      `signature_count` says (`storedSignatures`)
    the memo          the field of record 0 up to its NUL; if there is none, all of it and
                      the MEMO record up to its NUL (`recoverMemo`)

and the records have the shape for it, whatever the message is.  What is in them is not
always the message:

    keys, signatures  are cut to 32 and 64 bytes, or get a NUL (`shape_iff`)
    their number      is kept in a `uint8_t`; of 257 one is left (`signaturesKept_iff`)
    the memo          is cut behind 366 bytes, and has no NUL of its own behind it: what a
                      group name left there is read on (`memoRecovered_iff`)
-/
import GradidoNode.Wire.Writes
import Mathlib.Algebra.Order.Floor.Div

namespace GradidoNode.Wire

open Lib Proto

/-! ## Signatures read back -/

/-- Slot `j` of a record of signatures. -/
def GradidoRecord.signature (r : GradidoRecord) (j : Nat) : Signature :=
  Signature.packed.read
    ((r.body.toList.drop (j * Signature.packed.size)).take Signature.packed.size)

def GradidoRecord.slots (r : GradidoRecord) : List Signature :=
  (List.range SIGNATURES_PER_RECORD).map r.signature

/-- The signatures of a transaction. -/
def storedSignatures : List GradidoRecord → List Signature
  | [] => []
  | r :: rest => r.transaction.signature ::
      ((rest.filter fun p => p.recordType = SIGNATURES).flatMap GradidoRecord.slots).take
        (r.transaction.signatureCount.toNat - SIGNATURES_IN_MAIN_PART)

/-- A signature as a message has it. -/
def pairOf (s : Signature) : SignaturePair := ⟨s.pubkey.toList, s.signature.toList⟩

/-- The key and the signature have their lengths. -/
def Sized (p : SignaturePair) : Prop :=
  p.pubKey.length = PUB_KEY_LENGTH ∧ p.ed25519.length = SIGNATURE_LENGTH

instance (p : SignaturePair) : Decidable (Sized p) := inferInstanceAs (Decidable (_ ∧ _))

/-- The records of a message with these signatures and this memo. -/
structure Shape (gt : GradidoTransaction) (memo : Bytes) (records : List GradidoRecord) : Prop where
  size : ∃ r, records[0]? = some r ∧ r.transaction.parts.toNat = records.length
  bound : records.length ≤ MAX_RECORD_PARTS
  types : records.map GradidoRecord.recordType = GRADIDO_TRANSACTION ::
    ((if MEMO_MAIN_SIZE ≤ memo.length then [MEMO] else []) ++
      List.replicate ((gt.sigPair.length - 1) ⌈/⌉ SIGNATURES_PER_RECORD) SIGNATURES)
  signatures : (storedSignatures records).map pairOf = gt.sigPair

theorem taken_eq_iff {n : Nat} {s : Bytes} (h : Fits n s) : taken n s = s ↔ s.length = n := by
  constructor
  · intro heq
    rw [← heq, length_taken h]
  · rintro rfl
    rw [taken, cStr, List.take_left]

theorem pairOf_signatureOf {p : SignaturePair} (h : SignatureFits p) :
    pairOf (signatureOf p) = p ↔ Sized p := by
  have hpu : (signatureOf p).pubkey.toList = taken PUB_KEY_LENGTH p.pubKey :=
    Packed.toList_read_array (length_taken h.1)
  have hed25519 : (signatureOf p).signature.toList = taken SIGNATURE_LENGTH p.ed25519 :=
    Packed.toList_read_array (length_taken h.2)
  rw [pairOf, hpu, hed25519, Sized, ← taken_eq_iff h.1, ← taken_eq_iff h.2]
  cases p
  rw [SignaturePair.mk.injEq]

theorem flatMap_range {α : Type} {b : Nat} (hb : 0 < b) (f : Nat → Nat → α) (a : Nat) :
    (List.range a).flatMap (fun i => (List.range b).map (f i))
      = (List.range (a * b)).map fun k => f (k / b) (k % b) := by
  induction a with
  | zero =>
    rw [Nat.zero_mul]
    rfl
  | succ a ih =>
    rw [List.range_succ, List.flatMap_append, ih, List.flatMap_singleton, Nat.succ_mul,
      List.range_add, List.map_append, List.map_map]
    congr 1
    refine List.map_congr_left fun j hj => ?_
    have hj := List.mem_range.mp hj
    rw [Function.comp_apply, Nat.mul_comm a b, Nat.mul_add_div hb, Nat.div_eq_of_lt hj,
      Nat.add_zero, Nat.mul_add_mod, Nat.mod_eq_of_lt hj]

theorem signature_recordIn (m : Memory) (n : Nat) {j : Nat} (hj : j < SIGNATURES_PER_RECORD) :
    (recordIn m n).signature j
      = m.load Signature.packed (recordAt n + 1 + j * Signature.packed.size) := by
  have hper : SIGNATURES_PER_RECORD = 3 := by decide
  have hsi : Signature.packed.size = 96 := by decide
  have hbo : recordBodySize = 351 := by decide
  have hroom : Signature.packed.size ≤ recordBodySize - j * Signature.packed.size := by
    rw [hsi, hbo]
    omega
  rw [GradidoRecord.signature, body_recordIn, Memory.drop_read, Memory.take_read hroom]
  rfl

namespace Translated

variable {t : ConsensusTopicResponse} {gt : GradidoTransaction} {tb : Proto.TransactionBody}
  {n : Nat} {buff : Memory}

/-- The record of the memo, if there is one. -/
def memoRecords (buff : Memory) (memo : Bytes) : List GradidoRecord :=
  if multipartMemo memo then [recordIn buff 1] else []

/-- The records of signatures. -/
def signatureRecords (buff : Memory) (gt : GradidoTransaction) (memo : Bytes) :
    List GradidoRecord :=
  (List.range (sigPartCount (signatureCount gt))).map fun i => recordIn buff (memoEnd memo + i)

variable (h : Translated t gt tb n buff)
include h

theorem records_eq : (List.range n).map (recordIn buff)
      = recordIn buff 0 :: (memoRecords buff tb.memo ++ signatureRecords buff gt tb.memo) := by
  rw [h.size, List.range_add, List.map_append, List.map_map]
  unfold memoRecords signatureRecords memoEnd
  cases multipartMemo tb.memo <;> rfl

theorem types_eq :
    ((List.range n).map (recordIn buff)).map GradidoRecord.recordType = GRADIDO_TRANSACTION ::
      ((if MEMO_MAIN_SIZE ≤ tb.memo.length then [MEMO] else []) ++
        List.replicate (sigPartCount (signatureCount gt)) SIGNATURES) := by
  have hme : (memoRecords buff tb.memo).map GradidoRecord.recordType
      = if MEMO_MAIN_SIZE ≤ tb.memo.length then [MEMO] else [] := by
    unfold memoRecords
    by_cases hmu : multipartMemo tb.memo = true
    · have hlong : MEMO_MAIN_SIZE ≤ tb.memo.length := Nat.le_of_pred_lt (of_decide_eq_true hmu)
      rw [if_pos hmu, if_pos hlong, List.map_singleton, h.memoType_eq hmu]
    · have hsh : ¬ MEMO_MAIN_SIZE ≤ tb.memo.length :=
        fun hlong => hmu (decide_eq_true (Nat.lt_of_lt_of_le (by decide) hlong))
      rw [if_neg hmu, if_neg hsh, List.map_nil]
  have hsi : (signatureRecords buff gt tb.memo).map GradidoRecord.recordType
      = List.replicate (sigPartCount (signatureCount gt)) SIGNATURES := by
    refine List.eq_replicate_iff.mpr ⟨by simp [signatureRecords], fun ty hty => ?_⟩
    obtain ⟨r, hr, rfl⟩ := List.mem_map.mp hty
    obtain ⟨i, hi, rfl⟩ := List.mem_map.mp hr
    rw [recordType_recordIn]
    exact h.types i (List.mem_range.mp hi)
  rw [h.records_eq, List.map_cons, List.map_append, hme, hsi, h.type_eq]

/-- The slots that are read, one after the other. -/
theorem slots_eq :
    ((((memoRecords buff tb.memo ++ signatureRecords buff gt tb.memo).filter
        fun p => p.recordType = SIGNATURES).flatMap GradidoRecord.slots).take
      (signatureCount gt - SIGNATURES_IN_MAIN_PART))
      = (List.range (signatureCount gt - 1)).map fun k =>
          buff.load Signature.packed (slotAt (memoEnd tb.memo) k) := by
  have hme : (memoRecords buff tb.memo).filter (fun p => p.recordType = SIGNATURES) = [] := by
    refine List.filter_eq_nil_iff.mpr fun r hr => ?_
    unfold memoRecords at hr
    split at hr
    · next hmu =>
      rw [List.mem_singleton.mp hr, h.memoType_eq hmu]
      decide
    · cases hr
  have hsi : (signatureRecords buff gt tb.memo).filter (fun p => p.recordType = SIGNATURES)
      = signatureRecords buff gt tb.memo := by
    refine List.filter_eq_self.mpr fun r hr => ?_
    obtain ⟨i, hi, rfl⟩ := List.mem_map.mp hr
    rw [recordType_recordIn]
    exact decide_eq_true (h.types i (List.mem_range.mp hi))
  have hroom : signatureCount gt - SIGNATURES_IN_MAIN_PART
      ≤ sigPartCount (signatureCount gt) * SIGNATURES_PER_RECORD :=
    Nat.sub_le_iff_le_add'.mpr (le_sigPartCount _)
  rw [List.filter_append, hme, hsi, List.nil_append, signatureRecords, List.flatMap_map]
  refine (congrArg (List.take _) (flatMap_range (by decide)
    (fun i j => (recordIn buff (memoEnd tb.memo + i)).signature j) _)).trans ?_
  rw [← List.map_take, List.take_range, Nat.min_eq_left hroom]
  refine List.map_congr_left fun k _ => ?_
  exact signature_recordIn buff _ (Nat.mod_lt _ (by decide))

/-- What is read back are the signatures made of the pairs, as many as a `uint8_t` counts. -/
theorem stored_eq (hin : ¬ Rejected gt) :
    storedSignatures ((List.range n).map (recordIn buff))
      = (gt.sigPair.take (signatureCount gt)).map signatureOf := by
  have hpos : 1 ≤ signatureCount gt := Nat.not_lt.mp (not_or.mp hin).1
  have hle : signatureCount gt ≤ gt.sigPair.length := signatureCount_le gt
  obtain ⟨first, hget, -, hfi⟩ := h.signature_eq
  rw [h.records_eq, storedSignatures, h.signatureCount_eq, h.slots_eq, hfi]
  refine List.ext_getElem ?_ fun i hi hi' => ?_
  · simp only [List.length_cons, List.length_map, List.length_range, List.length_take]
    omega
  · simp only [List.length_map, List.length_take] at hi'
    rw [List.getElem_map, List.getElem_take]
    cases i with
    | zero =>
      rw [List.getElem_cons_zero]
      obtain ⟨_, rfl⟩ := List.getElem?_eq_some_iff.mp hget
      rfl
    | succ k =>
      obtain ⟨p, hp, -, hlo⟩ := h.slots k (by omega)
      obtain ⟨_, rfl⟩ := List.getElem?_eq_some_iff.mp hp
      rw [List.getElem_cons_succ, List.getElem_map, List.getElem_range, hlo]

theorem signature_fits :
    ∀ p ∈ gt.sigPair.take (signatureCount gt), SignatureFits p := by
  intro p hp
  obtain ⟨i, hi, rfl⟩ := List.mem_take_iff_getElem.mp hp
  cases i with
  | zero =>
    obtain ⟨first, hget, hfits, -⟩ := h.signature_eq
    obtain ⟨_, rfl⟩ := List.getElem?_eq_some_iff.mp hget
    exact hfits
  | succ k =>
    obtain ⟨p, hp, hfits, -⟩ := h.slots k (by omega)
    obtain ⟨_, rfl⟩ := List.getElem?_eq_some_iff.mp hp
    exact hfits

/-- They are the pairs of the message just if there are not too many for a `uint8_t`, and all
have their lengths. -/
theorem stored_iff (hin : ¬ Rejected gt) :
    (storedSignatures ((List.range n).map (recordIn buff))).map pairOf = gt.sigPair ↔
      gt.sigPair.length < 256 ∧ ∀ p ∈ gt.sigPair, Sized p := by
  rw [h.stored_eq hin, List.map_map]
  constructor
  · intro heq
    have hlen := congrArg List.length heq
    rw [List.length_map, List.length_take, Nat.min_eq_left (signatureCount_le gt)] at hlen
    have hlt : gt.sigPair.length < 256 := by
      rw [← hlen]
      exact Nat.mod_lt _ (by decide)
    refine ⟨hlt, fun p hp => ?_⟩
    have hfits := h.signature_fits
    rw [hlen, List.take_length] at hfits heq
    have hse := List.map_eq_map_iff.mp (heq.trans (List.map_id _).symm) p hp
    exact (pairOf_signatureOf (hfits p hp)).mp hse
  · rintro ⟨hlt, hsi⟩
    have hcount : signatureCount gt = gt.sigPair.length := Nat.mod_eq_of_lt hlt
    have hfits := h.signature_fits
    rw [hcount, List.take_length] at hfits ⊢
    refine (List.map_eq_map_iff.mpr fun p hp => ?_).trans (List.map_id _)
    exact (pairOf_signatureOf (hfits p hp)).mpr (hsi p hp)

theorem translatable (hin : ¬ Rejected gt) (hhe : HeadFits t gt) :
    Translatable t gt tb where
  minimum := Nat.not_lt.mp (not_or.mp hin).1
  maximum := Nat.not_lt.mp (not_or.mp hin).2
  signatures := h.signature_fits
  runningHash := hhe.2
  data := h.data

end Translated

/-! ## The shape of a batch -/

section Batches

variable (parser : Parser) (t : ConsensusTopicResponse)

/-- The transaction in a message. -/
def messageOf : GradidoTransaction := parser.gradidoTransaction t.message

/-- The body of the transaction in a message. -/
def bodyOf : Proto.TransactionBody := parser.transactionBody (messageOf parser t).bodyBytes

variable {parser t}

theorem sigPartCount_eq (n : Nat) : sigPartCount n = (n - 1) ⌈/⌉ SIGNATURES_PER_RECORD := by
  have hper : SIGNATURES_PER_RECORD = 3 := by decide
  have hma : SIGNATURES_IN_MAIN_PART = 1 := rfl
  rw [sigPartCount, Nat.ceilDiv_eq_add_pred_div, hper, hma]
  split
  · omega
  · omega

/-- A message that gives records, with a memory that they are read from. -/
theorem exists_translated {records : List GradidoRecord} {reset : Bool}
    (h : translateFromCtr parser t = .ok ⟨some records, reset⟩) :
    ¬ Rejected (messageOf parser t) ∧ HeadFits t (messageOf parser t) ∧
      (bodyOf parser t).data.hasDebugResetBlockchainMark = false ∧
      ∃ n buff, records = (List.range n).map (recordIn buff) ∧
        Translated t (messageOf parser t) (bodyOf parser t) n buff :=
  translateFromCtr_some rfl rfl h

theorem exists_records (parser : Parser) (t : ConsensusTopicResponse)
    (h : Translatable t (messageOf parser t) (bodyOf parser t))
    (hma : (bodyOf parser t).data.hasDebugResetBlockchainMark = false) :
    ∃ records, translateFromCtr parser t = .ok ⟨some records, false⟩ := by
  obtain ⟨r, rest, hca, -⟩ := translateFromCtr_batch rfl rfl h hma
  exact ⟨r :: rest, hca⟩

/-- **Shape.**  A batch made of a message with 10 signatures at most has as many records as it says,
five at most, with the types in their order; and the signatures in it are the message's just if
all keys have 32 bytes and all signatures 64. -/
theorem shape_iff (parser : Parser) (t : ConsensusTopicResponse)
    (hmax : (messageOf parser t).sigPair.length ≤ MAXIMUM_SIGNATURE_COUNT)
    (records : List GradidoRecord) (h : translateFromCtr parser t = .ok ⟨some records, false⟩) :
    Shape (messageOf parser t) (bodyOf parser t).memo records ↔
      ∀ p ∈ (messageOf parser t).sigPair, Sized p := by
  obtain ⟨hin, -, -, n, buff, rfl, htr⟩ := exists_translated h
  have hma : MAXIMUM_SIGNATURE_COUNT = 10 := by decide
  have hlt : (messageOf parser t).sigPair.length < 256 := by omega
  have hcount : signatureCount (messageOf parser t) = (messageOf parser t).sigPair.length :=
    Nat.mod_eq_of_lt hlt
  have hst := htr.stored_iff hin
  refine ⟨fun hsh => (hst.mp hsh.signatures).2, fun hsi => ?_⟩
  have hpa := sigPartCount_le (Nat.not_lt.mp (not_or.mp hin).2)
  have hme : memoEnd (bodyOf parser t).memo ≤ 2 := Nat.add_le_add_left (Bool.toNat_le _) 1
  have hsize : n ≤ MAX_RECORD_PARTS := by
    rw [htr.size]
    exact Nat.add_le_add hme hpa
  refine ⟨⟨recordIn buff 0, ?_, ?_⟩, ?_, ?_, hst.mpr ⟨hlt, hsi⟩⟩
  · rw [htr.records_eq]
    rfl
  · rw [htr.parts_eq, List.length_map, List.length_range]
    exact UInt32.toNat_ofNat_of_lt' (Nat.lt_of_le_of_lt hsize (by decide))
  · rw [List.length_map, List.length_range]
    exact hsize
  · rw [htr.types_eq, hcount, sigPartCount_eq]

end Batches

/-- A parser that finds the same in every message. -/
def finding (sigPair : List SignaturePair) (memo : Bytes) (data : Data) : Parser where
  gradidoTransaction _ := ⟨sigPair, []⟩
  transactionBody _ := ⟨memo, 1, data⟩

/-- A message with a running hash. -/
def response : ConsensusTopicResponse where
  consensusTimestamp := ⟨0, 0⟩
  message := []
  runningHash := List.replicate HEDERA_RUNNING_HASH_LENGTH 0
  sequenceNumber := 0
  runningHashVersion := 0

/-- A pair with a key and a signature of these lengths. -/
def pairOfLengths (pubKey ed25519 : Nat) : SignaturePair :=
  ⟨List.replicate pubKey 1, List.replicate ed25519 2⟩

/-- Five signatures and a long memo: four records. -/
theorem shape_fiveSignatures :
    ∃ records, translateFromCtr (finding (List.replicate 5 (pairOfLengths 32 64))
        (List.replicate 20 97) .notSet) response = .ok ⟨some records, false⟩ ∧
      Shape ⟨List.replicate 5 (pairOfLengths 32 64), []⟩ (List.replicate 20 97) records := by
  obtain ⟨records, h⟩ := exists_records (finding (List.replicate 5 (pairOfLengths 32 64))
    (List.replicate 20 97) .notSet) response (by decide +kernel) rfl
  exact ⟨records, h, (shape_iff _ _ (by decide) records h).mpr (by decide +kernel)⟩

/-- A key of 33 bytes: the signature that is read back is another one. -/
theorem signature_cut :
    ∃ records, translateFromCtr (finding [pairOfLengths 33 64] [] .notSet) response
        = .ok ⟨some records, false⟩ ∧
      (storedSignatures records).map pairOf ≠ [pairOfLengths 33 64] := by
  obtain ⟨records, h⟩ := exists_records (finding [pairOfLengths 33 64] [] .notSet) response
    (by decide +kernel) rfl
  obtain ⟨hin, -, -, n, buff, rfl, htr⟩ := exists_translated h
  refine ⟨_, h, fun heq => ?_⟩
  have hsi := ((htr.stored_iff hin).mp heq).2
  exact absurd (hsi _ List.mem_cons_self).1 (by decide)

/-! ## No signature is lost -/

section Batches

variable {parser : Parser} {t : ConsensusTopicResponse}

/-- As many signatures as a transaction may have. -/
def InRange (gt : GradidoTransaction) : Prop :=
  MINIMUM_SIGNATURE_COUNT ≤ gt.sigPair.length ∧ gt.sigPair.length ≤ MAXIMUM_SIGNATURE_COUNT

instance (gt : GradidoTransaction) : Decidable (InRange gt) := inferInstanceAs (Decidable (_ ∧ _))

/-- A batch with records has all pairs in it, as many as there may be; any other number of pairs
is rejected. -/
structure SignaturesKept (parser : Parser) (t : ConsensusTopicResponse) : Prop where
  stored : ∀ records reset, translateFromCtr parser t = .ok ⟨some records, reset⟩ →
    InRange (messageOf parser t) ∧
      (storedSignatures records).map pairOf = (messageOf parser t).sigPair
  rejected : ¬ InRange (messageOf parser t) → translateFromCtr parser t = .ok ⟨none, true⟩

/-- The pairs of a message that is translated have their lengths, and a number of pairs that is
out of range is so in a `uint8_t`, unless there is a reset mark. -/
structure SignaturesSound (t : ConsensusTopicResponse) (gt : GradidoTransaction)
    (tb : Proto.TransactionBody) : Prop where
  sized : InRange gt → Translatable t gt tb → tb.data.hasDebugResetBlockchainMark = false →
    ∀ p ∈ gt.sigPair, Sized p
  counted : ¬ InRange gt →
    Rejected gt ∨ (HeadFits t gt ∧ tb.data.hasDebugResetBlockchainMark = true)

/-- **No signature is dropped**, just if the message is sound. -/
theorem signaturesKept_iff (parser : Parser) (t : ConsensusTopicResponse) :
    SignaturesKept parser t ↔ SignaturesSound t (messageOf parser t) (bodyOf parser t) := by
  have hno : translateFromCtr parser t = .ok ⟨none, true⟩ ↔ Rejected (messageOf parser t) ∨
      (HeadFits t (messageOf parser t) ∧
        (bodyOf parser t).data.hasDebugResetBlockchainMark = true) :=
    translateFromCtr_none_iff rfl rfl
  constructor
  · intro hke
    refine ⟨fun _ htn hma => ?_, fun hout => hno.mp (hke.rejected hout)⟩
    obtain ⟨records, h⟩ := exists_records parser t htn hma
    obtain ⟨hin, -, -, n, buff, rfl, htr⟩ := exists_translated h
    exact ((htr.stored_iff hin).mp (hke.stored _ _ h).2).2
  · intro hso
    refine ⟨fun records reset h => ?_, fun hout => hno.mpr (hso.counted hout)⟩
    obtain ⟨hin, hhe, hma, n, buff, rfl, htr⟩ := exists_translated h
    have hra : InRange (messageOf parser t) := by
      by_contra hout
      rcases hso.counted hout with hre | ⟨-, hma'⟩
      · exact hin hre
      · cases hma.symm.trans hma'
    refine ⟨hra, (htr.stored_iff hin).mpr ⟨?_, ?_⟩⟩
    · exact Nat.lt_of_le_of_lt hra.2 (by decide)
    · exact hso.sized hra (htr.translatable hin hhe) hma

end Batches

/-- Of 257 pairs one is stored. -/
theorem signatures_dropped :
    ∃ records, translateFromCtr (finding (List.replicate 257 (pairOfLengths 32 64)) [] .notSet)
        response = .ok ⟨some records, false⟩ ∧ (storedSignatures records).length = 1 := by
  obtain ⟨records, h⟩ := exists_records
    (finding (List.replicate 257 (pairOfLengths 32 64)) [] .notSet) response
    (by decide +kernel) rfl
  obtain ⟨hin, -, -, n, buff, rfl, htr⟩ := exists_translated h
  refine ⟨_, h, ?_⟩
  rw [htr.stored_eq hin, List.length_map]
  decide +kernel

/-! ## The memo -/

/-- The memo in a record of its own. -/
def GradidoRecord.memo (r : GradidoRecord) : Bytes := r.body.toList.take MEMO_PART_SIZE

/-- A string, up to its NUL or the end of the array. -/
def text (bs : Bytes) : Bytes := bs.takeWhile (· ≠ 0)

/-- The memo of a transaction. -/
def recoverMemo : List GradidoRecord → Bytes
  | [] => []
  | r :: rest =>
    let field := r.transaction.memo.toList
    if 0 ∈ field then text field
    else field ++ ((rest.find? fun p => p.recordType = MEMO).map fun p => text p.memo).getD []

/-- What the group name leaves behind the union. -/
def spill (data : Data) : Memory := blank.writes (groupWrite data)

/-- The byte behind the memo is a NUL.  One that is cut is whole only if the byte that was cut
off is there. -/
def MemoKept (data : Data) (memo : Bytes) : Prop :=
  if memo.length < MEMO_MAIN_SIZE then spill data (memoAt + memo.length) = 0
  else if memo.length ≤ MEMO_MAIN_SIZE + (MEMO_PART_SIZE - 1) then
    spill data (recordAt 1 + 1 + (memo.length - MEMO_MAIN_SIZE)) = 0
  else memo.drop (MEMO_MAIN_SIZE + (MEMO_PART_SIZE - 1))
    = [spill data (recordAt 1 + 1 + (MEMO_PART_SIZE - 1))]

instance (data : Data) (memo : Bytes) : Decidable (MemoKept data memo) :=
  inferInstanceAs (Decidable (ite _ _ _))

theorem text_append {bs rest : Bytes} (h : 0 ∉ bs) : text (bs ++ rest) = bs ++ text rest := by
  refine List.takeWhile_append_of_pos fun b hb => ?_
  exact decide_eq_true fun heq => h (heq ▸ hb)

theorem text_eq_nil_iff {b : UInt8} {bs : Bytes} : text (b :: bs) = [] ↔ b = 0 := by
  rw [text, List.takeWhile_cons]
  by_cases hb : b = 0
  · simp [hb]
  · simp [hb]

theorem text_singleton {b : UInt8} (h : b ≠ 0) : text [b] = [b] := by
  have hmi : 0 ∉ [b] := fun hze => h (List.mem_singleton.mp hze).symm
  have hap : text ([b] ++ []) = [b] ++ text [] := text_append hmi
  exact hap

/-- Behind what was written of an array there is what was there. -/
theorem read_tail {m : Memory} {off len : Nat} {bs : Bytes} (h : bs.length < len) :
    (m.read off len).drop bs.length
      = m (off + bs.length) :: (m.read off len).drop (bs.length + 1) := by
  have hlen : bs.length < (m.read off len).length := by
    rw [Memory.length_read]
    exact h
  rw [List.drop_eq_getElem_cons hlen, Memory.getElem_read]

/-- Behind the union there is nothing but what the group name left. -/
theorem spill_eq (t : ConsensusTopicResponse) (gt : GradidoTransaction) (tb : Proto.TransactionBody)
    (first : SignaturePair) {a : Nat} (ha : resultAt ≤ a) :
    (blank.writes (headWrites t gt tb first ++ dataWrites tb.data)) a = spill tb.data a := by
  rw [dataWrites, ← List.append_assoc, Memory.writes_append]
  refine Memory.writes_congr (Memory.writes_apart fun w hw => ?_)
  rcases List.mem_append.mp hw with hw | hw
  · exact .inl (Nat.le_trans (headWrites_below t gt tb first w hw) (Nat.le_trans (by decide) ha))
  · exact .inl (Nat.le_trans (fieldWrites_inUnion _ w hw).2 ha)

theorem length_memoMain (memo : Bytes) :
    (memoMain memo).length = min memo.length MEMO_MAIN_SIZE := by
  unfold memoMain multipartMemo
  by_cases hlong : MEMO_MAIN_SIZE - 1 < memo.length
  · rw [if_pos (decide_eq_true hlong), List.length_take, Nat.min_comm]
  · rw [if_neg fun h => hlong (of_decide_eq_true h)]
    omega

namespace Translated

variable {t : ConsensusTopicResponse} {gt : GradidoTransaction} {tb : Proto.TransactionBody}
  {n : Nat} {buff : Memory} (h : Translated t gt tb n buff)
include h

/-- The field of the memo: the memo as far as it goes, and what was there. -/
theorem memoField_eq :
    (recordIn buff 0).transaction.memo.toList = memoMain tb.memo ++
      ((spill tb.data).read memoAt MEMO_MAIN_SIZE).drop (memoMain tb.memo).length := by
  obtain ⟨first, -, -, hfr⟩ := h.main
  have hend : memoAt + MEMO_MAIN_SIZE ≤ recordAt 1 := by decide
  have hlen := length_memoMain tb.memo
  have hfi : (recordIn buff 0).transaction.memo.toList = buff.read memoAt MEMO_MAIN_SIZE := by
    rw [transaction_main]
    exact Packed.toList_read_array (Memory.length_read _ _ _)
  have hre : ((blank.writes (headWrites t gt tb first ++ dataWrites tb.data)).write resultAt
      [UNKNOWN]).read memoAt MEMO_MAIN_SIZE = (spill tb.data).read memoAt MEMO_MAIN_SIZE := by
    refine Memory.read_congr fun a hlo _ => ?_
    rw [Memory.write_outside (.inr (Nat.le_trans (by decide) hlo))]
    exact spill_eq t gt tb first (Nat.le_trans (by decide) hlo)
  rw [hfi, hfr.read (Nat.le_trans hend (recordAt_memoEnd tb.memo)), mainWrites,
    ← List.append_assoc, Memory.writes_append, Memory.writes_append,
    Memory.read_writes_apart fun w hw => .inr (Nat.le_trans hend (memoWrites_above _ w hw)),
    tailWrites]
  simp only [Memory.writes]
  rw [Memory.read_write_apart (Memory.apart_below Packed.uint32 (by decide)),
    Memory.read_write_here (by omega), hre]

/-- The record of the memo: the rest of it, and what was there. -/
theorem memoRecord_eq (hmu : multipartMemo tb.memo = true) :
    (recordIn buff 1).memo = memoRest tb.memo ++
      ((spill tb.data).read (recordAt 1 + 1) MEMO_PART_SIZE).drop (memoRest tb.memo).length := by
  obtain ⟨first, -, -, hfr⟩ := h.main
  rw [memoEnd, hmu] at hfr
  have hlen : (memoRest tb.memo).length ≤ MEMO_PART_SIZE - 1 := List.length_take_le _ _
  have hre : (recordIn buff 1).memo = buff.read (recordAt 1 + 1) MEMO_PART_SIZE := by
    rw [GradidoRecord.memo, body_recordIn, Memory.take_read (by decide)]
  have hta : ∀ w ∈ tailWrites gt tb.memo, w.1 + w.2.length ≤ recordAt 1 := by
    have hma := length_memoMain tb.memo
    have hroom : memoAt + MEMO_MAIN_SIZE ≤ recordAt 1 := by decide
    simp only [tailWrites, List.forall_mem_cons, Packed.uint32.length_write]
    exact ⟨by decide, by omega, by decide, List.forall_mem_nil _⟩
  have hrs : (((blank.writes (headWrites t gt tb first ++ dataWrites tb.data)).writes
      (tailWrites gt tb.memo)).write (recordAt 1) [MEMO]).read (recordAt 1 + 1) MEMO_PART_SIZE
      = (spill tb.data).read (recordAt 1 + 1) MEMO_PART_SIZE := by
    refine Memory.read_congr fun a hlo _ => ?_
    rw [Memory.write_outside (.inr hlo), Memory.writes_apart fun w hw =>
      .inl (Nat.le_trans (hta w hw) (Nat.le_of_succ_le hlo))]
    exact spill_eq t gt tb first (Nat.le_trans (by decide) hlo)
  rw [hre, hfr.read (by decide), mainWrites, memoWrites, if_pos hmu,
    ← List.append_assoc, Memory.writes_append, Memory.writes_append]
  simp only [Memory.writes]
  rw [Memory.read_write_here (Nat.le_trans hlen (Nat.sub_le _ _)), hrs]

theorem recoverMemo_short_iff (hme : 0 ∉ tb.memo)
    (hsh : tb.memo.length < MEMO_MAIN_SIZE) :
    recoverMemo ((List.range n).map (recordIn buff)) = tb.memo ↔
      spill tb.data (memoAt + tb.memo.length) = 0 := by
  have hma : memoMain tb.memo = tb.memo := by
    refine if_neg fun hmu => ?_
    exact absurd (of_decide_eq_true hmu) (by omega)
  have hfi := h.memoField_eq
  rw [hma, read_tail hsh] at hfi
  rw [h.records_eq, recoverMemo, hfi]
  split
  · rw [text_append hme, List.append_right_eq_self, text_eq_nil_iff]
  · next hno =>
    refine iff_of_false (fun heq => ?_) fun hze => hno ?_
    · have hlen := congrArg List.length heq
      simp only [List.length_append, List.length_cons] at hlen
      omega
    · rw [hze]
      exact List.mem_append_right _ List.mem_cons_self

theorem recoverMemo_long (hme : 0 ∉ tb.memo)
    (hlong : MEMO_MAIN_SIZE ≤ tb.memo.length) :
    recoverMemo ((List.range n).map (recordIn buff)) = tb.memo ↔
      text (((spill tb.data).read (recordAt 1 + 1) MEMO_PART_SIZE).drop
        (memoRest tb.memo).length) = tb.memo.drop (MEMO_MAIN_SIZE + (MEMO_PART_SIZE - 1)) := by
  have hmu : multipartMemo tb.memo = true := decide_eq_true (Nat.lt_of_lt_of_le (by decide) hlong)
  have hma : memoMain tb.memo = tb.memo.take MEMO_MAIN_SIZE := if_pos hmu
  have hlen : (tb.memo.take MEMO_MAIN_SIZE).length = MEMO_MAIN_SIZE := by
    rw [List.length_take]
    exact Nat.min_eq_left hlong
  have hfi : (recordIn buff 0).transaction.memo.toList = tb.memo.take MEMO_MAIN_SIZE := by
    rw [h.memoField_eq, hma, hlen, List.drop_of_length_le
      (Nat.le_of_eq (Memory.length_read _ _ _)), List.append_nil]
  have hmi : 0 ∉ tb.memo.take MEMO_MAIN_SIZE := fun hze => hme (List.mem_of_mem_take hze)
  have hre : 0 ∉ memoRest tb.memo :=
    fun hze => hme (List.mem_of_mem_drop (List.mem_of_mem_take hze))
  have hfn : (memoRecords buff tb.memo ++ signatureRecords buff gt tb.memo).find?
      (fun p => p.recordType = MEMO) = some (recordIn buff 1) := by
    rw [memoRecords, if_pos hmu, List.singleton_append]
    exact List.find?_cons_of_pos (decide_eq_true (h.memoType_eq hmu))
  have hsp : tb.memo = tb.memo.take MEMO_MAIN_SIZE ++
      (memoRest tb.memo ++ tb.memo.drop (MEMO_MAIN_SIZE + (MEMO_PART_SIZE - 1))) := by
    rw [← List.drop_drop, memoRest, List.take_append_drop, List.take_append_drop]
  rw [h.records_eq, recoverMemo, hfi, if_neg hmi, hfn, Option.map_some, Option.getD_some,
    h.memoRecord_eq hmu, text_append hre]
  conv_lhs => rhs; rw [hsp]
  rw [List.append_right_inj, List.append_right_inj]

/-- What is read back is the memo, just if the byte behind it is a NUL. -/
theorem recoverMemo_iff (hme : 0 ∉ tb.memo) :
    recoverMemo ((List.range n).map (recordIn buff)) = tb.memo ↔ MemoKept tb.data tb.memo := by
  unfold MemoKept
  split
  · next hsh => exact h.recoverMemo_short_iff hme hsh
  · next hlong =>
    have hpa : MEMO_PART_SIZE = 351 := by decide
    have hre : (memoRest tb.memo).length
        = min (MEMO_PART_SIZE - 1) (tb.memo.length - MEMO_MAIN_SIZE) := by
      rw [memoRest, List.length_take, List.length_drop]
    rw [h.recoverMemo_long hme (Nat.not_lt.mp hlong), read_tail (by omega)]
    split
    · next hwh =>
      rw [List.drop_of_length_le hwh, text_eq_nil_iff, hre, Nat.min_eq_right (by omega)]
    · next hcut =>
      rw [hre, Nat.min_eq_left (by omega), List.drop_of_length_le
        (show (Memory.read _ _ _).length ≤ _ by rw [Memory.length_read]; omega)]
      by_cases hze : spill tb.data (recordAt 1 + 1 + (MEMO_PART_SIZE - 1)) = 0
      · refine iff_of_false (fun heq => ?_) fun heq => ?_
        · rw [text_eq_nil_iff.mpr hze] at heq
          exact hcut (List.drop_eq_nil_iff.mp heq.symm)
        · refine hme (List.mem_of_mem_drop (i := MEMO_MAIN_SIZE + (MEMO_PART_SIZE - 1)) ?_)
          rw [heq, hze]
          exact List.mem_singleton_self 0
      · rw [text_singleton hze]
        exact eq_comm

end Translated

section Batches

variable {parser : Parser} {t : ConsensusTopicResponse}

/-- What is read back from a batch. -/
theorem recovered_iff {records : List GradidoRecord} {reset : Bool}
    (h : translateFromCtr parser t = .ok ⟨some records, reset⟩)
    (hme : 0 ∉ (bodyOf parser t).memo) :
    recoverMemo records = (bodyOf parser t).memo ↔
      MemoKept (bodyOf parser t).data (bodyOf parser t).memo := by
  obtain ⟨-, -, -, n, buff, rfl, htr⟩ := exists_translated h
  exact htr.recoverMemo_iff hme

/-- The message is rejected, or the memo can be read back from its batch. -/
def MemoRecovered (parser : Parser) (t : ConsensusTopicResponse) : Prop :=
  translateFromCtr parser t = .ok ⟨none, true⟩ ∨
    ∃ records reset, translateFromCtr parser t = .ok ⟨some records, reset⟩ ∧
      recoverMemo records = (bodyOf parser t).memo

/-- **The memo.**  A memo without NUL is recovered, or the message rejected, just if the
signature count or a reset mark rejects it, or what it copies is there and the byte behind the
memo is a NUL. -/
theorem memoRecovered_iff (parser : Parser) (t : ConsensusTopicResponse)
    (hmemo : 0 ∉ (bodyOf parser t).memo) :
    MemoRecovered parser t ↔ (Rejected (messageOf parser t) ∨ (HeadFits t (messageOf parser t) ∧
        (bodyOf parser t).data.hasDebugResetBlockchainMark = true)) ∨
      (Translatable t (messageOf parser t) (bodyOf parser t) ∧
        (bodyOf parser t).data.hasDebugResetBlockchainMark = false ∧
        MemoKept (bodyOf parser t).data (bodyOf parser t).memo) := by
  refine or_congr (translateFromCtr_none_iff rfl rfl) ⟨?_, ?_⟩
  · rintro ⟨records, reset, h, hre⟩
    have hke := (recovered_iff h hmemo).mp hre
    obtain ⟨hin, hhe, hma, n, buff, rfl, htn⟩ := exists_translated h
    exact ⟨htn.translatable hin hhe, hma, hke⟩
  · rintro ⟨htr, hma, hke⟩
    obtain ⟨records, h⟩ := exists_records parser t htr hma
    exact ⟨records, false, h, (recovered_iff h hmemo).mpr hke⟩

end Batches

/-- The longest memo that is kept. -/
theorem memo_longest :
    MemoRecovered (finding [pairOfLengths 32 64] (List.replicate 366 97) .notSet) response :=
  (memoRecovered_iff (finding [pairOfLengths 32 64] (List.replicate 366 97) .notSet) response
    (by decide +kernel)).mpr (.inr (by decide +kernel))

/-- One byte more, and it is cut. -/
theorem memo_cut :
    ∃ records, translateFromCtr (finding [pairOfLengths 32 64] (List.replicate 367 97) .notSet)
        response = .ok ⟨some records, false⟩ ∧ recoverMemo records ≠ List.replicate 367 97 := by
  obtain ⟨records, h⟩ := exists_records
    (finding [pairOfLengths 32 64] (List.replicate 367 97) .notSet) response (by decide +kernel) rfl
  refine ⟨records, h, (not_congr (recovered_iff h ?_)).mpr ?_⟩
  · decide +kernel
  · decide +kernel

end GradidoNode.Wire
