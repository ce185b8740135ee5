/-
# `GradidoNode.Wire.Meaning` — records as the ledger reads them

The ledger and the chains are modelled over the transactions of
`GradidoNode.Ledger.Transaction`: the type selects a member of the union, and the fields
nobody reads are left out.  Here these are read from the bytes of a record.

A batch of records is, for the chain, the transaction in `buff[0]` and the kinds of the
records behind it (`asBatch`).  For what the translation makes of a message nothing else is
lost: the records mean what the batch stores (`translated_means`).
-/
import GradidoNode.Base.BlockchainGradido
import GradidoNode.Wire.Writes

namespace GradidoNode.Wire

open Lib

/-! ## Transactions -/

/-- A member of the union. -/
def Transaction.member {α : Type} (P : Packed α) (t : Transaction) : α :=
  P.read (t.operation.toList.take P.size)

def asUserTransfer (p : PubKey × GradidoValue × UInt64) : UserTransfer := ⟨p.1, p.2.1, p.2.2⟩

def asPaired (p : HederaTimestamp × Vector UInt8 32) : PairedTransaction := ⟨p.1, p.2⟩

def asMoveUser (p : PubKey × (HederaTimestamp × Vector UInt8 32) × GradidoValue × UInt64) :
    MoveUser :=
  { toUserTransfer := ⟨p.1, p.2.2.1, p.2.2.2⟩, toPairedTransaction := asPaired p.2.1 }

/-- The member of the union that `transaction_type` selects. -/
def Transaction.body (t : Transaction) : TransactionBody :=
  if t.transactionType = GRADIDO_CREATION then
    let c := t.member gradidoCreation
    .gradidoCreation ⟨asUserTransfer c.1, c.2⟩
  else if t.transactionType = ADD_GROUP_FRIEND then .addGroupFriend (t.member friendUpdate)
  else if t.transactionType = REMOVE_GROUP_FRIEND then .removeGroupFriend (t.member friendUpdate)
  else if t.transactionType = ADD_USER then .addUser (t.member addUser)
  else if t.transactionType = MOVE_USER_INBOUND then .moveUserInbound (asMoveUser (t.member moveUser))
  else if t.transactionType = MOVE_USER_OUTBOUND then
    .moveUserOutbound (asMoveUser (t.member moveUser))
  else if t.transactionType = LOCAL_TRANSFER then
    let lt := t.member localTransfer
    .localTransfer ⟨lt.1, asUserTransfer lt.2.1, asUserTransfer lt.2.2⟩
  else if t.transactionType = INBOUND_TRANSFER then
    let lt := t.member inboundTransfer
    .inboundTransfer ⟨asPaired lt.2.1, lt.1, lt.2.2.1, asUserTransfer lt.2.2.2⟩
  else if t.transactionType = OUTBOUND_TRANSFER then
    let lt := t.member outboundTransfer
    .outboundTransfer ⟨asPaired lt.2.1, lt.1, asUserTransfer lt.2.2.1, lt.2.2.2⟩
  else .other t.transactionType

/-- The values of `TransactionResult`, in order. -/
def transactionResults : List TransactionResult :=
  [.success, .unknown, .notEnoughGradidos, .unknownLocalUser, .unknownRemoteUser, .unknownGroup,
    .outboundTransactionFailed, .userAlreadyExists, .groupIsAlreadyFriend, .groupIsNotFriend]

/-- What the ledger reads of a transaction.  A result byte without a name is not decided. -/
def Transaction.meaning (t : Transaction) : GradidoNode.Transaction where
  sequenceNumber := t.hederaTransaction.sequenceNumber
  consensusTimestamp := t.hederaTransaction.consensusTimestamp
  body := t.body
  result := transactionResults.getD t.result.toNat .unknown

/-! ## Records and batches -/

/-- The kind of a record, and the transaction in it. -/
def GradidoRecord.meaning (r : GradidoRecord) : GradidoNode.GradidoRecord :=
  if r.recordType = GRADIDO_TRANSACTION then .gradidoTransaction r.transaction.meaning
  else if r.recordType = MEMO then .memo
  else if r.recordType = SIGNATURES then .signatures
  else if r.recordType = 4 then .structurallyBadMessage
  else if r.recordType = 5 then .rawMessage
  else .blank

/-- A record behind the first: the translation makes two kinds of these. -/
def GradidoRecord.part (r : GradidoRecord) : Part :=
  if r.recordType = MEMO then .memo else .signatures

/-- The records of a batch as the chain takes them. -/
def asBatch : List GradidoRecord → Option GradidoBatch
  | [] => none
  | r :: rest => some ⟨r.transaction.meaning, rest.map GradidoRecord.part⟩

theorem GradidoRecord.meaning_part {r : GradidoRecord}
    (h : r.recordType = MEMO ∨ r.recordType = SIGNATURES) : r.meaning = r.part.record := by
  rcases h with h | h
  · rw [meaning, part, h]
    rfl
  · rw [meaning, part, h]
    rfl

theorem meaning_batch {r : GradidoRecord} {rest : List GradidoRecord}
    (htype : r.recordType = GRADIDO_TRANSACTION)
    (hre : ∀ p ∈ rest, p.recordType = MEMO ∨ p.recordType = SIGNATURES) :
    (r :: rest).map GradidoRecord.meaning
      = Chain.batch r.transaction.meaning (rest.map GradidoRecord.part) := by
  rw [List.map_cons, Chain.batch, List.map_map]
  congr 1
  · rw [GradidoRecord.meaning, if_pos htype]
  · exact List.map_congr_left fun p hp => GradidoRecord.meaning_part (hre p hp)

/-- A message that is translated is a batch with its number; the records mean what the
batch stores. -/
theorem translated_means {parser : Proto.Parser} {t : ConsensusTopicResponse}
    {gt : Proto.GradidoTransaction} {tb : Proto.TransactionBody}
    (hgt : parser.gradidoTransaction t.message = gt)
    (htb : parser.transactionBody gt.bodyBytes = tb) (h : Translatable t gt tb)
    (hma : tb.data.hasDebugResetBlockchainMark = false) :
    ∃ records b, translateFromCtr parser t = .ok ⟨some records, false⟩ ∧ asBatch records = some b ∧
      records.map GradidoRecord.meaning = Chain.batch b.transaction b.parts ∧
      b.transaction.sequenceNumber = t.sequenceNumber := by
  obtain ⟨r, rest, htr, htype, hhe, hre⟩ := translateFromCtr_batch hgt htb h hma
  exact ⟨r :: rest, _, htr, rfl, meaning_batch htype hre, hhe.1⟩

end GradidoNode.Wire
