/-
# `GradidoNode.Wire.Translate` — a message of the ledger service as records

`TransactionUtils::translate_from_ctr`, for group chains.  A message carries a
`GradidoTransaction` with a `TransactionBody` in it; the translation fills `buff`, 100
records of zeros, and copies as many of them as it used into the batch:

    0            GRADIDO_TRANSACTION   always
    1            MEMO                  if the memo has `MEMO_MAIN_SIZE` bytes or more
    then         SIGNATURES            three signatures each, behind the first one

Protobuf is a parameter: some message for every byte string.  A member that is not set
has its default, and an enumeration may have any value.

**Memory.**  `buff` is flat memory.  A group name is copied with its own length, so one
longer than its field goes on into what follows (`copyGroup`).  What is copied with a
fixed length is read from `c_str`, which ends one byte behind the string.  Reading behind
it, writing behind `buff`, and the conversion of an amount that is no `uint64_t` are
undefined.

**What comes out.**  An exception, and the reset mark, give a batch without records that
resets the chain.  `Translatable` says which messages give records.
-/
import GradidoNode.Lib.Memory
import GradidoNode.Wire.PairedTransaction
import Mathlib.Data.Rat.Defs

namespace GradidoNode

/-! ## Messages -/

namespace Proto

/-- A `double`. -/
inductive Double where
  | finite (value : ℚ)
  | notFinite

/-- The conversion to `uint64_t`; `none` where it is undefined. -/
def Double.toUInt64 : Double → Option UInt64
  | .finite value =>
    let whole := value.num.tdiv value.den
    if 0 ≤ whole ∧ whole < 2 ^ 64 then some (UInt64.ofNat whole.toNat) else none
  | .notFinite => none

structure SignaturePair where
  pubKey : Bytes
  ed25519 : Bytes

structure Amount where
  pubkey : Bytes
  amount : Double

structure LocalTransfer where
  sender : Amount
  receiver : Bytes

structure CrossGroupTransfer where
  sender : Amount
  receiver : Bytes
  otherGroup : Bytes
  pairedTransactionId : HederaTimestamp

inductive GradidoTransfer where
  | localTransfer (transfer : LocalTransfer)
  | inbound (transfer : CrossGroupTransfer)
  | outbound (transfer : CrossGroupTransfer)
  | notSet

structure GroupFriendsUpdate where
  group : Bytes
  action : Int32

structure GroupMemberUpdate where
  userPubkey : Bytes
  memberUpdateType : Int32
  pairedTransactionId : HederaTimestamp
  targetGroup : Bytes

structure GradidoCreation where
  receiver : Amount

/-- The member `data` of a `TransactionBody`. -/
inductive Data where
  | transfer (transfer : GradidoTransfer)
  | creation (creation : GradidoCreation)
  | groupFriendsUpdate (update : GroupFriendsUpdate)
  | groupMemberUpdate (update : GroupMemberUpdate)
  | debugResetBlockchainMark
  /-- header, add_admin, remove_admin, add_node, remove_node, initialization_done -/
  | other
  | notSet

def Data.hasDebugResetBlockchainMark : Data → Bool
  | .debugResetBlockchainMark => true
  | _ => false

structure TransactionBody where
  memo : Bytes
  versionNumber : UInt64
  data : Data

structure GradidoTransaction where
  sigPair : List SignaturePair
  bodyBytes : Bytes

/-- `ParseFromString`, of the two messages. -/
structure Parser where
  gradidoTransaction : Bytes → GradidoTransaction
  transactionBody : Bytes → TransactionBody

end Proto

structure ConsensusTopicResponse where
  consensusTimestamp : HederaTimestamp
  message : Bytes
  runningHash : Bytes
  sequenceNumber : UInt64
  runningHashVersion : UInt64

namespace Wire

open Lib Proto

/-! ## Types and places -/

/-- `GradidoRecordType::MEMO`. -/
def MEMO : UInt8 := 2

/-- `GradidoRecordType::SIGNATURES`. -/
def SIGNATURES : UInt8 := 3

/-- The nine values of `TransactionType` that messages have. -/
def GRADIDO_CREATION : UInt8 := 1
def ADD_GROUP_FRIEND : UInt8 := 2
def REMOVE_GROUP_FRIEND : UInt8 := 3
def ADD_USER : UInt8 := 4
def MOVE_USER_INBOUND : UInt8 := 5
def MOVE_USER_OUTBOUND : UInt8 := 6
def LOCAL_TRANSFER : UInt8 := 7
def INBOUND_TRANSFER : UInt8 := 8
def OUTBOUND_TRANSFER : UInt8 := 9

/-- `TransactionResult::UNKNOWN`. -/
def UNKNOWN : UInt8 := 1

/-- `MAX_RECORD_PARTS`. -/
def MAX_RECORD_PARTS : Nat := 5

/-- `NON_SIGNATURE_PARTS`. -/
def NON_SIGNATURE_PARTS : Nat := 2

/-- `SIGNATURES_IN_MAIN_PART`. -/
def SIGNATURES_IN_MAIN_PART : Nat := 1

/-- `MINIMUM_SIGNATURE_COUNT`. -/
def MINIMUM_SIGNATURE_COUNT : Nat := 1

/-- `MAXIMUM_SIGNATURE_COUNT`. -/
def MAXIMUM_SIGNATURE_COUNT : Nat :=
  SIGNATURES_PER_RECORD * (MAX_RECORD_PARTS - NON_SIGNATURE_PARTS) + SIGNATURES_IN_MAIN_PART

/-- The bytes of `buff`. -/
def BUFF_SIZE : Nat := 100 * GradidoRecord.packed.size

/-- Where record `n` is. -/
def recordAt (n : Nat) : Nat := n * GradidoRecord.packed.size

/-- Where the members of the transaction in record 0 are. -/
def versionNumberAt : Nat := 1
def partsAt : Nat := versionNumberAt + Packed.uint32.size
def hederaTransactionAt : Nat := partsAt + Packed.uint32.size + hederaTimestamp.size
def signatureAt : Nat := hederaTransactionAt + HederaTransaction.packed.size
def signatureCountAt : Nat := signatureAt + Signature.packed.size
def transactionTypeAt : Nat := signatureCountAt + 1
def operationAt : Nat := transactionTypeAt + 1
def resultAt : Nat := operationAt + operationSize
def memoAt : Nat := resultAt + 1

/-- Where the members of a cross-group transfer are, in the union. -/
def pairedIdAt : Nat := operationAt + abstractTransferOp.size
def otherGroupAt : Nat := pairedIdAt + hederaTimestamp.size
def senderAt : Nat := operationAt + abstractTransferOp.size + pairedTransaction.size

/-- And those of a user that moves. -/
def movePairedIdAt : Nat := operationAt + user.size
def moveGroupAt : Nat := movePairedIdAt + hederaTimestamp.size

/-! ## The translation -/

abbrev Translate := EStateM Fault Memory

/-- A write to `buff`. -/
def poke (off : Nat) (bs : List UInt8) : Translate Unit := do
  if off + bs.length ≤ BUFF_SIZE then modify (Memory.write off bs)
  else throw (.undefined "write past the end of buff")

/-- An object assigned to a member. -/
def assign {α : Type} (P : Packed α) (off : Nat) (a : α) : Translate Unit := poke off (P.write a)

/-- What `memcpy` takes from a string, as long as the object. -/
def fetch {α : Type} (P : Packed α) (s : Bytes) : Translate α :=
  match memcpy P (cStr s) with
  | some a => return a
  | none => throw (.undefined "memcpy past the end of a string")

/-- `memcpy(field, s.c_str(), PUB_KEY_LENGTH)`. -/
def copyKey (off : Nat) (s : Bytes) : Translate Unit := do
  let key ← fetch user s
  assign user off key

/-- `memcpy(field, group.c_str(), group.size())`. -/
def copyGroup (off : Nat) (group : Bytes) : Translate Unit := poke off group

/-- `amount.amount = amount()`. -/
def copyAmount (off : Nat) (a : Amount) : Translate Unit :=
  match a.amount.toUInt64 with
  | some amount => assign Packed.uint64 off amount
  | none => throw (.undefined "amount is no uint64_t")

def translateSignatureFromPb (sigPair : SignaturePair) : Translate Signature := do
  let pubkey ← fetch (Packed.array PUB_KEY_LENGTH) sigPair.pubKey
  let signature ← fetch (Packed.array SIGNATURE_LENGTH) sigPair.ed25519
  return ⟨pubkey, signature⟩

def translateHederaTransactionFromPb (val : ConsensusTopicResponse) :
    Translate HederaTransaction := do
  let runningHash ← fetch (Packed.array HEDERA_RUNNING_HASH_LENGTH) val.runningHash
  return ⟨val.consensusTimestamp, runningHash, val.sequenceNumber, val.runningHashVersion⟩

/-- `tt->transaction_type = type`. -/
def setType (type : UInt8) : Translate Unit := assign Packed.byte transactionTypeAt type

/-- A cross-group transfer; `receiverOff` is where its receiver is. -/
def translateCrossGroup (type : UInt8) (receiverOff : Nat) (g2 : CrossGroupTransfer) :
    Translate Unit := do
  setType type
  copyAmount operationAt g2.sender
  copyKey senderAt g2.sender.pubkey
  copyKey receiverOff g2.receiver
  assign hederaTimestamp pairedIdAt g2.pairedTransactionId
  copyGroup otherGroupAt g2.otherGroup

/-- A user that moves. -/
def translateMove (type : UInt8) (u : GroupMemberUpdate) : Translate Unit := do
  setType type
  copyKey operationAt u.userPubkey
  assign hederaTimestamp movePairedIdAt u.pairedTransactionId
  copyGroup moveGroupAt u.targetGroup

/-- The branches on `tb`, but for the reset mark. -/
def translateData : Data → Translate Unit
  | .creation c => do
    setType GRADIDO_CREATION
    copyAmount (operationAt + userTransfer.size) c.receiver
    copyKey operationAt c.receiver.pubkey
  | .groupFriendsUpdate u => do
    setType (if u.action = 0 then ADD_GROUP_FRIEND else REMOVE_GROUP_FRIEND)
    copyGroup operationAt u.group
  | .groupMemberUpdate u =>
    -- `uint8_t mut`
    let memberUpdateType := u.memberUpdateType.toUInt32.toUInt8
    if memberUpdateType = 0 then do
      setType ADD_USER
      copyKey operationAt u.userPubkey
    else if memberUpdateType = 1 then translateMove MOVE_USER_INBOUND u
    else translateMove MOVE_USER_OUTBOUND u
  | .transfer (.localTransfer g2) => do
    setType LOCAL_TRANSFER
    copyAmount operationAt g2.sender
    copyKey (operationAt + abstractTransferOp.size) g2.sender.pubkey
    copyKey (operationAt + abstractTransferOp.size + userTransfer.size) g2.receiver
  | .transfer (.inbound g2) => translateCrossGroup INBOUND_TRANSFER (senderAt + user.size) g2
  | .transfer (.outbound g2) =>
    translateCrossGroup OUTBOUND_TRANSFER (senderAt + userTransfer.size) g2
  | _ => return ()

def multipartMemo (memo : Bytes) : Bool := MEMO_MAIN_SIZE - 1 < memo.length

/-- The memo in the main record. -/
def translateMemo (memo : Bytes) : Translate Unit :=
  poke memoAt (if multipartMemo memo then memo.take MEMO_MAIN_SIZE else memo)

/-- The record of the memo, if it needs one: how many records there are then. -/
def memoPart (memo : Bytes) : Translate Nat := do
  if multipartMemo memo then do
    poke (recordAt 1) [MEMO]
    poke (recordAt 1 + 1) ((memo.drop MEMO_MAIN_SIZE).take (MEMO_PART_SIZE - 1))
    return 2
  else return 1

/-- The slots of a record of signatures, from `off` on; `cs` is the signature to take. -/
def signatureSlots (sigPair : List SignaturePair) (count : Nat) :
    (slots off cs : Nat) → Translate Nat
  | 0, _, cs => return cs
  | slots + 1, off, cs =>
    match sigPair[cs]? with
    | none => throw (.undefined "signature past the end")
    | some p => do
      let signature ← translateSignatureFromPb p
      assign Signature.packed off signature
      if cs + 1 = count then return cs + 1
      else signatureSlots sigPair count slots (off + Signature.packed.size) (cs + 1)

/-- The records of signatures, from record `buffSize` on. -/
def signatureParts (sigPair : List SignaturePair) (count : Nat) :
    (parts buffSize cs : Nat) → Translate Nat
  | 0, buffSize, _ => return buffSize
  | parts + 1, buffSize, cs => do
    poke (recordAt buffSize) [SIGNATURES]
    let cs ← signatureSlots sigPair count SIGNATURES_PER_RECORD (recordAt buffSize + 1) cs
    signatureParts sigPair count parts (buffSize + 1) cs

def sigPartCount (count : Nat) : Nat :=
  if count ≤ SIGNATURES_IN_MAIN_PART then 0
  else (count - SIGNATURES_IN_MAIN_PART - 1) / SIGNATURES_PER_RECORD + 1

/-- What is made of `tb`, and the signatures behind the first one: the number of records
in `buff`. -/
def translateBody (gt : GradidoTransaction) (tb : Proto.TransactionBody) (signatureCount : Nat) :
    Translate Nat := do
  translateData tb.data
  assign Packed.byte resultAt UNKNOWN
  translateMemo tb.memo
  assign Packed.uint32 partsAt (UInt32.ofNat
    (1 + (multipartMemo tb.memo).toNat + sigPartCount signatureCount))
  let buffSize ← memoPart tb.memo
  signatureParts gt.sigPair signatureCount (sigPartCount signatureCount) buffSize
    SIGNATURES_IN_MAIN_PART

/-- The `try` block: the number of records, or `none` for a reset mark. -/
def translateRecords (t : ConsensusTopicResponse) (gt : GradidoTransaction)
    (tb : Proto.TransactionBody) : Translate (Option Nat) := do
  poke (recordAt 0) [GRADIDO_TRANSACTION]
  assign Packed.uint32 versionNumberAt tb.versionNumber.toUInt32
  -- `uint8_t`
  let signatureCount := gt.sigPair.length % 256
  assign Packed.byte signatureCountAt (UInt8.ofNat signatureCount)
  if signatureCount < MINIMUM_SIGNATURE_COUNT then throw (.thrown "NotEnoughSignatures")
  else if MAXIMUM_SIGNATURE_COUNT < signatureCount then throw (.thrown "TooManySignatures")
  else
    match gt.sigPair with
    | [] => throw (.undefined "signature past the end")
    | first :: _ => do
      let signature ← translateSignatureFromPb first
      assign Signature.packed signatureAt signature
      let hederaTransaction ← translateHederaTransactionFromPb t
      assign HederaTransaction.packed hederaTransactionAt hederaTransaction
      if tb.data.hasDebugResetBlockchainMark then return none
      else do
        let buffSize ← translateBody gt tb signatureCount
        return some buffSize

/-- Record `n` of `buff`. -/
def recordIn (m : Memory) (n : Nat) : GradidoRecord :=
  GradidoRecord.packed.read (m.read (recordAt n) GradidoRecord.packed.size)

def translateFromCtr (parser : Parser) (t : ConsensusTopicResponse) :
    Except Fault (Batch (List GradidoRecord)) :=
  let gt := parser.gradidoTransaction t.message
  match translateRecords t gt (parser.transactionBody gt.bodyBytes) (fun _ => 0) with
  | .ok (some buffSize) buff => .ok ⟨some ((List.range buffSize).map (recordIn buff)), false⟩
  | .ok none _ => .ok ⟨none, true⟩
  | .error (.thrown _) _ => .ok ⟨none, true⟩
  | .error (.undefined what) _ => .error (.undefined what)

/-! ## Messages that give records -/

/-- `memcpy` of `n` bytes from `s.c_str()` stays within the string and its terminator. -/
def Fits (n : Nat) (s : Bytes) : Prop := n ≤ s.length + 1

/-- The amount is a `uint64_t`, and there is a key. -/
def AmountFits (a : Amount) : Prop := a.amount.toUInt64.isSome ∧ Fits PUB_KEY_LENGTH a.pubkey

/-- A group name copied to `off` ends within `buff`. -/
def GroupFits (off : Nat) (group : Bytes) : Prop := off + group.length ≤ BUFF_SIZE

def CrossGroupFits (g2 : CrossGroupTransfer) : Prop :=
  AmountFits g2.sender ∧ Fits PUB_KEY_LENGTH g2.receiver ∧ GroupFits otherGroupAt g2.otherGroup

/-- What the branch taken for the message copies is there, and has room. -/
def DataFits : Data → Prop
  | .creation c => AmountFits c.receiver
  | .groupFriendsUpdate u => GroupFits operationAt u.group
  | .groupMemberUpdate u => Fits PUB_KEY_LENGTH u.userPubkey ∧
      (u.memberUpdateType.toUInt32.toUInt8 ≠ 0 → GroupFits moveGroupAt u.targetGroup)
  | .transfer (.localTransfer g2) => AmountFits g2.sender ∧ Fits PUB_KEY_LENGTH g2.receiver
  | .transfer (.inbound g2) => CrossGroupFits g2
  | .transfer (.outbound g2) => CrossGroupFits g2
  | _ => True

def SignatureFits (p : SignaturePair) : Prop :=
  Fits PUB_KEY_LENGTH p.pubKey ∧ Fits SIGNATURE_LENGTH p.ed25519

/-- A message that is translated: it has as many signatures as a transaction may have
(counted in a `uint8_t`), and everything it copies is there and has room. -/
structure Translatable (t : ConsensusTopicResponse) (gt : GradidoTransaction)
    (tb : Proto.TransactionBody) : Prop where
  minimum : MINIMUM_SIGNATURE_COUNT ≤ gt.sigPair.length % 256
  maximum : gt.sigPair.length % 256 ≤ MAXIMUM_SIGNATURE_COUNT
  signatures : ∀ p ∈ gt.sigPair.take (gt.sigPair.length % 256), SignatureFits p
  runningHash : Fits HEDERA_RUNNING_HASH_LENGTH t.runningHash
  data : DataFits tb.data

/-! Whether a message gives records can be computed. -/

instance (n : Nat) (s : Bytes) : Decidable (Fits n s) := inferInstanceAs (Decidable (_ ≤ _))

instance (a : Amount) : Decidable (AmountFits a) := inferInstanceAs (Decidable (_ ∧ _))

instance (off : Nat) (group : Bytes) : Decidable (GroupFits off group) :=
  inferInstanceAs (Decidable (_ ≤ _))

instance (g2 : CrossGroupTransfer) : Decidable (CrossGroupFits g2) :=
  inferInstanceAs (Decidable (_ ∧ _ ∧ _))

instance (p : SignaturePair) : Decidable (SignatureFits p) := inferInstanceAs (Decidable (_ ∧ _))

instance (data : Data) : Decidable (DataFits data) := by
  unfold DataFits
  split <;> infer_instance

instance (t : ConsensusTopicResponse) (gt : GradidoTransaction) (tb : Proto.TransactionBody) :
    Decidable (Translatable t gt tb) :=
  decidable_of_iff (MINIMUM_SIGNATURE_COUNT ≤ gt.sigPair.length % 256 ∧
      gt.sigPair.length % 256 ≤ MAXIMUM_SIGNATURE_COUNT ∧
      (∀ p ∈ gt.sigPair.take (gt.sigPair.length % 256), SignatureFits p) ∧
      Fits HEDERA_RUNNING_HASH_LENGTH t.runningHash ∧ DataFits tb.data)
    ⟨fun ⟨h₁, h₂, h₃, h₄, h₅⟩ => ⟨h₁, h₂, h₃, h₄, h₅⟩,
      fun h => ⟨h.minimum, h.maximum, h.signatures, h.runningHash, h.data⟩⟩

/-- The header as the message has it. -/
def IsHeaderOf (t : ConsensusTopicResponse) (ht : HederaTransaction) : Prop :=
  ht.sequenceNumber = t.sequenceNumber ∧ ht.consensusTimestamp = t.consensusTimestamp

/-- A message whose signatures are too few or too many. -/
def Rejected (gt : GradidoTransaction) : Prop :=
  gt.sigPair.length % 256 < MINIMUM_SIGNATURE_COUNT ∨
    MAXIMUM_SIGNATURE_COUNT < gt.sigPair.length % 256

instance (gt : GradidoTransaction) : Decidable (Rejected gt) := inferInstanceAs (Decidable (_ ∨ _))

/-! ## Places and numbers of records -/

theorem recordAt_lt {n k : Nat} (h : k < n) : recordAt k < recordAt n :=
  Nat.mul_lt_mul_of_pos_right h (by decide)

theorem recordAt_succ (n : Nat) : recordAt (n + 1) = recordAt n + GradidoRecord.packed.size :=
  Nat.succ_mul n _

theorem recordType_recordIn (m : Memory) (n : Nat) : (recordIn m n).recordType = m (recordAt n) := by
  rw [recordIn, GradidoRecord.recordType_read, Memory.take_read (by decide), Memory.headD_read]

section SigPartCount

variable {count : Nat}

/-- There are enough signatures for every record of signatures. -/
theorem sigPartCount_left {i : Nat} (h : i < sigPartCount count) :
    SIGNATURES_IN_MAIN_PART + i * SIGNATURES_PER_RECORD < count := by
  have hper : SIGNATURES_PER_RECORD = 3 := by decide
  rw [sigPartCount] at h
  split at h
  · omega
  · rw [hper] at h ⊢
    omega

theorem sigPartCount_le (h : count ≤ MAXIMUM_SIGNATURE_COUNT) : sigPartCount count ≤ 3 := by
  have hper : SIGNATURES_PER_RECORD = 3 := by decide
  have hma : SIGNATURES_IN_MAIN_PART = 1 := rfl
  have hmax : MAXIMUM_SIGNATURE_COUNT = 10 := by decide
  rw [sigPartCount]
  split
  · omega
  · rw [hper]
    omega

theorem le_sigPartCount (count : Nat) : count ≤ 1 + sigPartCount count * SIGNATURES_PER_RECORD := by
  have hper : SIGNATURES_PER_RECORD = 3 := by decide
  have hma : SIGNATURES_IN_MAIN_PART = 1 := rfl
  rw [sigPartCount]
  split
  · omega
  · rw [hper]
    omega

end SigPartCount

end Wire

end GradidoNode
