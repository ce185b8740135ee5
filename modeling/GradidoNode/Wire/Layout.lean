/-
# `GradidoNode.Wire.Layout` — the packed structs of a row

The structs of `blockchain_gradido_def.h` that a row of a group chain is made of, with
their layouts: `PACKED_STRUCT` puts the fields one behind the other, base classes
first.  A union is its memory, as long as its longest member; the layouts of the
members are listed for that.

    Record                353   type 1, union 352
      GradidoRecord       352   record_type 1, union 351
        Transaction       351   header 96, signature 96, signature_count 1,
                                transaction_type 1, union 140, result 1, memo 16

`rowFormat` is the row format of the storage made of these bytes: the union of a row
holds a payload or a checksum of 64 bytes.  Everything proved about chains over an
arbitrary row format is about chains of these rows.  SHA-512 is a parameter.
-/
import GradidoNode.Ledger.Transaction
import GradidoNode.Lib.Packed
import GradidoNode.Storage.Blockchain
import Mathlib.Data.List.TakeWhile

namespace GradidoNode.Wire

open Lib FileTile

/-- `PUB_KEY_LENGTH`. -/
abbrev PUB_KEY_LENGTH : Nat := 32

/-- `SIGNATURE_LENGTH`. -/
abbrev SIGNATURE_LENGTH : Nat := 64

/-- `HEDERA_RUNNING_HASH_LENGTH`. -/
abbrev HEDERA_RUNNING_HASH_LENGTH : Nat := 48

/-- `GROUP_ALIAS_LENGTH`. -/
abbrev GROUP_ALIAS_LENGTH : Nat := 16

/-- `MEMO_MAIN_SIZE`. -/
abbrev MEMO_MAIN_SIZE : Nat := 16

/-- `MEMO_FULL_SIZE`. -/
abbrev MEMO_FULL_SIZE : Nat := 150

/-- `CA_CHAIN_PER_RECORD`. -/
abbrev CA_CHAIN_PER_RECORD : Nat := 1

/-- `BLOCKCHAIN_CHECKSUM_SIZE`. -/
abbrev BLOCKCHAIN_CHECKSUM_SIZE : Nat := 64

/-- The length of a union. -/
def unionSize (members : List Nat) : Nat := members.foldl max 0

/-! ## Parts of a transaction -/

def hederaTimestamp : Packed HederaTimestamp :=
  (Packed.int64.pair Packed.int32).map
    ⟨fun t => (t.seconds, t.nanos), fun p => ⟨p.1, p.2⟩, fun _ => rfl, fun _ => rfl⟩

def gradidoValue : Packed GradidoValue :=
  (Packed.uint64.pair Packed.uint32).map
    ⟨fun v => (v.amount, v.decimalAmount), fun p => ⟨p.1, p.2⟩, fun _ => rfl, fun _ => rfl⟩

structure HederaTransaction where
  consensusTimestamp : HederaTimestamp
  runningHash : Vector UInt8 HEDERA_RUNNING_HASH_LENGTH
  sequenceNumber : UInt64
  runningHashVersion : UInt64
  deriving DecidableEq

def HederaTransaction.packed : Packed HederaTransaction :=
  (hederaTimestamp.pair ((Packed.array HEDERA_RUNNING_HASH_LENGTH).pair
    (Packed.uint64.pair Packed.uint64))).map
    ⟨fun t => (t.consensusTimestamp, t.runningHash, t.sequenceNumber, t.runningHashVersion),
      fun p => ⟨p.1, p.2.1, p.2.2.1, p.2.2.2⟩, fun _ => rfl, fun _ => rfl⟩

structure Signature where
  pubkey : Vector UInt8 PUB_KEY_LENGTH
  signature : Vector UInt8 SIGNATURE_LENGTH
  deriving DecidableEq

def Signature.packed : Packed Signature :=
  ((Packed.array PUB_KEY_LENGTH).pair (Packed.array SIGNATURE_LENGTH)).map
    ⟨fun s => (s.pubkey, s.signature), fun p => ⟨p.1, p.2⟩, fun _ => rfl, fun _ => rfl⟩

structure TransactionCommonHeader where
  versionNumber : UInt32
  parts : UInt32
  transactionId : HederaTimestamp
  hederaTransaction : HederaTransaction
  deriving DecidableEq

def TransactionCommonHeader.packed : Packed TransactionCommonHeader :=
  (Packed.uint32.pair (Packed.uint32.pair (hederaTimestamp.pair HederaTransaction.packed))).map
    ⟨fun h => (h.versionNumber, h.parts, h.transactionId, h.hederaTransaction),
      fun p => ⟨p.1, p.2.1, p.2.2.1, p.2.2.2⟩, fun _ => rfl, fun _ => rfl⟩

/-! ## The members of the union of a transaction -/

def user := Packed.array PUB_KEY_LENGTH

def userState := gradidoValue.pair Packed.uint64

def userTransfer := user.pair userState

def abstractTransferOp := gradidoValue

def pairedTransaction := hederaTimestamp.pair (Packed.array PUB_KEY_LENGTH)

def gradidoCreation := userTransfer.pair abstractTransferOp

def friendUpdate := Packed.array PUB_KEY_LENGTH

def addUser := user

def moveUser := user.pair (pairedTransaction.pair userState)

def localTransfer := abstractTransferOp.pair (userTransfer.pair userTransfer)

def inboundTransfer := abstractTransferOp.pair (pairedTransaction.pair (user.pair userTransfer))

def outboundTransfer := abstractTransferOp.pair (pairedTransaction.pair (userTransfer.pair user))

def gradidoHeader :=
  (Packed.array GROUP_ALIAS_LENGTH).pair (Packed.byte.pair (Packed.array PUB_KEY_LENGTH))

def pubKeyEntity := Packed.array PUB_KEY_LENGTH

def operationSize : Nat :=
  unionSize [gradidoCreation.size, friendUpdate.size, addUser.size, moveUser.size,
    localTransfer.size, inboundTransfer.size, outboundTransfer.size, gradidoHeader.size,
    pubKeyEntity.size, CA_CHAIN_PER_RECORD * pubKeyEntity.size]

/-! ## Transactions, records and rows -/

/-- `Transaction`; `operation` is its union. -/
structure Transaction extends TransactionCommonHeader where
  signature : Signature
  signatureCount : UInt8
  transactionType : UInt8
  operation : Vector UInt8 operationSize
  result : UInt8
  memo : Vector UInt8 MEMO_MAIN_SIZE
  deriving DecidableEq

def Transaction.packed : Packed Transaction :=
  (TransactionCommonHeader.packed.pair (Signature.packed.pair (Packed.byte.pair (Packed.byte.pair
    ((Packed.array operationSize).pair (Packed.byte.pair (Packed.array MEMO_MAIN_SIZE))))))).map
    ⟨fun t => (t.toTransactionCommonHeader, t.signature, t.signatureCount, t.transactionType,
        t.operation, t.result, t.memo),
      fun p => ⟨p.1, p.2.1, p.2.2.1, p.2.2.2.1, p.2.2.2.2.1, p.2.2.2.2.2.1, p.2.2.2.2.2.2⟩,
      fun _ => rfl, fun _ => rfl⟩

def structurallyBadMessage :=
  TransactionCommonHeader.packed.pair
    (Packed.byte.pair (Packed.uint64.pair HederaTransaction.packed))

/-- `MEMO_PART_SIZE`, and `RAW_MESSAGE_PART_SIZE`. -/
def MEMO_PART_SIZE : Nat := max Transaction.packed.size (MEMO_FULL_SIZE - MEMO_MAIN_SIZE)

/-- `SIGNATURES_PER_RECORD`. -/
def SIGNATURES_PER_RECORD : Nat := Transaction.packed.size / Signature.packed.size

def recordBodySize : Nat :=
  unionSize [Transaction.packed.size, MEMO_PART_SIZE,
    SIGNATURES_PER_RECORD * Signature.packed.size, structurallyBadMessage.size, MEMO_PART_SIZE]

theorem recordBodySize_eq : recordBodySize = Transaction.packed.size := by decide

/-- `GradidoRecordType::GRADIDO_TRANSACTION`. -/
def GRADIDO_TRANSACTION : UInt8 := 1

/-- `GradidoRecord`; `body` is its union. -/
structure GradidoRecord where
  recordType : UInt8
  body : Vector UInt8 recordBodySize
  deriving DecidableEq

namespace GradidoRecord

def packed : Packed GradidoRecord :=
  (Packed.byte.pair (Packed.array recordBodySize)).map
    ⟨fun r => (r.recordType, r.body), fun p => ⟨p.1, p.2⟩, fun _ => rfl, fun _ => rfl⟩

theorem recordType_read (bs : List UInt8) : (packed.read bs).recordType = (bs.take 1).headD 0 := rfl

theorem body_read (bs : List UInt8) :
    (packed.read bs).body = (Packed.array recordBodySize).read (bs.drop 1) := rfl

/-- The member `transaction`. -/
def transaction (r : GradidoRecord) : Transaction := Transaction.packed.read r.body.toList

/-- A record with a transaction in it. -/
def ofTransaction (t : Transaction) : GradidoRecord :=
  ⟨GRADIDO_TRANSACTION, (Packed.array recordBodySize).read (Transaction.packed.write t)⟩

theorem write_transaction (r : GradidoRecord) :
    Transaction.packed.write r.transaction = r.body.toList :=
  Transaction.packed.write_read _ (r.body.length_toList.trans recordBodySize_eq)

theorem transaction_ofTransaction (t : Transaction) : (ofTransaction t).transaction = t := by
  have hlen : (Transaction.packed.write t).length = recordBodySize :=
    (Transaction.packed.length_write t).trans recordBodySize_eq.symm
  rw [transaction, ofTransaction, Packed.toList_read_array hlen, Transaction.packed.read_write]

end GradidoRecord

def rowBodySize : Nat := unionSize [GradidoRecord.packed.size, BLOCKCHAIN_CHECKSUM_SIZE]

theorem rowBodySize_eq : rowBodySize = GradidoRecord.packed.size := by decide

/-- `BlockchainTypes<GradidoRecord>::Record`; `body` is its union. -/
structure Record where
  type : UInt8
  body : Vector UInt8 rowBodySize
  deriving DecidableEq

namespace Record

def packed : Packed Record :=
  (Packed.byte.pair (Packed.array rowBodySize)).map
    ⟨fun r => (r.type, r.body), fun p => ⟨p.1, p.2⟩, fun _ => rfl, fun _ => rfl⟩

/-- The member `payload`. -/
def payload (r : Record) : GradidoRecord := GradidoRecord.packed.read r.body.toList

end Record

/-! ## The row format -/

/-- `strcpy` into a zeroed array of `n` bytes; `none` when the terminator would be
written behind it. -/
def strcpy (n : Nat) (src : List UInt8) : Option (Vector UInt8 n) :=
  let text := src.takeWhile (· ≠ 0)
  if text.length < n then some ((Packed.array n).read text) else none

theorem strcpy_zeros {n m : Nat} (hn : 0 < n) :
    strcpy n (List.replicate m 0) = some (Vector.replicate n 0) := by
  have hte : (List.replicate m (0 : UInt8)).takeWhile (· ≠ 0) = List.replicate 0 0 := by
    rw [List.takeWhile_replicate]
    rfl
  simp only [strcpy, hte, List.length_replicate, hn, if_true, Packed.read_array_zeros]

/-- A string: bytes that are not zero, at least one that is, and only such behind it. -/
def IsText {n : Nat} (bs : Vector UInt8 n) : Prop :=
  ∃ k < n, ∀ i (h : i < n), bs[i] = 0 ↔ k ≤ i

/-- `strcpy` copies an array as it is exactly when it is a string. -/
theorem strcpy_eq_some_iff {n : Nat} {src : List UInt8} {bs : Vector UInt8 n}
    (hsrc : ∀ i (h : i < n), src[i]? = some bs[i]) : strcpy n src = some bs ↔ IsText bs := by
  constructor
  · intro h
    obtain ⟨hlt, h⟩ := Option.ite_none_right_eq_some.mp h
    obtain rfl := Option.some.inj h
    refine ⟨_, hlt, fun i hi => ?_⟩
    rw [Packed.getElem_read_array]
    constructor
    · intro h0
      by_contra hk
      have hmem := List.getElem_mem (Nat.not_le.mp hk)
      rw [List.getD_eq_getElem?_getD, List.getElem?_eq_getElem (Nat.not_le.mp hk)] at h0
      have hne := List.mem_takeWhile_imp hmem
      exact absurd h0 (of_decide_eq_true hne)
    · intro hk
      rw [List.getD_eq_getElem?_getD, List.getElem?_eq_none hk]
      rfl
  · rintro ⟨k, hk, hc⟩
    have hlen : k < src.length := (List.getElem?_eq_some_iff.mp (hsrc k hk)).1
    have hte : src.takeWhile (· ≠ 0) = src.take k := by
      have hno : ∀ x ∈ src.take k, decide (x ≠ 0) = true := by
        intro x hx
        obtain ⟨i, hi, rfl⟩ := List.mem_iff_getElem.mp hx
        rw [List.length_take] at hi
        have hi' : i < n := by omega
        have hsi := hsrc i hi'
        rw [List.getElem?_eq_getElem (by omega), Option.some.injEq] at hsi
        rw [List.getElem_take, hsi]
        simpa using fun h0 => absurd ((hc i hi').mp h0) (by omega)
      have hze : (src.drop k).takeWhile (· ≠ 0) = [] := by
        have hsk := hsrc k hk
        rw [List.getElem?_eq_getElem hlen, (hc k hk).mpr (Nat.le_refl k), Option.some.injEq] at hsk
        rw [List.drop_eq_getElem_cons hlen, hsk]
        rfl
      conv_lhs => rw [← List.take_append_drop k src]
      rw [List.takeWhile_append_of_pos hno, hze, List.append_nil]
    have hta : (src.take k).length = k := by
      rw [List.length_take]
      omega
    unfold strcpy
    rw [hte, if_pos (by omega)]
    congr 1
    refine Vector.ext fun i hi => ?_
    rw [Packed.getElem_read_array, List.getD_eq_getElem?_getD, List.getElem?_take]
    by_cases hik : i < k
    · rw [if_pos hik, hsrc i hi]
      rfl
    · rw [if_neg hik, (hc i hi).mpr (by omega)]
      rfl

/-- The array at the beginning of a larger one. -/
theorem strcpy_inside {n m : Nat} (hnm : n ≤ m) {v : Vector UInt8 m} {c : Vector UInt8 n}
    (hc : (Packed.array n).read v.toList = c) : strcpy n v.toList = some c ↔ IsText c := by
  subst hc
  refine strcpy_eq_some_iff fun i hi => ?_
  have hlt : i < v.toList.length := by
    rw [Vector.length_toList]
    omega
  rw [Packed.getElem_read_array, List.getD_eq_getElem?_getD, List.getElem?_eq_getElem hlt]
  rfl

/-- Rows as they are in memory and in the files. -/
def rowFormat (sha512 : List UInt8 → Vector UInt8 BLOCKCHAIN_CHECKSUM_SIZE) :
    RowFormat GradidoRecord where
  Body := Vector UInt8 rowBodySize
  Checksum := Vector UInt8 BLOCKCHAIN_CHECKSUM_SIZE
  payload body := GradidoRecord.packed.read body.toList
  checksum body := (Packed.array BLOCKCHAIN_CHECKSUM_SIZE).read body.toList
  ofPayload r := (Packed.array rowBodySize).read (GradidoRecord.packed.write r)
  ofChecksum c := (Packed.array rowBodySize).read c.toList
  zeroBody := Vector.replicate rowBodySize 0
  zero := Vector.replicate BLOCKCHAIN_CHECKSUM_SIZE 0
  calcChecksum c row := sha512 (c.toList ++ row.type :: row.body.toList)
  strcpyChecksum body := strcpy BLOCKCHAIN_CHECKSUM_SIZE body.toList
  payload_ofPayload r := by
    rw [Packed.toList_read_array ((GradidoRecord.packed.length_write r).trans rowBodySize_eq.symm),
      GradidoRecord.packed.read_write]
  checksum_ofChecksum c := Packed.read_array_inside (by decide) c
  checksum_zeroBody := by rw [Vector.toList_replicate, Packed.read_array_zeros]
  strcpyChecksum_zeroBody := by rw [Vector.toList_replicate, strcpy_zeros (by decide)]

/-- The checksum of a row is copied as it is exactly when it is a string. -/
theorem strcpyChecksum_ofChecksum (sha512 : List UInt8 → Vector UInt8 BLOCKCHAIN_CHECKSUM_SIZE)
    (c : Vector UInt8 BLOCKCHAIN_CHECKSUM_SIZE) :
    (rowFormat sha512).strcpyChecksum ((rowFormat sha512).ofChecksum c) = some c ↔ IsText c := by
  have hle : BLOCKCHAIN_CHECKSUM_SIZE ≤ rowBodySize := by decide
  have hco := strcpy_inside hle ((rowFormat sha512).checksum_ofChecksum c)
  dsimp only [rowFormat] at hco ⊢
  exact hco

end GradidoNode.Wire
