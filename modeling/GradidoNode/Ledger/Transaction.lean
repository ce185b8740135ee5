/-
# `GradidoNode.Ledger.Transaction` — values, times and transactions of a group chain

The data of `blockchain_gradido_def.h` that the group ledger reads and writes.

* `GradidoValue` keeps the source's two machine words and its operators: `+` wraps
  and carries at most one million, `-` throws below zero, `<` compares whole
  gradidos first and does not normalise.  `millionths` is the number meant.
* `Transaction` has a body for each of the nine types of the group ledger; the
  union of the source has room for other types (`other`), on which the ledger
  does nothing.
* A group name in a record is an array that ends in NULs; `cstr` is the
  `std::string` made from it.

`calculateDecay` rests on mpfr and is a parameter; `Decays` is all that is ever
assumed of it: on an amount that is not negative it returns a normalised amount
that is not larger.
-/
import Mathlib.Tactic.Linarith

namespace GradidoNode

/-! ## Values -/

/-- `GRADIDO_VALUE_DECIMAL_AMOUNT_BASE`. -/
def GRADIDO_VALUE_DECIMAL_AMOUNT_BASE : UInt32 := 1000000

structure GradidoValue where
  amount : UInt64
  decimalAmount : UInt32
  deriving DecidableEq, Repr

namespace GradidoValue

/-- `GradidoValue()`. -/
def zero : GradidoValue := ⟨0, 0⟩

/-- `operator+`. -/
def add (v w : GradidoValue) : GradidoValue :=
  let amount := v.amount + w.amount
  let decimalAmount := v.decimalAmount + w.decimalAmount
  if GRADIDO_VALUE_DECIMAL_AMOUNT_BASE ≤ decimalAmount then
    ⟨amount + 1, decimalAmount - GRADIDO_VALUE_DECIMAL_AMOUNT_BASE⟩
  else ⟨amount, decimalAmount⟩

/-- `operator<`. -/
def less (v w : GradidoValue) : Bool :=
  v.amount < w.amount || (v.amount == w.amount && v.decimalAmount < w.decimalAmount)

/-- `operator-`; `none` where it throws "GradidoValue less than zero". -/
def sub (v w : GradidoValue) : Option GradidoValue :=
  if v.less w then none
  else if w.decimalAmount ≤ v.decimalAmount then
    some ⟨v.amount - w.amount, v.decimalAmount - w.decimalAmount⟩
  else
    some ⟨v.amount - w.amount - 1,
      GRADIDO_VALUE_DECIMAL_AMOUNT_BASE - (w.decimalAmount - v.decimalAmount)⟩

/-- The number of millionths. -/
def millionths (v : GradidoValue) : Nat := v.amount.toNat * 1000000 + v.decimalAmount.toNat

@[simp] theorem millionths_zero : zero.millionths = 0 := by simp [millionths, zero]

/-- A sum never stands for more than its parts: wrapping only loses. -/
theorem millionths_add_le (v w : GradidoValue) :
    (v.add w).millionths ≤ v.millionths + w.millionths := by
  have ham : (v.amount + w.amount).toNat ≤ v.amount.toNat + w.amount.toNat := by
    rw [UInt64.toNat_add]
    exact Nat.mod_le _ _
  have hdec : (v.decimalAmount + w.decimalAmount).toNat
      ≤ v.decimalAmount.toNat + w.decimalAmount.toNat := by
    rw [UInt32.toNat_add]
    exact Nat.mod_le _ _
  unfold add millionths
  dsimp only
  split
  · rename_i hba
    have hba' : 1000000 ≤ (v.decimalAmount + w.decimalAmount).toNat := UInt32.le_iff_toNat_le.mp hba
    have hca : (v.amount + w.amount + 1).toNat ≤ (v.amount + w.amount).toNat + 1 := by
      rw [UInt64.toNat_add]
      exact Nat.mod_le _ _
    have hsub : (v.decimalAmount + w.decimalAmount - GRADIDO_VALUE_DECIMAL_AMOUNT_BASE).toNat
        = (v.decimalAmount + w.decimalAmount).toNat - 1000000 :=
      UInt32.toNat_sub_of_le _ _ hba
    dsimp only
    omega
  · dsimp only
    omega

/-- What has passed the check is not subtracted below zero. -/
theorem sub_ne_none {v w : GradidoValue} (h : ¬ v.less w = true) : v.sub w ≠ none := by
  rw [sub, if_neg h]
  split <;> exact Option.some_ne_none _

theorem sub_zero (v : GradidoValue) : v.sub zero = some v := by
  simp [sub, less, zero]

theorem add_zero {v : GradidoValue} (h : v.decimalAmount < GRADIDO_VALUE_DECIMAL_AMOUNT_BASE) :
    v.add zero = v := by
  have : ¬ GRADIDO_VALUE_DECIMAL_AMOUNT_BASE ≤ v.decimalAmount := UInt32.not_le.mpr h
  simp [add, zero, this]

end GradidoValue

/-! ## Times -/

structure HederaTimestamp where
  seconds : Int64
  nanos : Int32
  deriving DecidableEq, Repr

namespace HederaTimestamp

def zero : HederaTimestamp := ⟨0, 0⟩

/-- `operator<`. -/
def less (t ts : HederaTimestamp) : Bool :=
  decide (ts.seconds > t.seconds) || (ts.seconds == t.seconds && decide (ts.nanos > t.nanos))

/-- `operator-`. -/
def sub (t v : HederaTimestamp) : HederaTimestamp :=
  if v.nanos ≤ t.nanos then ⟨t.seconds - v.seconds, t.nanos - v.nanos⟩
  else ⟨t.seconds - v.seconds - 1, 1000000000 - (v.nanos - t.nanos)⟩

end HederaTimestamp

/-! ## Decay -/

/-- `GradidoWithDecimal` of `gradidomath.h`. -/
structure GradidoWithDecimal where
  gradido : Int64
  decimal : Int64

/-- The type of `calculateDecay`, at the decay factor of the chain. -/
abbrev DecayFunction := GradidoWithDecimal → UInt64 → GradidoWithDecimal

/-- `calculateDecay` returns a normalised amount not larger than its input. -/
def Decays (calculateDecay : DecayFunction) : Prop :=
  ∀ g seconds, 0 ≤ g.gradido.toInt → 0 ≤ g.decimal.toInt → let r := calculateDecay g seconds
    0 ≤ r.gradido.toInt ∧ 0 ≤ r.decimal.toInt ∧ r.decimal.toInt < 1000000 ∧
      r.gradido.toInt * 1000000 + r.decimal.toInt ≤ g.gradido.toInt * 1000000 + g.decimal.toInt

def calcDeflation (calculateDecay : DecayFunction) (t0 t1 : HederaTimestamp)
    (val0 : GradidoValue) : GradidoValue :=
  if val0.amount = 0 ∧ val0.decimalAmount = 0 then GradidoValue.zero
  else
    let gradidos := calculateDecay
      ⟨val0.amount.toInt64, val0.decimalAmount.toUInt64.toInt64⟩ (t1.sub t0).seconds.toUInt64
    ⟨gradidos.gradido.toUInt64, gradidos.decimal.toUInt64.toUInt32⟩

theorem toInt_toInt64 {x : UInt64} (h : x.toNat < 9223372036854775808) :
    x.toInt64.toInt = x.toNat := by
  show x.toBitVec.toInt = _
  rw [BitVec.toInt_eq_toNat_of_lt]
  · rfl
  · show 2 * x.toNat < _
    omega

theorem toNat_toUInt64 {x : Int64} (h : 0 ≤ x.toInt) : (x.toUInt64.toNat : Int) = x.toInt := by
  have h' : 0 ≤ x.toBitVec.toInt := h
  show (x.toBitVec.toNat : Int) = x.toBitVec.toInt
  rw [BitVec.toInt_eq_toNat_cond x.toBitVec] at h' ⊢
  split
  · rfl
  · rename_i hlt
    rw [if_neg hlt] at h'
    omega

/-- Decay takes nothing from nobody but the owner: the result is not larger. -/
theorem millionths_calcDeflation_le {calculateDecay : DecayFunction} (h : Decays calculateDecay)
    (t0 t1 : HederaTimestamp) {v : GradidoValue} (hv : v.amount.toNat < 9223372036854775808) :
    (calcDeflation calculateDecay t0 t1 v).millionths ≤ v.millionths := by
  unfold calcDeflation
  split
  · exact Nat.zero_le _
  · have hdec : v.decimalAmount.toUInt64.toNat = v.decimalAmount.toNat := UInt32.toNat_toUInt64 _
    have hde := v.decimalAmount.toNat_lt
    have hin := toInt_toInt64 hv
    have hin' : v.decimalAmount.toUInt64.toInt64.toInt = v.decimalAmount.toNat := by
      rw [toInt_toInt64 (by omega), hdec]
    obtain ⟨hg, hd, hlt, hle⟩ := h ⟨v.amount.toInt64, v.decimalAmount.toUInt64.toInt64⟩
      (t1.sub t0).seconds.toUInt64 (by dsimp only; omega) (by dsimp only; omega)
    rw [hin, hin'] at hle
    generalize calculateDecay ⟨v.amount.toInt64, v.decimalAmount.toUInt64.toInt64⟩
      (t1.sub t0).seconds.toUInt64 = r at *
    have hg' := toNat_toUInt64 hg
    have hd' := toNat_toUInt64 hd
    have htr : r.decimal.toUInt64.toUInt32.toNat = r.decimal.toUInt64.toNat := by
      rw [UInt64.toNat_toUInt32]
      exact Nat.mod_eq_of_lt (by omega)
    simp only [GradidoValue.millionths, htr]
    omega

/-! ## Transactions -/

/-- `PUB_KEY_LENGTH` bytes. -/
abbrev PubKey := Vector UInt8 32

/-- The bytes of a `std::string`. -/
abbrev Bytes := List UInt8

/-- `std::string((char*)field)`: the bytes before the first NUL. -/
def cstr {n : Nat} (field : Vector UInt8 n) : Bytes := field.toList.takeWhile fun c => c ≠ 0

inductive TransactionResult where
  | success | unknown | notEnoughGradidos | unknownLocalUser | unknownRemoteUser | unknownGroup
  | outboundTransactionFailed | userAlreadyExists | groupIsAlreadyFriend | groupIsNotFriend
  deriving DecidableEq, Repr

/-- `UserTransfer`: a user and two calculated fields. -/
structure UserTransfer where
  user : PubKey
  newBalance : GradidoValue
  prevTransferRecNum : UInt64
  deriving DecidableEq, Repr

structure GradidoCreation extends UserTransfer where
  amount : GradidoValue
  deriving DecidableEq, Repr

structure PairedTransaction where
  pairedTransactionId : HederaTimestamp
  otherGroup : Vector UInt8 32
  deriving DecidableEq, Repr

structure MoveUser extends UserTransfer, PairedTransaction
  deriving DecidableEq, Repr

structure LocalTransfer where
  amount : GradidoValue
  sender : UserTransfer
  receiver : UserTransfer
  deriving DecidableEq, Repr

structure InboundTransfer extends PairedTransaction where
  amount : GradidoValue
  sender : PubKey
  receiver : UserTransfer
  deriving DecidableEq, Repr

structure OutboundTransfer extends PairedTransaction where
  amount : GradidoValue
  sender : UserTransfer
  receiver : PubKey
  deriving DecidableEq, Repr

/-- `transaction_type` and the member of the union it selects. -/
inductive TransactionBody where
  | gradidoCreation (c : GradidoCreation)
  | addGroupFriend (group : Vector UInt8 32)
  | removeGroupFriend (group : Vector UInt8 32)
  | addUser (user : PubKey)
  | moveUserInbound (m : MoveUser)
  | moveUserOutbound (m : MoveUser)
  | localTransfer (lt : LocalTransfer)
  | inboundTransfer (lt : InboundTransfer)
  | outboundTransfer (lt : OutboundTransfer)
  /-- HEADER, ADD_ADMIN, REMOVE_ADMIN, ADD_NODE, REMOVE_NODE, INITIALIZATION_DONE, or
  no type at all -/
  | other (transactionType : UInt8)
  deriving DecidableEq, Repr

/-- `Transaction`, less the fields the ledger does not read (version, parts, memo,
signatures, running hash). -/
structure Transaction where
  sequenceNumber : UInt64
  consensusTimestamp : HederaTimestamp
  body : TransactionBody
  result : TransactionResult
  deriving DecidableEq, Repr

/-- `Transaction()`: all bytes zero. -/
def Transaction.zero : Transaction := ⟨0, HederaTimestamp.zero, .other 0, .success⟩

/-- `GradidoRecord`; of the parts that are not transactions only the kind. -/
inductive GradidoRecord where
  | blank
  | gradidoTransaction (t : Transaction)
  | memo
  | signatures
  | structurallyBadMessage
  | rawMessage
  deriving DecidableEq, Repr

/-- A record is constructed blank. -/
instance : Inhabited GradidoRecord := ⟨.blank⟩

end GradidoNode
