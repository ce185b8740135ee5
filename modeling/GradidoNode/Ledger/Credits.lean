/-
# `GradidoNode.Ledger.Credits` — what is added to a balance

GRADIDO_CREATION, LOCAL_TRANSFER and INBOUND_TRANSFER add an amount to the decayed balance
of a user, and record the sum as `new_balance`.  The sum is `GradidoValue::operator+`, and
nobody looks whether it has a representation: the amount comes from the message, and a sum
of 2^64 gradidos or more is recorded less 2^64, as a success.

A LOCAL_TRANSFER of a user to themselves adds to a balance that was decayed twice: the
sender's balance has been written when the receiver's, the same one, is read, and the time
of it has not.

`CreditFits` says when neither happens; it is exact (`credit_exact_iff`).
-/
import GradidoNode.Ledger.Amounts
import GradidoNode.Ledger.Restart

namespace GradidoNode

open Lib

namespace Ledger

/-- The user a transaction credits, and the amount. -/
def credit : TransactionBody → Option (UserTransfer × GradidoValue)
  | .gradidoCreation c => some (c.toUserTransfer, c.amount)
  | .localTransfer lt => some (lt.receiver, lt.amount)
  | .inboundTransfer lt => some (lt.receiver, lt.amount)
  | _ => none

/-- `new_balance` is the balance and the amount, and such a number can be written down. -/
def Records (balance amount newBalance : GradidoValue) : Prop :=
  amount.millionths ≤ newBalance.millionths ∧
    newBalance.millionths = balance.millionths + amount.millionths ∧
    balance.millionths + amount.millionths < 2 ^ 64 * 1000000

/-- A success records the credit, to the balance decayed up to `t`; so a credit that does not
fit is none. -/
def CreditExact (d : DecayFunction) (l : Ledger) (t : HederaTimestamp) : Calc → Prop
  | .ready _ tr' => tr'.result = .success → ∀ u amount info,
      credit tr'.body = some (u, amount) → l.userIndex u.user = some info →
        Records (balanceAt d t info) amount u.newBalance
  | .waiting _ _ => True
  | .failed _ => True

/-- The sum can be written down, and the decimal parts do not overflow their 32 bits. -/
def Fits (balance amount : GradidoValue) : Prop :=
  balance.millionths + amount.millionths < 2 ^ 64 * 1000000 ∧
    balance.decimalAmount.toNat + amount.decimalAmount.toNat < 2 ^ 32

/-- The same for a balance that is decayed once more: the second time takes nothing away.  A
`calculateDecay` that raises balances might also raise it by just what the sum overflows by. -/
def FitsTwice (once twice amount : GradidoValue) : Prop :=
  twice.millionths = once.millionths ∧ Fits twice amount ∨
    once.millionths < twice.millionths ∧ once.millionths + amount.millionths < 2 ^ 64 * 1000000 ∧
      (twice.add amount).millionths = once.millionths + amount.millionths

/-- What is credited by a transaction that passes its checks fits. -/
def CreditFits (d : DecayFunction) (env : Env) (l : Ledger) (t : HederaTimestamp) :
    TransactionBody → Prop
  | .gradidoCreation c => ∀ info, l.userIndex c.user = some info →
      Fits (balanceAt d t info) c.amount
  | .localTransfer lt => ∀ sender receiver, l.userIndex lt.sender.user = some sender →
      l.userIndex lt.receiver.user = some receiver →
      (balanceAt d t sender).less lt.amount = false → if lt.receiver.user = lt.sender.user then
          FitsTwice (balanceAt d t sender)
            (balanceAt d t { sender with currentBalance := balanceAt d t sender }) lt.amount
        else Fits (balanceAt d t receiver) lt.amount
  | .inboundTransfer lt => ∀ receiver tt, l.userIndex lt.receiver.user = some receiver →
      inboundPaired env l lt = some tt → tt.result = .success →
        Fits (balanceAt d t receiver) lt.amount
  | _ => True

/-! ## One sum -/

theorem records_add_iff {balance amount : GradidoValue} :
    Records balance amount (balance.add amount) ↔ Fits balance amount := by
  constructor
  · rintro ⟨-, heq, hlt⟩
    exact ⟨hlt, GradidoValue.decimal_lt_of_millionths_add heq⟩
  · rintro ⟨hlt, hdec⟩
    have heq := GradidoValue.millionths_add hdec hlt
    exact ⟨by omega, heq, hlt⟩

theorem records_twice_iff {once twice amount : GradidoValue} :
    Records once amount (twice.add amount) ↔ FitsTwice once twice amount := by
  constructor
  · rintro ⟨-, heq, hlt⟩
    have hle := twice.millionths_add_le amount
    rcases Nat.lt_or_ge once.millionths twice.millionths with hup | hdown
    · exact .inr ⟨hup, hlt, heq⟩
    · have hsame : twice.millionths = once.millionths := by omega
      rw [← hsame] at heq hlt
      exact .inl ⟨hsame, hlt, GradidoValue.decimal_lt_of_millionths_add heq⟩
  · rintro (⟨hsame, hlt, hdec⟩ | ⟨-, hlt, heq⟩)
    · have heq := GradidoValue.millionths_add hdec hlt
      rw [hsame] at heq hlt
      exact ⟨by omega, heq, hlt⟩
    · exact ⟨by omega, heq, hlt⟩

/-! ## The three cases -/

variable {d : DecayFunction} {env : Env} {n : Nat} {l : Ledger} {tr : Transaction}

theorem creditExact_creation (c : GradidoCreation) :
    CreditExact d l tr.consensusTimestamp (calcGradidoCreation d n l tr c) ↔
      CreditFits d env l tr.consensusTimestamp (.gradidoCreation c) := by
  unfold calcGradidoCreation
  cases hin : l.userIndex c.user with
  | none => simp [CreditExact, CreditFits, hin, withResult]
  | some info =>
    simp [CreditExact, CreditFits, hin, credit, ← records_add_iff, balanceAt]
    grind

theorem creditExact_inbound (lt : InboundTransfer) :
    CreditExact d l tr.consensusTimestamp (calcInboundTransfer d env n l tr lt) ↔
      CreditFits d env l tr.consensusTimestamp (.inboundTransfer lt) := by
  unfold calcInboundTransfer
  cases hre : l.userIndex lt.receiver.user with
  | none => simp [CreditExact, CreditFits, hre, withResult]
  | some receiver =>
    cases hpa : inboundPaired env l lt with
    | none => simp [CreditExact, CreditFits, hre, hpa]
    | some tt =>
      by_cases hsu : tt.result = .success
      · simp [CreditExact, CreditFits, hre, hpa, hsu, credit, ← records_add_iff, balanceAt]
        grind
      · simp [CreditExact, CreditFits, hpa, hsu, withResult]

theorem creditExact_local (lt : LocalTransfer) :
    CreditExact d l tr.consensusTimestamp (calcLocalTransfer d n l tr lt) ↔
      CreditFits d env l tr.consensusTimestamp (.localTransfer lt) := by
  unfold calcLocalTransfer
  cases hse : l.userIndex lt.sender.user with
  | none => simp [CreditExact, CreditFits, hse]
  | some sender =>
    cases hre : l.userIndex lt.receiver.user with
    | none => simp [CreditExact, CreditFits, hre, withResult]
    | some receiver =>
      by_cases hls : (balanceAt d tr.consensusTimestamp sender).less lt.amount = true
      · have hls' := hls
        rw [balanceAt] at hls'
        simp [CreditExact, CreditFits, hse, hre, hls, hls', withResult]
      · obtain ⟨b, hb⟩ := Option.ne_none_iff_exists'.mp (GradidoValue.sub_ne_none hls)
        have hls' := hls
        rw [balanceAt] at hls' hb
        by_cases hsl : lt.receiver.user = lt.sender.user
        · -- one entry: the receiver's balance is the sender's, decayed already
          cases (hsl ▸ hre).symm.trans hse
          simp [CreditExact, CreditFits, hse, hls', hb, hsl, credit, ← records_twice_iff, balanceAt]
          grind
        · simp [CreditExact, CreditFits, hse, hre, hls', hb, hsl, credit, ← records_add_iff,
            balanceAt]
          grind

/-- A transaction that credits nobody records no credit. -/
theorem creditExact_uncredited (h : credit tr.body = none) (t : HederaTimestamp) :
    CreditExact d l t (calcFieldsAndUpdateIndexesFor d env n l tr) := by
  cases hca : calcFieldsAndUpdateIndexesFor d env n l tr with
  | waiting l' request | failed e => trivial
  | ready l' tr' =>
    have hno : credit tr'.body = none := by
      obtain ⟨number, time, body, result⟩ := tr
      cases calc_applied hca with
      | gradidoCreation hbo | localTransfer hbo | inboundTransfer hbo =>
        cases hbo
        cases h
      | outboundTransfer hbo => rfl
      | _ => exact h
    intro _ u amount info hcr
    cases hno.symm.trans hcr

/-- **Credits are exact, where they fit.**  A transaction that is processed records what it
credits, and succeeds only if that can be recorded, just if it is put off or what it credits
fits. -/
theorem credit_exact_iff (d : DecayFunction) (env : Env) (n : Nat) (l : Ledger) (tr : Transaction) :
    CreditExact d l tr.consensusTimestamp (calcFieldsAndUpdateIndexesFor d env n l tr) ↔
      (l.waitingForPaired = false → CreditFits d env l tr.consensusTimestamp tr.body) := by
  cases hwa : l.waitingForPaired with
  | true =>
    unfold calcFieldsAndUpdateIndexesFor
    rw [if_pos hwa]
    exact iff_of_true trivial nofun
  | false =>
    rw [forall_prop_of_true rfl]
    cases hbo : tr.body with
    | gradidoCreation c =>
      simpa [calcFieldsAndUpdateIndexesFor, hwa, hbo] using creditExact_creation c
    | localTransfer lt =>
      simpa [calcFieldsAndUpdateIndexesFor, hwa, hbo] using creditExact_local lt
    | inboundTransfer lt =>
      simpa [calcFieldsAndUpdateIndexesFor, hwa, hbo] using creditExact_inbound lt
    | _ => exact iff_of_true (creditExact_uncredited (by rw [hbo]; rfl) _) trivial

/-- User 1 has a gradido. -/
def oneGradido : Ledger :=
  initial.withUsers (initial.userIndex.put (Chain.key 1) ⟨⟨1, 0⟩, 0, HederaTimestamp.zero⟩)

/-- `2^64 - 1` gradidos are created for user 1. -/
def createMost : Transaction :=
  ⟨1, HederaTimestamp.zero,
    .gradidoCreation ⟨Chain.userTransfer 1, ⟨18446744073709551615, 0⟩⟩, .unknown⟩

/-- User 1 has nothing then, and the creation is a success. -/
theorem creation_wraps :
    (calcFieldsAndUpdateIndexesFor Chain.keepNormalised Chain.noChains 2 oneGradido
        createMost).assigned
      = some ⟨1, HederaTimestamp.zero,
          .gradidoCreation ⟨⟨Chain.key 1, ⟨0, 0⟩, 0⟩, ⟨18446744073709551615, 0⟩⟩, .success⟩ ∧
    ¬ CreditExact Chain.keepNormalised oneGradido HederaTimestamp.zero
      (calcFieldsAndUpdateIndexesFor Chain.keepNormalised Chain.noChains 2 oneGradido
        createMost) := by
  refine ⟨rfl, fun hec => ?_⟩
  have hre := hec rfl ⟨Chain.key 1, ⟨0, 0⟩, 0⟩ ⟨18446744073709551615, 0⟩
    ⟨⟨1, 0⟩, 0, HederaTimestamp.zero⟩ rfl rfl
  exact absurd hre.1 (by decide)

end Ledger

end GradidoNode
