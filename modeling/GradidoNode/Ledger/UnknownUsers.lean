/-
# `GradidoNode.Ledger.UnknownUsers` — transfers of users that are not in the index

A transfer names users, and each has to be in `user_index`.  What the five cases of
`calc_fields_and_update_indexes_for` that look a user up do when it is not there:

    GRADIDO_CREATION      the iterator is compared with `end()`, then read
    MOVE_USER_OUTBOUND    compared
    INBOUND_TRANSFER      the receiver is compared, then read
    LOCAL_TRANSFER        the sender is read, then both are compared
    OUTBOUND_TRANSFER     the sender is read, then compared

`calc_deflation` takes its arguments by value, so in the last two the entry at
`end()` is read before the comparison that would have refused the transfer.  What is
left of the refusal is the receiver of a LOCAL_TRANSFER (`unknownUser_rejected_iff`).
-/
import GradidoNode.Ledger.Spending

namespace GradidoNode

namespace Ledger

variable {calculateDecay : DecayFunction} {env : Env} {recCount : Nat} {l : Ledger}
  {tr : Transaction}

/-- A user of the transfer is not in `user_index`: the sender or, for LOCAL_TRANSFER, the
receiver. -/
def UserUnknown (l : Ledger) : TransactionBody → Prop
  | .localTransfer lt => l.userIndex lt.sender.user = none ∨ l.userIndex lt.receiver.user = none
  | .outboundTransfer lt => l.userIndex lt.sender.user = none
  | _ => False

/-- The transfer is refused: the call returns true with UNKNOWN_LOCAL_USER, and the users and
the friends are as they were. -/
def Rejects (l : Ledger) : Calc → Prop
  | .ready l' tr' => tr'.result = .unknownLocalUser ∧
      l'.userIndex = l.userIndex ∧ l'.friendGroupIndex = l.friendGroupIndex
  | .waiting _ _ => False
  | .failed _ => False

/-- A call that is not put off fails when it reads the entry of an unknown sender, and in no
other case. -/
theorem calc_failed_iff (hfr : l.waitingForPaired = false) :
    (∃ e, calcFieldsAndUpdateIndexesFor calculateDecay env recCount l tr = .failed e) ↔
      ¬ SenderKnown l tr.body := by
  constructor
  · rintro ⟨e, hca⟩
    have hun := calc_ends calculateDecay env recCount l tr
    rw [hca] at hun
    exact hun.2
  · intro hse
    rw [calcFieldsAndUpdateIndexesFor, hfr]
    cases hbo : tr.body with
    | localTransfer lt =>
      rw [hbo] at hse
      have hno : l.userIndex lt.sender.user = none := Option.not_isSome_iff_eq_none.mp hse
      refine ⟨.undefined "user_index.end() dereferenced", ?_⟩
      simp only [Bool.false_eq_true, if_false, calcLocalTransfer, hno]
    | outboundTransfer lt =>
      rw [hbo] at hse
      have hno : (l.withOutbound lt.pairedTransactionId (outboundRecNum recCount)).userIndex
          lt.sender.user = none := Option.not_isSome_iff_eq_none.mp hse
      refine ⟨.undefined "user_index.end() dereferenced", ?_⟩
      simp only [Bool.false_eq_true, if_false, calcOutboundTransfer, hno]
    | _ =>
      rw [hbo] at hse
      exact absurd trivial hse

/-- The receiver alone is unknown: the one transfer with an unknown user that gets to the
comparison. -/
theorem calc_receiverUnknown (hfr : l.waitingForPaired = false) {lt : LocalTransfer}
    (hbo : tr.body = .localTransfer lt) (hse : (l.userIndex lt.sender.user).isSome)
    (hre : l.userIndex lt.receiver.user = none) :
    calcFieldsAndUpdateIndexesFor calculateDecay env recCount l tr
      = .ready l (withResult tr .unknownLocalUser) := by
  obtain ⟨sender, hse⟩ := Option.isSome_iff_exists.mp hse
  rw [calcFieldsAndUpdateIndexesFor, hfr, hbo]
  simp only [Bool.false_eq_true, if_false, calcLocalTransfer, hse, hre]

/-- A transfer with an unknown user is refused exactly when the sender is not the unknown one.
While a paired transaction is waited for, no transfer is looked at. -/
theorem unknownUser_rejected_iff (calculateDecay : DecayFunction) (env : Env) (recCount : Nat)
    (l : Ledger) (tr : Transaction) (hunknown : UserUnknown l tr.body) :
    Rejects l (calcFieldsAndUpdateIndexesFor calculateDecay env recCount l tr) ↔
      l.waitingForPaired = false ∧ SenderKnown l tr.body := by
  constructor
  · intro hre
    have hfr : l.waitingForPaired = false := by
      rw [Bool.eq_false_iff]
      intro hwa
      rw [calcFieldsAndUpdateIndexesFor, if_pos hwa] at hre
      exact hre
    refine ⟨hfr, ?_⟩
    by_contra hse
    obtain ⟨e, hca⟩ := (calc_failed_iff hfr).mpr hse
    rw [hca] at hre
    exact hre
  · rintro ⟨hfr, hse⟩
    cases hbo : tr.body with
    | localTransfer lt =>
      rw [hbo] at hunknown hse
      have hrc : l.userIndex lt.receiver.user = none := by
        refine hunknown.resolve_left fun hno => ?_
        rw [SenderKnown, hno] at hse
        exact Bool.noConfusion hse
      rw [calc_receiverUnknown hfr hbo hse hrc]
      exact ⟨rfl, rfl, rfl⟩
    | outboundTransfer lt =>
      rw [hbo] at hunknown hse
      have hno : l.userIndex lt.sender.user = none := hunknown
      rw [SenderKnown, hno] at hse
      exact Bool.noConfusion hse
    | _ =>
      rw [hbo] at hunknown
      exact hunknown.elim

/-- User 1 is known, user 2 is not. -/
def oneUser : Ledger :=
  initial.withUsers (initial.userIndex.put (Chain.key 1)
    ⟨GradidoValue.zero, 0, HederaTimestamp.zero⟩)

/-- User `n` sends a gradido to user 2. -/
def sentBy (n : UInt8) : Transaction :=
  ⟨1, HederaTimestamp.zero,
    .localTransfer ⟨⟨1, 0⟩, Chain.userTransfer n, Chain.userTransfer 2⟩, .unknown⟩

theorem unknownUser_rejected_receiver : UserUnknown oneUser (sentBy 1).body ∧ Rejects oneUser
      (calcFieldsAndUpdateIndexesFor Chain.keepNormalised Chain.noChains 0 oneUser (sentBy 1)) :=
  have hun : UserUnknown oneUser (sentBy 1).body := .inr (by decide +kernel)
  ⟨hun, (unknownUser_rejected_iff Chain.keepNormalised Chain.noChains 0 oneUser (sentBy 1)
    hun).mpr ⟨rfl, show (oneUser.userIndex (Chain.key 1)).isSome = true by decide +kernel⟩⟩

/-- User `n` sends a gradido to a user of another group. -/
def sentAbroadBy (n : UInt8) : Transaction :=
  ⟨1, HederaTimestamp.zero,
    .outboundTransfer ⟨Chain.withGroupB, ⟨1, 0⟩, Chain.userTransfer n, Chain.key 2⟩, .unknown⟩

/-- User 3 is not in the index, and sends: the entry at `end()` is read. -/
theorem unknownSender_dereferenced : (UserUnknown oneUser (sentBy 3).body ∧
      calcFieldsAndUpdateIndexesFor Chain.keepNormalised Chain.noChains 0 oneUser (sentBy 3)
        = .failed (.undefined "user_index.end() dereferenced") ∧
      ¬ Rejects oneUser
        (calcFieldsAndUpdateIndexesFor Chain.keepNormalised Chain.noChains 0 oneUser (sentBy 3))) ∧
    UserUnknown oneUser (sentAbroadBy 3).body ∧
      calcFieldsAndUpdateIndexesFor Chain.keepNormalised Chain.noChains 0 oneUser (sentAbroadBy 3)
        = .failed (.undefined "user_index.end() dereferenced") ∧
      ¬ Rejects oneUser (calcFieldsAndUpdateIndexesFor Chain.keepNormalised Chain.noChains 0 oneUser
          (sentAbroadBy 3)) := by
  have hno : oneUser.userIndex (Chain.key 3) = none := by decide +kernel
  exact ⟨⟨.inl hno, rfl, id⟩, hno, rfl, id⟩

end Ledger

end GradidoNode
