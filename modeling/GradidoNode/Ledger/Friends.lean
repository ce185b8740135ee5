/-
# `GradidoNode.Ledger.Friends` — friend groups, and transfers between groups

A transfer to or from another group needs that group to be a friend (#01012 of the
rules; the result UNKNOWN_GROUP is there for it).  A group is a friend from a SUCCESS
ADD_GROUP_FRIEND on, up to a SUCCESS REMOVE_GROUP_FRIEND, and `friend_group_index` says
so at every moment of a run (`friends_history`).

The cases of the two transfers do not look into `friend_group_index`, and no case gives
the result UNKNOWN_GROUP: with a known user and enough gradidos the transfer is a success,
whatever the group (`stranger_transfer_succeeds`).  And the sender of an
OUTBOUND_TRANSFER is dereferenced before it is known to be there.

`RuleKept` is the rule for one event, `Permitted` says when an event keeps it, in terms of
what is known before; in a run all events keep the rule just if all of them are permitted
(`friends_rule_iff`).
-/
import GradidoNode.Ledger.Restart

namespace GradidoNode

open Lib

namespace Ledger

/-! ## One transaction -/

/-- The group a transfer between groups names. -/
def transferGroup : TransactionBody → Option Bytes
  | .inboundTransfer lt => some (cstr lt.otherGroup)
  | .outboundTransfer lt => some (cstr lt.otherGroup)
  | _ => none

/-- A result that says why not. -/
def IsFailure (r : TransactionResult) : Prop := r ≠ .success ∧ r ≠ .unknown

instance (r : TransactionResult) : Decidable (IsFailure r) := inferInstanceAs (Decidable (_ ∧ _))

/-- The rule, for a transfer with a group that is a friend or not. -/
def KeepsRule (l : Ledger) (friend : Prop) : Calc → Prop
  | .ready l' tr' => (tr'.result = .success ∧ friend) ∨
      (IsFailure tr'.result ∧ l'.userIndex = l.userIndex)
  | .waiting l' _ => l'.userIndex = l.userIndex
  | .failed _ => False

/-- The sender is known, and has not enough, or the group is a friend. -/
def OutboundPermitted (d : DecayFunction) (l : Ledger) (t : HederaTimestamp)
    (lt : OutboundTransfer) (friend : Prop) : Prop :=
  ∃ sender, l.userIndex lt.sender.user = some sender ∧
    ((calcDeflation d sender.timestampOfLastBalance t sender.currentBalance).less lt.amount = true ∨
      friend)

/-- The receiver is not known, or the paired transaction is not known or has failed, or the
group is a friend. -/
def InboundPermitted (env : Env) (l : Ledger) (lt : InboundTransfer) (friend : Prop) : Prop :=
  ∀ tt, (l.userIndex lt.receiver.user).isSome → inboundPaired env l lt = some tt →
    tt.result = .success → friend

variable {d : DecayFunction} {env : Env} {n : Nat} {l l' : Ledger} {tr tr' : Transaction}
  {friend : Prop}

theorem keepsRule_outbound (lt : OutboundTransfer) :
    KeepsRule l friend (calcOutboundTransfer d n l tr lt) ↔
      OutboundPermitted d l tr.consensusTimestamp lt friend := by
  unfold calcOutboundTransfer OutboundPermitted
  dsimp only [withOutbound]
  cases hse : l.userIndex lt.sender.user with
  | none => exact ⟨fun h => h.elim, fun ⟨sender, hno, _⟩ => by cases hno⟩
  | some sender =>
    dsimp only
    by_cases hls : (calcDeflation d sender.timestampOfLastBalance tr.consensusTimestamp
        sender.currentBalance).less lt.amount = true
    · rw [if_pos hls]
      have hfa : IsFailure .notEnoughGradidos := by decide
      exact ⟨fun _ => ⟨sender, rfl, .inl hls⟩, fun _ => .inr ⟨hfa, rfl⟩⟩
    · rw [if_neg hls]
      cases hnew : (calcDeflation d sender.timestampOfLastBalance tr.consensusTimestamp
          sender.currentBalance).sub lt.amount with
      | none => exact absurd hnew (GradidoValue.sub_ne_none hls)
      | some senderNewBalance =>
        constructor
        · rintro (⟨-, hfr⟩ | ⟨hfa, -⟩)
          · exact ⟨sender, rfl, .inr hfr⟩
          · exact absurd rfl hfa.1
        · rintro ⟨sender', hse', hle' | hfr⟩
          · cases hse'
            exact absurd hle' hls
          · exact .inl ⟨rfl, hfr⟩

theorem keepsRule_inbound (lt : InboundTransfer) :
    KeepsRule l friend (calcInboundTransfer d env n l tr lt) ↔
      InboundPermitted env l lt friend := by
  unfold calcInboundTransfer InboundPermitted
  cases hre : l.userIndex lt.receiver.user with
  | none =>
    have hfa : IsFailure .unknownLocalUser := by decide
    exact ⟨fun _ tt hso => (by cases hso), fun _ => .inr ⟨hfa, rfl⟩⟩
  | some receiver =>
    cases hpa : inboundPaired env l lt with
    | none => exact ⟨fun _ tt _ hno => (by cases hno), fun _ => rfl⟩
    | some tt =>
      dsimp only
      by_cases hfl : tt.result ≠ .success
      · rw [if_pos hfl]
        have hfa : IsFailure .outboundTransactionFailed := by decide
        refine ⟨fun _ tt' _ htt hsu => ?_, fun _ => .inr ⟨hfa, rfl⟩⟩
        cases htt
        exact absurd hsu hfl
      · rw [if_neg hfl]
        constructor
        · rintro (⟨-, hfr⟩ | ⟨hfa, -⟩)
          · exact fun _ _ _ _ => hfr
          · exact absurd rfl hfa.1
        · intro h
          exact .inl ⟨rfl, h tt rfl rfl (not_not.mp hfl)⟩

/-- When a transfer keeps the rule. -/
def TransferPermitted (d : DecayFunction) (env : Env) (l : Ledger) (t : HederaTimestamp)
    (friend : Bytes → Prop) : TransactionBody → Prop
  | .inboundTransfer lt => InboundPermitted env l lt (friend (cstr lt.otherGroup))
  | .outboundTransfer lt => OutboundPermitted d l t lt (friend (cstr lt.otherGroup))
  | _ => True

/-- A transaction keeps the rule just if it is put off, is no transfer between groups, or is a
permitted one. -/
theorem keepsRule_iff {friend : Bytes → Prop} : (∀ g, transferGroup tr.body = some g →
      KeepsRule l (friend g) (calcFieldsAndUpdateIndexesFor d env n l tr)) ↔
    (l.waitingForPaired = false →
      TransferPermitted d env l tr.consensusTimestamp friend tr.body) := by
  unfold calcFieldsAndUpdateIndexesFor
  cases hwa : l.waitingForPaired with
  | true => exact ⟨fun _ hfr => (by cases hfr), fun _ g _ => rfl⟩
  | false =>
    rw [if_neg Bool.false_ne_true]
    cases tr.body with
    | inboundTransfer lt =>
      refine ⟨fun h _ => (keepsRule_inbound lt).mp (h _ rfl), fun h g hg => ?_⟩
      cases hg
      exact (keepsRule_inbound lt).mpr (h rfl)
    | outboundTransfer lt =>
      refine ⟨fun h _ => (keepsRule_outbound lt).mp (h _ rfl), fun h g hg => ?_⟩
      cases hg
      exact (keepsRule_outbound lt).mpr (h rfl)
    | _ => exact ⟨fun _ _ => trivial, fun _ g hg => by cases hg⟩

end Ledger

namespace Chain

/-! ## Who is a friend -/

def befriends (g : Bytes) : GradidoRecord → Bool
  | .gradidoTransaction ⟨_, _, .addGroupFriend group, .success⟩ => cstr group == g
  | _ => false

def unfriends (g : Bytes) : GradidoRecord → Bool
  | .gradidoTransaction ⟨_, _, .removeGroupFriend group, .success⟩ => cstr group == g
  | _ => false

/-- A SUCCESS ADD_GROUP_FRIEND for the group, and no SUCCESS REMOVE_GROUP_FRIEND since. -/
def Befriended (rows : List GradidoRecord) (g : Bytes) : Prop :=
  ∃ pre r post, rows = pre ++ r :: post ∧ befriends g r = true ∧ ∀ r' ∈ post, unfriends g r' = false

theorem befriended_snoc {rows : List GradidoRecord} {r : GradidoRecord} {g : Bytes} :
    Befriended (rows ++ [r]) g ↔
      befriends g r = true ∨ (Befriended rows g ∧ unfriends g r = false) := by
  constructor
  · rintro ⟨pre, r₀, post, heq, had, hke⟩
    rcases List.eq_nil_or_concat post with rfl | ⟨post', r', rfl⟩
    · obtain ⟨-, hr⟩ := List.append_inj' heq rfl
      cases hr
      exact .inl had
    · rw [List.concat_eq_append, ← List.cons_append, ← List.append_assoc] at heq
      obtain ⟨hro, hr⟩ := List.append_inj' heq rfl
      cases hr
      refine .inr ⟨⟨pre, r₀, post', hro, had, fun r' hr' => hke r' ?_⟩, hke r ?_⟩
      · rw [List.concat_eq_append]
        exact List.mem_append_left _ hr'
      · rw [List.concat_eq_append]
        exact List.mem_append_right _ List.mem_cons_self
  · rintro (had | ⟨⟨pre, r₀, post, rfl, had, hke⟩, hla⟩)
    · exact ⟨rows, r, [], rfl, had, fun r' hr' => by cases hr'⟩
    · refine ⟨pre, r₀, post ++ [r], ?_, had, fun r' hr' => ?_⟩
      · rw [List.append_assoc, List.cons_append]
      · rcases List.mem_append.mp hr' with hr' | hr'
        · exact hke r' hr'
        · cases List.mem_singleton.mp hr'
          exact hla

theorem befriended_batch {rows : List GradidoRecord} {tr : Transaction} {parts : List Part}
    {g : Bytes} : Befriended (rows ++ batch tr parts) g ↔
      befriends g (.gradidoTransaction tr) = true ∨
        (Befriended rows g ∧ unfriends g (.gradidoTransaction tr) = false) := by
  -- the parts behind the transaction change nothing
  have hpa : ∀ rows, Befriended (rows ++ parts.map Part.record) g ↔ Befriended rows g := by
    induction parts with
    | nil =>
      intro rows
      rw [List.map_nil, List.append_nil]
    | cons p parts ih =>
      intro rows
      rw [List.map_cons, List.append_cons, ih, befriended_snoc]
      cases p with
      | memo => exact ⟨fun h => (h.resolve_left Bool.false_ne_true).1, fun h => .inr ⟨h, rfl⟩⟩
      | signatures =>
        exact ⟨fun h => (h.resolve_left Bool.false_ne_true).1, fun h => .inr ⟨h, rfl⟩⟩
  rw [batch, List.append_cons, hpa, befriended_snoc]

/-- `friend_group_index` has the friends. -/
def FriendsKnown (s : Chain) : Prop :=
  ∀ g, (s.ledger.friendGroupIndex g).isSome ↔ Befriended s.rows g

theorem friendsKnown_initial : FriendsKnown initial := by
  intro g
  refine ⟨fun h => (by cases h), ?_⟩
  rintro ⟨pre, r, post, heq, -, -⟩
  exact absurd heq.symm (List.append_ne_nil_of_right_ne_nil _ (List.cons_ne_nil _ _))

variable {d : DecayFunction} {s s' : Chain} {e : Event}

theorem befriends_refused (tr : Transaction) (h : tr.result ≠ .success) (g : Bytes) :
    befriends g (.gradidoTransaction tr) = false ∧
      unfriends g (.gradidoTransaction tr) = false := by
  obtain ⟨number, time, body, result⟩ := tr
  cases result with
  | success => exact absurd rfl h
  | _ => cases body <;> exact ⟨rfl, rfl⟩

/-- What a transaction that became ready makes of the friends is what its row says. -/
theorem applied_friends {env : Env} {n : Nat} {l l' : Ledger} {tr tr' : Transaction}
    (h : Ledger.Applied d env n l tr l' tr') (g : Bytes) :
    (l'.friendGroupIndex g).isSome ↔ befriends g (.gradidoTransaction tr') = true ∨
      ((l.friendGroupIndex g).isSome ∧ unfriends g (.gradidoTransaction tr') = false) := by
  have hsa : ∀ {tr' : Transaction}, befriends g (.gradidoTransaction tr') = false →
      unfriends g (.gradidoTransaction tr') = false → ((l.friendGroupIndex g).isSome ↔
        befriends g (.gradidoTransaction tr') = true ∨
          ((l.friendGroupIndex g).isSome ∧ unfriends g (.gradidoTransaction tr') = false)) := by
    intro tr' hadd hre
    simp [hadd, hre]
  obtain ⟨number, time, body, result⟩ := tr
  cases h with
  | @refused l' result' hrs hl =>
    obtain ⟨hadd, hre⟩ := befriends_refused
      (Ledger.withResult ⟨number, time, body, result⟩ result') hrs g
    rcases hl with rfl | ⟨id, recNum, rfl⟩
    · exact hsa hadd hre
    · exact hsa hadd hre
  | addGroupFriend hbo hno =>
    cases hbo
    simp only [befriends, unfriends, Ledger.withResult, PMap.insertNew_of_none hno, PMap.put_apply]
    grind
  | removeGroupFriend hbo =>
    cases hbo
    simp only [befriends, unfriends, Ledger.withResult, PMap.erase_apply]
    grind
  | other hbo | addUser hbo hno | moveUserInbound hbo hno hpa hsu | moveUserOutbound hbo =>
    cases hbo
    exact hsa rfl rfl
  | gradidoCreation hbo hin hba | localTransfer hbo hse hrc ham hch hsub hra
  | inboundTransfer hbo hrc hpa hsu hra | outboundTransfer hbo hse ham hch hsub => exact hsa rfl rfl

theorem FriendsKnown.step (h : FriendsKnown s) (hs : Chain.step d s e = some s') :
    FriendsKnown s' := by
  intro g
  rcases step_cases hs with ⟨hld, hro⟩ | ⟨env, tr, parts, tr', rfl, hap, hro⟩
  · rw [show s'.ledger.friendGroupIndex = s.ledger.friendGroupIndex from congrArg _ hld, hro]
    exact h g
  · rw [applied_friends hap, hro, befriended_batch, h g]

/-- **Friends are what the rows say**, at every moment of every run. -/
theorem friends_history {es : List Event} (hrun : run (step d) initial es = some s) :
    FriendsKnown s :=
  run_keeps FriendsKnown (fun _ _ _ h hs => h.step hs) friendsKnown_initial hrun

/-! ## The rule -/

/-- The group is in the index, and is a friend by the rows. -/
def Friend (s : Chain) (g : Bytes) : Prop :=
  (s.ledger.friendGroupIndex g).isSome ∧ Befriended s.rows g

/-- The rule, for one event. -/
def RuleKept (d : DecayFunction) (s : Chain) : Event → Prop
  | .process env tr _ => ∀ g, Ledger.transferGroup tr.body = some g →
      Ledger.KeepsRule s.ledger (Friend s g)
        (s.ledger.calcFieldsAndUpdateIndexesFor d env (recCount s.rows) tr)
  | .pairedTransactionDone _ => True

/-- The event is put off, or is no transfer between groups, or one that fails for another reason,
or has a friend for its group. -/
def Permitted (d : DecayFunction) (s : Chain) : Event → Prop
  | .process env tr _ => s.ledger.waitingForPaired = false →
      Ledger.TransferPermitted d env s.ledger tr.consensusTimestamp
        (fun g => (s.ledger.friendGroupIndex g).isSome) tr.body
  | .pairedTransactionDone _ => True

/-- An event keeps the rule just if it is permitted. -/
theorem FriendsKnown.rule_iff (h : FriendsKnown s) : RuleKept d s e ↔ Permitted d s e := by
  have hfr : Friend s = fun g => (s.ledger.friendGroupIndex g).isSome = true :=
    funext fun g => propext ⟨fun hf => hf.1, fun hf => ⟨hf, (h g).mp hf⟩⟩
  cases e with
  | pairedTransactionDone t => exact Iff.rfl
  | process env tr parts =>
    unfold RuleKept Permitted
    rw [← hfr]
    exact Ledger.keepsRule_iff

/-- **Transfers between groups need friends.**  In every run, all events keep the rule just if
all of them are permitted. -/
theorem friends_rule_iff (d : DecayFunction) (es : List Event) :
    Along (step d) (RuleKept d) initial es ↔ Along (step d) (Permitted d) initial es := by
  constructor
  · exact along_of_inv FriendsKnown
      (fun s e h hru => ⟨h.rule_iff.mp hru, fun s' hs => h.step hs⟩) friendsKnown_initial
  · exact along_of_inv FriendsKnown (fun s e h hpe => ⟨h.rule_iff.mpr hpe, fun s' hs => h.step hs⟩)
      friendsKnown_initial

/-- User 1 has five gradidos, and nobody is a friend. -/
def richAndFriendless : List Event :=
  [plain (.addUser (key 1)), plain (.gradidoCreation ⟨userTransfer 1, ⟨5, 0⟩⟩)]

/-- One gradido for user 2 of the group `B`. -/
def sendToStranger : Transaction :=
  ⟨0, HederaTimestamp.zero, .outboundTransfer ⟨withGroupB, ⟨1, 0⟩, userTransfer 1, key 2⟩, .unknown⟩

/-- The transfer to a group that was never a friend is a success. -/
theorem stranger_transfer_succeeds :
    ∃ s l tr, run (step keepNormalised) initial richAndFriendless = some s ∧
      s.ledger.friendGroupIndex [66] = none ∧ ¬ Befriended s.rows [66] ∧
      s.ledger.calcFieldsAndUpdateIndexesFor keepNormalised noChains (recCount s.rows)
        sendToStranger = .ready l tr ∧ tr.result = .success ∧
      ¬ RuleKept keepNormalised s (.process noChains sendToStranger []) := by
  obtain ⟨s, hs, hst, hre⟩ : ∃ s, run (step keepNormalised) initial richAndFriendless = some s ∧
      s.ledger.friendGroupIndex [66] = none ∧ (s.ledger.calcFieldsAndUpdateIndexesFor
        keepNormalised noChains (recCount s.rows) sendToStranger).assigned.map (·.result)
          = some .success := by decide +kernel
  have hno : ¬ (s.ledger.friendGroupIndex [66]).isSome := by
    rw [hst]
    decide
  cases hca : s.ledger.calcFieldsAndUpdateIndexesFor keepNormalised noChains (recCount s.rows)
      sendToStranger with
  | ready l tr =>
    rw [hca] at hre
    have hsu : tr.result = .success := Option.some.inj hre
    refine ⟨s, l, tr, hs, hst, fun hf => hno ((friends_history hs [66]).mpr hf), hca,
      hsu, fun hru => ?_⟩
    have hke : Ledger.KeepsRule s.ledger (Friend s [66]) _ := hru [66] rfl
    rw [hca] at hke
    rcases hke with ⟨-, hfr⟩ | ⟨hfa, -⟩
    · exact hno hfr.1
    · exact hfa.1 hsu
  | waiting l request =>
    rw [hca] at hre
    cases hre
  | failed e =>
    rw [hca] at hre
    cases hre

end Chain

end GradidoNode
