/-
# `GradidoNode.Ledger.Moves` — users that move between two group chains

A user moves from `a` to `b` by two transactions with one pairing id: a
MOVE_USER_OUTBOUND on `a`, which erases the entry of the user, and a MOVE_USER_INBOUND on
`b` that names the group of `a`, and makes one.

**Out before in.**  The inbound transaction should be a SUCCESS only if `a` has the outbound
one, and wait if `a` has none with the id (`KeepsMoveRule`).  It looks at one transaction,
`moveUserPaired`, and of that only at the result:

    the transaction waited for    if it is a MOVE_USER_OUTBOUND with the id; of any user,
                                  and whether `a` has it or not
    a row of `a`                  otherwise; the row `get_paired_transaction` says, and if it
                                  says none, whichever an uninitialised variable says

`MoveBacked` asks of that transaction what is not looked at.  An event keeps the rule just if
it is backed (`moves_rule_iff`).

**The balance.**  The user should enter `b` with the balance that `a` had.  No balance goes
from the one transaction to the other: the entry on `b` is made with the `new_balance` of the
inbound message, which nobody calculates.  So the balance is carried just where there was none
to carry (`moved_balance_iff`).
-/
import GradidoNode.Ledger.CrossGroup
import GradidoNode.Ledger.PairedRows

namespace GradidoNode

open Lib

namespace Ledger

open Chain (HasOutbound)

/-! ## Out before in -/

/-- Whether a row is a SUCCESS MOVE_USER_OUTBOUND of `u` with the id `p`. -/
def movesOut (u : PubKey) (p : HederaTimestamp) : GradidoRecord → Bool
  | .gradidoTransaction ⟨_, _, .moveUserOutbound m, .success⟩ =>
    m.user == u && m.pairedTransactionId == p
  | _ => false

def MovedOut (rows : List GradidoRecord) (u : PubKey) (p : HederaTimestamp) : Prop :=
  ∃ r ∈ rows, movesOut u p r = true

/-- The rule for a call with the MOVE_USER_INBOUND `m`, where the other chain has the rows:
a SUCCESS has its outbound transaction there; and a call for which there is no transaction with
the id returns false and waits. -/
structure KeepsMoveRule (rows : List GradidoRecord) (m : MoveUser) (c : Calc) : Prop where
  success : ∀ l' tr', c = .ready l' tr' → tr'.result = .success →
    MovedOut rows m.user m.pairedTransactionId
  waits : ¬ HasOutbound rows m.pairedTransactionId →
    ∃ l' request, c = .waiting l' request ∧ l'.waitingForPaired = true

/-- The other chain has a transaction with the id, if the user is there already or some
transaction is found; and one that moves the user out, if what is found is a SUCCESS. -/
structure MoveBacked (env : Env) (l : Ledger) (rows : List GradidoRecord) (m : MoveUser) :
    Prop where
  refused : (l.userIndex m.user).isSome → HasOutbound rows m.pairedTransactionId
  found : l.userIndex m.user = none → ∀ tt, moveUserPaired env l m = some tt →
    HasOutbound rows m.pairedTransactionId ∧
      (tt.result = .success → MovedOut rows m.user m.pairedTransactionId)

section Call

variable {d : DecayFunction} {env : Env} {n : Nat} {l : Ledger} {tr : Transaction}
  {rows : List GradidoRecord} {m : MoveUser}

/-- A call that decides keeps the rule if the id is there, and a SUCCESS has its transaction. -/
theorem keepsMoveRule_ready_iff {l' : Ledger} {tr' : Transaction} :
    KeepsMoveRule rows m (.ready l' tr') ↔ HasOutbound rows m.pairedTransactionId ∧
      (tr'.result = .success → MovedOut rows m.user m.pairedTransactionId) := by
  constructor
  · intro h
    refine ⟨?_, h.success l' tr' rfl⟩
    by_contra hno
    obtain ⟨_, _, hca, -⟩ := h.waits hno
    cases hca
  · rintro ⟨hhas, hmo⟩
    refine ⟨fun _ _ hca => ?_, fun hno => absurd hhas hno⟩
    cases hca
    exact hmo

theorem keepsMoveRule_waiting {l' : Ledger} {request : Option (Bytes × HederaTimestamp)}
    (h : l'.waitingForPaired = true) : KeepsMoveRule rows m (.waiting l' request) := by
  refine ⟨fun _ _ hca => ?_, fun _ => ⟨l', request, rfl, h⟩⟩
  cases hca

/-- One call keeps the rule just if the chain waits already, or the move is backed. -/
theorem keepsMoveRule_iff (hbo : tr.body = .moveUserInbound m) :
    KeepsMoveRule rows m (calcFieldsAndUpdateIndexesFor d env n l tr) ↔
      (l.waitingForPaired = false → MoveBacked env l rows m) := by
  unfold calcFieldsAndUpdateIndexesFor
  by_cases hwa : l.waitingForPaired = true
  · rw [if_pos hwa]
    refine ⟨fun _ hfr => ?_, fun _ => keepsMoveRule_waiting hwa⟩
    rw [hwa] at hfr
    cases hfr
  have hfr : l.waitingForPaired = false := Bool.eq_false_iff.mpr hwa
  rw [if_neg hwa, hbo]
  dsimp only [calcMoveUserInbound]
  cases hus : l.userIndex m.user with
  | some info =>
    rw [keepsMoveRule_ready_iff]
    constructor
    · rintro ⟨hhas, -⟩ -
      refine ⟨fun _ => hhas, fun hno => ?_⟩
      cases hus.symm.trans hno
    · intro hba
      refine ⟨(hba hfr).refused (by rw [hus]; rfl), fun hre => ?_⟩
      cases hre
  | none =>
    have hbacked_iff : (l.waitingForPaired = false → MoveBacked env l rows m) ↔
        ∀ tt, moveUserPaired env l m = some tt → HasOutbound rows m.pairedTransactionId ∧
          (tt.result = .success → MovedOut rows m.user m.pairedTransactionId) := by
      constructor
      · exact fun h => (h hfr).found hus
      · refine fun h _ => ⟨fun hso => ?_, fun _ => h⟩
        rw [hus] at hso
        cases hso
    rw [hbacked_iff]
    cases hpa : moveUserPaired env l m with
    | none =>
      refine ⟨fun _ tt htt => ?_, fun _ => keepsMoveRule_waiting rfl⟩
      cases htt
    | some tt =>
      dsimp only
      split
      · rename_i hfa
        rw [keepsMoveRule_ready_iff]
        constructor
        · rintro ⟨hhas, -⟩ tt' ⟨⟩
          exact ⟨hhas, fun hsu => absurd hsu hfa⟩
        · intro h
          refine ⟨(h tt rfl).1, fun hre => ?_⟩
          cases hre
      · rename_i hsu
        rw [keepsMoveRule_ready_iff]
        constructor
        · rintro ⟨hhas, hmo⟩ tt' ⟨⟩
          exact ⟨hhas, fun _ => hmo rfl⟩
        · intro h
          obtain ⟨hhas, hmo⟩ := h tt rfl
          exact ⟨hhas, fun _ => hmo (not_not.mp hsu)⟩

end Call

end Ledger

namespace TwoChains

open Ledger Chain

variable {d : DecayFunction} {σ : Setting} {s s' : TwoChains} {e : Event}

/-- The rule, for a MOVE_USER_INBOUND on `b` that names the group of `a`. -/
def MoveRule (d : DecayFunction) (σ : Setting) (s : TwoChains) : Event → Prop
  | .onB known others tr _ =>
    ∀ m, tr.body = .moveUserInbound m → cstr m.otherGroup = σ.nameA →
      KeepsMoveRule s.a.rows m (s.b.ledger.calcFieldsAndUpdateIndexesFor d
        (s.envB σ known others) (recCount s.b.rows) tr)
  | _ => True

/-- It is put off, or backed. -/
def MovePermitted (σ : Setting) (s : TwoChains) : Event → Prop
  | .onB known others tr _ =>
    ∀ m, tr.body = .moveUserInbound m → cstr m.otherGroup = σ.nameA →
      s.b.ledger.waitingForPaired = false →
      MoveBacked (s.envB σ known others) s.b.ledger s.a.rows m
  | _ => True

theorem moveRule_iff : MoveRule d σ s e ↔ MovePermitted σ s e := by
  cases e with
  | onB known others tr parts =>
    exact forall_congr' fun m => forall_congr' fun hbo => forall_congr' fun _ =>
      keepsMoveRule_iff hbo
  | _ => exact Iff.rfl

/-- **A user moves in after moving out.**  In every run of the two chains, all events keep the
rule just if every MOVE_USER_INBOUND is put off or backed. -/
theorem moves_rule_iff (d : DecayFunction) (σ : Setting) (es : List Event) :
    Along (step d σ) (MoveRule d σ) initial es ↔ Along (step d σ) (MovePermitted σ) initial es := by
  have hsa : MoveRule d σ = MovePermitted σ := by
    funext s e
    exact propext moveRule_iff
  rw [hsa]

/-- The message with which user 1 comes from A. -/
def comingFromA : Transaction :=
  ⟨0, HederaTimestamp.zero, .moveUserInbound ⟨userTransfer 1, ⟨pairingId, groupName 65⟩⟩, .unknown⟩

def comesToB : Event := .onB true noChains comingFromA []

/-- A has only the ADD_USER of user 3.  The variable is zero, and row 0 is a SUCCESS. -/
theorem moved_in_by_junk :
    ∃ s l tr, run (step keepNormalised groupsAB) initial [plainA (.addUser (key 3))] = some s ∧
      ¬ HasOutbound s.a.rows pairingId ∧
      s.b.ledger.calcFieldsAndUpdateIndexesFor keepNormalised (s.envB groupsAB true noChains)
        (recCount s.b.rows) comingFromA = .ready l tr ∧
      tr.result = .success ∧ (l.userIndex (key 1)).isSome ∧
      ¬ MoveRule keepNormalised groupsAB s comesToB := by
  obtain ⟨s, l, tr, hs, hro, hca, hre, hus⟩ : ∃ s l tr,
      run (step keepNormalised groupsAB) initial [plainA (.addUser (key 3))] = some s ∧
      s.a.rows = [.gradidoTransaction ⟨0, HederaTimestamp.zero, .addUser (key 3), .success⟩] ∧
      s.b.ledger.calcFieldsAndUpdateIndexesFor keepNormalised (s.envB groupsAB true noChains)
        (recCount s.b.rows) comingFromA = .ready l tr ∧
      tr.result = .success ∧ (l.userIndex (key 1)).isSome := ⟨_, _, _, rfl, rfl, rfl, rfl, rfl⟩
  have hno : ¬ HasOutbound s.a.rows pairingId := by
    rw [hro]
    rintro ⟨k, tr', hrow, hid⟩
    cases List.mem_singleton.mp (List.mem_of_getElem? hrow)
    cases hid
  refine ⟨s, l, tr, hs, hno, hca, hre, hus, fun hru => ?_⟩
  obtain ⟨l', request, hwa, -⟩ := (hru _ rfl rfl).waits hno
  cases hca.symm.trans hwa

/-! ## The balance -/

/-- A user that leaves or comes: the pairing id, and the balance. -/
structure Move where
  user : PubKey
  pairedTransactionId : HederaTimestamp
  balance : GradidoValue
  deriving DecidableEq

/-- A SUCCESS MOVE_USER_OUTBOUND on `a`: with the balance of the user, decayed to its time. -/
def departure (d : DecayFunction) (σ : Setting) (s : TwoChains) : Event → Option Move
  | .onA known others ⟨seq, t, .moveUserOutbound m, result⟩ _ =>
    match s.a.ledger.calcFieldsAndUpdateIndexesFor d (s.envA σ known others)
        (recCount s.a.rows) ⟨seq, t, .moveUserOutbound m, result⟩ with
    | .ready _ ⟨_, _, _, .success⟩ =>
      (s.a.ledger.userIndex m.user).map fun info =>
        ⟨m.user, m.pairedTransactionId, balanceAt d t info⟩
    | _ => none
  | _ => none

/-- A SUCCESS MOVE_USER_INBOUND on `b` that names the group of `a`: with the balance of the
entry it makes. -/
def arrival (d : DecayFunction) (σ : Setting) (s : TwoChains) : Event → Option Move
  | .onB known others ⟨seq, t, .moveUserInbound m, result⟩ _ =>
    if cstr m.otherGroup = σ.nameA then
      match s.b.ledger.calcFieldsAndUpdateIndexesFor d (s.envB σ known others)
          (recCount s.b.rows) ⟨seq, t, .moveUserInbound m, result⟩ with
      | .ready l ⟨_, _, _, .success⟩ =>
        (l.userIndex m.user).map fun info =>
          ⟨m.user, m.pairedTransactionId, info.currentBalance⟩
      | _ => none
    else none
  | _ => none

/-- A message as it comes from the network: its calculated fields are zero. -/
def Uncalculated : Event → Prop
  | .onB _ _ tr _ => ∀ m, tr.body = .moveUserInbound m → m.newBalance = GradidoValue.zero
  | _ => True

/-- The entry is made with the balance of the message. -/
theorem arrival_balance {move : Move} (h : arrival d σ s e = some move) :
    ∃ known others tr parts m, e = .onB known others tr parts ∧ tr.body = .moveUserInbound m ∧
      move.balance = m.newBalance := by
  unfold arrival at h
  split at h
  · rename_i known others seq t m result parts
    split at h
    · split at h
      · rename_i l _ _ _ hca
        obtain ⟨info, hin, rfl⟩ := Option.map_eq_some_iff.mp h
        refine ⟨known, others, _, parts, m, rfl, rfl, ?_⟩
        cases calc_applied hca with
        | refused hre hl => exact absurd rfl hre
        | moveUserInbound hbo =>
          cases hbo
          cases PMap.put_self.symm.trans hin
          rfl
        | _ hbo => cases hbo
      · cases h
    · cases h
  · cases h

/-- Who left `a` in a run, and who came to `b`. -/
def departures (d : DecayFunction) (σ : Setting) (es : List Event) : List Move :=
  observed (step d σ) (departure d σ) initial es

def arrivals (d : DecayFunction) (σ : Setting) (es : List Event) : List Move :=
  observed (step d σ) (arrival d σ) initial es

/-- A user comes with the balance they left with. -/
def BalanceCarried (d : DecayFunction) (σ : Setting) (es : List Event) : Prop :=
  ∀ out ∈ departures d σ es, ∀ into ∈ arrivals d σ es, into.user = out.user →
    into.pairedTransactionId = out.pairedTransactionId → into.balance = out.balance

/-- Everybody comes with nothing. -/
theorem arrivals_zero {es : List Event} (hme : ∀ e ∈ es, Uncalculated e) {into : Move}
    (h : into ∈ arrivals d σ es) : into.balance = GradidoValue.zero := by
  obtain ⟨e, he, t, ht⟩ := mem_observed h
  obtain ⟨known, others, tr, parts, m, rfl, hbo, hba⟩ := arrival_balance ht
  rw [hba]
  exact hme _ he m hbo

/-- **The balance of a user that moves.**  In every run of messages as they come from the
network, each user that comes to `b` has the balance they left `a` with, decayed to the time
they left, just if each of them left with nothing. -/
theorem moved_balance_iff (d : DecayFunction) (σ : Setting) (es : List Event)
    (hmessages : ∀ e ∈ es, Uncalculated e) :
    BalanceCarried d σ es ↔
      ∀ out ∈ departures d σ es, ∀ into ∈ arrivals d σ es, into.user = out.user →
        into.pairedTransactionId = out.pairedTransactionId → out.balance = GradidoValue.zero := by
  constructor
  · intro hca out hout into hin hus hid
    rw [← hca out hout into hin hus hid]
    exact arrivals_zero hmessages hin
  · intro hze out hout into hin hus hid
    rw [hze out hout into hin hus hid]
    exact arrivals_zero hmessages hin

/-- User 1 leaves A for B. -/
def leavesA : Event := plainA (.moveUserOutbound ⟨userTransfer 1, ⟨pairingId, groupName 66⟩⟩)

/-- Without a gradido. -/
def movesPoor : List Event := [plainA (.addUser (key 1)), leavesA, comesToB]

/-- With five gradidos. -/
def movesRich : List Event :=
  [plainA (.addUser (key 1)), plainA (.gradidoCreation ⟨userTransfer 1, ⟨5, 0⟩⟩), leavesA, comesToB]

theorem uncalculated_comesToB : Uncalculated comesToB := by
  intro m hbo
  cases hbo
  rfl

/-- The user moves, and the balance is what it was. -/
theorem moved_balance_poor :
    departures keepNormalised groupsAB movesPoor = [⟨key 1, pairingId, ⟨0, 0⟩⟩] ∧
      arrivals keepNormalised groupsAB movesPoor = [⟨key 1, pairingId, ⟨0, 0⟩⟩] ∧
      BalanceCarried keepNormalised groupsAB movesPoor := by
  have hout : departures keepNormalised groupsAB movesPoor = [⟨key 1, pairingId, ⟨0, 0⟩⟩] := by
    decide +kernel
  refine ⟨hout, by decide +kernel, ?_⟩
  refine (moved_balance_iff keepNormalised groupsAB movesPoor ?_).mpr ?_
  · intro e he
    rcases List.mem_cons.mp he with rfl | he
    · trivial
    · rcases List.mem_cons.mp he with rfl | he
      · trivial
      · cases List.mem_singleton.mp he
        exact uncalculated_comesToB
  · rw [hout]
    intro out hmem _ _ _ _
    cases List.mem_singleton.mp hmem
    rfl

/-- The five gradidos are gone: they left A, and did not come to B. -/
theorem moved_balance_lost :
    departures keepNormalised groupsAB movesRich = [⟨key 1, pairingId, ⟨5, 0⟩⟩] ∧
      arrivals keepNormalised groupsAB movesRich = [⟨key 1, pairingId, ⟨0, 0⟩⟩] ∧
      ¬ BalanceCarried keepNormalised groupsAB movesRich := by
  have hout : departures keepNormalised groupsAB movesRich = [⟨key 1, pairingId, ⟨5, 0⟩⟩] := by
    decide +kernel
  have hin : arrivals keepNormalised groupsAB movesRich = [⟨key 1, pairingId, ⟨0, 0⟩⟩] := by
    decide +kernel
  refine ⟨hout, hin, fun hca => ?_⟩
  unfold BalanceCarried at hca
  rw [hout, hin] at hca
  have heq := hca _ List.mem_cons_self _ List.mem_cons_self rfl rfl
  cases heq

end TwoChains

end GradidoNode
