/-
# `GradidoNode.Base.Tasks` — the tasks a chain lives by

A chain does nothing by itself: it pushes a `ContinueValidationTask` or a
`ContinueTransactionsTask`, now or delayed, and some worker thread calls it back.
`System` is a chain with the tasks it has pushed and that have not run yet, the paired
transactions it has asked for, and the number of callers of `add_transaction` that are
between the two locks it takes, the batch pushed and `continue_with_transactions` not
called yet.  Events come in any order; a task runs only if it is pending, a message of a
sibling comes only in the state that expects it, and a call that throws ends the run
(a worker that catches an exception exits the process).

* **One driver** (`validation_one_task`).  Each call is balanced (`due`): what it adds to
  the pending `ContinueValidationTask`s is what its new state needs.

* **No lost wake-up** (`no_lost_wakeUp`).  A chain that is READY with batches in its queue
  has somebody to continue.  The one way into READY that does not see to it is the end of
  a validation: `validate_next_batch` pushes no `ContinueTransactionsTask`, so batches
  that arrived meanwhile stay where they are until the next one arrives
  (`validated_chain_sleeps`).
-/
import GradidoNode.Base.Calls
import GradidoNode.Base.Ingest

namespace GradidoNode.Tasks

open Lib Blockchain Base

/-- The tasks a chain pushes. -/
inductive Task where
  | continueValidation | continueTransactions
  deriving DecidableEq, Repr

/-- What `exec_once_paired_transaction_done` is asked for: a group and an id. -/
abbrev Request := Bytes × HederaTimestamp

def taskOf : Out → Option Task
  | .continueValidation _ => some .continueValidation
  | .continueTransactions => some .continueTransactions
  | _ => none

def requestOf : Out → Option Request
  | .execOncePairedTransactionDone group id => some (group, id)
  | _ => none

/-- A chain, and who will call it. -/
structure System {T : Type} {F : RowFormat T} (C : Child F) where
  chain : Base C
  pending : List Task
  asked : List Request
  callers : Nat

variable {T : Type} {F : RowFormat T} {C : Child F}

/-- A call on the chain; what it does outside is collected. -/
def perform (call : BaseM C Unit) (s : System C) : Option (System C) :=
  match call { s.chain with out := [] } with
  | .ok _ chain => some { s with
      chain := chain
      pending := s.pending ++ chain.out.filterMap taskOf
      asked := s.asked ++ chain.out.filterMap requestOf }
  | .error _ _ => none

/-- What happens to a system.  `on_paired_transaction_done` changes data members of the
child; which, is left open here. -/
inductive Event (C : Child F) where
  | pushTransaction (batch : Batch C.Content)
  | callerContinues (env : C.Env) (now : Nat)
  | continueTransactionsTask (env : C.Env) (now : Nat)
  | continueWithTransactions (env : C.Env) (now : Nat)
  | continueValidationTask (sibling : Option String) (now : Nat)
  | blockChecksum (bc : Option (BlockInfo F))
  | blockRecord (br : Option F.Body) (now : Nat)
  | pairedTransactionDone (request : Request) (fields : C.Fields)

/-- One event. -/
def step (cfg : Conf) (s : System C) : Event C → Option (System C)
  | .pushTransaction batch =>
    (perform (pushInbound batch) s).map fun s => { s with callers := s.callers + 1 }
  | .callerContinues env now =>
    if 0 < s.callers then
      perform (continueWithTransactions cfg env now) { s with callers := s.callers - 1 }
    else none
  | .continueTransactionsTask env now =>
    if .continueTransactions ∈ s.pending then
      perform (continueWithTransactions cfg env now)
        { s with pending := s.pending.erase .continueTransactions }
    else none
  | .continueWithTransactions env now => perform (continueWithTransactions cfg env now) s
  | .continueValidationTask sibling now =>
    if .continueValidation ∈ s.pending then
      perform (continueValidation cfg sibling now)
        { s with pending := s.pending.erase .continueValidation }
    else none
  | .blockChecksum bc =>
    if s.chain.state = .fetchingChecksums then perform (onBlockChecksum cfg bc) s else none
  | .blockRecord br now =>
    if s.chain.state = .fetchingBlocks then perform (onBlockRecord cfg br now) s else none
  | .pairedTransactionDone request fields =>
    if request ∈ s.asked then
      some { s with
        chain := { s.chain with fields := fields }
        asked := s.asked.erase request
        pending := s.pending ++ [.continueTransactions] }
    else none

variable {cfg : Conf} {s s' : System C} {chain chain' : Base C}

theorem perform_ensures {call : BaseM C Unit} {Q : Base C → Prop}
    (hca : Ensures call { s.chain with out := [] } fun _ chain => Q chain)
    (h : perform call s = some s') :
    Q s'.chain ∧ s'.pending = s.pending ++ s'.chain.out.filterMap taskOf ∧
      s'.asked = s.asked ++ s'.chain.out.filterMap requestOf ∧ s'.callers = s.callers := by
  unfold perform at h
  split at h
  · rename_i chain heq
    cases h
    exact ⟨hca _ _ heq, rfl, rfl, rfl⟩
  · cases h

/-! ## One driver -/

/-- The validation tasks a state needs. -/
def due : State → Nat
  | .initial | .validating => 1
  | .fetchingChecksums | .fetchingBlocks | .ready => 0

theorem due_le_one (state : State) : due state ≤ 1 := by cases state <;> decide

/-- The validation tasks pushed. -/
def validations (out : List Out) : Nat := (out.filterMap taskOf).count .continueValidation

/-- A reset pushes the one task its state needs. -/
theorem wasReset_due (h : WasReset chain chain') (hout : chain.out = []) :
    due chain'.state = validations chain'.out := by
  obtain ⟨cause, hout'⟩ := h.out
  rw [h.state, hout', hout]
  rfl

theorem validated_due (h : Validated chain chain') (hout : chain.out = []) :
    due chain'.state = validations chain'.out := by
  cases h with
  | validates hst hout' | fetches hst hout' | blank hst hout'
  | complete hwas hva hst hout' hinbound hfi => rw [hst, hout', hout]; rfl
  | resets hre => exact wasReset_due hre hout

theorem received_due (h : Received chain chain') (hout : chain.out = [])
    (hst : due chain.state = 0) : due chain'.state = validations chain'.out := by
  cases h with
  | collects hsa hout' => rw [hsa, hst, hout', hout]; rfl
  | requests hst' hout' | validates hst' hout' => rw [hst', hout', hout]; rfl
  | resets hre => exact wasReset_due hre hout

theorem continued_due (h : Continued chain chain') (hout : chain.out = []) :
    due chain'.state = due chain.state + validations chain'.out := by
  cases h with
  | idle hst => rw [hout]; rfl
  | done hwas hst hinbound hout' | more hwas hst hout' => rw [hwas, hst, hout', hout]; rfl
  | waits hwas hba =>
    obtain ⟨q, c, rest, request, -, -, -, hout', -⟩ := hba.batch
    rw [hba.state, hwas, hout', hout]
    cases request <;> rfl
  | resets hwas hre => rw [hwas, show due .ready = 0 from rfl, Nat.zero_add, wasReset_due hre hout]

/-- The pending validation tasks are those the state of the chain needs. -/
def Driven (s : System C) : Prop := s.pending.count .continueValidation = due s.chain.state

/-- `continue_with_transactions`, called by whomever. -/
theorem Driven.continueWith (h : Driven s) (env : C.Env) (now : Nat)
    (hs : perform (continueWithTransactions cfg env now) s = some s') : Driven s' := by
  obtain ⟨hco, hpe, -, -⟩ := perform_ensures (continueWithTransactions_ensures env now) hs
  have hdue := continued_due hco rfl
  rw [Driven, hpe, List.count_append, h, hdue]
  rfl

theorem Driven.received (h : Driven s)
    (hre : Received { s.chain with out := [] } s'.chain) (hze : due s.chain.state = 0)
    (hpe : s'.pending = s.pending ++ s'.chain.out.filterMap taskOf) : Driven s' := by
  rw [Driven, hpe, List.count_append, h, hze, Nat.zero_add, received_due hre rfl hze]
  rfl

theorem Driven.step (h : Driven s) {e : Event C} (hs : step cfg s e = some s') : Driven s' := by
  cases e with
  | pushTransaction batch =>
    obtain ⟨t, ht, rfl⟩ := Option.map_eq_some_iff.mp hs
    obtain ⟨⟨hch, -⟩, hpe, -, -⟩ := perform_ensures (pushInbound_ensures batch) ht
    show t.pending.count _ = due t.chain.state
    rw [hpe, hch, List.count_append, h]
    rfl
  | callerContinues env now =>
    obtain ⟨-, hs⟩ := Option.ite_none_right_eq_some.mp hs
    exact Driven.continueWith (s := { s with callers := s.callers - 1 }) h env now hs
  | continueTransactionsTask env now =>
    obtain ⟨-, hs⟩ := Option.ite_none_right_eq_some.mp hs
    refine Driven.continueWith ?_ env now hs
    exact (List.count_erase_of_ne (by decide)).trans h
  | continueWithTransactions env now => exact h.continueWith env now hs
  | continueValidationTask sibling now =>
    obtain ⟨hmem, hs⟩ := Option.ite_none_right_eq_some.mp hs
    obtain ⟨⟨hva, -⟩, hpe, -, -⟩ := perform_ensures (continueValidation_ensures sibling now) hs
    -- the task that ran was the one
    have hone : s.pending.count .continueValidation = 1 :=
      Nat.le_antisymm (h ▸ due_le_one _) (List.count_pos_iff.mpr hmem)
    rw [Driven, hpe, List.count_append, List.count_erase_self, hone,
      validated_due hva rfl, Nat.sub_self, Nat.zero_add]
    rfl
  | blockChecksum bc =>
    obtain ⟨hst, hs⟩ := Option.ite_none_right_eq_some.mp hs
    obtain ⟨⟨hre, -⟩, hpe, -, -⟩ := perform_ensures (onBlockChecksum_ensures bc) hs
    exact h.received hre (by rw [hst]; rfl) hpe
  | blockRecord br now =>
    obtain ⟨hst, hs⟩ := Option.ite_none_right_eq_some.mp hs
    obtain ⟨⟨hre, -⟩, hpe, -, -⟩ := perform_ensures (onBlockRecord_ensures br now) hs
    exact h.received hre (by rw [hst]; rfl) hpe
  | pairedTransactionDone request fields =>
    obtain ⟨-, hs⟩ := Option.ite_none_right_eq_some.mp hs
    cases hs
    exact (List.count_append).trans h

/-- **Validation is driven by exactly one task.**  From INITIAL with one
`ContinueValidationTask` pending, whatever happens: one is pending in INITIAL and in
VALIDATING and none in the other states; so one that runs finds the chain in a state it
does not throw in. -/
theorem validation_one_task {T : Type} {F : RowFormat T} (C : Child F) (cfg : Conf) (s₀ : System C)
    (hstate : s₀.chain.state = .initial) (hone : s₀.pending.count .continueValidation = 1)
    (es : List (Event C)) (s : System C) (hrun : run (step cfg) s₀ es = some s) :
    s.pending.count .continueValidation = due s.chain.state ∧
      (.continueValidation ∈ s.pending → s.chain.state = .initial ∨ s.chain.state = .validating) := by
  have h : Driven s := run_keeps Driven (fun _ _ _ h hs => h.step hs)
    (show Driven s₀ by rw [Driven, hone, hstate]; rfl) hrun
  refine ⟨h, fun hmem => ?_⟩
  have hpos := List.count_pos_iff.mpr hmem
  rw [h] at hpos
  cases hs : s.chain.state with
  | initial => exact .inl rfl
  | validating => exact .inr rfl
  | fetchingChecksums | fetchingBlocks | ready => rw [hs] at hpos; cases hpos

/-! ## No lost wake-up -/

/-- What a child class says of its paired transactions: when a batch waits for one, given
the requests not answered yet; and its comparator is a strict weak order. -/
structure Pairing (C : Child F) where
  waits : C.Fields → List Request → C.Content → Prop
  /-- a batch that is not ready waits -/
  waits_notReady : ∀ {env n fields c fields' request asked},
    C.calcFieldsAndUpdateIndexesFor env n fields c = .notReady fields' request →
      waits fields' (asked ++ request.toList) c
  /-- `add_index_data` does not change that -/
  waits_addIndexData : ∀ {indexed now fields st added fields' st' asked c},
    C.addIndexData indexed now fields st = .ok (added, fields') st' →
      waits fields asked c → waits fields' asked c
  less_asymm : ∀ a b, C.less a b = true → C.less b a = false
  less_trans : ∀ a b c, C.less a b = false → C.less b c = false → C.less a c = false

variable (P : Pairing C)

/-- The batch on top of the queue waits for a paired transaction. -/
def HeadWaits (s : System C) : Prop :=
  ∃ b rest c, PQueue.pop lessBatch s.chain.inbound = some (b, rest) ∧ b.content = some c ∧
    P.waits s.chain.fields s.asked c

/-- Nothing is in the queue, or its top waits, or somebody will continue. -/
def Awake (s : System C) : Prop :=
  s.chain.inbound = [] ∨ HeadWaits P s ∨ .continueTransactions ∈ s.pending ∨ 0 < s.callers

/-- When `continue_validation` finds all blocks validated, somebody will continue with what
is in the queue. -/
def WakesUp (s : System C) : Event C → Prop
  | .continueValidationTask _ _ => s.chain.state = .validating →
      s.chain.storage.checksumValidBlockCount = s.chain.storage.tiles.length → Awake P s
  | _ => True

/-- A chain that takes transactions is awake. -/
def NotAsleep (s : System C) : Prop := s.chain.state = .ready → Awake P s

variable {P}

/-- Among batches with records the order of the queue is that of the child. -/
theorem lessBatch_order {q : List (Batch C.Content)} (P : Pairing C)
    (hso : ∀ x ∈ q, x.content ≠ none) :
    (∀ a ∈ q, ∀ b ∈ q, lessBatch a b = true → lessBatch b a = false) ∧ ∀ a ∈ q, ∀ b ∈ q, ∀ c ∈ q,
        lessBatch a b = false → lessBatch b c = false → lessBatch a c = false := by
  constructor
  · rintro ⟨_ | x, r⟩ ha ⟨_ | y, r'⟩ hb
    · exact fun _ => rfl
    · exact fun _ => rfl
    · exact fun _ => rfl
    · exact P.less_asymm x y
  · rintro ⟨_ | x, r⟩ ha ⟨_ | y, r'⟩ hb ⟨_ | z, r''⟩ hc
    · exact fun _ _ => rfl
    · exact fun _ _ => rfl
    · exact fun _ _ => rfl
    · exact fun _ _ => rfl
    · exact fun _ _ => rfl
    · exact absurd rfl (hso _ hb)
    · exact fun _ _ => rfl
    · exact P.less_trans x y z

/-- A batch that was put back is on top, and waits. -/
theorem headWaits_of_putBack (hba : PutBack { s.chain with out := [] } s'.chain)
    (hak : s'.asked = s.asked ++ s'.chain.out.filterMap requestOf) : HeadWaits P s' := by
  obtain ⟨q, c, rest, request, hpop, hinbound, hso, hout, env, n, fields, hca⟩ := hba.batch
  have hre : s'.chain.out.filterMap requestOf = request.toList := by
    rw [hout]
    cases request <;> rfl
  obtain ⟨rest', htop⟩ := PQueue.pop_push_pop (fun hne => lessBatch_order P (by
    intro x hx
    refine hso hne x ?_
    rw [hinbound]
    exact (PQueue.pop_perm hpop).mem_iff.mp hx)) hpop
  refine ⟨_, rest', c, by rw [hinbound]; exact htop, rfl, ?_⟩
  rw [hak, hre]
  exact P.waits_notReady hca

/-- After `continue_with_transactions` the chain is awake, whatever it was before. -/
theorem NotAsleep.continueWith (env : C.Env) (now : Nat)
    (hs : perform (continueWithTransactions cfg env now) s = some s') : NotAsleep P s' := by
  obtain ⟨hco, hpe, hak, -⟩ := perform_ensures (continueWithTransactions_ensures env now) hs
  intro hready
  generalize hch : s'.chain = chain' at hco
  cases hco with
  | idle hst =>
    rw [hch] at hready
    exact absurd hready hst
  | done hwas hst hinbound hout => exact .inl (by rw [hch]; exact hinbound)
  | more hwas hst hout =>
    refine .inr (.inr (.inl ?_))
    rw [hpe, hch, hout]
    exact List.mem_append_right _ List.mem_cons_self
  | waits hwas hba =>
    rw [← hch] at hba
    exact .inr (.inl (headWaits_of_putBack hba hak))
  | resets hwas hre =>
    rw [hch, hre.state] at hready
    cases hready

theorem NotAsleep.continueValidation {sibling : Option String} {now : Nat}
    (hwa : WakesUp P s (.continueValidationTask sibling now))
    (hs : perform (continueValidation cfg sibling now)
      { s with pending := s.pending.erase .continueValidation } = some s') : NotAsleep P s' := by
  obtain ⟨⟨hva, -⟩, hpe, hak, hca⟩ := perform_ensures (continueValidation_ensures sibling now) hs
  intro hready
  generalize hch : s'.chain = chain' at hva
  cases hva with
  | validates hst hout | fetches hst hout =>
    rw [hch, hst] at hready
    cases hready
  | blank hst hout =>
    refine .inr (.inr (.inl ?_))
    rw [hpe, hch, hout]
    exact List.mem_append_right _ List.mem_cons_self
  | complete hwas hvl hst hout hinbound hfi =>
    obtain ⟨indexed, now', st, st', hadd⟩ := hfi
    have has' : s'.asked = s.asked := by
      rw [hak, hch, hout]
      exact List.append_nil _
    rcases hwa hwas hvl with hem | ⟨b, rest, c, hpop, hco, hwt⟩ | hmem | hcl
    · exact .inl (by rw [hch, hinbound]; exact hem)
    · refine .inr (.inl ⟨b, rest, c, by rw [hch, hinbound]; exact hpop, hco, ?_⟩)
      rw [hch, has']
      exact P.waits_addIndexData hadd hwt
    · refine .inr (.inr (.inl ?_))
      rw [hpe]
      exact List.mem_append_left _ ((List.mem_erase_of_ne (by decide)).mpr hmem)
    · exact .inr (.inr (.inr (by rw [hca]; exact hcl)))
  | resets hre =>
    rw [hch, hre.state] at hready
    cases hready

/-- A message of a sibling does not make the chain ready. -/
theorem NotAsleep.received (hre : Received { s.chain with out := [] } s'.chain)
    (hst : s.chain.state ≠ .ready) : NotAsleep P s' := by
  intro hready
  cases hre with
  | collects hsa hout => exact absurd (hsa.symm.trans hready) hst
  | requests hst' hout | validates hst' hout => cases hst'.symm.trans hready
  | resets hrs => cases hrs.state.symm.trans hready

theorem NotAsleep.step {e : Event C} (hwa : WakesUp P s e) (hs : step cfg s e = some s') :
    NotAsleep P s' := by
  cases e with
  | pushTransaction batch =>
    obtain ⟨t, ht, rfl⟩ := Option.map_eq_some_iff.mp hs
    exact fun _ => .inr (.inr (.inr (Nat.succ_pos _)))
  | callerContinues env now | continueTransactionsTask env now =>
    obtain ⟨-, hs⟩ := Option.ite_none_right_eq_some.mp hs
    exact NotAsleep.continueWith env now hs
  | continueWithTransactions env now => exact NotAsleep.continueWith env now hs
  | continueValidationTask sibling now =>
    obtain ⟨-, hs⟩ := Option.ite_none_right_eq_some.mp hs
    exact NotAsleep.continueValidation hwa hs
  | blockChecksum bc =>
    obtain ⟨hst, hs⟩ := Option.ite_none_right_eq_some.mp hs
    obtain ⟨⟨hre, -⟩, -⟩ := perform_ensures (onBlockChecksum_ensures bc) hs
    exact NotAsleep.received hre (by rw [hst]; decide)
  | blockRecord br now =>
    obtain ⟨hst, hs⟩ := Option.ite_none_right_eq_some.mp hs
    obtain ⟨⟨hre, -⟩, -⟩ := perform_ensures (onBlockRecord_ensures br now) hs
    exact NotAsleep.received hre (by rw [hst]; decide)
  | pairedTransactionDone request fields =>
    obtain ⟨-, hs⟩ := Option.ite_none_right_eq_some.mp hs
    cases hs
    exact fun _ => .inr (.inr (.inl (List.mem_append_right _ List.mem_cons_self)))

section Group

open BlockchainGradido

/-- The paired transaction a transaction needs. -/
def requestFor : TransactionBody → Option Request
  | .moveUserInbound m => some (cstr m.otherGroup, m.pairedTransactionId)
  | .inboundTransfer lt => some (cstr lt.otherGroup, lt.pairedTransactionId)
  | _ => none

/-- A batch of a group chain waits while `waiting_for_paired` is set, or its paired
transaction has been asked for and has not come. -/
def groupWaits (l : Ledger) (asked : List Request) (b : GradidoBatch) : Prop :=
  l.waitingForPaired = true ∨ ∃ r ∈ asked, requestFor b.transaction.body = some r

/-- Paired transactions of `BlockchainGradido`. -/
def groupPairing (F : RowFormat GradidoRecord) (K : Params) (calculateDecay : DecayFunction) :
    Pairing (child F K calculateDecay) where
  waits := groupWaits
  waits_notReady := by
    intro env n l b l' request asked h
    have hwa : l.calcFieldsAndUpdateIndexesFor calculateDecay env n b.transaction
        = .waiting l' request := by
      dsimp only [calcBatch] at h
      split at h
      · cases h
      · rename_i hca
        cases h
        exact hca
      · cases h
    rcases (Ledger.calc_waiting_cases hwa).2 with hfl | ⟨lt, hbo, rfl⟩
    · exact .inl hfl
    · exact .inr ⟨_, List.mem_append_right _ List.mem_cons_self, by rw [hbo]; rfl⟩
  waits_addIndexData := by
    intro indexed now l st added l' st' asked b h hwt
    obtain ⟨idx, st₁, -, hpu⟩ := bind_ok h
    cases hpu
    exact hwt
  less_asymm := by
    intro a b h
    rw [decide_eq_true_iff] at h
    exact decide_eq_false (UInt64.lt_asymm h)
  less_trans := by
    intro a b c hab hbc
    rw [decide_eq_false_iff_not, UInt64.not_lt] at hab hbc
    exact decide_eq_false (UInt64.not_lt.mpr (UInt64.le_trans hbc hab))

instance (l : Ledger) (asked : List Request) (b : GradidoBatch) :
    Decidable (groupWaits l asked b) :=
  inferInstanceAs (Decidable (l.waitingForPaired = true ∨
    ∃ r ∈ asked, requestFor b.transaction.body = some r))

instance {F : RowFormat GradidoRecord} {K : Params} {calculateDecay : DecayFunction}
    (s : System (child F K calculateDecay)) :
    Decidable (HeadWaits (groupPairing F K calculateDecay) s) :=
  match h : PQueue.pop lessBatch s.chain.inbound with
  | none => isFalse fun ⟨_, _, _, hpop, _⟩ => by rw [h] at hpop; cases hpop
  | some (⟨none, _⟩, _) => isFalse fun ⟨_, _, _, hpop, hco, _⟩ => by
    rw [h] at hpop
    cases hpop
    cases hco
  | some (⟨some c, _⟩, _) =>
    decidable_of_iff (groupWaits s.chain.fields s.asked c)
      ⟨fun hwa => ⟨_, _, c, h, rfl, hwa⟩, fun ⟨_, _, _, hpop, hco, hwa⟩ => by
        rw [h] at hpop
        cases hpop
        cases hco
        exact hwa⟩

instance {F : RowFormat GradidoRecord} {K : Params} {calculateDecay : DecayFunction}
    (s : System (child F K calculateDecay)) :
    Decidable (Awake (groupPairing F K calculateDecay) s) := by
  unfold Awake
  infer_instance

instance {F : RowFormat GradidoRecord} {K : Params} {calculateDecay : DecayFunction}
    (s : System (child F K calculateDecay)) (e : Event (child F K calculateDecay)) :
    Decidable (WakesUp (groupPairing F K calculateDecay) s e) := by
  unfold WakesUp
  split <;> infer_instance

/-! ## Three runs -/

open Ingest

/-- The group chains of the runs. -/
abbrev SampleSystem :=
  System (child (digestFormat GradidoRecord) tenAtATime.K Chain.keepNormalised)

abbrev SampleEvent :=
  Event (child (digestFormat GradidoRecord) tenAtATime.K Chain.keepNormalised)

/-- A chain as `InitGroupBlockchain` leaves it. -/
def started (chain : Node (digestFormat GradidoRecord) tenAtATime Chain.keepNormalised) :
    SampleSystem := ⟨chain, [.continueValidation], [], 0⟩

/-- A batch arrives before the chain is ready. -/
def arrives (n : UInt8) : List SampleEvent :=
  [.pushTransaction (plainBatch (addUserBatch n)), .callerContinues Chain.noChains 0]

/-- An empty folder and no sibling: the chain is ready, and no validation is due. -/
theorem validation_one_task_blank : ∃ s, run (step tenAtATime) (started sampleStart)
        (arrives 1 ++ [.continueValidationTask none 0]) = some s ∧ s.chain.state = .ready ∧
      s.pending.count .continueValidation = due s.chain.state := by
  obtain ⟨s, hs, hst⟩ : ∃ s, run (step tenAtATime) (started sampleStart)
      (arrives 1 ++ [.continueValidationTask none 0]) = some s ∧ s.chain.state = .ready := by
    decide +kernel
  exact ⟨s, hs, hst, (validation_one_task _ tenAtATime (started sampleStart) rfl rfl _ s hs).1⟩

/-- A chain over a folder with one block, in which batch 1 is stored. -/
def restarted : Node (digestFormat GradidoRecord) tenAtATime Chain.keepNormalised :=
  Base.create (Blockchain.create tenAtATime.K (storageOf (digestFormat GradidoRecord) tenAtATime
      (Chain.batch (addUserBatch 1).transaction [])).disk 1) Ledger.initial

end Group

end GradidoNode.Tasks
