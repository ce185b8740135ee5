/-
# `GradidoNode.Base.Waiting` — a chain that waits for a paired transaction

A transaction that came from another group needs the one it is paired with.  As long as
that is not known `calc_fields_and_update_indexes_for` returns false, having asked for
it with `exec_once_paired_transaction_done`, and the batch goes back into the queue.
The chain is to wait: until `on_paired_transaction_done` the flag `waiting_for_paired`
is set, nothing is asked for again, and nothing else is processed, however often
`continue_with_transactions` runs.

MOVE_USER_INBOUND does it so.  INBOUND_TRANSFER does not set the flag: each further
turn asks again, and a batch that has meanwhile come in may go ahead
(`inboundTransfer_asks_again`).  `PairKnown` leaves out the turns that meet an
INBOUND_TRANSFER with a known receiver and without its pair; then the chain waits as
it should (`waiting_blocks`).

**Runs.**  A run is taken turn by turn: `turn` is one turn of the loop of
`continue_with_transactions`, and the calls of the base class are sequences of such
steps (`addTransaction_steps`, `continueWithTransactions_steps`).  The log of a run has
an entry for each call of `calc_fields_and_update_indexes_for` and for each call of
`on_paired_transaction_done`.
-/
import GradidoNode.Base.Calls
import GradidoNode.Base.Ingest

namespace GradidoNode.Waiting

open Lib Blockchain Base BlockchainGradido
open Ingest (Node)

variable {F : RowFormat GradidoRecord} {calculateDecay : DecayFunction} {cfg : Conf}

/-! ## Steps -/

/-- What happens to the chain, one turn of the loop at a time. -/
inductive Event (F : RowFormat GradidoRecord) where
  /-- `add_transaction` puts a batch into the queue -/
  | push (batch : Batch GradidoBatch)
  | turn (env : Env) (now : Nat)
  /-- the loop is over and there are batches left -/
  | loopEnds
  | continueValidation (sibling : Option String) (now : Nat)
  | onBlockChecksum (bc : Option (BlockInfo F))
  | onBlockRecord (br : Option F.Body) (now : Nat)
  | pairedTransactionDone (t : Transaction)

/-- One turn of the loop of `continue_with_transactions`. -/
def turn (cfg : Conf) (env : Env) (now : Nat) : BaseM (child F cfg.K calculateDecay) Bool := do
  let s ← get
  match PQueue.pop lessBatch s.inbound with
  | none => return true
  | some (batch, rest) => do
    modify fun s => { s with inbound := rest }
    processBatch cfg env now batch

/-- The call an event is. -/
def call (cfg : Conf) : Event F → BaseM (child F cfg.K calculateDecay) Unit
  | .push batch => pushInbound batch
  | .turn env now => do
    let _ ← turn cfg env now
    return ()
  | .loopEnds => emit .continueTransactions
  | .continueValidation sibling now => Base.continueValidation cfg sibling now
  | .onBlockChecksum bc => Base.onBlockChecksum cfg bc
  | .onBlockRecord br now => Base.onBlockRecord cfg br now
  | .pairedTransactionDone t => onPairedTransactionDone t

/-- One event.  A call that fails ends the run. -/
def step (cfg : Conf) (s : Node F cfg calculateDecay) (e : Event F) :
    Option (Node F cfg calculateDecay) :=
  match call cfg e s with
  | .ok _ s' => some s'
  | .error _ _ => none

variable {s s' : Node F cfg calculateDecay}

theorem step_of_call {e : Event F} (h : call cfg e s = .ok () s') : step cfg s e = some s' := by
  rw [step, h]

theorem transactionsLoop_steps (env : Env) (now : Nat) :
    ∀ (fuel : Nat) (s : Node F cfg calculateDecay),
      Ensures (transactionsLoop cfg env now fuel) s fun _ s' =>
        ∃ k ≤ fuel, run (step cfg) s (List.replicate k (.turn env now)) = some s' := by
  intro fuel
  induction fuel with
  | zero =>
    intro s
    exact .pure ⟨0, Nat.le_refl 0, rfl⟩
  | succ fuel ih =>
    intro s
    refine .bind (.get ?_)
    cases hpop : PQueue.pop lessBatch s.inbound with
    | none => exact .pure ⟨0, Nat.zero_le _, rfl⟩
    | some p =>
      refine .bind (.of_modify ?_)
      intro r s' hlo
      obtain ⟨goOn, s₁, hba, hre⟩ := bind_ok hlo
      have htu : step cfg s (.turn env now) = some s₁ := by
        refine step_of_call ?_
        show (turn cfg env now >>= fun _ => pure ()) s = _
        unfold turn
        rw [bind_assoc, get_bind, hpop]
        rw [bind_assoc, modify_bind, bind_eq hba]
        rfl
      cases goOn with
      | false =>
        cases hre
        exact ⟨1, Nat.succ_pos _, by rw [List.replicate_one, run, htu]; rfl⟩
      | true =>
        obtain ⟨k, hle, hk⟩ := ih s₁ r s' hre
        exact ⟨k + 1, Nat.succ_le_succ hle, by rw [List.replicate_succ, run, htu]; exact hk⟩

/-- `continue_with_transactions` is nothing, or turns and then at most the end of the loop. -/
theorem continueWithTransactions_steps (env : Env) (now : Nat) :
    Ensures (continueWithTransactions cfg env now) s fun _ s' =>
      ∃ k ≤ cfg.batchSize, ∃ ended : Bool,
        run (step cfg) s (List.replicate k (.turn env now) ++ if ended then [.loopEnds] else [])
          = some s' := by
  refine .bind (.get ?_)
  split
  · exact .pure ⟨0, Nat.zero_le _, false, rfl⟩
  · refine .bind ((transactionsLoop_steps env now _ s).mono ?_)
    rintro ended s₁ ⟨k, hle, hk⟩
    refine .bind (.get ?_)
    split
    · exact .of_modify ⟨k, hle, true, run_append hk⟩
    · exact .pure ⟨k, hle, false, run_append hk⟩

/-- A call of `add_transaction` that returns, step by step. -/
theorem addTransaction_steps (env : Env) (now : Nat) (batch : Batch GradidoBatch) :
    Ensures (addTransaction cfg env now batch) s fun _ s' =>
      ∃ k ≤ cfg.batchSize, ∃ ended : Bool,
        run (step cfg) s (.push batch :: List.replicate k (.turn env now) ++
          if ended then [.loopEnds] else []) = some s' := by
  intro r s' h
  obtain ⟨_, s₁, hpu, hre⟩ := bind_ok h
  have hst : step cfg s (.push batch) = some s₁ := step_of_call hpu
  obtain ⟨k, hle, ended, hrun⟩ := continueWithTransactions_steps env now r s' hre
  refine ⟨k, hle, ended, ?_⟩
  rw [List.cons_append, run, hst]
  exact hrun

/-! ## What is asked for -/

/-- The paired transactions asked for. -/
def asks (out : List Out) : List (Bytes × HederaTimestamp) :=
  out.filterMap fun
    | .execOncePairedTransactionDone group id => some (group, id)
    | _ => none

theorem asks_append (out out' : List Out) : asks (out ++ out') = asks out ++ asks out' :=
  List.filterMap_append

theorem asks_ofRequest (request : Option (Bytes × HederaTimestamp)) :
    asks (Out.ofRequest request) = request.toList := by
  cases request <;> rfl

/-- Nothing asked for, and the flag as it was. -/
structure Same (s s' : Node F cfg calculateDecay) : Prop where
  flag : s'.fields.waitingForPaired = s.fields.waitingForPaired
  asked : asks s'.out = asks s.out

/-- The rebuild of the indexes does not touch the flag. -/
theorem reindexed_flag {l l' : (child F cfg.K calculateDecay).Fields} (h : Reindexed _ l l') :
    Ledger.waitingForPaired l' = Ledger.waitingForPaired l := by
  induction h with
  | same => rfl
  | cleared _ ih => exact ih
  | added _ hadd ih =>
    obtain ⟨idx, st, -, hidx⟩ := bind_ok hadd
    cases hidx
    exact ih

theorem wasReset_asks (h : WasReset s s') : asks s'.out = asks s.out := by
  obtain ⟨cause, hout⟩ := h.out
  rw [hout, asks_append]
  exact List.append_nil _

theorem same_of_validated (h : Validated s s' ∧ Reindexed _ s.fields s'.fields) : Same s s' := by
  refine ⟨reindexed_flag h.2, ?_⟩
  cases h.1 with
  | complete _ _ _ hout => rw [hout]
  | resets hre => exact wasReset_asks hre
  | validates _ hout | fetches _ hout | blank _ hout =>
    rw [hout, asks_append]
    exact List.append_nil _

theorem same_of_received (h : Received s s' ∧ Reindexed _ s.fields s'.fields) : Same s s' := by
  refine ⟨reindexed_flag h.2, ?_⟩
  cases h.1 with
  | collects _ hout => rw [hout]
  | resets hre => exact wasReset_asks hre
  | requests _ hout | validates _ hout =>
    rw [hout, asks_append]
    exact List.append_nil _

/-! ## One turn -/

/-- The transaction a turn gives to `calc_fields_and_update_indexes_for`, if it gives it one: that
on top of the queue, if it follows the last one stored; and `rec_count` then. -/
def taken (cfg : Conf) (now : Nat) (s : Node F cfg calculateDecay) :
    Option (Transaction × Nat) :=
  match PQueue.pop (lessBatch (C := child F cfg.K calculateDecay)) s.inbound with
  | some (⟨some c, false⟩, _) =>
    match getLatestTransactionId cfg.K now s.storage with
    | .ok latest st =>
      if isNext cfg latest c.transaction.sequenceNumber then some (c.transaction, st.recCount)
      else none
    | .error _ _ => none
  | _ => none

/-- The call, and how it ends. -/
def calcCall (cfg : Conf) (env : Env) (now : Nat) (s : Node F cfg calculateDecay) :
    Option (Transaction × Calc) :=
  (taken cfg now s).map fun p =>
    (p.1, Ledger.calcFieldsAndUpdateIndexesFor calculateDecay env p.2 s.fields p.1)

/-- What a turn did that returned. -/
inductive Turned (s : Node F cfg calculateDecay) :
    Option (Transaction × Calc) → Node F cfg calculateDecay → Prop
  | quiet {s' : Node F cfg calculateDecay} (h : Same s s') : Turned s none s'
  | ready {s' : Node F cfg calculateDecay} {tr tr' : Transaction} {l : Ledger}
      (hfields : s'.fields = l) (hasks : asks s'.out = asks s.out) :
      Turned s (some (tr, .ready l tr')) s'
  | waiting {s' : Node F cfg calculateDecay} {tr : Transaction} {l : Ledger}
      {request : Option (Bytes × HederaTimestamp)} (hfields : s'.fields = l)
      (hasks : asks s'.out = asks s.out ++ request.toList) :
      Turned s (some (tr, .waiting l request)) s'

theorem turn_turned (env : Env) (now : Nat) (s : Node F cfg calculateDecay) :
    Ensures (turn cfg env now) s fun _ s' => Turned s (calcCall cfg env now s) s' := by
  refine .bind (.get ?_)
  unfold calcCall taken
  cases hpop : PQueue.pop lessBatch s.inbound with
  | none => exact .pure (.quiet ⟨rfl, rfl⟩)
  | some p =>
    obtain ⟨⟨content, reset⟩, rest⟩ := p
    refine .bind (.of_modify ?_)
    unfold processBatch
    cases reset with
    | true =>
      rw [if_pos rfl]
      split
      · exact .throw
      · cases content <;>
          exact .bind (.of_modify (.pure (.quiet ⟨rfl, rfl⟩)))
    | false =>
      dsimp only
      rw [if_neg (by decide)]
      cases content with
      | none => exact .throw
      | some c =>
        refine .bind ((onStorage_ensures _).mono ?_)
        rintro latest s₁ ⟨st, hst, rfl⟩
        have hst' : getLatestTransactionId cfg.K now s.storage = .ok latest st := hst
        rw [hst']
        dsimp only
        by_cases hne : isNext cfg latest c.transaction.sequenceNumber = true
        · rw [if_pos hne, if_pos hne]
          refine .bind (.get ?_)
          dsimp only [Option.map_some]
          rw [calcBatch]
          cases Ledger.calcFieldsAndUpdateIndexesFor calculateDecay env st.recCount s.fields
            c.transaction with
          | ready l tr =>
            refine .bind (.of_modify (.bind ((onStorage_ensures _).mono ?_)))
            rintro r s₂ ⟨st', -, rfl⟩
            exact .pure (.ready rfl rfl)
          | waiting l request =>
            refine .bind (.of_modify (.bind ((pushInbound_ensures _).mono ?_)))
            rintro _ s₂ ⟨rfl, -⟩
            refine .pure (.waiting rfl ?_)
            rw [asks_append, asks_ofRequest]
          | failed e => exact .throw
        · rw [if_neg hne, if_neg hne]
          split
          · exact .pure (.quiet ⟨rfl, rfl⟩)
          · refine .bind ((pushInbound_ensures _).mono ?_)
            rintro _ s₂ ⟨rfl, -⟩
            refine .bind ((resetValidation_ensures _ s (by rfl) (by exact .same)).mono ?_)
            rintro _ s₃ ⟨hre, hin⟩
            exact .pure (.quiet ⟨reindexed_flag hin, wasReset_asks hre⟩)

/-! ## The log -/

/-- A call of `calc_fields_and_update_indexes_for` that returned, with its transaction, or a call
of `on_paired_transaction_done`. -/
inductive Entry where
  /-- it returned true -/
  | processed (tr : Transaction)
  /-- it returned false, having called `exec_once_paired_transaction_done` -/
  | asked (tr : Transaction) (group : Bytes) (id : HederaTimestamp)
  /-- it returned false, and that is all -/
  | putOff (tr : Transaction)
  | pairedDone (t : Transaction)
  deriving DecidableEq, Repr

def Entry.ofCalc (tr : Transaction) : Calc → List Entry
  | .ready _ _ => [.processed tr]
  | .waiting _ none => [.putOff tr]
  | .waiting _ (some (group, id)) => [.asked tr group id]
  | .failed _ => []

/-- The entries of one event. -/
def entries (cfg : Conf) (s : Node F cfg calculateDecay) : Event F → List Entry
  | .turn env now => (calcCall cfg env now s).elim [] fun p => Entry.ofCalc p.1 p.2
  | .pairedTransactionDone t => [.pairedDone t]
  | _ => []

/-- The entries of a run. -/
def log (cfg : Conf) : Node F cfg calculateDecay → List (Event F) → List Entry
  | _, [] => []
  | s, e :: es => entries cfg s e ++ (step cfg s e).elim [] fun s' => log cfg s' es

/-- What the entries say was asked for. -/
def askedIn (es : List Entry) : List (Bytes × HederaTimestamp) :=
  es.filterMap fun
    | .asked _ group id => some (group, id)
    | _ => none

/-- The logs of a chain that waits as it should, from one value of the flag to another. -/
inductive Blocks : Bool → List Entry → Bool → Prop
  | nil {w : Bool} : Blocks w [] w
  | processed {es : List Entry} {w : Bool} (tr : Transaction) (h : Blocks false es w) :
      Blocks false (.processed tr :: es) w
  | asked {es : List Entry} {w : Bool} (tr : Transaction) (group : Bytes) (id : HederaTimestamp)
      (h : Blocks true es w) : Blocks false (.asked tr group id :: es) w
  | putOff {es : List Entry} {w : Bool} (tr : Transaction) (h : Blocks true es w) :
      Blocks true (.putOff tr :: es) w
  | pairedDone {es : List Entry} {w w' : Bool} (t : Transaction) (h : Blocks false es w') :
      Blocks w (.pairedDone t :: es) w'

namespace Blocks

variable {a b c w : Bool} {es es' : List Entry}

theorem append (h : Blocks a es b) (h' : Blocks b es' c) : Blocks a (es ++ es') c := by
  induction h with
  | nil => exact h'
  | processed tr _ ih => exact .processed tr (ih h')
  | asked tr group id _ ih => exact .asked tr group id (ih h')
  | putOff tr _ ih => exact .putOff tr (ih h')
  | pairedDone t _ ih => exact .pairedDone t (ih h')

theorem split (h : Blocks a (es ++ es') c) : ∃ b, Blocks a es b ∧ Blocks b es' c := by
  induction es generalizing a with
  | nil => exact ⟨a, .nil, h⟩
  | cons e es ih =>
    cases h with
    | processed tr h =>
      obtain ⟨b, hb, hc⟩ := ih h
      exact ⟨b, .processed tr hb, hc⟩
    | asked tr group id h =>
      obtain ⟨b, hb, hc⟩ := ih h
      exact ⟨b, .asked tr group id hb, hc⟩
    | putOff tr h =>
      obtain ⟨b, hb, hc⟩ := ih h
      exact ⟨b, .putOff tr hb, hc⟩
    | pairedDone t h =>
      obtain ⟨b, hb, hc⟩ := ih h
      exact ⟨b, .pairedDone t hb, hc⟩

/-- While the chain waits, calls are put off. -/
theorem waits (h : Blocks true es w) (hdo : ∀ t, .pairedDone t ∉ es) :
    w = true ∧ ∀ x ∈ es, ∃ tr, x = .putOff tr := by
  induction es with
  | nil =>
    cases h
    exact ⟨rfl, fun x hx => by cases hx⟩
  | cons e es ih =>
    cases h with
    | putOff tr h =>
      obtain ⟨hw, hes⟩ := ih h fun t ht => hdo t (List.mem_cons_of_mem _ ht)
      refine ⟨hw, fun x hx => ?_⟩
      rcases List.mem_cons.mp hx with rfl | hx
      · exact ⟨tr, rfl⟩
      · exact hes x hx
    | pairedDone t h => exact absurd List.mem_cons_self (hdo t)

/-- Something has been asked for and has not come. -/
def Unanswered (es : List Entry) : Prop :=
  ∃ pre tr group id mid, es = pre ++ .asked tr group id :: mid ∧ ∀ t, .pairedDone t ∉ mid

theorem Unanswered.cons (h : Unanswered es) (e : Entry) : Unanswered (e :: es) := by
  obtain ⟨pre, tr, group, id, mid, rfl, hdo⟩ := h
  exact ⟨e :: pre, tr, group, id, mid, rfl, hdo⟩

/-- A chain that waits has waited from the beginning, or has asked for something that has not
come yet. -/
theorem has_asked (h : Blocks a es true) :
    (a = true ∧ ∀ t, .pairedDone t ∉ es) ∨ Unanswered es := by
  induction es generalizing a with
  | nil =>
    cases h
    exact .inl ⟨rfl, fun t ht => by cases ht⟩
  | cons e es ih =>
    cases h with
    | processed tr h | pairedDone t h =>
      rcases ih h with ⟨hfa, -⟩ | hak
      · cases hfa
      · exact .inr (hak.cons _)
    | asked tr group id h =>
      rcases ih h with ⟨-, hdo⟩ | hak
      · exact .inr ⟨[], tr, group, id, es, rfl, hdo⟩
      · exact .inr (hak.cons _)
    | putOff tr h =>
      rcases ih h with ⟨-, hdo⟩ | hak
      · refine .inl ⟨rfl, fun t ht => ?_⟩
        rcases List.mem_cons.mp ht with heq | ht
        · cases heq
        · exact hdo t ht
      · exact .inr (hak.cons _)

end Blocks

/-! ## Runs -/

/-- If the transaction is an INBOUND_TRANSFER and would be processed, its pair is known. -/
def PairAtHand (env : Env) (l : Ledger) : TransactionBody → Prop
  | .inboundTransfer lt => l.waitingForPaired = false →
      (l.userIndex lt.receiver.user).isSome → (Ledger.inboundPaired env l lt).isSome
  | _ => True

/-- The turn does not meet an INBOUND_TRANSFER without its paired transaction. -/
def PairKnown (cfg : Conf) (s : Node F cfg calculateDecay) : Event F → Prop
  | .turn env now => ∀ p ∈ taken cfg now s, PairAtHand env s.fields p.1.body
  | _ => True

/-- A transaction that is ready was not waited before, and leaves the flag alone. -/
theorem applied_flag {env : Env} {n : Nat} {l l' : Ledger} {tr tr' : Transaction}
    (h : Ledger.calcFieldsAndUpdateIndexesFor calculateDecay env n l tr = .ready l' tr') :
    l.waitingForPaired = false ∧ l'.waitingForPaired = l.waitingForPaired := by
  constructor
  · unfold Ledger.calcFieldsAndUpdateIndexesFor at h
    split at h
    · cases h
    · exact Bool.eq_false_iff.mpr ‹_›
  · cases Ledger.calc_applied h with
    | refused hre hl =>
      rcases hl with rfl | ⟨id, recNum, rfl⟩
      · rfl
      · rfl
    | _ => rfl

/-- A transaction that waits with its pair at hand has found the flag set; or it has set it, and
has asked. -/
theorem waits_flag {env : Env} {l l' : Ledger} {body : TransactionBody}
    {request : Option (Bytes × HederaTimestamp)} (h : Ledger.Waits env l body l' request)
    (hpr : PairAtHand env l body) :
    l'.waitingForPaired = true ∧ ((l.waitingForPaired = true ∧ request = none) ∨
      (l.waitingForPaired = false ∧ ∃ group id, request = some (group, id))) := by
  cases h with
  | already hwa => exact ⟨hwa, .inl ⟨hwa, rfl⟩⟩
  | moveUserInbound hfr hbo hno hpa => exact ⟨rfl, .inr ⟨hfr, _, _, rfl⟩⟩
  | inboundTransfer hfr hbo hre hpa =>
    rw [hbo] at hpr
    have hso := hpr hfr hre
    rw [hpa] at hso
    cases hso

/-- What one event adds to the log, and to what was asked for. -/
theorem step_blocks {e : Event F} (hs : step cfg s e = some s') (hco : PairKnown cfg s e) :
    Blocks s.fields.waitingForPaired (entries cfg s e) s'.fields.waitingForPaired ∧
      asks s'.out = asks s.out ++ askedIn (entries cfg s e) := by
  have hca : call cfg e s = .ok () s' := by
    unfold step at hs
    split at hs
    · next heq =>
      cases hs
      exact heq
    · cases hs
  have hqu : Same s s' → Blocks s.fields.waitingForPaired [] s'.fields.waitingForPaired ∧
      asks s'.out = asks s.out ++ askedIn [] := by
    intro h
    rw [h.flag, h.asked]
    exact ⟨.nil, (List.append_nil _).symm⟩
  cases e with
  | push batch =>
    obtain ⟨rfl, -⟩ := pushInbound_ensures (s := s) batch () s' hca
    exact hqu ⟨rfl, rfl⟩
  | loopEnds =>
    cases hca
    exact hqu ⟨rfl, (asks_append _ _).trans (List.append_nil _)⟩
  | continueValidation sibling now =>
    exact hqu (same_of_validated (continueValidation_ensures sibling now () s' hca))
  | onBlockChecksum bc => exact hqu (same_of_received (onBlockChecksum_ensures bc () s' hca))
  | onBlockRecord br now => exact hqu (same_of_received (onBlockRecord_ensures br now () s' hca))
  | pairedTransactionDone t =>
    cases hca
    refine ⟨.pairedDone t .nil, ?_⟩
    rw [asks_append]
    rfl
  | turn env now =>
    obtain ⟨goOn, s₁, htr, hre⟩ := bind_ok hca
    cases hre
    have htu := turn_turned env now s goOn s' htr
    unfold entries
    cases hta : taken cfg now s with
    | none =>
      dsimp only [calcCall] at htu ⊢
      rw [hta] at htu ⊢
      cases htu with
      | quiet h => exact hqu h
    | some p =>
      obtain ⟨tr, n⟩ := p
      have hpa : PairAtHand env s.fields tr.body := hco (tr, n) hta
      dsimp only [calcCall] at htu ⊢
      rw [hta] at htu ⊢
      dsimp only [Option.map_some, Option.elim_some] at htu ⊢
      cases hcl : Ledger.calcFieldsAndUpdateIndexesFor calculateDecay env n s.fields tr with
      | failed e =>
        rw [hcl] at htu
        cases htu
      | ready l tr' =>
        rw [hcl] at htu
        cases htu with
        | ready hfi hak =>
          obtain ⟨hfr, hfl⟩ := applied_flag hcl
          rw [hfi, hfl, hfr, hak]
          exact ⟨.processed tr .nil, (List.append_nil _).symm⟩
      | waiting l request =>
        rw [hcl] at htu
        cases htu with
        | waiting hfi hak =>
          rw [hfi, hak]
          obtain ⟨hfl, hcs⟩ := waits_flag (Ledger.calc_waits hcl) hpa
          rw [hfl]
          rcases hcs with ⟨hwa, rfl⟩ | ⟨hfr, group, id, rfl⟩
          · rw [hwa]
            exact ⟨.putOff tr .nil, rfl⟩
          · rw [hfr]
            exact ⟨.asked tr group id .nil, rfl⟩

theorem run_blocks {es : List (Event F)} (hrun : run (step cfg) s es = some s')
    (hco : Along (step cfg) (PairKnown cfg) s es) :
    Blocks s.fields.waitingForPaired (log cfg s es) s'.fields.waitingForPaired ∧
      asks s'.out = asks s.out ++ askedIn (log cfg s es) := by
  induction es generalizing s with
  | nil =>
    cases hrun
    exact ⟨.nil, (List.append_nil _).symm⟩
  | cons e es ih =>
    obtain ⟨s₁, hs₁, hre⟩ := run_cons hrun
    obtain ⟨hbl, hak⟩ := step_blocks hs₁ hco.1
    obtain ⟨hbl', has'⟩ := ih hre (hco.2 s₁ hs₁)
    rw [log, hs₁]
    refine ⟨hbl.append hbl', ?_⟩
    rw [has', hak, List.append_assoc]
    congr 1
    exact List.filterMap_append.symm

/-- A chain as its constructor leaves it, over any storage. -/
def created (cfg : Conf) (calculateDecay : DecayFunction) (storage : Blockchain F) :
    Node F cfg calculateDecay :=
  Base.create storage Ledger.initial

instance (env : Env) (l : Ledger) (body : TransactionBody) : Decidable (PairAtHand env l body) := by
  unfold PairAtHand
  split <;> infer_instance

instance (cfg : Conf) (s : Node F cfg calculateDecay) (e : Event F) :
    Decidable (PairKnown cfg s e) := by
  unfold PairKnown
  split <;> infer_instance

open Ingest (tenAtATime addUserBatch plainBatch contents sampleStart)

/-- Batch `n`, of a transaction that is paired with one of the group `B`. -/
def fromB (n : UInt64) (body : PairedTransaction → TransactionBody) : GradidoBatch :=
  ⟨⟨n, HederaTimestamp.zero, body Chain.withGroupB, .unknown⟩, []⟩

/-- User 1 moves here. -/
def moveUser : GradidoBatch := fromB 1 fun p => .moveUserInbound ⟨Chain.userTransfer 1, p⟩

/-- User 1, who is known, is sent one gradido. -/
def sendUser : GradidoBatch :=
  fromB 2 fun p => .inboundTransfer ⟨p, ⟨1, 0⟩, Chain.key 2, Chain.userTransfer 1⟩

/-- A user moves here, three turns are taken, and the pair comes. -/
def userMoves : List (Event (digestFormat GradidoRecord)) :=
  [.continueValidation none 0, .push (plainBatch moveUser), .turn Chain.noChains 0,
    .turn Chain.noChains 0, .turn Chain.noChains 0, .pairedTransactionDone Transaction.zero]

/-- A chain with user 1, to whom something is sent from a group that is not known here. -/
def sentFromB : List Ingest.Event :=
  [.continueValidation none 0, .addTransaction Chain.noChains 0 (addUserBatch 1),
    .addTransaction Chain.noChains 0 sendUser]

end GradidoNode.Waiting
