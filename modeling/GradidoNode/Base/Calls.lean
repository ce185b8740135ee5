/-
# `GradidoNode.Base.Calls` — what the calls of the base class do, for any child

One description for each call of `BlockchainBaseDeprecated` that returned, in terms of
the state of the chain, its queue and what it did outside (`out`).  Nothing is said of
the storage and little of the data members of the child, so the descriptions hold for
every child class:

    validate_next_batch, continue_validation      `Validated`
    on_block_checksum, on_block_record            `Received`
    the loop of continue_with_transactions        `Looped`
    continue_with_transactions                    `Continued`

Invariants of the state machine are case splits over these.
-/
import GradidoNode.Base.BlockchainBase

namespace GradidoNode.Base

open Lib Blockchain

variable {T : Type} {F : RowFormat T} {C : Child F} {cfg : Conf} {s s' : Base C}

theorem onStorage_ensures {α : Type} (m : ChainM F α) :
    Ensures (onStorage m : BaseM C α) s fun a s' =>
      ∃ st, m s.storage = .ok a st ∧ s' = { s with storage := st } := by
  intro a s' h
  unfold onStorage at h
  split at h
  · rename_i a' st hm
    cases h
    exact ⟨st, hm, rfl⟩
  · cases h

/-- What the calls make of the data members, transactions apart: they are cleared, and rows are
entered again. -/
inductive Reindexed (C : Child F) (fields : C.Fields) : C.Fields → Prop
  | same : Reindexed C fields fields
  | cleared {fields' : C.Fields} (h : Reindexed C fields fields') :
      Reindexed C fields (C.clearIndexes fields')
  | added {fields₁ fields₂ : C.Fields} {indexed now : Nat} {st st' : Blockchain F} {all : Bool}
      (h : Reindexed C fields fields₁)
      (hadd : C.addIndexData indexed now fields₁ st = .ok (all, fields₂) st') :
      Reindexed C fields fields₂

/-- What `reset_validation` does outside. -/
def resetOuts (cause : String) : List Out :=
  [.resetValidation cause, .continueValidation BLOCKCHAIN_RESET_TIMEOUT_SECONDS]

/-- The chain has reset itself. -/
structure WasReset (s s' : Base C) : Prop where
  state : s'.state = .initial
  out : ∃ cause, s'.out = s.out ++ resetOuts cause

theorem resetValidation_ensures (cause : String) (t : Base C) (hout : s.out = t.out)
    (hfields : Reindexed C t.fields s.fields) :
    Ensures (resetValidation cause : BaseM C Unit) s fun _ s' =>
      WasReset t s' ∧ Reindexed C t.fields s'.fields :=
  .of_modify ⟨⟨rfl, cause, by rw [← hout]; rfl⟩, .cleared hfields⟩

/-! ## Validation -/

/-- What `continue_validation` did. -/
inductive Validated (s : Base C) : Base C → Prop
  | validates {s' : Base C} (hstate : s'.state = .validating)
      (hout : s'.out = s.out ++ [.continueValidation 0]) : Validated s s'
  | fetches {s' : Base C} {endpoint : String} (hstate : s'.state = .fetchingChecksums)
      (hout : s'.out = s.out ++ [.requireBlockChecksums endpoint]) : Validated s s'
  | blank {s' : Base C} (hstate : s'.state = .ready)
      (hout : s'.out = s.out ++ [.continueTransactions]) : Validated s s'
  | complete {s' : Base C} (hwas : s.state = .validating)
      (hvalid : s.storage.checksumValidBlockCount = s.storage.tiles.length)
      (hstate : s'.state = .ready) (hout : s'.out = s.out) (hinbound : s'.inbound = s.inbound)
      (hfields : ∃ indexed now st st',
        C.addIndexData indexed now s.fields st = .ok (true, s'.fields) st') : Validated s s'
  | resets {s' : Base C} (hreset : WasReset s s') : Validated s s'

theorem addIndexData_ensures (now : Nat) :
    Ensures (addIndexData now : BaseM C Bool) s fun added s' =>
      s'.state = s.state ∧ s'.out = s.out ∧ s'.inbound = s.inbound ∧
        ∃ indexed st st', C.addIndexData indexed now s.fields st = .ok (added, s'.fields) st' := by
  refine .bind (.get (.bind ((onStorage_ensures _).mono ?_)))
  rintro ⟨added, fields⟩ s' ⟨st, hadd, rfl⟩
  exact .bind (.of_modify (.pure ⟨rfl, rfl, rfl, _, _, _, hadd⟩))

theorem validateNextBatch_ensures (now : Nat) (hwas : s.state = .validating) :
    Ensures (validateNextBatch cfg now : BaseM C Unit) s fun _ s' =>
      Validated s s' ∧ Reindexed C s.fields s'.fields := by
  refine .bind (.get ?_)
  split
  · rename_i hva
    refine .bind (.of_modify (.bind ((addIndexData_ensures now).mono ?_)))
    rintro added s' ⟨hst, hout, hinbound, indexed, st, st', hadd⟩
    cases added with
    | true =>
      rw [if_pos rfl]
      exact .pure ⟨.complete hwas hva hst hout hinbound ⟨_, _, _, _, hadd⟩,
        .added .same hadd⟩
    | false =>
      rw [if_neg (by decide)]
      exact (resetValidation_ensures _ s hout (.added .same hadd)).mono fun _ _ h =>
        ⟨.resets h.1, h.2⟩
  · refine .bind ((onStorage_ensures _).mono ?_)
    rintro r s' ⟨st, -, rfl⟩
    split
    · refine .bind ((addIndexData_ensures now).mono ?_)
      rintro added s' ⟨hst, hout, -, indexed, st₁, st', hadd⟩
      cases added with
      | true =>
        rw [if_pos rfl]
        refine .of_modify ⟨.validates (hst.trans hwas) ?_, .added .same hadd⟩
        rw [hout]
      | false =>
        rw [if_neg (by decide)]
        exact (resetValidation_ensures _ s hout (.added .same hadd)).mono fun _ _ h =>
          ⟨.resets h.1, h.2⟩
    · exact (resetValidation_ensures _ s (by rfl) (by exact .same)).mono fun _ _ h =>
        ⟨.resets h.1, h.2⟩

theorem continueValidation_ensures (sibling : Option String) (now : Nat) :
    Ensures (continueValidation cfg sibling now : BaseM C Unit) s fun _ s' =>
      Validated s s' ∧ Reindexed C s.fields s'.fields := by
  refine .bind (.get ?_)
  cases hst : s.state with
  | initial =>
    dsimp only
    split
    · exact .of_modify ⟨.validates rfl rfl, .cleared .same⟩
    · cases sibling with
      | some endpoint => exact .of_modify ⟨.fetches rfl rfl, .same⟩
      | none => exact .of_modify ⟨.blank rfl rfl, .same⟩
  | validating => exact validateNextBatch_ensures now hst
  | fetchingChecksums | fetchingBlocks | ready => exact .throw

/-! ## Streams from a sibling -/

/-- What a call with a message of a sibling did. -/
inductive Received (s : Base C) : Base C → Prop
  | collects {s' : Base C} (hstate : s'.state = s.state) (hout : s'.out = s.out) : Received s s'
  | requests {s' : Base C} {endpoint : String} {block : Nat} (hstate : s'.state = .fetchingBlocks)
      (hout : s'.out = s.out ++ [.requireBlockData endpoint block]) : Received s s'
  | validates {s' : Base C} (hstate : s'.state = .validating)
      (hout : s'.out = s.out ++ [.continueValidation 0]) : Received s s'
  | resets {s' : Base C} (hreset : WasReset s s') : Received s s'

theorem onBlockChecksum_ensures (bc : Option (BlockInfo F)) :
    Ensures (onBlockChecksum cfg bc : BaseM C Unit) s fun _ s' =>
      Received s s' ∧ Reindexed C s.fields s'.fields := by
  refine .bind (.get ?_)
  split
  · exact .throw
  · cases bc with
    | none =>
      refine .bind (.of_modify (.bind (.get ?_)))
      exact .of_modify ⟨.requests rfl rfl, .same⟩
    | some bi =>
      dsimp only
      split
      · exact (resetValidation_ensures _ s rfl .same).mono fun _ _ h => ⟨.resets h.1, h.2⟩
      · exact .of_modify ⟨.collects rfl rfl, .same⟩

theorem onBlockRecord_ensures (br : Option F.Body) (now : Nat) :
    Ensures (onBlockRecord cfg br now : BaseM C Unit) s fun _ s' =>
      Received s s' ∧ Reindexed C s.fields s'.fields := by
  refine .bind (.get ?_)
  by_cases hst : s.state = .fetchingBlocks
  · rw [if_neg (not_not.mpr hst)]
    cases br with
    | none =>
      refine .bind (.get ?_)
      split
      · split
        · exact (resetValidation_ensures _ s rfl .same).mono fun _ _ h => ⟨.resets h.1, h.2⟩
        · exact .of_modify ⟨.validates rfl rfl, .cleared .same⟩
      · split
        · exact (resetValidation_ensures _ s rfl .same).mono fun _ _ h => ⟨.resets h.1, h.2⟩
        · refine .bind (.of_modify (.bind (.get ?_)))
          exact .of_modify ⟨.requests hst rfl, .same⟩
    | some body =>
      dsimp only
      split
      · refine .bind ((onStorage_ensures _).mono ?_)
        rintro r s' ⟨st, -, rfl⟩
        exact .of_modify ⟨.collects rfl rfl, .same⟩
      · exact .of_modify ⟨.collects rfl rfl, .same⟩
  · rw [if_pos hst]
    exact .throw

/-! ## Transactions -/

/-- A batch was put into the queue; with another one in it, none is a null buffer. -/
theorem pushInbound_ensures (b : Batch C.Content) :
    Ensures (pushInbound b : BaseM C Unit) s fun _ s' =>
      s' = { s with inbound := b :: s.inbound } ∧
        (s.inbound ≠ [] → ∀ x ∈ b :: s.inbound, x.content ≠ none) := by
  refine .bind (.get ?_)
  split
  · exact .throw
  · rename_i hnu
    refine .of_modify ⟨rfl, fun hne x hx hno => hnu ⟨hne, ?_⟩⟩
    exact List.any_eq_true.mpr ⟨x, hx, by rw [hno]; rfl⟩

/-- A batch popped from a queue was put back in front of the others: the child had it not
ready. -/
structure PutBack (s s' : Base C) : Prop where
  state : s'.state = s.state
  batch : ∃ q c rest request, PQueue.pop lessBatch q = some (⟨some c, false⟩, rest) ∧
    s'.inbound = ⟨some c, false⟩ :: rest ∧
    (rest ≠ [] → ∀ x ∈ s'.inbound, x.content ≠ none) ∧
    s'.out = s.out ++ Out.ofRequest request ∧
    ∃ env n fields, C.calcFieldsAndUpdateIndexesFor env n fields c = .notReady s'.fields request

/-- How the loop of `continue_with_transactions` ended. -/
inductive Looped (s : Base C) : Bool → Base C → Prop
  | ended {s' : Base C} (hstate : s'.state = s.state) (hout : s'.out = s.out) : Looped s true s'
  | waits {s' : Base C} (hback : PutBack s s') : Looped s false s'
  | resets {s' : Base C} (hreset : WasReset s s') : Looped s false s'

/-- What came of a loop depends on the state and the output it began with. -/
theorem Looped.congr {t : Base C} {ended : Bool} (h : Looped t ended s') (hst : t.state = s.state)
    (hout : t.out = s.out) : Looped s ended s' := by
  cases h with
  | ended hst' hout' => exact .ended (hst'.trans hst) (hout'.trans hout)
  | waits hba =>
    refine .waits ⟨hba.state.trans hst, ?_⟩
    rw [← hout]
    exact hba.batch
  | resets hre =>
    refine .resets ⟨hre.state, ?_⟩
    rw [← hout]
    exact hre.out

/-- One turn of the loop, with the batch `b` popped from `q`. -/
theorem processBatch_ensures (env : C.Env) (now : Nat) {q : List (Batch C.Content)}
    {b : Batch C.Content} (hpop : PQueue.pop lessBatch q = some (b, s.inbound)) :
    Ensures (processBatch cfg env now b : BaseM C Bool) s fun goOn s' => Looped s goOn s' := by
  obtain ⟨content, reset⟩ := b
  unfold processBatch
  cases reset with
  | true =>
    rw [if_pos rfl]
    split
    · exact .throw
    · exact .bind (.of_modify (.pure (.ended rfl rfl)))
  | false =>
    dsimp only
    rw [if_neg (by decide)]
    cases content with
    | none => exact .throw
    | some c =>
      refine .bind ((onStorage_ensures _).mono ?_)
      rintro latest s₁ ⟨st, -, rfl⟩
      dsimp only
      split
      · refine .bind (.get ?_)
        split
        · refine .bind (.of_modify (.bind ((onStorage_ensures _).mono ?_)))
          rintro r s₂ ⟨st', -, rfl⟩
          exact .pure (.ended rfl rfl)
        · rename_i fields request hca
          refine .bind (.of_modify (.bind ((pushInbound_ensures _).mono ?_)))
          rintro _ s₂ ⟨rfl, hso⟩
          exact .pure (.waits ⟨rfl, q, c, s.inbound, request, hpop, rfl, hso, rfl,
            _, _, _, hca⟩)
        · exact .throw
      · split
        · exact .pure (.ended rfl rfl)
        · refine .bind ((pushInbound_ensures _).mono ?_)
          rintro _ s₂ ⟨rfl, -⟩
          refine .bind ((resetValidation_ensures _ s (by rfl) (by exact .same)).mono ?_)
          rintro _ s₃ ⟨hre, -⟩
          exact .pure (.resets hre)

/-- The loop, by induction on the turns left. -/
theorem transactionsLoop_ensures (env : C.Env) (now : Nat) : ∀ (fuel : Nat) (s : Base C),
      Ensures (transactionsLoop cfg env now fuel : BaseM C Bool) s fun ended s' =>
        Looped s ended s' := by
  intro fuel
  induction fuel with
  | zero =>
    intro s
    exact .pure (.ended rfl rfl)
  | succ fuel ih =>
    intro s
    refine .bind (.get ?_)
    cases hpop : PQueue.pop lessBatch s.inbound with
    | none => exact .pure (.ended rfl rfl)
    | some p =>
      obtain ⟨b, rest⟩ := p
      refine .bind (.of_modify (.bind ?_))
      refine (processBatch_ensures env now hpop).mono ?_
      intro goOn s₁ htu
      cases htu with
      | ended hst hout =>
        rw [if_pos rfl]
        exact (ih s₁).mono fun _ s' h => h.congr hst hout
      | waits hba =>
        rw [if_neg (by decide)]
        exact .pure (.waits ⟨hba.state, hba.batch⟩)
      | resets hre =>
        rw [if_neg (by decide)]
        exact .pure (.resets ⟨hre.state, hre.out⟩)

/-- What `continue_with_transactions` did. -/
inductive Continued (s : Base C) : Base C → Prop
  | idle (hstate : s.state ≠ .ready) : Continued s s
  | done {s' : Base C} (hwas : s.state = .ready) (hstate : s'.state = .ready)
      (hinbound : s'.inbound = []) (hout : s'.out = s.out) : Continued s s'
  | more {s' : Base C} (hwas : s.state = .ready) (hstate : s'.state = .ready)
      (hout : s'.out = s.out ++ [.continueTransactions]) : Continued s s'
  | waits {s' : Base C} (hwas : s.state = .ready) (hback : PutBack s s') : Continued s s'
  | resets {s' : Base C} (hwas : s.state = .ready) (hreset : WasReset s s') : Continued s s'

theorem continueWithTransactions_ensures (env : C.Env) (now : Nat) :
    Ensures (continueWithTransactions cfg env now : BaseM C Unit) s fun _ s' => Continued s s' := by
  refine .bind (.get ?_)
  by_cases hready : s.state = .ready
  · rw [if_neg (not_not.mpr hready)]
    refine .bind ((transactionsLoop_ensures env now _ s).mono ?_)
    intro ended s' hlo
    refine .bind (.get ?_)
    cases hlo with
    | ended hst hout =>
      by_cases hem : s'.inbound = []
      · rw [if_neg (fun h => h.2 hem)]
        exact .pure (.done hready (hst.trans hready) hem hout)
      · rw [if_pos ⟨rfl, hem⟩]
        refine .of_modify (.more hready (hst.trans hready) ?_)
        rw [hout]
    | waits hba =>
      rw [if_neg (by simp)]
      exact .pure (.waits hready hba)
    | resets hre =>
      rw [if_neg (by simp)]
      exact .pure (.resets hready hre)
  · rw [if_pos hready]
    exact .pure (.idle hready)

end GradidoNode.Base
