/-
# `GradidoNode.Base.Messages` — messages of the ledger service on their way to a chain

`PushTransactionsTask`: a message is translated, its batch goes to `inbound`, and
`continue_with_transactions` takes batches from there.  A message that cannot be translated
should do no harm.

It does.  The translation reports it with a batch without records that resets the chain,
the batch a reset mark gives.  What comes of that batch depends on what it meets:

    another batch in `inbound`       the comparator reads through a null pointer
    no topic resets                  "cannot reset topic": the process ends
    topic resets                     the chain is truncated

(`rejected_ends`).  A message that has been translated can end the process, too: a transfer
from a user who is not known (the iterator is followed before it is looked at), and a paired
transaction to be asked for when no sibling is known.

`Meets` leaves out just these (`messages_tolerated`).

The rounds of the loop are steps of their own here (`round`), as what a batch needs may
come from the batch before it.
-/
import GradidoNode.Base.Live
import GradidoNode.Wire.Meaning

namespace GradidoNode

/-! ## What a batch needs of the ledger -/

namespace Ledger

/-- A paired transaction has to be asked for. -/
def AsksForPaired (env : Env) (l : Ledger) : TransactionBody → Prop
  | .moveUserInbound m => l.userIndex m.user = none ∧ moveUserPaired env l m = none
  | .inboundTransfer lt => (l.userIndex lt.receiver.user).isSome ∧ inboundPaired env l lt = none
  | _ => False

instance (l : Ledger) : ∀ body, Decidable (SenderKnown l body)
  | .localTransfer _ | .outboundTransfer _ => inferInstanceAs (Decidable (_ = true))
  | .gradidoCreation _ | .addGroupFriend _ | .removeGroupFriend _ | .addUser _
  | .moveUserInbound _ | .moveUserOutbound _ | .inboundTransfer _ | .other _ => isTrue trivial

instance (env : Env) (l : Ledger) : ∀ body, Decidable (AsksForPaired env l body)
  | .moveUserInbound _ | .inboundTransfer _ => inferInstanceAs (Decidable (_ ∧ _))
  | .gradidoCreation _ | .addGroupFriend _ | .removeGroupFriend _ | .addUser _
  | .moveUserOutbound _ | .localTransfer _ | .outboundTransfer _ | .other _ => isFalse id

/-- A request is made when nothing is waited for, and for a paired transaction. -/
theorem Waits.asks {env : Env} {l l' : Ledger} {body : TransactionBody}
    {request : Bytes × HederaTimestamp} (h : Waits env l body l' (some request)) :
    l.waitingForPaired = false ∧ AsksForPaired env l body := by
  cases h with
  | moveUserInbound hfr hbo hno hpa =>
    subst hbo
    exact ⟨hfr, hno, hpa⟩
  | inboundTransfer hfr hbo hre hpa =>
    subst hbo
    exact ⟨hfr, hre, hpa⟩

end Ledger

namespace Messages

open Lib Blockchain Base BlockchainGradido Ingest Live Wire

variable {F : RowFormat GradidoRecord} {calculateDecay : DecayFunction} {cfg : Conf}
  {parser : Proto.Parser} {s s' : Node F cfg calculateDecay}

/-! ## Calls -/

/-- The batch a message is translated to. -/
def translated (parser : Proto.Parser) (t : ConsensusTopicResponse) :
    BaseM (child F cfg.K calculateDecay) (Batch GradidoBatch) :=
  match translateFromCtr parser t with
  | .ok batch => return ⟨batch.content.bind asBatch, batch.resetBlockchain⟩
  | .error e => throw e

/-- `PushTransactionsTask::run`. -/
def pushTransactions (cfg : Conf) (parser : Proto.Parser) (env : Env) (now : Nat)
    (t : ConsensusTopicResponse) : BaseM (child F cfg.K calculateDecay) Unit := do
  let batch ← translated parser t
  addTransaction cfg env now batch

/-- The message is translated, and its batch pushed to `inbound`. -/
def arrive (parser : Proto.Parser) (t : ConsensusTopicResponse) :
    BaseM (child F cfg.K calculateDecay) Unit := do
  let batch ← translated parser t
  pushInbound batch

/-- The task is the two critical sections, one behind the other. -/
theorem pushTransactions_eq (cfg : Conf) (parser : Proto.Parser) (env : Env) (now : Nat)
    (t : ConsensusTopicResponse) :
    (pushTransactions cfg parser env now t : BaseM (child F cfg.K calculateDecay) Unit)
      = (do arrive parser t; continueWithTransactions cfg env now) := by
  rw [pushTransactions, arrive, bind_assoc]
  rfl

/-- A paired transaction has been asked for. -/
def asks : Out → Bool
  | .execOncePairedTransactionDone _ _ => true
  | _ => false

/-- A call from which a paired transaction may be asked for: without a sibling this throws. -/
def asking (sibling : Bool) (m : BaseM (child F cfg.K calculateDecay) Unit) :
    BaseM (child F cfg.K calculateDecay) Unit := do
  let s ← get
  m
  let s' ← get
  if sibling = false ∧ (s'.out.drop s.out.length).any asks = true then
    throw (.thrown "need sibling to get paired transaction")
  else return ()

/-- What happens to the chain; `sibling` says whether one is known. -/
inductive Event where
  | arrive (t : ConsensusTopicResponse)
  | continueWithTransactions (env : Env) (sibling : Bool) (now : Nat)
  | pairedTransactionDone (t : GradidoNode.Transaction)

def call (cfg : Conf) (parser : Proto.Parser) : Event → BaseM (child F cfg.K calculateDecay) Unit
  | .arrive t => arrive parser t
  | .continueWithTransactions env sibling now =>
    asking sibling (continueWithTransactions cfg env now)
  | .pairedTransactionDone t => onPairedTransactionDone t

/-- One event.  A call that fails ends the run. -/
def step (cfg : Conf) (parser : Proto.Parser) (s : Node F cfg calculateDecay) (e : Event) :
    Option (Node F cfg calculateDecay) :=
  match call cfg parser e s with
  | .ok _ s' => some s'
  | .error _ _ => none

/-! ## The condition -/

/-- The message says that the chain is to be reset. -/
def Marked (parser : Proto.Parser) (t : ConsensusTopicResponse) : Prop :=
  (parser.transactionBody (parser.gradidoTransaction t.message).bodyBytes).data
    |>.hasDebugResetBlockchainMark

/-- What a batch needs that was popped from the queue: if its turn has come and nothing is
waited for, that its sender is known, and a sibling if it has to ask. -/
def BatchMeets (cfg : Conf) (env : Env) (sibling : Bool) (now : Nat) (s : Node F cfg calculateDecay)
    (c : GradidoBatch) : Prop :=
  isNext cfg (latest cfg now s) c.transaction.sequenceNumber = true →
    s.fields.waitingForPaired = false → Ledger.SenderKnown s.fields c.transaction.body ∧
        (Ledger.AsksForPaired env s.fields c.transaction.body → sibling = true)

/-- The batch the loop takes next. -/
def top (s : Node F cfg calculateDecay) : Option GradidoBatch :=
  (PQueue.pop (lessBatch (C := child F cfg.K calculateDecay)) s.inbound).bind fun p => p.1.content

/-- It has what it needs. -/
def RoundMeets (cfg : Conf) (env : Env) (sibling : Bool) (now : Nat)
    (s : Node F cfg calculateDecay) : Prop :=
  ∀ c ∈ top s, BatchMeets cfg env sibling now s c

/-- One round of the loop of `continue_with_transactions`, if it goes on behind it. -/
def round (cfg : Conf) (env : Env) (now : Nat) (s : Node F cfg calculateDecay) (_ : Unit) :
    Option (Node F cfg calculateDecay) :=
  match PQueue.pop (lessBatch (C := child F cfg.K calculateDecay)) s.inbound with
  | some (batch, rest) =>
    match processBatch (C := child F cfg.K calculateDecay) cfg env now batch
      { s with inbound := rest } with
    | .ok true s' => some s'
    | _ => none
  | none => none

/-- What is needed of an event: the message can be translated, and every round of the loop
finds what its batch needs. -/
def Meets (cfg : Conf) (parser : Proto.Parser) (s : Node F cfg calculateDecay) : Event → Prop
  | .arrive t =>
    Translatable t (parser.gradidoTransaction t.message)
      (parser.transactionBody (parser.gradidoTransaction t.message).bodyBytes)
  | .continueWithTransactions env sibling now => s.state = .ready →
      Along (round cfg env now) (fun s _ => RoundMeets cfg env sibling now s) s
        (List.replicate cfg.batchSize ())
  | .pairedTransactionDone _ => True

instance (cfg : Conf) (env : Env) (sibling : Bool) (now : Nat) (s : Node F cfg calculateDecay)
    (c : GradidoBatch) : Decidable (BatchMeets cfg env sibling now s c) :=
  inferInstanceAs (Decidable (_ → _ → _ ∧ (_ → _)))

instance (cfg : Conf) (env : Env) (sibling : Bool) (now : Nat) (s : Node F cfg calculateDecay) :
    Decidable (RoundMeets cfg env sibling now s) :=
  inferInstanceAs (Decidable (∀ c ∈ top s, BatchMeets cfg env sibling now s c))

instance (cfg : Conf) (parser : Proto.Parser) (s : Node F cfg calculateDecay) (e : Event) :
    Decidable (Meets cfg parser s e) := by
  unfold Meets
  split <;> infer_instance

/-- No message asks for a reset. -/
def Unmarked (parser : Proto.Parser) : Event → Prop
  | .arrive t => ¬ Marked parser t
  | _ => True

/-! ## The loop -/

/-- How a call leaves a chain that was ready with `rows`, if it has done no harm: the rows
are there, or the chain has found a hole in the numbers. -/
inductive Left (s : Node F cfg calculateDecay) (rows : List GradidoRecord) (sibling : Bool)
    (s' : Node F cfg calculateDecay) : Prop
  | kept {rows' : List GradidoRecord} {outs : List Out} (hready : s'.state = .ready)
      (hrows : rows <+: rows') (hkeeps : Keeps cfg.K s'.storage rows')
      (hout : s'.out = s.out ++ outs) (hasks : outs.any asks = true → sibling = true)
  | hole {outs : List Out} (hstate : s'.state = .initial)
      (hout : s'.out = s.out ++ outs) (hhole : .resetValidation "hole in seq_num" ∈ outs)
      (hasks : outs.any asks = false)

/-- Nothing is in the queue but batches with records that do not reset the chain. -/
def Plain (s : Node F cfg calculateDecay) : Prop := ∀ b ∈ s.inbound, ∃ c, b = plainBatch c

variable {rows : List GradidoRecord} {sibling : Bool}

/-- What a round has stored stays behind it. -/
theorem Left.behind {s₁ : Node F cfg calculateDecay} {rows₁ : List GradidoRecord}
    (h : Left s₁ rows₁ sibling s') (hout : s₁.out = s.out) (hro : rows <+: rows₁) :
    Left s rows sibling s' := by
  cases h with
  | kept hready hro' hke hout' hak =>
    exact .kept hready (hro.trans hro') hke (by rw [hout', hout]) hak
  | hole hst hout' hho hak => exact .hole hst (by rw [hout', hout]) hho hak

theorem Left.unchanged (hready : s.state = .ready) (hke : Keeps cfg.K s.storage rows) :
    Left s rows sibling s :=
  .kept hready (List.prefix_refl rows) hke (List.append_nil s.out).symm
    fun hak => absurd hak (by decide)

theorem RoundMeets.batch {env : Env} {now : Nat} {c : GradidoBatch}
    {rest : List (Batch GradidoBatch)} (h : RoundMeets cfg env sibling now s)
    (hpop : PQueue.pop (lessBatch) s.inbound
      = some (plainBatch c, rest)) : BatchMeets cfg env sibling now s c := by
  refine h c ?_
  rw [top, hpop]
  rfl

theorem round_eq {env : Env} {now : Nat} {c : GradidoBatch} {rest : List (Batch GradidoBatch)}
    (hpop : PQueue.pop (lessBatch) s.inbound = some (plainBatch c, rest))
    (hca : processRecords cfg env now c
      { s with inbound := rest } = .ok true s') : round cfg env now s () = some s' := by
  have hba : processBatch cfg env now (plainBatch c)
      { s with inbound := rest } = .ok true s' := hca
  rw [round, hpop]
  dsimp only
  rw [hba]

/-- The loop does no harm, if every round finds what its batch needs. -/
theorem transactionsLoop_left (hK : cfg.K.RecCount = GRADIDO_BLOCK_SIZE) (env : Env)
    (sibling : Bool) (now : Nat) :
    ∀ (fuel : Nat) (s : Node F cfg calculateDecay) (rows : List GradidoRecord),
      s.state = .ready → Keeps cfg.K s.storage rows → Plain s →
      Along (round cfg env now) (fun s _ => RoundMeets cfg env sibling now s) s
        (List.replicate fuel ()) →
      Returns (transactionsLoop cfg env now fuel) s
        fun _ s' => Plain s' ∧ Left s rows sibling s' := by
  intro fuel
  induction fuel with
  | zero =>
    intro s rows hready hke hpl _
    exact .pure ⟨hpl, .unchanged hready hke⟩
  | succ fuel ih =>
    intro s rows hready hke hpl hme
    rw [List.replicate_succ] at hme
    refine .bind (.get ?_)
    cases hpop : PQueue.pop (lessBatch) s.inbound with
    | none => exact .pure ⟨hpl, .unchanged hready hke⟩
    | some p =>
      obtain ⟨b, rest⟩ := p
      obtain ⟨⟨c, rfl⟩, hre⟩ := plain_pop hpl hpop
      have hba := hme.1.batch hpop
      rw [BatchMeets, latest_eq hK hke] at hba
      -- Whatever keeps the batch from being ready, it is not its sender.
      have hcl : isNext cfg (lastStored rows) c.transaction.sequenceNumber = true → ∀ e,
          Ledger.calcFieldsAndUpdateIndexesFor calculateDecay env (Chain.recCount rows)
            s.fields c.transaction ≠ .failed e := by
        intro hne e hfa
        have hun := Ledger.calc_ends calculateDecay env (Chain.recCount rows) s.fields
          c.transaction
        rw [hfa] at hun
        exact hun.2 (hba hne hun.1).1
      obtain ⟨goOn, s₁, hca, hpr⟩ := processRecords_returns
        (s := ({ s with inbound := rest } : Node F cfg calculateDecay)) hK hke hre c env now
        hcl
      refine .bind (.of_modify (.bind ⟨goOn, s₁, hca, ?_⟩))
      have hgo : ∀ rows₁, goOn = true → s₁.state = .ready → Keeps cfg.K s₁.storage rows₁ →
          Plain s₁ → s₁.out = s.out → rows <+: rows₁ →
          Returns (transactionsLoop cfg env now fuel) s₁
            fun _ s' => Plain s' ∧ Left s rows sibling s' := by
        rintro rows₁ rfl hready₁ hke₁ hpl₁ hout₁ hro₁
        refine (ih s₁ rows₁ hready₁ hke₁ hpl₁ (hme.2 s₁ (round_eq hpop hca))).mono ?_
        rintro _ s' ⟨hpl', hlf⟩
        exact ⟨hpl', hlf.behind hout₁ hro₁⟩
      show Returns (if goOn = true then _ else _) s₁ _
      cases hpr with
      | stored hne hready' hst =>
        rw [if_pos rfl]
        exact hgo _ rfl hready hst hre rfl (List.prefix_append _ _)
      | @waits st l request hne hwa hst =>
        rw [if_neg (by decide)]
        refine .pure ⟨plain_cons hre c, .kept hready (List.prefix_refl rows) hst rfl ?_⟩
        intro hak
        cases request with
        | none => exact absurd hak (by decide)
        | some request =>
          obtain ⟨hfr, hpa⟩ := (Ledger.calc_waits hwa).asks
          exact (hba hne hfr).2 hpa
      | old hnot hold hst =>
        rw [if_pos rfl]
        exact hgo _ rfl hready hst hre rfl (List.prefix_refl _)
      | hole hnot hnew hsta htl hinbound hout =>
        rw [if_neg (by decide)]
        refine .pure ⟨?_, .hole hsta hout List.mem_cons_self rfl⟩
        rw [Plain, hinbound]
        exact plain_cons hre c

/-! ## One call -/

section

variable (h : Left s rows sibling s')
include h

/-- The task behind the loop asks for nothing. -/
theorem Left.emit :
    Left s rows sibling ({ s' with out := s'.out ++ [.continueTransactions] } :
      Node F cfg calculateDecay) := by
  cases h with
  | kept hready hro hke hout hak =>
    refine .kept hready hro hke (by rw [hout, List.append_assoc]) ?_
    rw [List.any_append, Bool.or_eq_true]
    rintro (h | h)
    · exact hak h
    · exact absurd h (by decide)
  | hole hst hout hho hak =>
    refine .hole hst (by rw [hout, List.append_assoc]) (List.mem_append_left _ hho) ?_
    rw [List.any_append, hak]
    rfl

/-- Stored rows are still there, or the numbers had a hole. -/
def Harmless (s s' : Node F cfg calculateDecay) : Prop :=
  storedRows s.storage <+: storedRows s'.storage ∨
    .resetValidation "hole in seq_num" ∈ s'.out.drop s.out.length

theorem Left.harmless (hke : Keeps cfg.K s.storage rows) :
    Harmless s s' := by
  cases h with
  | kept hready hro hke' hout hak =>
    left
    rw [hke.storedRows_eq, hke'.storedRows_eq]
    exact hro
  | hole hst hout hho hak =>
    right
    rw [hout, List.drop_left]
    exact hho

theorem Left.asks_sibling
    (hak : (s'.out.drop s.out.length).any asks = true) : sibling = true := by
  cases h with
  | kept hready hro hke hout hsi =>
    rw [hout, List.drop_left] at hak
    exact hsi hak
  | hole hst hout hho hno =>
    rw [hout, List.drop_left, hno] at hak
    exact absurd hak (by decide)

/-- What holds between calls: the queue is plain, and a chain that is ready keeps rows. -/
structure Sound (s : Node F cfg calculateDecay) : Prop where
  plain : Plain s
  stored : s.state = .ready → ∃ rows, Keeps cfg.K s.storage rows

theorem Left.stored (hready : s'.state = .ready) :
    ∃ rows, Keeps cfg.K s'.storage rows := by
  cases h with
  | kept hready' hro hke hout hak => exact ⟨_, hke⟩
  | hole hst hout hho hak => exact absurd (hst.symm.trans hready) (by decide)

end

theorem arrive_returns (h : Sound s) {t : ConsensusTopicResponse} (hma : ¬ Marked parser t)
    (ht : Translatable t (parser.gradidoTransaction t.message)
      (parser.transactionBody (parser.gradidoTransaction t.message).bodyBytes)) :
    Returns (arrive parser t) s fun _ s' => Sound s' ∧ Harmless s s' := by
  obtain ⟨records, b, htr, hba, -, -⟩ := translated_means rfl rfl ht (Bool.eq_false_iff.mpr hma)
  have hca : (translated parser t : BaseM (child F cfg.K calculateDecay) _)
      = pure (plainBatch b) := by
    rw [translated, htr]
    show pure (Batch.mk (asBatch records) false) = _
    rw [hba]
    rfl
  rw [arrive, hca]
  refine (pushInbound_plain h.plain b).mono ?_
  rintro _ s' rfl
  exact ⟨⟨plain_cons h.plain b, h.stored⟩, .inl (List.prefix_refl _)⟩

theorem continueWith_left (hK : cfg.K.RecCount = GRADIDO_BLOCK_SIZE) (hpl : Plain s)
    (hready : s.state = .ready) (hke : Keeps cfg.K s.storage rows) (env : Env) (now : Nat)
    (hme : Along (round cfg env now) (fun s _ => RoundMeets cfg env sibling now s) s
      (List.replicate cfg.batchSize ())) :
    Returns (continueWithTransactions cfg env now) s
      fun _ s' => Plain s' ∧ Left s rows sibling s' := by
  refine .bind (.get ?_)
  rw [if_neg (not_not.mpr hready)]
  refine .bind ((transactionsLoop_left hK env sibling now _ s rows hready hke hpl
    hme).mono ?_)
  rintro ended s₁ ⟨hpl₁, hlf⟩
  refine .bind (.get ?_)
  split
  · exact .of_modify ⟨hpl₁, hlf.emit⟩
  · exact .pure ⟨hpl₁, hlf⟩

theorem asking_returns (hK : cfg.K.RecCount = GRADIDO_BLOCK_SIZE) (h : Sound s) (env : Env)
    (now : Nat) (hme : s.state = .ready → Along (round cfg env now)
      (fun s _ => RoundMeets cfg env sibling now s) s (List.replicate cfg.batchSize ())) :
    Returns (asking sibling (continueWithTransactions cfg env now)) s fun _ s' =>
      Sound s' ∧ Harmless s s' := by
  refine .bind (.get ?_)
  by_cases hready : s.state = .ready
  · obtain ⟨rows, hke⟩ := h.stored hready
    refine .bind ((continueWith_left hK h.plain hready hke env now (hme hready)).mono ?_)
    rintro _ s' ⟨hpl', hlf⟩
    refine .bind (.get ?_)
    rw [if_neg fun hak => absurd (hlf.asks_sibling hak.2) (by rw [hak.1]; decide)]
    exact .pure ⟨⟨hpl', hlf.stored⟩, hlf.harmless hke⟩
  · have hca : continueWithTransactions cfg env now s = .ok () s := by
      rw [continueWithTransactions, get_bind, if_pos hready]
      rfl
    refine .bind ⟨(), s, hca, .bind (.get ?_)⟩
    have hno : (s.out.drop s.out.length).any asks = false := by
      rw [List.drop_length]
      rfl
    rw [if_neg fun hak => absurd hak.2 (by rw [hno]; decide)]
    exact .pure ⟨h, .inl (List.prefix_refl _)⟩

/-! ## Whole runs -/

/-- The call returns, leaves nothing in the queue but batches with records, and keeps the
rows unless there was a hole in the numbers. -/
def Tolerated (cfg : Conf) (parser : Proto.Parser) (s : Node F cfg calculateDecay) (e : Event) :
    Prop :=
  Returns (call cfg parser e) s fun _ s' => Plain s' ∧ Harmless s s'

theorem call_returns (hK : cfg.K.RecCount = GRADIDO_BLOCK_SIZE) (h : Sound s) {e : Event}
    (hun : Unmarked parser e) (hme : Meets cfg parser s e) :
    Returns (call cfg parser e) s fun _ s' => Sound s' ∧ Harmless s s' := by
  cases e with
  | arrive t => exact arrive_returns h hun hme
  | continueWithTransactions env sibling now => exact asking_returns hK h env now hme
  | pairedTransactionDone t =>
    exact .of_modify ⟨⟨h.plain, h.stored⟩, .inl (List.prefix_refl _)⟩

/-- The batch of such a message. -/
def nullBatch : Batch GradidoBatch := ⟨none, true⟩

/-- The chain with nothing else in its queue. -/
def withNullBatch (s : Node F cfg calculateDecay) : Node F cfg calculateDecay :=
  { s with inbound := [nullBatch] }

section Rejected

variable {t : ConsensusTopicResponse} (h : Rejected (parser.gradidoTransaction t.message))

include h

theorem translated_rejected :
    (translated parser t : BaseM (child F cfg.K calculateDecay) _) = pure nullBatch := by
  rw [translated, translateFromCtr_rejects h]
  rfl

/-- With another batch in the queue the comparator is given a batch without records. -/
theorem rejected_compared (hinbound : s.inbound ≠ []) :
    arrive parser t s = .error (.undefined "null batch compared") s := by
  rw [arrive, translated_rejected h, pure_bind, pushInbound, get_bind]
  rw [if_pos ⟨hinbound, by rw [List.any_cons]; rfl⟩]
  rfl

theorem arrive_rejected (hinbound : s.inbound = []) :
    arrive parser t s = .ok () (withNullBatch s) := by
  rw [arrive, translated_rejected h, pure_bind, pushInbound, get_bind]
  rw [if_neg fun hco => hco.1 hinbound]
  show EStateM.Result.ok () { s with inbound := nullBatch :: s.inbound } = _
  rw [hinbound]
  rfl

end Rejected

section NullBatch

theorem pop_nullBatch : PQueue.pop (lessBatch)
    (withNullBatch s).inbound = some (nullBatch, []) := rfl

variable (hready : s.state = .ready) (hsize : 0 < cfg.batchSize) (env : Env) (now : Nat)

include hready hsize

/-- The chain throws, or it is truncated. -/
theorem continueWith_nullBatch_throws (hre : cfg.topicResetAllowed = false) :
    continueWithTransactions cfg env now (withNullBatch s)
      = .error (.thrown "cannot reset topic") { s with inbound := [] } := by
  have hst : (withNullBatch s).state = .ready := hready
  obtain ⟨fuel, hfu⟩ := Nat.exists_eq_add_of_lt hsize
  rw [continueWithTransactions, get_bind, if_neg (not_not.mpr hst), hfu, Nat.zero_add]
  refine bind_error ?_
  rw [transactionsLoop, get_bind, pop_nullBatch]
  dsimp only
  rw [modify_bind]
  refine bind_error ?_
  rw [processBatch, if_pos (show nullBatch.resetBlockchain = true from rfl), hre]
  rfl

theorem continueWith_nullBatch_truncates (hre : cfg.topicResetAllowed = true) :
    Returns (continueWithTransactions cfg env now)
      (withNullBatch s) fun _ s' => s'.storage.tiles = [] := by
  have hst : (withNullBatch s).state = .ready := hready
  obtain ⟨fuel, hfu⟩ := Nat.exists_eq_add_of_lt hsize
  refine .bind (.get ?_)
  rw [if_neg (not_not.mpr hst), hfu, Nat.zero_add]
  refine .bind (.bind (.get ?_))
  rw [pop_nullBatch]
  refine .bind (.of_modify (.bind ?_))
  rw [processBatch, if_pos (show nullBatch.resetBlockchain = true from rfl), hre,
    if_neg (by decide)]
  refine .bind (.of_modify (.pure ?_))
  rw [if_pos rfl]
  -- Nothing is left in the queue.
  cases fuel with
  | zero => exact .pure (.bind (.get (.pure rfl)))
  | succ fuel =>
    refine .bind (.get (.pure ?_))
    exact .bind (.get (.pure rfl))

end NullBatch

/-- **Rejected messages.**  No message with too few or too many signatures is let be by a chain
that is ready.  With other batches in the queue the comparator is given one without records;
else the message truncates the chain, or ends the process where topics are not reset. -/
theorem rejected_ends {t : ConsensusTopicResponse}
    (h : Rejected (parser.gradidoTransaction t.message)) (hready : s.state = .ready)
    (hsize : 0 < cfg.batchSize) (env : Env) (now : Nat) :
    if s.inbound ≠ [] then
      pushTransactions cfg parser env now t s = .error (.undefined "null batch compared") s
    else if cfg.topicResetAllowed then
      Returns (pushTransactions cfg parser env now t) s fun _ s' => storedRows s'.storage = []
    else ∃ s', pushTransactions cfg parser env now t s
      = .error (.thrown "cannot reset topic") s' := by
  rw [pushTransactions_eq]
  split
  · next hin => exact bind_error (rejected_compared h hin)
  · next hin =>
    have har := arrive_rejected h (not_not.mp hin)
    split
    · next hre =>
      refine .bind ⟨_, _, har, ?_⟩
      refine (continueWith_nullBatch_truncates hready hsize env now hre).mono ?_
      intro _ s' htl
      rw [storedRows, htl]
      rfl
    · next hre =>
      rw [bind_eq har]
      exact ⟨_, continueWith_nullBatch_throws hready hsize env now (Bool.eq_false_iff.mpr hre)⟩

/-! ## Two messages -/

/-- A parser for which every message is `gt` with `tb` in it. -/
def always (gt : Proto.GradidoTransaction) (tb : Proto.TransactionBody) : Proto.Parser :=
  ⟨fun _ => gt, fun _ => tb⟩

/-- A message without a byte in it is a message with defaults. -/
def defaults : Proto.Parser := always ⟨[], []⟩ ⟨[], 0, .notSet⟩

/-- Message number 1. -/
def firstMessage : ConsensusTopicResponse :=
  ⟨HederaTimestamp.zero, [], List.replicate HEDERA_RUNNING_HASH_LENGTH 0, 1, 3⟩

/-- A message that adds a user, with one signature. -/
def addsUser : Proto.Parser :=
  always ⟨[⟨List.replicate PUB_KEY_LENGTH 1, List.replicate SIGNATURE_LENGTH 1⟩], []⟩
    ⟨[], 1, .groupMemberUpdate ⟨List.replicate PUB_KEY_LENGTH 1, 0, HederaTimestamp.zero, []⟩⟩

/-- The message is pushed. -/
def pushed : List Event :=
  [.arrive firstMessage, .continueWithTransactions Chain.noChains false 0]

/-- A node that resets topics. -/
def resetsTopics : Conf := { groupConf with topicResetAllowed := true }

/-- An empty message truncates a chain that has rows, or ends the process. -/
theorem rejected_ends_defaults :
    (∃ s, run (step resetsTopics addsUser) (readyNode resetsTopics) pushed = some s ∧
      (storedRows s.storage).length = 1 ∧
      Returns (pushTransactions resetsTopics defaults Chain.noChains 0 firstMessage) s
        fun _ s' => storedRows s'.storage = []) ∧
    ∃ s', pushTransactions groupConf defaults Chain.noChains 0 firstMessage (readyNode groupConf)
      = .error (.thrown "cannot reset topic") s' := by
  have hre : Rejected (defaults.gradidoTransaction firstMessage.message) := by decide
  obtain ⟨s, hs, hlen, hready, hin⟩ : ∃ s,
      run (step resetsTopics addsUser) (readyNode resetsTopics) pushed = some s ∧
      (storedRows s.storage).length = 1 ∧ s.state = .ready ∧ s.inbound.length = 0 := by
    decide +kernel
  have hends := rejected_ends hre hready (by decide) Chain.noChains 0
  rw [if_neg (not_not.mpr (List.length_eq_zero_iff.mp hin))] at hends
  exact ⟨⟨s, hs, hlen, hends⟩, rejected_ends (s := readyNode groupConf) hre rfl (by decide) _ _⟩

theorem readyNode_sound (cfg : Conf) : Sound (readyNode cfg) where
  plain := by intro b hb; cases hb
  stored := fun _ => ⟨[], readyNode_keeps cfg⟩

theorem pushed_unmarked (h : ¬ Marked parser firstMessage) : ∀ e ∈ pushed, Unmarked parser e :=
  List.forall_mem_cons.mpr ⟨h, List.forall_mem_singleton.mpr trivial⟩

end Messages

end GradidoNode
