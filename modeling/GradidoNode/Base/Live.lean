/-
# `GradidoNode.Base.Live` — a group chain that takes batches

A chain that is READY and keeps a list of rows, and the calls `add_transaction` and
`continue_with_transactions` on it.  After a hole in the numbers the chain is in INITIAL
without a block, and the two calls do nothing but fill the queue.

**Sequence numbers.**  A batch follows if its number is `seq_num + 1`, computed on
`uint64_t`: after number `2^64 - 1` comes number 0 (`wrapped_numbers`).  Nothing else
can break the numbers: while a batch 0 does not meet the number `2^64 - 1`, the
numbers stored are consecutive, and begin with 1 unless topic resets are allowed
(`stored_consecutive`).
-/
import GradidoNode.Base.Ingest
import Mathlib.Data.List.Chain

namespace GradidoNode.Live

open Lib Blockchain Base BlockchainGradido Ingest

variable {F : RowFormat GradidoRecord} {calculateDecay : DecayFunction} {cfg : Conf}
  {s s' : Node F cfg calculateDecay} {rows : List GradidoRecord}

/-! ## The condition -/

/-- The largest `uint64_t`. -/
def maxNumber : Nat := 2 ^ 64 - 1

/-- No batch 0 waits with the largest number stored last, or waiting too. -/
def NoZeroBehind (latest : Option UInt64) (queue : List GradidoBatch) : Prop :=
  (∃ c ∈ queue, number c = 0) →
    (∀ n, latest = some n → n.toNat ≠ maxNumber) ∧ ∀ c ∈ queue, number c ≠ maxNumber

/-- What `get_latest_transaction_id` finds. -/
def latest (cfg : Conf) (now : Nat) (s : Node F cfg calculateDecay) : Option UInt64 :=
  match getLatestTransactionId cfg.K now s.storage with
  | .ok r _ => r
  | .error _ _ => none

/-- When the loop of `continue_with_transactions` is about to run, the batch it has to take
for the successor of the largest number is not in the queue. -/
def NoWrap (cfg : Conf) (s : Node F cfg calculateDecay) : Event → Prop
  | .addTransaction _ now b => s.state = .ready →
      NoZeroBehind (latest cfg now s) (b :: contents s.inbound)
  | .continueWithTransactions _ now => s.state = .ready →
      NoZeroBehind (latest cfg now s) (contents s.inbound)
  | _ => True

/-- The calls a chain gets while it takes batches. -/
def Taking : Event → Prop
  | .addTransaction .. | .continueWithTransactions .. | .pairedTransactionDone _ => True
  | _ => False

theorem latest_eq (hK : cfg.K.RecCount = GRADIDO_BLOCK_SIZE) (h : Keeps cfg.K s.storage rows)
    (now : Nat) : latest cfg now s = lastStored rows := by
  obtain ⟨r, st, hca, rfl, -⟩ := latest_keeps hK h now
  rw [latest, hca]
  rfl

/-! ## The numbers stored -/

/-- Each number is the one before it plus one. -/
def Consecutive (ns : List UInt64) : Prop := ns.IsChain fun a b => b.toNat = a.toNat + 1

/-- The numbers are consecutive, and begin with 1 unless topic resets are allowed. -/
structure InOrder (cfg : Conf) (ns : List UInt64) : Prop where
  consecutive : Consecutive ns
  first : cfg.topicResetAllowed = false → ∀ n, ns.head? = some n → n = 1

theorem inOrder_nil : InOrder cfg [] := ⟨.nil, fun _ _ hn => by cases hn⟩

/-- The successor on `uint64_t` is the successor, but for the largest number. -/
theorem toNat_add_one {n : UInt64} (h : (n + 1).toNat = 0 → n.toNat ≠ maxNumber) :
    (n + 1).toNat = n.toNat + 1 := by
  have hone : (1 : UInt64).toNat = 1 := rfl
  have hlt := n.toNat_lt
  rw [UInt64.toNat_add, hone] at h ⊢
  unfold maxNumber at h
  omega

/-- A batch that follows, and does not wrap, keeps the order. -/
theorem InOrder.snoc {ns : List UInt64} (h : InOrder cfg ns) {n : UInt64}
    (hne : isNext cfg ns.getLast? n = true)
    (hwr : n.toNat = 0 → ∀ m, ns.getLast? = some m → m.toNat ≠ maxNumber) :
    InOrder cfg (ns ++ [n]) where
  consecutive := by
    refine List.isChain_append.mpr ⟨h.consecutive, .singleton n, ?_⟩
    intro m hm k hk
    cases hk
    have hla : ns.getLast? = some m := hm
    rw [hla] at hne
    obtain rfl : n = m + 1 := beq_iff_eq.mp hne
    exact toNat_add_one fun hze => hwr hze m hla
  first := by
    intro hre k hk
    rcases List.eq_nil_or_concat' ns with rfl | ⟨init, m, rfl⟩
    · cases hk
      simp only [List.getLast?_nil, isNext, hre, Bool.false_or, beq_iff_eq] at hne
      exact hne
    · refine h.first hre k ?_
      cases init with
      | nil | cons a init => exact hk

/-- A batch that is stored adds its number: the ledger leaves it alone. -/
theorem sequenceNumbers_stored (rows : List GradidoRecord) {env : Env} {n : Nat} {l l' : Ledger}
    {c : GradidoBatch} {tr : Transaction}
    (hca : l.calcFieldsAndUpdateIndexesFor calculateDecay env n c.transaction = .ready l' tr) :
    sequenceNumbers (rows ++ Chain.batch tr c.parts)
      = sequenceNumbers rows ++ [c.transaction.sequenceNumber] := by
  have hseq : tr.given.sequenceNumber = c.transaction.given.sequenceNumber :=
    congrArg Transaction.sequenceNumber (Ledger.calc_applied hca).given_eq
  rw [sequenceNumbers_batch, show tr.sequenceNumber = c.transaction.sequenceNumber from hseq]

/-! ## The invariant -/

/-- A chain that takes batches: it is ready and keeps rows in order, or it has reset itself
and has no block. -/
structure Orderly (cfg : Conf) (s : Node F cfg calculateDecay) : Prop where
  plain : ∀ b ∈ s.inbound, ∃ c, b = plainBatch c
  stored : (s.state = .ready ∧ ∃ rows, Keeps cfg.K s.storage rows ∧
      InOrder cfg (sequenceNumbers rows)) ∨
    (s.state = .initial ∧ s.storage.tiles = [])

theorem Orderly.inOrder (h : Orderly cfg s) : InOrder cfg (sequenceNumbers (storedRows s.storage)) := by
  rcases h.stored with ⟨-, rows, hke, hor⟩ | ⟨-, htl⟩
  · rw [hke.storedRows_eq]
    exact hor
  · rw [storedRows, htl]
    exact inOrder_nil

theorem mem_contents_pop {q rest : List (Batch GradidoBatch)} {c : GradidoBatch}
    (h : q.Perm (plainBatch c :: rest)) {d : GradidoBatch} :
    d ∈ contents q ↔ d = c ∨ d ∈ contents rest := by
  have hpe : (contents q).Perm (c :: contents rest) := h.filterMap Batch.content
  rw [hpe.mem_iff, List.mem_cons]

theorem NoZeroBehind.rest {latest : Option UInt64} {q rest : List GradidoBatch}
    (h : NoZeroBehind latest q) (hsub : ∀ c ∈ rest, c ∈ q) : NoZeroBehind latest rest := by
  rintro ⟨c, hc, hze⟩
  obtain ⟨hla, hqu⟩ := h ⟨c, hsub c hc, hze⟩
  exact ⟨hla, fun d hd => hqu d (hsub d hd)⟩

/-- Behind a batch that was stored. -/
theorem NoZeroBehind.stored {latest : Option UInt64} {q rest : List GradidoBatch}
    {c : GradidoBatch} (h : NoZeroBehind latest q) (hsub : ∀ c ∈ rest, c ∈ q) (hc : c ∈ q) :
    NoZeroBehind (some c.transaction.sequenceNumber) rest := by
  rintro ⟨d, hd, hze⟩
  obtain ⟨-, hqu⟩ := h ⟨d, hsub d hd, hze⟩
  refine ⟨fun n hn => ?_, fun e he => hqu e (hsub e he)⟩
  cases hn
  exact hqu c hc

section

variable (hK : cfg.K.RecCount = GRADIDO_BLOCK_SIZE)
include hK

/-- The loop keeps the rows in order: its invariant is that, with what is left in the queue
not wrapping. -/
theorem transactionsLoop_live (env : Env) (now : Nat) :
    ∀ (fuel : Nat) (s : Node F cfg calculateDecay) (rows : List GradidoRecord),
      s.state = .ready → Keeps cfg.K s.storage rows → InOrder cfg (sequenceNumbers rows) →
      (∀ b ∈ s.inbound, ∃ c, b = plainBatch c) →
      NoZeroBehind (lastStored rows) (contents s.inbound) →
      Ensures (transactionsLoop cfg env now fuel) s fun _ s' => Orderly cfg s' := by
  intro fuel
  induction fuel with
  | zero =>
    intro s rows hready hke hor hpl _
    exact .pure ⟨hpl, .inl ⟨hready, rows, hke, hor⟩⟩
  | succ fuel ih =>
    intro s rows hready hke hor hpl hwr
    refine .bind (.get ?_)
    cases hpop : PQueue.pop (lessBatch) s.inbound with
    | none => exact .pure ⟨hpl, .inl ⟨hready, rows, hke, hor⟩⟩
    | some p =>
      obtain ⟨b, rest⟩ := p
      have hpe := PQueue.pop_perm hpop
      obtain ⟨⟨c, rfl⟩, hre⟩ := plain_pop hpl hpop
      have hc : c ∈ contents s.inbound := (mem_contents_pop hpe).mpr (.inl rfl)
      have hsub : ∀ d ∈ contents rest, d ∈ contents s.inbound := fun d hd =>
        (mem_contents_pop hpe).mpr (.inr hd)
      refine .bind (.of_modify (.bind ?_))
      refine (processRecords_processed (s := ({ s with inbound := rest } :
        Node F cfg calculateDecay)) hK hke hre c env now).mono ?_
      intro goOn s' hpr
      cases hpr with
      | stored hne hca hst =>
        have hnu := sequenceNumbers_stored rows hca
        rw [if_pos rfl]
        refine ih _ _ hready hst ?_ hre ?_
        · rw [hnu]
          refine hor.snoc hne fun hze m hm => ?_
          exact (hwr ⟨c, hc, hze⟩).1 m hm
        · rw [lastStored, hnu, List.getLast?_concat]
          exact hwr.stored hsub hc
      | waits hne hca hst =>
        rw [if_neg (by decide)]
        exact .pure ⟨plain_cons hre c, .inl ⟨hready, rows, hst, hor⟩⟩
      | old hnot hold hst =>
        rw [if_pos rfl]
        exact ih _ rows hready hst hor hre (hwr.rest hsub)
      | hole hnot hnew hsta htl hinbound hout =>
        rw [if_neg (by decide)]
        refine .pure ⟨?_, .inr ⟨hsta, htl⟩⟩
        rw [hinbound]
        exact plain_cons hre c

theorem Orderly.continueWith (h : Orderly cfg s) (env : Env)
    (now : Nat) (hwr : s.state = .ready → NoZeroBehind (latest cfg now s) (contents s.inbound)) :
    Ensures (continueWithTransactions cfg env now) s fun _ s' => Orderly cfg s' := by
  refine .bind (.get ?_)
  rcases h.stored with ⟨hready, rows, hke, hor⟩ | ⟨hin, -⟩
  · rw [if_neg (not_not.mpr hready)]
    have hwr' := hwr hready
    rw [latest_eq hK hke] at hwr'
    refine .bind ((transactionsLoop_live hK env now _ s rows hready hke hor h.plain
      hwr').mono ?_)
    intro ended s' h'
    refine .bind (.get ?_)
    split
    · exact .of_modify ⟨h'.plain, h'.stored⟩
    · exact .pure h'
  · rw [if_pos (by rw [hin]; decide)]
    exact .pure h

theorem Orderly.add (h : Orderly cfg s) (env : Env)
    (now : Nat) (b : GradidoBatch)
    (hwr : s.state = .ready → NoZeroBehind (latest cfg now s) (b :: contents s.inbound)) :
    Ensures (addTransaction cfg env now (plainBatch b)) s fun _ s' => Orderly cfg s' := by
  refine .bind ((pushInbound_plain h.plain b).mono ?_).ensures
  rintro _ s' rfl
  have hpu : Orderly cfg ({ s with inbound := plainBatch b :: s.inbound } :
      Node F cfg calculateDecay) := ⟨plain_cons h.plain b, h.stored⟩
  exact hpu.continueWith hK env now hwr

theorem Orderly.step (h : Orderly cfg s) {e : Event}
    (hta : Taking e) (hwr : NoWrap cfg s e) (hs : step cfg s e = some s') : Orderly cfg s' := by
  have hca := call_of_step hs
  cases e with
  | addTransaction env now b => exact h.add hK env now b hwr () s' hca
  | continueWithTransactions env now => exact h.continueWith hK env now hwr () s' hca
  | pairedTransactionDone t =>
    cases hca
    exact ⟨h.plain, h.stored⟩
  | continueValidation | blockChecksumsEnd | blockRecordsEnd => cases hta

end

/-! ## Whole runs -/

/-- **Stored sequence numbers have no holes and no duplicates.**  From a ready chain without
rows, through any calls that take batches and none of which wraps. -/
theorem stored_consecutive (F : RowFormat GradidoRecord) (cfg : Conf)
    (calculateDecay : DecayFunction) (hK : cfg.K.RecCount = GRADIDO_BLOCK_SIZE)
    (s₀ : Node F cfg calculateDecay) (hready : s₀.state = .ready) (hempty : Keeps cfg.K s₀.storage [])
    (hplain : ∀ b ∈ s₀.inbound, ∃ c, b = plainBatch c) (es : List Event)
    (htaking : ∀ e ∈ es, Taking e) (hwrap : Along (step cfg) (NoWrap cfg) s₀ es)
    (s : Node F cfg calculateDecay) (hrun : run (step cfg) s₀ es = some s) :
    Consecutive (sequenceNumbers (storedRows s.storage)) ∧ (cfg.topicResetAllowed = false →
        ∀ n, (sequenceNumbers (storedRows s.storage)).head? = some n → n = 1) := by
  have h := run_inv (Orderly cfg) (fun s e s' h hP hs => h.step hK hP.1 hP.2 hs)
    ⟨hplain, .inl ⟨hready, [], hempty, inOrder_nil⟩⟩ (along_and (along_of_mem s₀ htaking) hwrap) hrun
  exact ⟨h.inOrder.consecutive, h.inOrder.first⟩

/-! ## Two runs -/

instance (latest : Option UInt64) (queue : List GradidoBatch) :
    Decidable (NoZeroBehind latest queue) :=
  inferInstanceAs (Decidable ((∃ c ∈ queue, number c = 0) →
    (∀ n ∈ latest, n.toNat ≠ maxNumber) ∧ ∀ c ∈ queue, number c ≠ maxNumber))

instance (cfg : Conf) (s : Node F cfg calculateDecay) : ∀ e, Decidable (NoWrap cfg s e)
  | .addTransaction .. | .continueWithTransactions .. => inferInstanceAs (Decidable (_ → _))
  | .continueValidation .. | .blockChecksumsEnd | .blockRecordsEnd _ | .pairedTransactionDone _ =>
    isTrue trivial

/-- A batch with the number `n`, and a memo. -/
def memoBatch (n : UInt64) : GradidoBatch :=
  ⟨⟨n, HederaTimestamp.zero, .addUser (Chain.key 1), .unknown⟩, [.memo]⟩

/-- The chain of the runs: ready, over an empty folder. -/
def readyNode (cfg : Conf) : Node (digestFormat GradidoRecord) cfg Chain.keepNormalised :=
  { start (digestFormat GradidoRecord) cfg Chain.keepNormalised with state := .ready }

theorem readyNode_keeps (cfg : Conf) : Keeps cfg.K (readyNode cfg).storage [] :=
  keeps_create fun _ => .inl rfl

/-- Batches 1 and 2, the first of them twice. -/
def twoBatches : List Event :=
  [.addTransaction Chain.noChains 0 (memoBatch 1), .addTransaction Chain.noChains 0 (memoBatch 1),
    .addTransaction Chain.noChains 0 (memoBatch 2)]

/-- They are stored once each, in order. -/
theorem stored_consecutive_twoBatches :
    ∃ s, run (step groupConf) (readyNode groupConf) twoBatches = some s ∧ s.storage.recCount = 5 ∧
      Consecutive (sequenceNumbers (storedRows s.storage)) := by
  obtain ⟨s, hs, hcount⟩ : ∃ s, run (step groupConf) (readyNode groupConf) twoBatches = some s ∧
      s.storage.recCount = 5 := by decide +kernel
  refine ⟨s, hs, hcount, ?_⟩
  exact (stored_consecutive _ groupConf _ rfl (readyNode groupConf) rfl (readyNode_keeps groupConf)
    (by intro b hb; cases hb) twoBatches (by simp [twoBatches, Taking]) (by decide +kernel) s hs).1

/-- A group chain that may be reset. -/
def resettable : Conf := { groupConf with topicResetAllowed := true }

/-- A chain that may begin anywhere begins with the largest number, and goes on with 0. -/
theorem wrapped_numbers : ∃ s, run (step resettable) (readyNode resettable)
        [.addTransaction Chain.noChains 0 (memoBatch 18446744073709551615),
          .addTransaction Chain.noChains 0 (memoBatch 0)] = some s ∧
      sequenceNumbers (storedRows s.storage) = [18446744073709551615, 0] ∧
      ¬ Consecutive (sequenceNumbers (storedRows s.storage)) := by
  unfold Consecutive
  decide +kernel

end GradidoNode.Live
