/-
# `GradidoNode.Ledger.Outbound` — outbound transactions before and after a restart

A chain keeps the row of each outbound transaction under its pairing id, for the
chain of the other group to find it (`get_paired_transaction`).  The two interpreters
of a row enter it differently:

    live                                            rebuilt
    before the result is known, so always           if the result is SUCCESS
    with `get_rec_count() - 1`                      with the number of the row

`get_rec_count() - 1` is the number of the next row while the last block has room: the
row is then written over the checksum of the block.  At the beginning of a block it is
one less.

When the two indexes stay equal under an outbound transaction is `OutboundAlike`; this is
exact, step by step (`outboundAgrees_step`), hence for whole runs (`restart_outbound_iff`).
-/
import GradidoNode.Ledger.Restart

namespace GradidoNode

open Lib Blockchain

namespace Ledger

def getPairedTransaction (idx : Indexes) (hti : HederaTimestamp) : Option UInt64 :=
  idx.outboundTransactions hti

/-- The pairing id of an outbound transaction. -/
def outboundId : TransactionBody → Option HederaTimestamp
  | .moveUserOutbound m => some m.pairedTransactionId
  | .outboundTransfer lt => some lt.pairedTransactionId
  | _ => none

/-- The outbound transactions with the one of `body` in row `recNum`. -/
def noteOutbound (m : PMap HederaTimestamp UInt64) (body : TransactionBody) (recNum : UInt64) :
    PMap HederaTimestamp UInt64 :=
  match outboundId body with
  | some id => m.insertNew id recNum
  | none => m

/-- An outbound transaction passes the checks: its user is known, and has the amount. -/
def OutboundSucceeds (calculateDecay : DecayFunction) (l : Ledger) (t : HederaTimestamp) :
    TransactionBody → Prop
  | .moveUserOutbound m => (l.userIndex m.user).isSome
  | .outboundTransfer lt =>
    ∃ sender, l.userIndex lt.sender.user = some sender ∧
      (balanceAt calculateDecay t sender).less lt.amount = false
  | _ => True

/-! ## The two sides -/

section Sides

variable {calculateDecay : DecayFunction} {env : Env} {n k : Nat} {l l' : Ledger}
  {tr tr' : Transaction} {idx idx' : Indexes}

/-- The live side notes every outbound transaction. -/
theorem calc_outbound
    (h : calcFieldsAndUpdateIndexesFor calculateDecay env n l tr = .ready l' tr') :
    l'.outboundTransactions = noteOutbound l.outboundTransactions tr.body (outboundRecNum n) := by
  unfold calcFieldsAndUpdateIndexesFor at h
  split at h
  · cases h
  cases hbo : tr.body <;> rw [hbo] at h
  all_goals
    dsimp only [calcGradidoCreation, calcAddGroupFriend, calcRemoveGroupFriend, calcAddUser,
      calcMoveUserInbound, calcMoveUserOutbound, calcLocalTransfer, calcInboundTransfer,
      calcOutboundTransfer] at h
    repeat' split at h
    all_goals cases h
    all_goals rfl

/-- An outbound transaction does not wait for another one. -/
theorem calc_waiting_outbound {request : Option (Bytes × HederaTimestamp)}
    (h : calcFieldsAndUpdateIndexesFor calculateDecay env n l tr = .waiting l' request)
    (hwait : l.waitingForPaired = false) : outboundId tr.body = none := by
  rw [calcFieldsAndUpdateIndexesFor, if_neg (by rw [hwait]; decide)] at h
  cases hbo : tr.body with
  | moveUserOutbound m =>
    rw [hbo] at h
    dsimp only [calcMoveUserOutbound] at h
    split at h <;> cases h
  | outboundTransfer lt =>
    rw [hbo] at h
    dsimp only [calcOutboundTransfer] at h
    repeat' split at h
    all_goals cases h
  | _ => rfl

/-- An outbound transaction is stored as SUCCESS just if it passes the checks. -/
theorem calc_outbound_success
    (h : calcFieldsAndUpdateIndexesFor calculateDecay env n l tr = .ready l' tr')
    {id : HederaTimestamp} (hid : outboundId tr.body = some id) :
    tr'.result = .success ↔ OutboundSucceeds calculateDecay l tr.consensusTimestamp tr.body := by
  unfold calcFieldsAndUpdateIndexesFor at h
  split at h
  · cases h
  cases hbo : tr.body with
  | moveUserOutbound m =>
    grind [calcMoveUserOutbound, withOutbound, OutboundSucceeds, withResult]
  | outboundTransfer lt =>
    grind [calcOutboundTransfer, withOutbound, OutboundSucceeds, withResult, balanceAt]
  | _ =>
    rw [hbo] at hid
    cases hid

theorem Applied.outboundId_eq (h : Applied calculateDecay env n l tr l' tr') :
    outboundId tr'.body = outboundId tr.body := by
  rcases tr with ⟨seq, t, body, result⟩
  cases h with
  | gradidoCreation hbo _ _ | localTransfer hbo _ _ _ _ _ _ | inboundTransfer hbo _ _ _ _
  | outboundTransfer hbo _ _ _ _ => cases hbo; rfl
  | _ => rfl

theorem setBalance_outbound {t : HederaTimestamp} {u : UserTransfer}
    (h : setBalance idx k t u = some idx') :
    idx'.outboundTransactions = idx.outboundTransactions := by
  unfold setBalance at h
  split at h
  · cases h
  · cases h
    rfl

/-- The rebuild notes the outbound transactions that succeeded. -/
theorem addIndexRow_outbound (h : addIndexRow idx k (.gradidoTransaction tr) = some idx') :
    idx'.outboundTransactions =
      if tr.result = .success then noteOutbound idx.outboundTransactions tr.body (.ofNat k)
      else idx.outboundTransactions := by
  rw [addIndexRow] at h
  split at h
  · rename_i hsu
    rw [if_pos hsu]
    cases hbo : tr.body with
    | gradidoCreation c | inboundTransfer lt =>
      rw [addIndexTransaction, hbo] at h
      exact setBalance_outbound h
    | localTransfer lt =>
      rw [addIndexTransaction, hbo] at h
      dsimp only at h
      split at h
      · cases h
      · rename_i idx₁ h₁
        exact (setBalance_outbound h).trans (setBalance_outbound h₁)
    | outboundTransfer lt =>
      rw [addIndexTransaction, hbo] at h
      dsimp only at h
      split at h
      · cases h
      · rename_i idx₁ h₁
        cases h
        exact congrArg (PMap.insertNew · _ _) (setBalance_outbound h₁)
    | _ =>
      rw [addIndexTransaction, hbo] at h
      cases h
      rfl
  · rename_i hre
    rw [if_neg hre]
    cases h
    rfl

/-- Noted always in one row, or noted in another row if `p`: when that is the same. -/
theorem noteOutbound_eq_iff {m : PMap HederaTimestamp UInt64} {body : TransactionBody}
    {recNum recNum' : UInt64} {p : Prop} [Decidable p] :
    (if p then noteOutbound m body recNum' else m) = noteOutbound m body recNum ↔
      ∀ id, outboundId body = some id → (m id).isSome ∨ (p ∧ recNum' = recNum) := by
  unfold noteOutbound
  cases hid : outboundId body with
  | none => simp
  | some id =>
    by_cases hp : p
    · simp [hp, PMap.insertNew_eq_insertNew_iff]
    · rw [if_neg hp, eq_comm, PMap.insertNew_eq_self_iff]
      simp [hp]

end Sides

end Ledger

namespace Chain

variable {calculateDecay : DecayFunction} {s s' : Chain} {e : Event}

/-- An outbound transaction that is processed has a known id, or it passes the checks and
does not begin a block. -/
def OutboundAlike (calculateDecay : DecayFunction) (s : Chain) : Event → Prop
  | .process _ tr _ =>
    s.ledger.waitingForPaired = false → ∀ id, Ledger.outboundId tr.body = some id →
      (s.ledger.outboundTransactions id).isSome ∨
        (Ledger.OutboundSucceeds calculateDecay s.ledger tr.consensusTimestamp tr.body ∧
          recCount s.rows % GRADIDO_BLOCK_SIZE ≠ 0)
  | .pairedTransactionDone _ => True

/-- The rebuild of the rows succeeds, and finds the outbound transactions that the live
object finds, in the same rows. -/
def OutboundAgrees (s : Chain) : Prop :=
  ∃ idx, Ledger.rebuild s.rows = some idx ∧
    ∀ hti, Ledger.getPairedTransaction idx hti = Ledger.getPairedTransaction s.ledger.toIndexes hti

/-! ## The number of the row -/

/-- `get_rec_count() - 1` is the number of the next row unless a block begins. -/
theorem outboundRecNum_eq_iff (rows : List GradidoRecord) :
    UInt64.ofNat (recNum rows.length) = Ledger.outboundRecNum (recCount rows) ↔
      recCount rows % GRADIDO_BLOCK_SIZE ≠ 0 := by
  constructor
  · intro heq hfull
    rw [recNum_eq_recCount hfull, Ledger.outboundRecNum] at heq
    have hsu : UInt64.ofNat (recCount rows) + 1 = UInt64.ofNat (recCount rows) := by
      conv_lhs => rw [heq]
      exact UInt64.sub_add_cancel _ _
    exact absurd (UInt64.add_eq_left.mp hsu) (by decide)
  · intro hroom
    have hla : recCount rows = recNum rows.length + 1 := by
      have hsize : GRADIDO_BLOCK_SIZE = 1000 := rfl
      rw [recCount, rowCount_eq] at hroom ⊢
      split at hroom
      · rw [recNum_eq, hsize] at hroom
        omega
      · next hin => rw [if_neg hin]
    rw [Ledger.outboundRecNum, hla, UInt64.ofNat_add]
    exact (UInt64.add_sub_cancel _ _).symm

/-! ## One event -/

/-- While the indexes agree, they agree after an event just if it is alike. -/
theorem outboundAgrees_step (hbu : Rebuilds (fun _ _ => True) s) (h : OutboundAgrees s)
    (hs : step calculateDecay s e = some s') :
    OutboundAgrees s' ↔ OutboundAlike calculateDecay s e := by
  obtain ⟨idx, hidx, hag⟩ := h
  have heq : idx.outboundTransactions = s.ledger.outboundTransactions := funext hag
  cases e with
  | pairedTransactionDone t =>
    cases hs
    exact ⟨fun _ => trivial, fun _ => ⟨idx, hidx, hag⟩⟩
  | process env tr parts =>
    unfold step at hs
    dsimp only at hs
    split at hs
    · rename_i l' tr' hca
      cases hs
      have happ := Ledger.calc_applied hca
      obtain ⟨idx₀, hidx₀, hme⟩ := hbu
      obtain rfl : idx₀ = idx := Option.some.inj (hidx₀.symm.trans hidx)
      obtain ⟨idx', hidx', -⟩ := Ledger.rebuilt_applied hme happ
        (.inr fun _ _ => trivial) (fun _ _ => trivial) (fun _ _ _ => trivial)
      have hready : s.ledger.waitingForPaired = false := by
        unfold Ledger.calcFieldsAndUpdateIndexesFor at hca
        split at hca
        · cases hca
        · exact Bool.eq_false_iff.mpr ‹_›
      have hno : Ledger.noteOutbound s.ledger.outboundTransactions tr'.body
          = Ledger.noteOutbound s.ledger.outboundTransactions tr.body := by
        funext recNum
        rw [Ledger.noteOutbound, Ledger.noteOutbound, happ.outboundId_eq]
      have hre : Ledger.rebuild (s.rows ++ batch tr' parts) = some idx' := by
        rw [Ledger.rebuild_batch hidx]
        exact hidx'
      have hsi : OutboundAgrees ⟨l', s.rows ++ batch tr' parts⟩ ↔
          idx'.outboundTransactions = l'.outboundTransactions := by
        constructor
        · rintro ⟨idx₁, hidx₁, hsa⟩
          obtain rfl : idx₁ = idx' := Option.some.inj (hidx₁.symm.trans hre)
          exact funext hsa
        · intro hsa
          exact ⟨idx', hre, congrFun hsa⟩
      rw [hsi, Ledger.addIndexRow_outbound hidx', Ledger.calc_outbound hca, heq, hno,
        Ledger.noteOutbound_eq_iff, outboundRecNum_eq_iff]
      constructor
      · intro hall _ id hid
        rw [← Ledger.calc_outbound_success hca hid]
        exact hall id hid
      · intro hall id hid
        rw [Ledger.calc_outbound_success hca hid]
        exact hall hready id hid
    · -- a transaction that waits is not noted
      rename_i l' request hca
      cases hs
      have hke : l'.toIndexes = s.ledger.toIndexes := Ledger.calc_waiting hca
      refine ⟨fun _ hwait id hid => ?_, fun _ => ⟨idx, hidx, ?_⟩⟩
      · rw [Ledger.calc_waiting_outbound hca hwait] at hid
        cases hid
      · dsimp only
        rw [hke]
        exact hag
    · cases hs

/-! ## Whole runs -/

/-- **Restart equivalence of the outbound index.**  In every state of a run the live and
the rebuilt index answer `get_paired_transaction` alike, if and only if every outbound
transaction of the run has a known id, or passes the checks and does not begin a block. -/
theorem restart_outbound_iff (calculateDecay : DecayFunction) (es : List Event) (t : Chain)
    (hrun : run (step calculateDecay) initial es = some t) :
    (∀ es' s, es' <+: es → run (step calculateDecay) initial es' = some s → OutboundAgrees s) ↔
      Along (step calculateDecay) (OutboundAlike calculateDecay) initial es := by
  have hin : OutboundAgrees initial := ⟨Ledger.clearIndexes, rfl, fun _ => rfl⟩
  have hiff := throughout_iff_along
    (fun s => Rebuilds (fun _ _ => True) s ∧ OutboundAgrees s)
    (fun s e s' hs hst => ⟨fun hs' => (outboundAgrees_step hs.1 hs.2 hst).mp hs'.2,
      fun hal => ⟨rebuilds_members hs.1 hst, (outboundAgrees_step hs.1 hs.2 hst).mpr hal⟩⟩)
    ⟨rebuilds_initial _, hin⟩ hrun
  rw [← hiff]
  constructor
  · intro hall es' s hes' hs
    exact ⟨rebuilds_run hs, hall es' s hes' hs⟩
  · intro hall es' s hes' hs
    exact (hall es' s hes' hs).2

/-! ## Two runs -/

instance (calculateDecay : DecayFunction) (l : Ledger) (t : HederaTimestamp)
    (body : TransactionBody) : Decidable (Ledger.OutboundSucceeds calculateDecay l t body) := by
  unfold Ledger.OutboundSucceeds
  split <;> infer_instance

instance (calculateDecay : DecayFunction) (s : Chain) (e : Event) :
    Decidable (OutboundAlike calculateDecay s e) := by
  unfold OutboundAlike
  split <;> infer_instance

/-- User 1 sends one gradido to another group, with pairing id zero. -/
def outboundOne : Event :=
  plain (.outboundTransfer ⟨⟨HederaTimestamp.zero, Vector.replicate 32 65⟩, ⟨1, 0⟩,
    userTransfer 1, key 2⟩)

/-- User 1 has the gradido: both indexes find the transfer. -/
theorem restart_outbound_sent :
    ∃ s, run (step keepNormalised) initial (opening ++ [outboundOne]) = some s ∧
      (Ledger.getPairedTransaction s.ledger.toIndexes HederaTimestamp.zero).isSome = true ∧
      OutboundAgrees s := by
  obtain ⟨s, hs, hfo⟩ : ∃ s, run (step keepNormalised) initial (opening ++ [outboundOne]) = some s ∧
      (Ledger.getPairedTransaction s.ledger.toIndexes HederaTimestamp.zero).isSome = true := by
    decide +kernel
  exact ⟨s, hs, hfo, (restart_outbound_iff keepNormalised (opening ++ [outboundOne]) s hs).mpr
    (by decide +kernel) (opening ++ [outboundOne]) s (List.prefix_refl _) hs⟩

/-- User 1 has nothing, and the transfer fails: the live index finds it in row 1, which is
where it is, and the rebuilt one does not find it. -/
theorem restart_loses_failed_outbound :
    ∃ s idx, run (step keepNormalised) initial [plain (.addUser (key 1)), outboundOne] = some s ∧
      recNum 1 = 1 ∧ (s.rows[1]?.bind asTransaction).map Transaction.result
        = some .notEnoughGradidos ∧
      Ledger.rebuild s.rows = some idx ∧
      Ledger.getPairedTransaction s.ledger.toIndexes HederaTimestamp.zero = some 1 ∧
      Ledger.getPairedTransaction idx HederaTimestamp.zero = none := by
  simp only [exists_and_left]
  decide +kernel

end Chain

end GradidoNode
