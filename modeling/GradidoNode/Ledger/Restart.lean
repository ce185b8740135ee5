/-
# `GradidoNode.Ledger.Restart` — the live indexes against the rebuilt ones

A restart forgets the indexes and rebuilds them from the stored rows
(`clear_indexes`, then `add_index_data`).  This module compares what a run leaves
in the indexes with what the rebuild makes of its rows.

Three things differ, and each has its condition on a step:

    live                                        rebuilt
    a transfer keeps the decayed balances       takes the balances it stored
    an entry carries `get_rec_count()`          carries the number of its row
    MOVE_USER_INBOUND records its time          records no time

`Neutral` excludes the first difference: then the balances agree
(`restart_equivalence`, its first part).  `RecordsAlike` excludes the other two:
then the next transaction is given the same fields.  `get_rec_count()` counts the
CHECKSUM row a block ends with, so it is the number of the next row only where
the last block is full.

The comparison is made once, for any relation `R` between a rebuilt and a live
entry (`rebuilt_applied`): equal balances, equality, or for users and friends alone
(`restart_membership`) the relation that always holds.
-/
import GradidoNode.Ledger.AddIndexData
import GradidoNode.Ledger.Spending

namespace GradidoNode

open Lib Blockchain

/-- What the caller of `calc_fields_and_update_indexes_for` is given to store, if anything. -/
def Calc.assigned : Calc → Option Transaction
  | .ready _ tr => some tr
  | .waiting _ _ => none
  | .failed _ => none

namespace Ledger

/-- A ledger after a restart: `clear_indexes` and `add_index_data` leave the rest of
the object. -/
def restarted (l : Ledger) (idx : Indexes) : Ledger := { l with toIndexes := idx }

/-- The decayed balance of an entry. -/
def balanceAt (calculateDecay : DecayFunction) (t : HederaTimestamp) (info : UserInfo) :
    GradidoValue :=
  calcDeflation calculateDecay info.timestampOfLastBalance t info.currentBalance

/-! ## Related indexes -/

/-- Rebuilt and live indexes: the same users with related entries, the same friends.
The index of outbound transactions is not compared; it decides nothing on its own chain. -/
structure Agree (R : UserInfo → UserInfo → Prop) (idx live : Indexes) : Prop where
  users : PMap.Related R idx.userIndex live.userIndex
  friends : idx.friendGroupIndex = live.friendGroupIndex

variable {R : UserInfo → UserInfo → Prop} {idx live : Indexes}

/-- The row's balance is written into the entry of a user the live index knows, and a
related one into the live entry. -/
theorem Agree.setBalance (h : Agree R idx live) {k n : Nat} {t : HederaTimestamp}
    (u : UserTransfer) {b : GradidoValue} {info : UserInfo}
    (hR : R ⟨u.newBalance, .ofNat k, t⟩ ⟨b, .ofNat n, t⟩)
    (hu : live.userIndex u.user = some info) :
    ∃ idx', Ledger.setBalance idx k t u = some idx' ∧
      Agree R idx' { live with userIndex := live.userIndex.put u.user ⟨b, .ofNat n, t⟩ } := by
  obtain ⟨v, hv, -⟩ := h.users.some_left hu
  refine ⟨{ idx with userIndex := idx.userIndex.put u.user ⟨u.newBalance, .ofNat k, t⟩ }, ?_,
    h.users.put hR, h.friends⟩
  simp only [Ledger.setBalance, hv]

/-- An entry is made for a user the live index does not know. -/
theorem Agree.enter (h : Agree R idx live) {u : PubKey} {v w : UserInfo}
    (hu : live.userIndex u = none) (hvw : R v w) :
    Agree R { idx with userIndex := idx.userIndex.insertNew u v }
      { live with userIndex := live.userIndex.put u w } := by
  refine ⟨?_, h.friends⟩
  rw [PMap.insertNew_of_none (h.users.none_left hu)]
  exact h.users.put hvw

theorem addIndexRows_parts (parts : List Part) (n : Nat) (idx : Indexes) :
    addIndexRows n (parts.map Part.record) idx = some idx := by
  induction parts generalizing n with
  | nil => rfl
  | cons p parts ih =>
    cases p with
    | memo | signatures => exact ih (n + 1)

/-- A batch at the end of the rows: its transaction, in the row it is stored in. -/
theorem rebuild_batch {rows : List GradidoRecord} {idx : Indexes} (h : rebuild rows = some idx)
    (tr : Transaction) (parts : List Part) :
    rebuild (rows ++ Chain.batch tr parts)
      = addIndexRow idx (Chain.recNum rows.length) (.gradidoTransaction tr) := by
  have h' : addIndexRows 0 rows clearIndexes = some idx := h
  rw [rebuild, addIndexRows_append, h', Option.bind_some, Chain.batch, addIndexRows, Nat.zero_add]
  cases addIndexRow idx (Chain.recNum rows.length) (.gradidoTransaction tr) with
  | none => rfl
  | some idx' => exact addIndexRows_parts parts _ idx'

/-! ## The conditions -/

/-- The transaction writes an entry of `user_index`, or would but for the checks that follow. -/
def Writes (l : Ledger) : TransactionBody → Prop
  | .gradidoCreation c => (l.userIndex c.user).isSome
  | .addUser u => l.userIndex u = none
  | .moveUserInbound m => l.userIndex m.user = none
  | .localTransfer lt => (l.userIndex lt.sender.user).isSome
  | .inboundTransfer lt => (l.userIndex lt.receiver.user).isSome
  | .outboundTransfer lt => (l.userIndex lt.sender.user).isSome
  | _ => False

/-- Crediting the amount leaves the balance as it is: nothing is credited, to a
normalised balance. -/
def CreditsNothing (amount balance : GradidoValue) : Prop :=
  amount = GradidoValue.zero ∧ balance.decimalAmount < GRADIDO_VALUE_DECIMAL_AMOUNT_BASE

theorem CreditsNothing.add {amount balance : GradidoValue} (h : CreditsNothing amount balance) :
    balance.add amount = balance := by
  rw [h.1]
  exact GradidoValue.add_zero h.2

/-- Nothing is left of a balance but itself when nothing is taken. -/
theorem kept_of_zero {amount balance rest : GradidoValue} (hze : amount = GradidoValue.zero)
    (h : balance.sub amount = some rest) : rest = balance := by
  rw [hze, GradidoValue.sub_zero] at h
  exact (Option.some.inj h).symm

theorem CreditsNothing.kept {amount balance other rest : GradidoValue}
    (h : CreditsNothing amount other) (hre : balance.sub amount = some rest) : rest = balance :=
  kept_of_zero h.1 hre

/-- A transfer that passes the checks moves nothing. -/
def MovesNothing (calculateDecay : DecayFunction) (env : Env) (l : Ledger) (t : HederaTimestamp) :
    TransactionBody → Prop
  | .localTransfer lt =>
    ∀ sender receiver, l.userIndex lt.sender.user = some sender →
      (if lt.receiver.user = lt.sender.user
        then receiver = { sender with currentBalance := balanceAt calculateDecay t sender }
        else l.userIndex lt.receiver.user = some receiver) →
      (balanceAt calculateDecay t sender).less lt.amount = false →
      CreditsNothing lt.amount (balanceAt calculateDecay t receiver)
  | .inboundTransfer lt =>
    ∀ receiver tt, l.userIndex lt.receiver.user = some receiver →
      inboundPaired env l lt = some tt → tt.result = .success →
      CreditsNothing lt.amount (balanceAt calculateDecay t receiver)
  | .outboundTransfer lt =>
    ∀ sender, l.userIndex lt.sender.user = some sender →
      (balanceAt calculateDecay t sender).less lt.amount = false →
      lt.amount = GradidoValue.zero
  | _ => True

/-! ## One transaction -/

section Applied

variable {calculateDecay : DecayFunction} {env : Env} {n k : Nat} {l l' : Ledger}
  {tr tr' : Transaction}

/-- Related indexes stay related when a transaction is applied on the one side and
its row, `k`, is read on the other.  After a transfer the balances differ by what it
moved, so it moves nothing, or `R` does not look at balances. -/
theorem rebuilt_applied (h : Agree R idx l.toIndexes)
    (happ : Applied calculateDecay env n l tr l' tr')
    (hmo : MovesNothing calculateDecay env l tr.consensusTimestamp tr.body ∨
      ∀ b b', R ⟨b, .ofNat k, tr.consensusTimestamp⟩ ⟨b', .ofNat n, tr.consensusTimestamp⟩)
    (hsa : Writes l tr.body → ∀ b, R ⟨b, .ofNat k, tr.consensusTimestamp⟩
      ⟨b, .ofNat n, tr.consensusTimestamp⟩)
    (hmv : ∀ m, tr.body = .moveUserInbound m → Writes l tr.body →
      R ⟨m.newBalance, .ofNat (k % 2 ^ 32), HederaTimestamp.zero⟩
        ⟨m.newBalance, .ofNat n, tr.consensusTimestamp⟩) :
    ∃ idx', addIndexRow idx k (.gradidoTransaction tr') = some idx' ∧
      Agree R idx' l'.toIndexes := by
  rcases tr with ⟨seq, t, body, result⟩
  cases happ with
  | refused hrs hl =>
    refine ⟨idx, if_neg hrs, ?_⟩
    rcases hl with rfl | ⟨id, recNum, rfl⟩
    · exact h
    · exact ⟨h.users, h.friends⟩
  | other hbo =>
    cases hbo
    exact ⟨idx, ite_self _, h⟩
  | @gradidoCreation c info hbo hin balance hba =>
    cases hbo
    have hwr : Writes l (.gradidoCreation c) := by simp [Writes, hin]
    exact h.setBalance ⟨c.user, balance.add c.amount, info.lastRecordWithBalance⟩ (hsa hwr _) hin
  | addGroupFriend hbo hnn =>
    cases hbo
    exact ⟨_, rfl, h.users, congrArg (PMap.insertNew · _ ()) h.friends⟩
  | removeGroupFriend hbo =>
    cases hbo
    exact ⟨_, rfl, h.users, congrArg (PMap.erase · _) h.friends⟩
  | addUser hbo hnn =>
    cases hbo
    exact ⟨_, rfl, h.enter hnn (hsa hnn _)⟩
  | moveUserInbound hbo hnn hpa hsu =>
    cases hbo
    exact ⟨_, rfl, h.enter hnn (hmv _ rfl hnn)⟩
  | moveUserOutbound hbo =>
    cases hbo
    exact ⟨_, rfl, h.users.erase, h.friends⟩
  | @localTransfer lt sender receiver senderAmount senderNew receiverAmount hbo hse
      hre ham hch hnew hra =>
      cases hbo
      have hwr : Writes l (.localTransfer lt) := by simp [Writes, hse]
      have hR : R ⟨senderNew, .ofNat k, t⟩ ⟨senderAmount, .ofNat n, t⟩ ∧
          R ⟨receiverAmount.add lt.amount, .ofNat k, t⟩ ⟨receiverAmount, .ofNat n, t⟩ := by
        rcases hmo with hno | hany
        · have hcr : CreditsNothing lt.amount receiverAmount := by
            rw [hra]
            exact hno sender receiver hse (by rw [ham] at hre; exact hre)
              (by rw [ham] at hch; exact hch)
          rw [hcr.add]
          exact ⟨hcr.kept hnew ▸ hsa hwr _, hsa hwr _⟩
        · exact ⟨hany _ _, hany _ _⟩
      obtain ⟨idx₁, h₁, hag₁⟩ := h.setBalance
        ⟨lt.sender.user, senderNew, sender.lastRecordWithBalance⟩ hR.1 hse
      -- the receiver is found in the index the sender has been written to
      obtain ⟨info, hin⟩ : ∃ info, (l.userIndex.put lt.sender.user
          ⟨senderAmount, .ofNat n, t⟩) lt.receiver.user = some info := by
        rw [PMap.put_apply]
        split at hre
        · rename_i heq
          exact ⟨_, if_pos heq⟩
        · rename_i hne
          exact ⟨receiver, by rw [if_neg hne]; exact hre⟩
      obtain ⟨idx₂, h₂, hag₂⟩ := hag₁.setBalance
        ⟨lt.receiver.user, receiverAmount.add lt.amount, receiver.lastRecordWithBalance⟩
        hR.2 hin
      refine ⟨idx₂, ?_, hag₂⟩
      rw [addIndexRow, if_pos rfl]
      dsimp only [addIndexTransaction] at h₁ h₂ ⊢
      rw [h₁]
      exact h₂
  | @inboundTransfer lt receiver receiverAmount tt hbo hre hpa hsu hra =>
    cases hbo
    have hwr : Writes l (.inboundTransfer lt) := by simp [Writes, hre]
    refine h.setBalance
      ⟨lt.receiver.user, receiverAmount.add lt.amount, receiver.lastRecordWithBalance⟩ ?_ hre
    rcases hmo with hno | hany
    · have hcr : CreditsNothing lt.amount receiverAmount := by
        rw [hra]
        exact hno receiver tt hre hpa hsu
      rw [hcr.add]
      exact hsa hwr _
    · exact hany _ _
  | @outboundTransfer lt sender senderAmount senderNew hbo hse ham hch hnew =>
    cases hbo
    have hwr : Writes l (.outboundTransfer lt) := by simp [Writes, hse]
    have hR : R ⟨senderNew, .ofNat k, t⟩ ⟨senderAmount, .ofNat n, t⟩ := by
      rcases hmo with hno | hany
      · have hze : lt.amount = GradidoValue.zero := hno sender hse (by rw [ham] at hch; exact hch)
        exact kept_of_zero hze hnew ▸ hsa hwr _
      · exact hany _ _
    obtain ⟨idx₁, h₁, hag₁⟩ := h.setBalance
      ⟨lt.sender.user, senderNew, sender.lastRecordWithBalance⟩ hR hse
    refine ⟨{ idx₁ with
      outboundTransactions :=
        idx₁.outboundTransactions.insertNew lt.pairedTransactionId (.ofNat k) },
      ?_, hag₁.users, hag₁.friends⟩
    rw [addIndexRow, if_pos rfl]
    dsimp only [addIndexTransaction] at h₁ ⊢
    rw [h₁]

/-- A chain's own index of outbound transactions plays no part in what it assigns. -/
theorem assigned_outbound (l : Ledger) (outbound : PMap HederaTimestamp UInt64) (tr : Transaction) :
    (calcFieldsAndUpdateIndexesFor calculateDecay env n
        { l with outboundTransactions := outbound } tr).assigned
      = (calcFieldsAndUpdateIndexesFor calculateDecay env n l tr).assigned := by
  unfold calcFieldsAndUpdateIndexesFor
  split
  · rfl
  cases tr.body with
  | gradidoCreation c =>
    simp only [calcGradidoCreation]
    cases l.userIndex c.user <;> rfl
  | addGroupFriend g =>
    simp only [calcAddGroupFriend]
    cases l.friendGroupIndex (cstr g) <;> rfl
  | removeGroupFriend g =>
    simp only [calcRemoveGroupFriend]
    cases l.friendGroupIndex (cstr g) <;> rfl
  | addUser u =>
    simp only [calcAddUser]
    cases l.userIndex u <;> rfl
  | moveUserInbound m =>
    have hpa : moveUserPaired env { l with outboundTransactions := outbound } m
        = moveUserPaired env l m := rfl
    simp only [calcMoveUserInbound, hpa]
    cases l.userIndex m.user with
    | some info => rfl
    | none =>
      cases moveUserPaired env l m with
      | none => rfl
      | some tt => dsimp only; split <;> rfl
  | moveUserOutbound m =>
    simp only [calcMoveUserOutbound, withOutbound]
    cases l.userIndex m.user <;> rfl
  | localTransfer lt =>
    simp only [calcLocalTransfer]
    repeat' split
    all_goals rfl
  | inboundTransfer lt =>
    have hpa : inboundPaired env { l with outboundTransactions := outbound } lt
        = inboundPaired env l lt := rfl
    simp only [calcInboundTransfer, hpa]
    cases l.userIndex lt.receiver.user with
    | none => rfl
    | some receiver =>
      cases inboundPaired env l lt with
      | none => rfl
      | some tt => dsimp only; split <;> rfl
  | outboundTransfer lt =>
    simp only [calcOutboundTransfer, withOutbound]
    repeat' split
    all_goals rfl
  | other ty => rfl

end Applied

end Ledger

namespace Chain

variable {calculateDecay : DecayFunction} {s s' : Chain} {e : Event}

/-- The event makes no transfer that moves something. -/
def Neutral (calculateDecay : DecayFunction) (s : Chain) : Event → Prop
  | .process env tr _ =>
    Ledger.MovesNothing calculateDecay env s.ledger tr.consensusTimestamp tr.body
  | .pairedTransactionDone _ => True

/-- An entry the event writes is written where the last block is full, and if by a
MOVE_USER_INBOUND, at time zero. -/
def RecordsAlike (s : Chain) : Event → Prop
  | .process _ tr _ =>
    Ledger.Writes s.ledger tr.body → recCount s.rows % GRADIDO_BLOCK_SIZE = 0 ∧
      (∀ m, tr.body = .moveUserInbound m →
        tr.consensusTimestamp = HederaTimestamp.zero ∧ recCount s.rows < 2 ^ 32)
  | .pairedTransactionDone _ => True

/-- Where the last block is full, `get_rec_count()` is the number of the next row. -/
theorem recNum_eq_recCount {rows : List GradidoRecord}
    (h : recCount rows % GRADIDO_BLOCK_SIZE = 0) : recNum rows.length = recCount rows := by
  have hsize : GRADIDO_BLOCK_SIZE = 1000 := rfl
  rw [recCount, rowCount_eq] at h ⊢
  split at h
  · next hbe => rw [if_pos hbe]
  · next hin =>
    rw [recNum_eq, hsize] at h
    omega

/-- The rebuilt indexes agree with the live ones in the sense of `R`. -/
def Rebuilds (R : UserInfo → UserInfo → Prop) (s : Chain) : Prop :=
  ∃ idx, Ledger.rebuild s.rows = some idx ∧ Ledger.Agree R idx s.ledger.toIndexes

theorem rebuilds_initial (R : UserInfo → UserInfo → Prop) : Rebuilds R initial :=
  ⟨Ledger.clearIndexes, rfl, PMap.Related.empty, rfl⟩

theorem Rebuilds.step {R : UserInfo → UserInfo → Prop} (h : Rebuilds R s)
    (hmo : Neutral calculateDecay s e ∨ ∀ k n t b b', R ⟨b, k, t⟩ ⟨b', n, t⟩)
    (hR : ∀ env tr parts, e = .process env tr parts → Ledger.Writes s.ledger tr.body →
      (∀ b, R ⟨b, .ofNat (recNum s.rows.length), tr.consensusTimestamp⟩
        ⟨b, .ofNat (recCount s.rows), tr.consensusTimestamp⟩) ∧
      (∀ m, tr.body = .moveUserInbound m →
        R ⟨m.newBalance, .ofNat (recNum s.rows.length % 2 ^ 32), HederaTimestamp.zero⟩
          ⟨m.newBalance, .ofNat (recCount s.rows), tr.consensusTimestamp⟩))
    (hs : step calculateDecay s e = some s') : Rebuilds R s' := by
  obtain ⟨idx, hidx, hag⟩ := h
  rcases step_cases hs with ⟨hin, hro⟩ | ⟨env, tr, parts, tr', rfl, happ, hro⟩
  · exact ⟨idx, by rw [hro]; exact hidx, by rw [hin]; exact hag⟩
  · have hR' := hR env tr parts rfl
    obtain ⟨idx', hidx', hag'⟩ := Ledger.rebuilt_applied hag happ
      (hmo.imp_right fun hany b b' => hany _ _ _ b b')
      (fun hw => (hR' hw).1) (fun m hm hw => (hR' hw).2 m hm)
    refine ⟨idx', ?_, hag'⟩
    rw [hro, Ledger.rebuild_batch hidx]
    exact hidx'

/-- Equal balances survive every neutral event. -/
theorem rebuilds_balances (h : Rebuilds (·.currentBalance = ·.currentBalance) s)
    (hne : Neutral calculateDecay s e) (hs : step calculateDecay s e = some s') :
    Rebuilds (·.currentBalance = ·.currentBalance) s' :=
  h.step (.inl hne) (fun _ _ _ _ _ => ⟨fun _ => rfl, fun _ _ => rfl⟩) hs

/-- Equal entries survive a neutral event that records alike. -/
theorem rebuilds_entries (h : Rebuilds Eq s) (hne : Neutral calculateDecay s e)
    (hal : RecordsAlike s e) (hs : step calculateDecay s e = some s') : Rebuilds Eq s' := by
  refine h.step (.inl hne) ?_ hs
  rintro env tr parts rfl hw
  obtain ⟨hfull, hmo⟩ := hal hw
  refine ⟨fun b => ?_, fun m hm => ?_⟩
  · rw [recNum_eq_recCount hfull]
  · obtain ⟨htm, hsm⟩ := hmo m hm
    rw [recNum_eq_recCount hfull, Nat.mod_eq_of_lt hsm, htm]

/-- Indexes that agree in every entry assign the same fields. -/
theorem assigned_eq_of_agree {idx : Indexes} {l : Ledger} (h : Ledger.Agree Eq idx l.toIndexes)
    (env : Env) (n : Nat) (tr : Transaction) :
    ((l.restarted idx).calcFieldsAndUpdateIndexesFor calculateDecay env n tr).assigned
      = (l.calcFieldsAndUpdateIndexesFor calculateDecay env n tr).assigned := by
  have hus : idx.userIndex = l.userIndex := by
    funext u
    cases hli : l.userIndex u with
    | none => exact h.users.none_left hli
    | some w =>
      obtain ⟨v, hv, rfl⟩ := h.users.some_left hli
      exact hv
  have hre : l.restarted idx = { l with outboundTransactions := idx.outboundTransactions } := by
    rw [Ledger.restarted, ← hus, ← h.friends]
  rw [hre]
  exact Ledger.assigned_outbound l _ tr

/-- Who has an entry, and who is a friend, survives every event. -/
theorem rebuilds_members (h : Rebuilds (fun _ _ => True) s)
    (hs : step calculateDecay s e = some s') : Rebuilds (fun _ _ => True) s' :=
  h.step (.inr fun _ _ _ _ _ => trivial)
    (fun _ _ _ _ _ => ⟨fun _ => trivial, fun _ _ => trivial⟩) hs

/-- The rebuild of the rows of any run finds every user it looks for. -/
theorem rebuilds_run {es : List Event} (hrun : run (step calculateDecay) initial es = some s) :
    Rebuilds (fun _ _ => True) s :=
  run_keeps (Rebuilds fun _ _ => True) (fun _ _ _ hinv hs => rebuilds_members hinv hs)
    (rebuilds_initial _) hrun

/-- A user in the first row of the chain, and a friend group. -/
def userAndFriend : List Event :=
  [plain (.addUser (key 1)), plain (.addGroupFriend (Vector.replicate 32 65))]

/-- One gradido created for user 1. -/
def createOne : Transaction :=
  ⟨0, HederaTimestamp.zero, .gradidoCreation ⟨userTransfer 1, ⟨1, 0⟩⟩, .unknown⟩

/-- One gradido sent by user 1 to user 2. -/
def sendOneTransaction : Transaction :=
  ⟨0, HederaTimestamp.zero, .localTransfer ⟨⟨1, 0⟩, userTransfer 1, userTransfer 2⟩, .unknown⟩

end Chain

end GradidoNode
