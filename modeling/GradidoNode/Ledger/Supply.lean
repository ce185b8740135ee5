/-
# `GradidoNode.Ledger.Supply` — the money in the rebuilt index

After a restart the balances are those the rows carry.  In millionths, over the users of
any finite set:

    total          the balances in the rebuilt index
    inflow         the amounts of SUCCESS GRADIDO_CREATION and INBOUND_TRANSFER, and the
                   balances brought by SUCCESS MOVE_USER_INBOUND

A row carries balances computed from the *live* index.  They are right where the live
entry of the user is what the rows say, and that is so while the last row that set the
balance is an ADD_USER or a GRADIDO_CREATION (`settled`): a transfer leaves the live
entry without what it moved, and a MOVE_USER_INBOUND leaves the rebuilt entry without its
time.  A transfer from a user to themselves writes the entry twice, and the last balance
written, that of the receiver, has the amount added and not subtracted.

`Settles` excludes both.  Then the total stays below the inflow (`supply_bounded`).
-/
import GradidoNode.Ledger.Amounts
import GradidoNode.Ledger.Restart
import GradidoNode.Lib.Totals

namespace GradidoNode

open Lib Blockchain

namespace Chain

open Ledger (balanceAt rebuild addIndexRow Agree)

/-! ## Sums and settled users -/

/-- The balance of an entry. -/
def balance (info : UserInfo) : Nat := info.currentBalance.millionths

/-- What a row brings into the group. -/
def inflowIn : GradidoRecord → Nat
  | .gradidoTransaction ⟨_, _, .gradidoCreation c, .success⟩ => c.amount.millionths
  | .gradidoTransaction ⟨_, _, .inboundTransfer lt, .success⟩ => lt.amount.millionths
  | .gradidoTransaction ⟨_, _, .moveUserInbound m, .success⟩ => m.newBalance.millionths
  | _ => 0

def inflow (rows : List GradidoRecord) : Nat := (rows.map inflowIn).sum

/-- Whether a row settles the entry of `u` or unsettles it; `none` if it does neither. -/
def settlesIn (u : PubKey) : GradidoRecord → Option Bool
  | .gradidoTransaction ⟨_, _, .addUser v, .success⟩ => if v = u then some true else none
  | .gradidoTransaction ⟨_, _, .gradidoCreation c, .success⟩ =>
    if c.user = u then some true else none
  | .gradidoTransaction ⟨_, _, .moveUserInbound m, .success⟩ =>
    if m.user = u then some false else none
  | .gradidoTransaction ⟨_, _, .localTransfer lt, .success⟩ =>
    if lt.sender.user = u ∨ lt.receiver.user = u then some false else none
  | .gradidoTransaction ⟨_, _, .inboundTransfer lt, .success⟩ =>
    if lt.receiver.user = u then some false else none
  | .gradidoTransaction ⟨_, _, .outboundTransfer lt, .success⟩ =>
    if lt.sender.user = u then some false else none
  | _ => none

/-- The last row that set the balance of `u` is an ADD_USER or a GRADIDO_CREATION. -/
def settled (u : PubKey) (rows : List GradidoRecord) : Bool :=
  rows.foldl (fun b r => (settlesIn u r).getD b) true

section Batch

variable (u : PubKey) (rows : List GradidoRecord) (tr : Transaction) (parts : List Part)

theorem inflow_batch :
    inflow (rows ++ batch tr parts) = inflow rows + inflowIn (.gradidoTransaction tr) :=
  sum_batch (fun p => by cases p <;> rfl) rows tr parts

theorem settled_batch : settled u (rows ++ batch tr parts)
      = (settlesIn u (.gradidoTransaction tr)).getD (settled u rows) := by
  have hpa : ∀ b : Bool, (parts.map Part.record).foldl
      (fun b r => (settlesIn u r).getD b) b = b := by
    intro b
    induction parts with
    | nil => rfl
    | cons p parts ih =>
      rw [List.map_cons, List.foldl_cons]
      cases p <;> exact ih
  rw [settled, List.foldl_append, batch, List.foldl_cons, hpa]
  rfl

end Batch

/-! ## The condition -/

/-- A transaction that passes the checks changes balances of settled users only; a transfer
between users is between two, and of a normalised amount. -/
def SettlesBody (calculateDecay : DecayFunction) (env : Env) (s : Chain) (t : HederaTimestamp) :
    TransactionBody → Prop
  | .gradidoCreation c => (s.ledger.userIndex c.user).isSome → settled c.user s.rows = true
  | .localTransfer lt =>
    ∀ sender, s.ledger.userIndex lt.sender.user = some sender →
      (s.ledger.userIndex lt.receiver.user).isSome →
      (balanceAt calculateDecay t sender).less lt.amount = false →
      lt.sender.user ≠ lt.receiver.user ∧ lt.amount.Normalised ∧
        settled lt.sender.user s.rows = true ∧ settled lt.receiver.user s.rows = true
  | .inboundTransfer lt =>
    (s.ledger.userIndex lt.receiver.user).isSome →
      ∀ tt, Ledger.inboundPaired env s.ledger lt = some tt → tt.result = .success →
      settled lt.receiver.user s.rows = true
  | .outboundTransfer lt =>
    ∀ sender, s.ledger.userIndex lt.sender.user = some sender →
      (balanceAt calculateDecay t sender).less lt.amount = false →
      lt.amount.Normalised ∧ settled lt.sender.user s.rows = true
  | _ => True

def Settles (calculateDecay : DecayFunction) (s : Chain) : Event → Prop
  | .process env tr _ => SettlesBody calculateDecay env s tr.consensusTimestamp tr.body
  | .pairedTransactionDone _ => True

/-! ## The invariant -/

/-- The rebuilt indexes of a chain: they agree with the live ones in their keys and, for
settled users, in balance and time; and they have no more than what came in. -/
structure Backed (s : Chain) (idx : Indexes) : Prop where
  rebuilt : rebuild s.rows = some idx
  members : Agree (fun _ _ => True) idx s.ledger.toIndexes
  synced : ∀ u, settled u s.rows = true → ∀ v w, idx.userIndex u = some v →
    s.ledger.userIndex u = some w →
    v.currentBalance = w.currentBalance ∧ v.timestampOfLastBalance = w.timestampOfLastBalance
  total_le : ∀ S, idx.userIndex.total balance S ≤ inflow s.rows

theorem backed_initial : Backed initial Ledger.clearIndexes where
  rebuilt := rfl
  members := ⟨PMap.Related.empty, rfl⟩
  synced := by
    intro u _ v w hv
    cases hv
  total_le := by
    intro S
    refine Nat.le_of_eq (Finset.sum_eq_zero fun u _ => rfl)

/-! ## One row -/

section Row

variable {calculateDecay : DecayFunction} {env : Env} {n : Nat} {s s' : Chain} {idx idx' : Indexes}
  {tr tr' : Transaction}

/-- The batch with the transaction `tr'` has been stored, and its row read. -/
structure Booked (s : Chain) (idx : Indexes) (tr' : Transaction) (s' : Chain) (idx' : Indexes) :
    Prop where
  rows : ∃ parts, s'.rows = s.rows ++ batch tr' parts
  row : addIndexRow idx (recNum s.rows.length) (.gradidoTransaction tr') = some idx'
  members : Agree (fun _ _ => True) idx' s'.ledger.toIndexes

variable {t : HederaTimestamp}

theorem setBalance_users {k : Nat} {u : UserTransfer}
    (h : Ledger.setBalance idx k t u = some idx') :
    idx'.userIndex = idx.userIndex.put u.user ⟨u.newBalance, .ofNat k, t⟩ := by
  unfold Ledger.setBalance at h
  split at h
  · cases h
  · cases h
    rfl

variable {lt : LocalTransfer}

/-- The row of a transfer sets the balance of the sender, then that of the receiver. -/
theorem addIndexRow_localTransfer {k : Nat} {q : UInt64}
    (h : addIndexRow idx k (.gradidoTransaction ⟨q, t, .localTransfer lt, .success⟩)
      = some idx') :
    idx'.userIndex = (idx.userIndex.put lt.sender.user ⟨lt.sender.newBalance, .ofNat k, t⟩).put
      lt.receiver.user ⟨lt.receiver.newBalance, .ofNat k, t⟩ := by
  simp only [addIndexRow, Ledger.addIndexTransaction, if_true] at h
  split at h
  · cases h
  · rename_i idx₁ h₁
    rw [setBalance_users h, setBalance_users h₁]

theorem addIndexRow_outboundTransfer {k : Nat} {q : UInt64} {lt : OutboundTransfer}
    (h : addIndexRow idx k (.gradidoTransaction ⟨q, t, .outboundTransfer lt, .success⟩)
      = some idx') :
    idx'.userIndex = idx.userIndex.put lt.sender.user ⟨lt.sender.newBalance, .ofNat k, t⟩ := by
  simp only [addIndexRow, Ledger.addIndexTransaction, if_true] at h
  split at h
  · cases h
  · rename_i idx₁ h₁
    cases h
    exact (setBalance_users h₁ :)

/-- A row keeps the invariant if it keeps what is synced, and the total grows by no more
than what came in. -/
theorem Backed.book (h : Backed s idx) (hb : Booked s idx tr' s' idx')
    (hsy : ∀ u, (settlesIn u (.gradidoTransaction tr')).getD (settled u s.rows) = true →
      ∀ v w, idx'.userIndex u = some v → s'.ledger.userIndex u = some w →
        v.currentBalance = w.currentBalance ∧ v.timestampOfLastBalance = w.timestampOfLastBalance)
    (hto : ∀ S, idx'.userIndex.total balance S
      ≤ inflow s.rows + inflowIn (.gradidoTransaction tr')) : Backed s' idx' := by
  obtain ⟨parts, hro⟩ := hb.rows
  refine ⟨?_, hb.members, ?_, ?_⟩
  · rw [hro, Ledger.rebuild_batch h.rebuilt]
    exact hb.row
  · intro u hu
    rw [hro, settled_batch] at hu
    exact hsy u hu
  · intro S
    rw [hro, inflow_batch]
    exact hto S

theorem Backed.idle (h : Backed s idx) (hb : Booked s idx tr' s' idx')
    (hus : idx'.userIndex = idx.userIndex) (hli : s'.ledger.userIndex = s.ledger.userIndex)
    (hse : ∀ u, settlesIn u (.gradidoTransaction tr') = none) : Backed s' idx' := by
  refine h.book hb ?_ fun S => ?_
  · have hsy := h.synced
    grind
  · rw [hus]
    exact Nat.le_trans (h.total_le S) (Nat.le_add_right _ _)

variable {u : PubKey}

/-- A row that writes one entry, whose balance grows by no more than what came in. -/
theorem Backed.write (h : Backed s idx) (hb : Booked s idx tr' s' idx')
    {v w : UserInfo} (hus : idx'.userIndex = idx.userIndex.put u v)
    (hli : s'.ledger.userIndex = s.ledger.userIndex.put u w)
    (hba : balance v ≤ idx.userIndex.valueAt balance u + inflowIn (.gradidoTransaction tr'))
    (hse : settlesIn u (.gradidoTransaction tr') = some true →
      v.currentBalance = w.currentBalance ∧ v.timestampOfLastBalance = w.timestampOfLastBalance)
    (hset : (settlesIn u (.gradidoTransaction tr')).isSome)
    (hot : ∀ u', u ≠ u' → settlesIn u' (.gradidoTransaction tr') = none) :
    Backed s' idx' := by
  refine h.book hb ?_ fun S => ?_
  · have hsy := h.synced
    obtain ⟨b, hb'⟩ := Option.isSome_iff_exists.mp hset
    simp only [hus, hli, PMap.put_apply]
    grind
  · rw [hus]
    exact Nat.le_trans (PMap.total_put_le hba S) (Nat.add_le_add_right (h.total_le S) _)

/-- The decayed balances of a settled user are the same on both sides. -/
theorem Backed.balanceAt_eq (calculateDecay : DecayFunction) (h : Backed s idx)
    (hu : settled u s.rows = true) {w : UserInfo} (hw : s.ledger.userIndex u = some w) :
    ∃ v, idx.userIndex u = some v ∧ ∀ t,
      balanceAt calculateDecay t w = balanceAt calculateDecay t v := by
  obtain ⟨v, hv, -⟩ := h.members.users.some_left hw
  obtain ⟨hba, htm⟩ := h.synced u hu v w hv hw
  refine ⟨v, hv, fun t => ?_⟩
  rw [balanceAt, balanceAt, hba, htm]

theorem Backed.decayed_le (h : Backed s idx) (hde : Decays calculateDecay)
    (hsum : inflow s.rows < 2 ^ 64) {v : UserInfo} (hv : idx.userIndex u = some v)
    (t : HederaTimestamp) :
    (balanceAt calculateDecay t v).millionths ≤ idx.userIndex.valueAt balance u := by
  have hva : idx.userIndex.valueAt balance u = v.currentBalance.millionths :=
    PMap.valueAt_of_some hv
  have hle : idx.userIndex.valueAt balance u ≤ inflow s.rows :=
    Nat.le_trans (PMap.valueAt_le_total (Finset.mem_singleton_self u)) (h.total_le {u})
  rw [hva] at hle ⊢
  exact millionths_calcDeflation_le hde _ _ (amount_lt_of_millionths (Nat.lt_of_le_of_lt hle hsum))

/-- The decayed balance a row is computed from is not above the rebuilt one. -/
theorem Backed.live_le (h : Backed s idx) (hde : Decays calculateDecay)
    (hsum : inflow s.rows < 2 ^ 64) (hu : settled u s.rows = true) {w : UserInfo}
    (hw : s.ledger.userIndex u = some w) (t : HederaTimestamp) :
    (balanceAt calculateDecay t w).millionths ≤ idx.userIndex.valueAt balance u := by
  obtain ⟨v, hv, heq⟩ := h.balanceAt_eq calculateDecay hu hw
  rw [heq t]
  exact h.decayed_le hde hsum hv t

/-- The value of an entry at the time of a transfer between `sender` and `receiver`: their
entries decayed, the others as they are. -/
def valueBefore (calculateDecay : DecayFunction) (t : HederaTimestamp) (sender receiver : PubKey)
    (users : PMap PubKey UserInfo) (u : PubKey) : Nat :=
  if u = sender ∨ u = receiver then
    users.valueAt (fun info => (balanceAt calculateDecay t info).millionths) u
  else users.valueAt balance u

/-- A transfer of a normalised amount between two different users who are settled; the second
has the entry `info`. -/
structure SettledTransfer (s : Chain) (lt : LocalTransfer) (info : UserInfo) : Prop where
  ne : lt.sender.user ≠ lt.receiver.user
  normalised : lt.amount.Normalised
  sender : settled lt.sender.user s.rows = true
  receiver : settled lt.receiver.user s.rows = true
  found : s.ledger.userIndex lt.receiver.user = some info

/-- A transfer between two settled users does not raise the total above the one with the
two balances decayed. -/
theorem Backed.transfer_total (h : Backed s idx)
    {sender receiver : UserInfo} {senderNew : GradidoValue} {k : UInt64}
    (hse : s.ledger.userIndex lt.sender.user = some sender)
    (hnew : (balanceAt calculateDecay t sender).sub lt.amount = some senderNew)
    (ht : SettledTransfer s lt receiver)
    (huse : idx'.userIndex = (idx.userIndex.put lt.sender.user ⟨senderNew, k, t⟩).put
      lt.receiver.user
      ⟨(balanceAt calculateDecay t receiver).add lt.amount, k, t⟩)
    {S : Finset PubKey} (hsS : lt.sender.user ∈ S) (hrS : lt.receiver.user ∈ S) :
    idx'.userIndex.total balance S ≤
      ∑ u ∈ S, valueBefore calculateDecay t lt.sender.user lt.receiver.user idx.userIndex u := by
  obtain ⟨v, hv, hsa⟩ := h.balanceAt_eq calculateDecay ht.sender hse
  obtain ⟨v', hv', hsa'⟩ := h.balanceAt_eq calculateDecay ht.receiver ht.found
  refine PMap.sum_le_sum_of_pair hsS hrS ht.ne ?_ ?_
  · intro u hus hur
    rw [huse, PMap.valueAt_put_of_ne hur, PMap.valueAt_put_of_ne hus, valueBefore,
      if_neg (by rintro (he | he); exacts [hus he, hur he])]
  · have hsub := GradidoValue.millionths_sub ht.normalised hnew
    have hadd := GradidoValue.millionths_add_le (balanceAt calculateDecay t receiver) lt.amount
    rw [huse, PMap.valueAt_put_self, PMap.valueAt_put_of_ne ht.ne, PMap.valueAt_put_self,
      valueBefore, if_pos (.inl rfl), valueBefore, if_pos (.inr rfl), PMap.valueAt_of_some hv,
      PMap.valueAt_of_some hv', ← hsa t, ← hsa' t]
    simp only [balance]
    omega

/-- With or without decay of the two, the total before a transfer is below the inflow. -/
theorem Backed.before_le (h : Backed s idx) (hde : Decays calculateDecay)
    (hsum : inflow s.rows < 2 ^ 64) (t : HederaTimestamp) (sender receiver : PubKey)
    (S : Finset PubKey) :
    ∑ u ∈ S, valueBefore calculateDecay t sender receiver idx.userIndex u ≤ inflow s.rows := by
  refine Nat.le_trans (Finset.sum_le_sum fun u _ => ?_) (h.total_le S)
  rw [valueBefore]
  split
  · cases hv : idx.userIndex u with
    | none =>
      rw [PMap.valueAt, hv]
      exact Nat.zero_le _
    | some v =>
      rw [PMap.valueAt_of_some hv]
      exact h.decayed_le hde hsum hv t
  · exact Nat.le_refl _

/-- What the condition says of a transfer that passed the checks. -/
theorem SettlesBody.localTransfer
    {sender receiver info : UserInfo}
    (h : SettlesBody calculateDecay env s t (.localTransfer lt))
    (hse : s.ledger.userIndex lt.sender.user = some sender)
    (hre : if lt.receiver.user = lt.sender.user then receiver = info
      else s.ledger.userIndex lt.receiver.user = some receiver)
    (hch : (balanceAt calculateDecay t sender).less lt.amount = false) :
    SettledTransfer s lt receiver := by
  obtain ⟨hne, hno, hs, hr⟩ := h sender hse (by grind) hch
  rw [if_neg (fun he => hne he.symm)] at hre
  exact ⟨hne, hno, hs, hr, hre⟩

/-- A transfer between two settled users, of a normalised amount. -/
theorem Backed.localTransfer (h : Backed s idx) (hb : Booked s idx tr' s' idx')
    (hde : Decays calculateDecay) (hsum : inflow s.rows < 2 ^ 64)
    {sender receiver w w' : UserInfo} {senderNew : GradidoValue} {k : UInt64}
    (hsn : s.ledger.userIndex lt.sender.user = some sender)
    (hnew : (balanceAt calculateDecay t sender).sub lt.amount = some senderNew)
    (ht : SettledTransfer s lt receiver)
    (hus : idx'.userIndex = (idx.userIndex.put lt.sender.user ⟨senderNew, k, t⟩).put
      lt.receiver.user
      ⟨(balanceAt calculateDecay t receiver).add lt.amount, k, t⟩)
    (hli : s'.ledger.userIndex = (s.ledger.userIndex.put lt.sender.user w).put lt.receiver.user w')
    (hse : ∀ u, settlesIn u (.gradidoTransaction tr')
      = if lt.sender.user = u ∨ lt.receiver.user = u then some false else none) :
    Backed s' idx' := by
  refine h.book hb ?_ fun S => ?_
  · have hsy := h.synced
    simp only [hus, hli, PMap.put_apply]
    grind
  · -- the two users are among those of a larger set
    have hsub : S ⊆ insert lt.sender.user (insert lt.receiver.user S) := fun u hu =>
      Finset.mem_insert_of_mem (Finset.mem_insert_of_mem hu)
    calc idx'.userIndex.total balance S
        ≤ idx'.userIndex.total balance (insert lt.sender.user (insert lt.receiver.user S)) :=
          PMap.total_mono hsub
      _ ≤ _ := h.transfer_total hsn hnew ht hus (Finset.mem_insert_self _ _)
          (Finset.mem_insert_of_mem (Finset.mem_insert_self _ _))
      _ ≤ inflow s.rows := h.before_le hde hsum t _ _ _
      _ ≤ _ := Nat.le_add_right _ _

theorem settlesIn_refused (tr : Transaction) (h : tr.result ≠ .success) (u : PubKey) :
    settlesIn u (.gradidoTransaction tr) = none := by
  rcases tr with ⟨n, t, body, result⟩
  cases result with
  | success => exact absurd rfl h
  | _ => cases body <;> rfl

/-- Every row of a transaction that settles keeps the invariant. -/
theorem Backed.applied (h : Backed s idx) (hde : Decays calculateDecay)
    (hsum : inflow s.rows < 2 ^ 64)
    (happ : Ledger.Applied calculateDecay env n s.ledger tr s'.ledger tr')
    (hst : SettlesBody calculateDecay env s tr.consensusTimestamp tr.body)
    (hb : Booked s idx tr' s' idx') : Backed s' idx' := by
  have hrow := hb.row
  rcases tr with ⟨seq, t, body, result⟩
  generalize hl' : s'.ledger = l' at happ
  cases happ with
  | refused hrs hl =>
    have hke : idx = idx' := by
      exact Option.some.inj ((if_neg hrs).symm.trans hrow)
    refine h.idle hb (by rw [hke]) ?_ (settlesIn_refused _ hrs)
    rw [hl']
    rcases hl with rfl | ⟨id, recNum, rfl⟩ <;> rfl
  | other hbo =>
    cases hbo
    have hke : idx = idx' := by
      rw [addIndexRow] at hrow
      split at hrow <;> exact Option.some.inj hrow
    refine h.idle hb (by rw [hke]) (by rw [hl']) ?_
    intro u
    cases result <;> rfl
  | @gradidoCreation c info hbo hin b hba =>
    cases hbo
    subst hba
    have hse := hst (by rw [hin]; rfl)
    have hle := h.live_le hde hsum hse hin t
    have hadd := GradidoValue.millionths_add_le (balanceAt calculateDecay t info) c.amount
    refine h.write hb (setBalance_users hrow) (by rw [hl']; rfl) ?_ ?_
      (by simp only [settlesIn, if_true]; rfl) (fun u' hne => if_neg hne)
    · exact Nat.le_trans hadd (Nat.add_le_add_right hle _)
    · intro _
      exact ⟨rfl, rfl⟩
  | addGroupFriend hbo hno | removeGroupFriend hbo =>
    cases hbo
    cases hrow
    exact h.idle hb rfl (by rw [hl']) (fun _ => rfl)
  | @addUser u hbo hno =>
    cases hbo
    cases hrow
    have hno' := h.members.users.none_left hno
    refine h.write hb (PMap.insertNew_of_none hno') (by rw [hl']; rfl) ?_ ?_
      (by simp [settlesIn, Ledger.withResult]) (fun u' hne => if_neg hne)
    · simp [balance]
    · intro _
      exact ⟨rfl, rfl⟩
  | @moveUserInbound m tt hbo hno hpa hsu =>
    cases hbo
    cases hrow
    have hno' := h.members.users.none_left hno
    refine h.write hb (PMap.insertNew_of_none hno') (by rw [hl']; rfl) ?_ ?_
      (by simp [settlesIn, Ledger.withResult]) (fun u' hne => if_neg hne)
    · exact Nat.le_add_left _ _
    · intro htr
      simp [settlesIn, Ledger.withResult] at htr
  | @moveUserOutbound m hbo =>
    cases hbo
    cases hrow
    refine h.book hb ?_ ?_
    · intro u hu v w hv hw
      rw [hl'] at hw
      by_cases heq : u = m.user
      · rw [heq] at hv
        exact absurd hv (by simp)
      · have hv' : idx.userIndex u = some v := (PMap.erase_of_ne heq).symm.trans hv
        have hw' : s.ledger.userIndex u = some w := (PMap.erase_of_ne heq).symm.trans hw
        exact h.synced u hu v w hv' hw'
    · intro S
      exact Nat.le_trans (PMap.total_erase_le S)
        (Nat.le_trans (h.total_le S) (Nat.le_add_right _ _))
  | @localTransfer lt sender receiver senderAmount senderNew receiverAmount hbo hsn hre
      ham hch hnew hra =>
      cases hbo
      subst ham hra
      have ht := hst.localTransfer hsn hre hch
      exact h.localTransfer hb hde hsum hsn hnew ht
        (addIndexRow_localTransfer hrow) (by rw [hl']; rfl) (fun _ => rfl)
  | @inboundTransfer lt receiver receiverAmount tt hbo hre hpa hsu hra =>
    cases hbo
    subst hra
    have hse := hst (by rw [hre]; rfl) tt hpa hsu
    have hle := h.live_le hde hsum hse hre t
    have hadd := GradidoValue.millionths_add_le (balanceAt calculateDecay t receiver)
      lt.amount
    refine h.write hb (setBalance_users hrow) (by rw [hl']; rfl) ?_ ?_
      (by simp [settlesIn]) (fun u' hne => if_neg hne)
    · exact Nat.le_trans hadd (Nat.add_le_add_right hle _)
    · intro htr
      simp [settlesIn] at htr
  | @outboundTransfer lt sender senderAmount senderNew hbo hsn ham hch hnew =>
    cases hbo
    subst ham
    obtain ⟨hnr, hse⟩ := hst sender hsn hch
    have hle := h.live_le hde hsum hse hsn t
    have hsub := GradidoValue.millionths_sub hnr hnew
    refine h.write hb (addIndexRow_outboundTransfer hrow) (by rw [hl']; rfl) ?_ ?_
      (by simp [settlesIn])
      (fun u' hne => if_neg hne)
    · simp only [balance]
      have : (balanceAt calculateDecay t sender).millionths
        = senderNew.millionths + lt.amount.millionths := hsub.symm
      omega
    · intro htr
      simp [settlesIn] at htr

/-- A SUCCESS row of a transfer that settles does not raise the total. -/
theorem Backed.transfer_applied (h : Backed s idx)
    (happ : Ledger.Applied calculateDecay env n s.ledger tr s'.ledger tr')
    (hst : SettlesBody calculateDecay env s tr.consensusTimestamp tr.body)
    (hb : Booked s idx tr' s' idx') (hbo' : tr'.body = .localTransfer lt)
    (hrs : tr'.result = .success) {S : Finset PubKey} (hsS : lt.sender.user ∈ S)
    (hrS : lt.receiver.user ∈ S) :
    idx'.userIndex.total balance S ≤ ∑ u ∈ S, valueBefore calculateDecay tr'.consensusTimestamp
      lt.sender.user lt.receiver.user idx.userIndex u := by
  have hrow := hb.row
  rcases tr with ⟨seq, t, body, result⟩
  generalize s'.ledger = l' at happ
  cases happ with
  | refused hne hl => exact absurd hrs hne
  | @localTransfer lt₀ sender receiver senderAmount senderNew receiverAmount hbo hse hre
      ham hch hnew hra =>
      cases hbo
      subst ham hra
      cases hbo'
      have ht := hst.localTransfer hse hre hch
      exact h.transfer_total hse hnew ht (addIndexRow_localTransfer hrow) hsS hrS
  | gradidoCreation => cases hbo'
  | inboundTransfer => cases hbo'
  | outboundTransfer => cases hbo'
  | other hbo | addGroupFriend hbo | removeGroupFriend hbo | addUser hbo
  | moveUserInbound hbo | moveUserOutbound hbo => cases hbo.symm.trans hbo'

/-- Where a batch was stored, its row is read. -/
theorem Backed.booked (h : Backed s idx)
    (happ : Ledger.Applied calculateDecay env n s.ledger tr s'.ledger tr') {parts : List Part}
    (hro : s'.rows = s.rows ++ batch tr' parts) : ∃ idx', Booked s idx tr' s' idx' := by
  obtain ⟨idx', hrow, hme⟩ := Ledger.rebuilt_applied h.members happ
    (.inr fun _ _ => trivial) (fun _ _ => trivial) (fun _ _ _ => trivial)
  exact ⟨idx', ⟨parts, hro⟩, hrow, hme⟩

end Row

/-! ## Whole runs -/

variable {calculateDecay : DecayFunction} {s s' : Chain} {idx : Indexes} {e : Event}

theorem inflow_mono (hs : step calculateDecay s e = some s') : inflow s.rows ≤ inflow s'.rows := by
  rcases step_cases hs with ⟨-, hro⟩ | ⟨env, tr, parts, tr', -, -, hro⟩
  · rw [hro]
  · rw [hro, inflow_batch]
    exact Nat.le_add_right _ _

theorem Backed.step (h : Backed s idx) (hde : Decays calculateDecay)
    (hsum : inflow s.rows < 2 ^ 64) (hse : Settles calculateDecay s e)
    (hs : step calculateDecay s e = some s') : ∃ idx', Backed s' idx' := by
  rcases step_cases hs with ⟨hin, hro⟩ | ⟨env, tr, parts, tr', rfl, happ, hro⟩
  · refine ⟨idx, ?_, ?_, ?_, ?_⟩
    · rw [hro]
      exact h.rebuilt
    · rw [hin]
      exact h.members
    · rw [hro, show s'.ledger.userIndex = s.ledger.userIndex from congrArg Indexes.userIndex hin]
      exact h.synced
    · rw [hro]
      exact h.total_le
  · obtain ⟨idx', hb⟩ := h.booked happ hro
    exact ⟨idx', h.applied hde hsum happ hse hb⟩

/-- `add_index_data` makes the indexes `idx` in every object that stores the rows. -/
def IndexData (rows : List GradidoRecord) (idx : Indexes) : Prop :=
  ∀ (F : RowFormat GradidoRecord) (K : Params) (st : Blockchain F) (cs : Nat → F.Checksum)
    (now : Nat), K.RecCount = GRADIDO_BLOCK_SIZE → Holds K st rows cs →
    ∃ st', Ledger.addIndexData K 0 now Ledger.clearIndexes st = .ok idx st'

theorem indexData_of_rebuild {rows : List GradidoRecord} (h : rebuild rows = some idx) :
    IndexData rows idx := by
  intro F K st cs now hK hst
  obtain ⟨r, st', hca, rfl, -⟩ := Ledger.addIndexData_holds hK hst h now
  exact ⟨st', hca⟩

instance (calculateDecay : DecayFunction) (env : Env) (s : Chain) (t : HederaTimestamp) :
    ∀ body, Decidable (SettlesBody calculateDecay env s t body)
  | .gradidoCreation _ | .inboundTransfer _ => inferInstanceAs (Decidable (_ → _))
  | .localTransfer _ | .outboundTransfer _ => inferInstanceAs (Decidable (∀ _, _))
  | .addGroupFriend _ | .removeGroupFriend _ | .addUser _ | .moveUserInbound _
  | .moveUserOutbound _ | .other _ => isTrue trivial

instance (calculateDecay : DecayFunction) (s : Chain) :
    ∀ e, Decidable (Settles calculateDecay s e)
  | .process _ _ _ => inferInstanceAs (Decidable (SettlesBody ..))
  | .pairedTransactionDone _ => isTrue trivial

/-- The row of `sendOne`. -/
def sendOneRow : Transaction :=
  ⟨0, HederaTimestamp.zero, .localTransfer ⟨⟨1, 0⟩, ⟨key 1, ⟨0, 0⟩, 3⟩, ⟨key 2, ⟨1, 0⟩, 2⟩⟩, .success⟩

/-- User 1 sends a gradido to user 1. -/
def sendSelf : Event := plain (.localTransfer ⟨⟨1, 0⟩, userTransfer 1, userTransfer 1⟩)

/-- The row of `sendSelf`. -/
def sendSelfRow : Transaction :=
  ⟨0, HederaTimestamp.zero, .localTransfer ⟨⟨1, 0⟩, ⟨key 1, ⟨0, 0⟩, 3⟩, ⟨key 1, ⟨2, 0⟩, 3⟩⟩, .success⟩

end Chain

end GradidoNode
