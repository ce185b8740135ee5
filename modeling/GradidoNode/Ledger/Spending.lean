/-
# `GradidoNode.Ledger.Spending` — what a user spends against what the user received

For a user `u` and the rows of a chain, in millionths:

    spent u        amounts of SUCCESS LOCAL_TRANSFER and OUTBOUND_TRANSFER sent by u
    received u     amounts of SUCCESS GRADIDO_CREATION for u, of SUCCESS LOCAL_TRANSFER and
                   INBOUND_TRANSFER to u, and balances brought by SUCCESS MOVE_USER_INBOUND
    outstanding u  what u has spent since the entry of u in `user_index` was made

`calc_fields_and_update_indexes_for` does not debit: after a transfer the
sender's `current_balance` is the decayed balance *before* it.  So the balance a
later transfer is checked against does not show what has gone out since the entry
was made, and that is `outstanding`.  `Covered` asks of a transfer that passes
the check of the code that the decayed balance also cover the outstanding amount.

The invariant of a run is `Solvent`; its field `entry` is what the missing debit
leaves true of a balance.  `noDoubleSpending` is the result for whole runs, and
`doubleSpending` a run in which nothing but the debit is missing.
-/
import GradidoNode.Ledger.Chain

namespace GradidoNode

open Lib

namespace Chain

/-! ## Sums over the stored rows -/

/-- What `u` spends in a row. -/
def spentIn (u : PubKey) : GradidoRecord → Nat
  | .gradidoTransaction ⟨_, _, .localTransfer lt, .success⟩ =>
    if lt.sender.user = u then lt.amount.millionths else 0
  | .gradidoTransaction ⟨_, _, .outboundTransfer lt, .success⟩ =>
    if lt.sender.user = u then lt.amount.millionths else 0
  | _ => 0

/-- What `u` receives in a row. -/
def receivedIn (u : PubKey) : GradidoRecord → Nat
  | .gradidoTransaction ⟨_, _, .gradidoCreation c, .success⟩ =>
    if c.user = u then c.amount.millionths else 0
  | .gradidoTransaction ⟨_, _, .localTransfer lt, .success⟩ =>
    if lt.receiver.user = u then lt.amount.millionths else 0
  | .gradidoTransaction ⟨_, _, .inboundTransfer lt, .success⟩ =>
    if lt.receiver.user = u then lt.amount.millionths else 0
  | .gradidoTransaction ⟨_, _, .moveUserInbound m, .success⟩ =>
    if m.user = u then m.newBalance.millionths else 0
  | _ => 0

/-- Whether a row makes an entry for `u`. -/
def entersIn (u : PubKey) : GradidoRecord → Bool
  | .gradidoTransaction ⟨_, _, .addUser v, .success⟩ => v == u
  | .gradidoTransaction ⟨_, _, .moveUserInbound m, .success⟩ => m.user == u
  | _ => false

def spent (u : PubKey) (rows : List GradidoRecord) : Nat := (rows.map (spentIn u)).sum

def received (u : PubKey) (rows : List GradidoRecord) : Nat := (rows.map (receivedIn u)).sum

def outstanding (u : PubKey) (rows : List GradidoRecord) : Nat :=
  rows.foldl (fun o r => if entersIn u r then 0 else o + spentIn u r) 0

section Batch

variable (u : PubKey) (rows : List GradidoRecord) (tr : Transaction) (parts : List Part)

theorem spentIn_part (p : Part) : spentIn u p.record = 0 := by cases p <;> rfl

theorem receivedIn_part (p : Part) : receivedIn u p.record = 0 := by cases p <;> rfl

theorem entersIn_part (p : Part) : entersIn u p.record = false := by cases p <;> rfl

theorem spent_batch :
    spent u (rows ++ batch tr parts) = spent u rows + spentIn u (.gradidoTransaction tr) :=
  sum_batch (spentIn_part u) rows tr parts

theorem received_batch : received u (rows ++ batch tr parts)
      = received u rows + receivedIn u (.gradidoTransaction tr) :=
  sum_batch (receivedIn_part u) rows tr parts

theorem outstanding_batch : outstanding u (rows ++ batch tr parts) =
      if entersIn u (.gradidoTransaction tr) then 0
      else outstanding u rows + spentIn u (.gradidoTransaction tr) := by
  have hpa : ∀ o : Nat, (parts.map Part.record).foldl
      (fun o r => if entersIn u r then 0 else o + spentIn u r) o = o := by
    induction parts with
    | nil => intro o; rfl
    | cons p parts ih =>
      intro o
      simp only [List.map_cons, List.foldl_cons, entersIn_part, spentIn_part,
        Bool.false_eq_true, if_false, Nat.add_zero]
      exact ih o
  simp only [outstanding, batch, List.foldl_append, List.foldl_cons, hpa]

end Batch

/-! ## The invariant -/

variable {calculateDecay : DecayFunction} {s s' : Chain} {u : PubKey}

/-- What holds of a user in a run in which every transfer was covered. -/
structure Solvent (u : PubKey) (s : Chain) : Prop where
  spent_le : spent u s.rows ≤ received u s.rows
  outstanding_le : outstanding u s.rows ≤ spent u s.rows
  entry : ∀ info, s.ledger.userIndex u = some info →
    spent u s.rows + info.currentBalance.millionths ≤ received u s.rows + outstanding u s.rows

/-- The decayed balance of a sender covers the amount and what is outstanding. -/
def CoversTransfer (calculateDecay : DecayFunction) (s : Chain) (t : HederaTimestamp)
    (u : PubKey) (amount : GradidoValue) : Prop :=
  ∀ info, s.ledger.userIndex u = some info →
    let balance := calcDeflation calculateDecay info.timestampOfLastBalance t info.currentBalance
    balance.less amount = false → outstanding u s.rows + amount.millionths ≤ balance.millionths

/-- Every transfer the event makes is covered. -/
def Covered (calculateDecay : DecayFunction) (s : Chain) : Event → Prop
  | .process _ ⟨_, t, .localTransfer lt, _⟩ _ =>
    CoversTransfer calculateDecay s t lt.sender.user lt.amount
  | .process _ ⟨_, t, .outboundTransfer lt, _⟩ _ =>
    CoversTransfer calculateDecay s t lt.sender.user lt.amount
  | _ => True

variable {info : UserInfo} {tr : Transaction} {parts : List Part} {e : Event}

/-- A balance of a user whose receipts are small is small. -/
theorem Solvent.balance_lt (h : Solvent u s)
    (hin : s.ledger.userIndex u = some info) (hsum : received u s.rows < 2 ^ 64) :
    info.currentBalance.millionths < 2 ^ 64 := by
  have := h.entry info hin
  have := h.outstanding_le
  omega

theorem amount_lt_of_millionths {v : GradidoValue} (h : v.millionths < 2 ^ 64) :
    v.amount.toNat < 9223372036854775808 := by
  unfold GradidoValue.millionths at h
  omega

/-- A batch keeps the invariant if its transaction does, in three numbers. -/
theorem Solvent.batch (h : Solvent u s) (hro : s'.rows = s.rows ++ Chain.batch tr parts)
    (hsp : spent u s.rows + spentIn u (.gradidoTransaction tr)
      ≤ received u s.rows + receivedIn u (.gradidoTransaction tr))
    (hen : ∀ info, s'.ledger.userIndex u = some info →
      spent u s.rows + spentIn u (.gradidoTransaction tr) + info.currentBalance.millionths
        ≤ received u s.rows + receivedIn u (.gradidoTransaction tr)
          + if entersIn u (.gradidoTransaction tr) then 0
            else outstanding u s.rows + spentIn u (.gradidoTransaction tr)) :
    Solvent u s' := by
  have hout := h.outstanding_le
  refine ⟨?_, ?_, ?_⟩
  · rw [hro, spent_batch, received_batch]
    exact hsp
  · rw [hro, spent_batch, outstanding_batch]
    split <;> omega
  · intro info hin
    rw [hro, spent_batch, received_batch, outstanding_batch]
    exact hen info hin

/-- A batch that neither spends nor receives for `u` and leaves the entry of `u`. -/
theorem Solvent.idle (h : Solvent u s) (hro : s'.rows = s.rows ++ Chain.batch tr parts)
    (hid : s'.ledger.userIndex u = s.ledger.userIndex u)
    (hsp : spentIn u (.gradidoTransaction tr) = 0)
    (hre : receivedIn u (.gradidoTransaction tr) = 0)
    (hen : entersIn u (.gradidoTransaction tr) = false) : Solvent u s' := by
  refine h.batch hro ?_ fun info hin => ?_
  · rw [hsp, hre]
    exact h.spent_le
  · rw [hid] at hin
    have := h.entry info hin
    simp only [hsp, hre, hen, Bool.false_eq_true, if_false]
    omega

/-- A transaction that was refused counts for nothing. -/
theorem refused_counts (tr : Transaction) (h : tr.result ≠ .success) (u : PubKey) :
    spentIn u (.gradidoTransaction tr) = 0 ∧ receivedIn u (.gradidoTransaction tr) = 0 ∧
      entersIn u (.gradidoTransaction tr) = false := by
  rcases tr with ⟨n, t, body, result⟩
  cases result with
  | success => exact absurd rfl h
  | _ => cases body <;> exact ⟨rfl, rfl, rfl⟩

/-! ## One event -/

section Step

variable {env : Env} {n : Nat} {tr tr' : Transaction} {parts : List Part}

/-- Decay of the balance of a solvent user. -/
theorem Solvent.decayed_le (h : Solvent u s) (hde : Decays calculateDecay)
    (hsum : received u s.rows < 2 ^ 64) {t : HederaTimestamp} {info : UserInfo}
    (hin : s.ledger.userIndex u = some info) :
    (calcDeflation calculateDecay info.timestampOfLastBalance t info.currentBalance).millionths
      ≤ info.currentBalance.millionths :=
  millionths_calcDeflation_le hde _ _ (amount_lt_of_millionths (h.balance_lt hin hsum))

theorem Solvent.applied (h : Solvent u s) (hde : Decays calculateDecay)
    (happ : Ledger.Applied calculateDecay env n s.ledger tr s'.ledger tr')
    (hcov : Covered calculateDecay s (.process env tr parts))
    (hro : s'.rows = s.rows ++ Chain.batch tr' parts) (hsum : received u s.rows < 2 ^ 64) :
    Solvent u s' := by
  rcases tr with ⟨seq, t, body, result⟩
  have hle := h.spent_le
  have het := h.entry
  have hdec : ∀ info, s.ledger.userIndex u = some info → (calcDeflation calculateDecay
      info.timestampOfLastBalance t info.currentBalance).millionths
        ≤ info.currentBalance.millionths := fun info hin => h.decayed_le hde hsum hin
  generalize hl' : s'.ledger = l' at happ
  cases happ with
  | refused hrs hl =>
    obtain ⟨h₁, h₂, h₃⟩ := refused_counts (Ledger.withResult ⟨seq, t, body, result⟩ _) hrs u
    refine h.idle hro ?_ h₁ h₂ h₃
    rw [hl']
    rcases hl with rfl | ⟨id, recNum, rfl⟩ <;> rfl
  | other hbo | addGroupFriend hbo hno | removeGroupFriend hbo =>
    cases hbo
    exact h.idle hro (by rw [hl']) rfl rfl rfl
  | @gradidoCreation c info hbo hin balance hba =>
    cases hbo
    have hadd := GradidoValue.millionths_add_le (calcDeflation calculateDecay
      info.timestampOfLastBalance t info.currentBalance) c.amount
    refine h.batch hro ?_ fun info' hin' => ?_ <;>
      simp only [hl', spentIn, receivedIn, entersIn, Ledger.withUsers, PMap.put_apply] at * <;> grind
  | addUser hbo | moveUserInbound hbo | moveUserOutbound hbo | inboundTransfer hbo =>
    cases hbo
    refine h.batch hro ?_ fun info' hin' => ?_ <;>
      simp only [hl', spentIn, receivedIn, entersIn, Ledger.withUsers, Ledger.withResult,
        Ledger.withOutbound, PMap.put_apply, PMap.erase_apply] at * <;>
      grind [GradidoValue.millionths_zero]
  | @localTransfer lt sender receiver senderAmount senderNew receiverAmount hbo hse hre ham hch
      hnew hra =>
    cases hbo
    have hco := hcov sender hse (ham ▸ hch)
    have hdec₁ : lt.sender.user = u → senderAmount.millionths ≤ sender.currentBalance.millionths :=
      fun hu => ham ▸ hdec sender (hu ▸ hse)
    -- a transfer to oneself: the entry is written twice, and decayed twice
    have hdec₂ : lt.sender.user = u → lt.receiver.user = u →
        receiverAmount.millionths ≤ senderAmount.millionths := by
      intro hs hr
      have hlt := h.balance_lt (hs ▸ hse) hsum
      have hd := hdec₁ hs
      rw [if_pos (hr.trans hs.symm)] at hre
      subst hra hre
      exact millionths_calcDeflation_le hde _ _ (amount_lt_of_millionths (by dsimp only; omega))
    refine h.batch hro ?_ fun info' hin' => ?_ <;>
      simp only [hl', spentIn, receivedIn, entersIn, Ledger.withUsers, PMap.put_apply] at * <;> grind
  | @outboundTransfer lt sender senderAmount senderNew hbo hse ham hch hnew =>
    cases hbo
    subst ham
    have hco : CoversTransfer calculateDecay s t lt.sender.user lt.amount := hcov
    have hco := hco sender hse hch
    refine h.batch hro ?_ fun info' hin' => ?_ <;>
      simp only [hl', spentIn, receivedIn, entersIn, Ledger.withUsers, Ledger.withOutbound,
        PMap.put_apply] at * <;> grind

end Step

theorem received_mono (hs : step calculateDecay s e = some s') :
    received u s.rows ≤ received u s'.rows := by
  rcases step_cases hs with ⟨-, hro⟩ | ⟨env, tr, parts, tr', -, -, hro⟩
  · rw [hro]
  · rw [hro, received_batch]
    exact Nat.le_add_right _ _

theorem Solvent.step (hde : Decays calculateDecay) (h : Solvent u s)
    (hcov : Covered calculateDecay s e) (hs : step calculateDecay s e = some s')
    (hsum : received u s.rows < 2 ^ 64) : Solvent u s' := by
  rcases step_cases hs with ⟨hin, hro⟩ | ⟨env, tr, parts, tr', rfl, happ, hro⟩
  · refine ⟨by rw [hro]; exact h.spent_le, by rw [hro]; exact h.outstanding_le, ?_⟩
    rw [hro, hin]
    exact h.entry
  · exact h.applied hde happ hcov hro hsum

/-! ## Whole runs -/

theorem solvent_initial (u : PubKey) : Solvent u initial where
  spent_le := Nat.le_refl 0
  outstanding_le := Nat.le_refl 0
  entry := by
    intro info hin
    cases hin

/-- **No double spending, for covered transfers.**  In every run from empty indexes
in which every transfer that passes the check is covered, no user has spent more
than the user received. -/
theorem noDoubleSpending (calculateDecay : DecayFunction) (hdecay : Decays calculateDecay)
    (es : List Event) (hcov : Along (step calculateDecay) (Covered calculateDecay) initial es)
    (s : Chain) (hrun : run (step calculateDecay) initial es = some s) (u : PubKey)
    (hsum : received u s.rows < 2 ^ 64) : spent u s.rows ≤ received u s.rows := by
  -- the bound on the sums is handed down the run, from its end to each step
  have hinv := run_inv (fun s => received u s.rows < 2 ^ 64 → Solvent u s)
    (fun s e s' hinv hP hs hsum' =>
      have hsum := Nat.lt_of_le_of_lt (received_mono hs) hsum'
      (hinv hsum).step hdecay hP hs hsum)
    (fun _ => solvent_initial u) hcov hrun
  exact (hinv hsum).spent_le

/-! ## Two runs -/

/-- A `calculateDecay` under which normalised amounts stay as they are. -/
def keepNormalised : DecayFunction := fun g _ =>
  if 0 ≤ g.decimal.toInt ∧ g.decimal.toInt < 1000000 then g else ⟨0, 0⟩

theorem keepNormalised_decays : Decays keepNormalised := by
  intro g seconds hg hd
  unfold keepNormalised
  split
  · rename_i h
    exact ⟨hg, h.1, h.2, Int.le_refl _⟩
  · refine ⟨by decide, by decide, by decide, ?_⟩
    have : (0 : Int64).toInt = 0 := rfl
    dsimp only
    omega

/-- A user key. -/
def key (n : UInt8) : PubKey := Vector.replicate 32 n

/-- A user of a transfer, before its fields are calculated. -/
def userTransfer (n : UInt8) : UserTransfer := ⟨key n, GradidoValue.zero, 0⟩

/-- The other half is with the group `B`. -/
def withGroupB : PairedTransaction := ⟨⟨7, 0⟩, Vector.ofFn fun i => if i.val = 0 then 66 else 0⟩

/-- No other chain is known. -/
def noChains : Env := ⟨fun _ => none, 0⟩

/-- A batch of one record at time zero. -/
def plain (body : TransactionBody) : Event :=
  .process noChains ⟨0, HederaTimestamp.zero, body, .unknown⟩ []

/-- Users 1 and 2, and one gradido for user 1. -/
def opening : List Event :=
  [plain (.addUser (key 1)), plain (.addUser (key 2)),
    plain (.gradidoCreation ⟨userTransfer 1, ⟨1, 0⟩⟩)]

/-- User 1 sends a gradido to user 2. -/
def sendOne : Event := plain (.localTransfer ⟨⟨1, 0⟩, userTransfer 1, userTransfer 2⟩)

instance (calculateDecay : DecayFunction) (s : Chain) (t : HederaTimestamp) (u : PubKey)
    (amount : GradidoValue) : Decidable (CoversTransfer calculateDecay s t u amount) := by
  unfold CoversTransfer
  infer_instance

instance (calculateDecay : DecayFunction) (s : Chain) (e : Event) :
    Decidable (Covered calculateDecay s e) := by
  unfold Covered
  split <;> infer_instance

/-- The gradido is sent once. -/
theorem noDoubleSpending_once :
    ∃ s, run (step keepNormalised) initial (opening ++ [sendOne]) = some s ∧
      spent (key 1) s.rows = 1000000 ∧ spent (key 1) s.rows ≤ received (key 1) s.rows := by
  obtain ⟨s, hs, hsp, hre⟩ : ∃ s, run (step keepNormalised) initial (opening ++ [sendOne]) = some s ∧
      spent (key 1) s.rows = 1000000 ∧ received (key 1) s.rows < 2 ^ 64 := by decide +kernel
  exact ⟨s, hs, hsp, noDoubleSpending keepNormalised keepNormalised_decays _
    (by decide +kernel) s hs (key 1) hre⟩

/-- The same gradido is sent twice, and both transfers are stored as SUCCESS. -/
theorem doubleSpending : Decays keepNormalised ∧
    ∃ s, run (step keepNormalised) initial (opening ++ [sendOne, sendOne]) = some s ∧
      received (key 1) s.rows < 2 ^ 64 ∧ ¬ spent (key 1) s.rows ≤ received (key 1) s.rows := by
  refine ⟨keepNormalised_decays, ?_⟩
  decide +kernel

end Chain

end GradidoNode
