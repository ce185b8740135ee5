/-
# `GradidoNode.Ledger.ConsensusTime` — the times of the stored transactions

A transaction carries the time the ordering service gave it, and that time only grows
(#00016 of the rules).  An entry of `user_index` carries the time of the row that made
it, and `calc_deflation` takes the one from the other: the seconds between, as an
unsigned number, are what `calculateDecay` is called with.

Nothing compares the two.  A transaction with an earlier time than a stored one is
stored behind it, and the seconds wrap (`earlier_transaction_stored`).  `Follows` asks
of a transaction that takes its turn that its time be later than the times stored as
SUCCESS; then these are strictly increasing, and the seconds are those that have
passed (`consensusTime_grows`).

**Which calls.**  `deflationCalls` lists the calls of `calc_deflation` one call of
`calc_fields_and_update_indexes_for` makes.  `calc_congr` says that there are no
others: the outcome depends on `calculateDecay` at these calls only.

**Restarts.**  A run may restart the chain, which rebuilds the indexes from the stored
rows.  The rebuild gives the entry of a user who moved here no time, so that entry
counts from 1970, and a transaction that computes a balance from it is not to be earlier.
-/
import GradidoNode.Ledger.Restart

namespace GradidoNode

open Lib

/-! ## Times -/

namespace HederaTimestamp

variable {t0 t1 : HederaTimestamp}

theorem less_iff : t0.less t1 = true ↔ t0.seconds.toInt < t1.seconds.toInt ∨
    (t0.seconds.toInt = t1.seconds.toInt ∧ t0.nanos.toInt < t1.nanos.toInt) := by
  rw [less, Bool.or_eq_true, Bool.and_eq_true, decide_eq_true_iff, decide_eq_true_iff, beq_iff_eq,
    gt_iff_lt, gt_iff_lt, Int64.lt_iff_toInt_lt, Int32.lt_iff_toInt_lt, ← Int64.toInt_inj, eq_comm]

/-- The whole seconds from one time to another. -/
def elapsed (t0 t1 : HederaTimestamp) : Int :=
  t1.seconds.toInt - t0.seconds.toInt - if t1.nanos.toInt < t0.nanos.toInt then 1 else 0

/-- The difference of the seconds is an `int64_t`. -/
def Fits (t0 t1 : HederaTimestamp) : Prop :=
  t1.seconds.toInt - t0.seconds.toInt < 9223372036854775808

instance : Decidable (Fits t0 t1) := Int.decLt _ _

theorem less_asymm (h : t0.less t1 = true) : t1.less t0 = false := by
  rw [less_iff] at h
  rw [Bool.eq_false_iff, ne_eq, less_iff]
  omega

theorem elapsed_nonneg (h : t1.less t0 = false) : 0 ≤ elapsed t0 t1 := by
  rw [Bool.eq_false_iff, ne_eq, less_iff] at h
  unfold elapsed
  split <;> omega

/-- A difference that is an `int64_t`. -/
theorem toInt_sub_of_fits {a b : Int64} (hle : -9223372036854775808 ≤ a.toInt - b.toInt)
    (hlt : a.toInt - b.toInt < 9223372036854775808) : (a - b).toInt = a.toInt - b.toInt := by
  rw [Int64.toInt_sub]
  exact Int.bmod_eq_of_le (by omega) (by omega)

/-- The difference of two times has the seconds that have passed. -/
theorem sub_seconds (h : t1.less t0 = false) (hfits : Fits t0 t1) :
    (t1.sub t0).seconds.toInt = elapsed t0 t1 := by
  have hno := elapsed_nonneg h
  unfold Fits at hfits
  unfold elapsed at hno ⊢
  unfold sub
  have hone : (1 : Int64).toInt = 1 := rfl
  split
  · next hle =>
    rw [Int32.le_iff_toInt_le] at hle
    rw [if_neg (by omega)] at hno ⊢
    rw [toInt_sub_of_fits (by omega) (by omega), Int.sub_zero]
  · next hle =>
    rw [Int32.le_iff_toInt_le] at hle
    rw [if_pos (by omega)] at hno ⊢
    have hdi := toInt_sub_of_fits (a := t1.seconds) (b := t0.seconds) (by omega) (by omega)
    rw [toInt_sub_of_fits (by omega) (by omega), hdi, hone]

end HederaTimestamp

/-! ## The calls of `calc_deflation` -/

namespace Ledger

/-- The times a call for an entry is given. -/
def span (tr : Transaction) (info : UserInfo) : HederaTimestamp × HederaTimestamp :=
  (info.timestampOfLastBalance, tr.consensusTimestamp)

/-- The times `calc_deflation` is called with, call by call. -/
def deflationCalls (calculateDecay : DecayFunction) (env : Env) (l : Ledger) (tr : Transaction) :
    List (HederaTimestamp × HederaTimestamp) :=
  if l.waitingForPaired then []
  else
    match tr.body with
    | .gradidoCreation c => (l.userIndex c.user).toList.map (span tr)
    | .localTransfer lt =>
      match l.userIndex lt.sender.user with
      | none => []
      | some sender =>
        match l.userIndex lt.receiver.user with
        | none => [span tr sender]
        | some receiver =>
          if (calcDeflation calculateDecay sender.timestampOfLastBalance
              tr.consensusTimestamp sender.currentBalance).less lt.amount
          then [span tr sender]
          else [span tr sender, span tr receiver]
    | .inboundTransfer lt =>
      match l.userIndex lt.receiver.user with
      | none => []
      | some receiver =>
        match inboundPaired env l lt with
        | none => []
        | some tt => if tt.result ≠ .success then [] else [span tr receiver]
    | .outboundTransfer lt => (l.userIndex lt.sender.user).toList.map (span tr)
    | _ => []

variable {d d' : DecayFunction} {env : Env} {n : Nat} {l l' : Ledger} {tr tr' : Transaction}

/-- The users whose balance a transaction computes. -/
def balanceUsers : TransactionBody → List PubKey
  | .gradidoCreation c => [c.user]
  | .localTransfer lt => [lt.sender.user, lt.receiver.user]
  | .inboundTransfer lt => [lt.receiver.user]
  | .outboundTransfer lt => [lt.sender.user]
  | _ => []

/-- A call is for the entry of such a user, and made by a chain that does not wait. -/
theorem deflationCalls_entry {c : HederaTimestamp × HederaTimestamp}
    (hc : c ∈ deflationCalls d env l tr) :
    l.waitingForPaired = false ∧
      ∃ u ∈ balanceUsers tr.body, ∃ info, l.userIndex u = some info ∧ c = span tr info := by
  unfold deflationCalls at hc
  split at hc
  · cases hc
  next hfr =>
  refine ⟨Bool.eq_false_iff.mpr hfr, ?_⟩
  cases hbo : tr.body <;> grind [balanceUsers]

/-- Nothing but these calls matters of `calculateDecay`. -/
theorem calc_congr (h : ∀ c ∈ deflationCalls d env l tr, ∀ v,
      calcDeflation d' c.1 c.2 v = calcDeflation d c.1 c.2 v) :
    calcFieldsAndUpdateIndexesFor d' env n l tr = calcFieldsAndUpdateIndexesFor d env n l tr := by
  unfold deflationCalls at h
  unfold calcFieldsAndUpdateIndexesFor
  split
  · rfl
  next hfr =>
  rw [if_neg hfr] at h
  have hsp : ∀ info, span tr info ∈ _ → ∀ v,
      calcDeflation d' info.timestampOfLastBalance tr.consensusTimestamp v
        = calcDeflation d info.timestampOfLastBalance tr.consensusTimestamp v :=
    fun info hin => h (span tr info) hin
  clear h
  cases hbo : tr.body with
  | gradidoCreation c =>
    rw [hbo] at hsp
    unfold calcGradidoCreation
    grind
  | localTransfer lt =>
    rw [hbo] at hsp
    unfold calcLocalTransfer
    cases hse : l.userIndex lt.sender.user with
    | none => simp [hse]
    | some sender =>
      cases hre : l.userIndex lt.receiver.user with
      | none => simp [hse, hre]
      | some receiver =>
        simp only [hse, hre] at hsp ⊢
        grind
  | inboundTransfer lt =>
    rw [hbo] at hsp
    unfold calcInboundTransfer
    cases hre : l.userIndex lt.receiver.user with
    | none => simp [hre]
    | some receiver =>
      cases hpa : inboundPaired env l lt with
      | none => simp [hre, hpa]
      | some tt =>
        simp only [hre, hpa] at hsp ⊢
        grind
  | outboundTransfer lt =>
    rw [hbo] at hsp
    unfold calcOutboundTransfer
    grind [withOutbound]
  | _ => rfl

/-- A transaction that became ready keeps its time. -/
theorem Applied.time_eq (h : Applied d env n l tr l' tr') :
    tr'.consensusTimestamp = tr.consensusTimestamp := by
  cases h <;> rfl

/-- An entry is as it was, or has the time of the transaction, which was a success. -/
theorem Applied.entries {P : UserInfo → Prop} (h : Applied d env n l tr l' tr')
    (hall : l.userIndex.All P) (hnew : tr'.result = .success →
      ∀ info, info.timestampOfLastBalance = tr.consensusTimestamp → P info) :
    l'.userIndex.All P := by
  cases h with
  | refused hrs hl =>
    rcases hl with rfl | ⟨id, recNum, rfl⟩
    · exact hall
    · exact hall
  | other hbo => exact hall
  | addGroupFriend hbo hno => exact hall
  | removeGroupFriend hbo => exact hall
  | gradidoCreation hbo hin hba => exact hall.put (hnew rfl _ rfl)
  | addUser hbo hno => exact hall.put (hnew rfl _ rfl)
  | moveUserInbound hbo hno hpa hsu => exact hall.put (hnew rfl _ rfl)
  | moveUserOutbound hbo => exact hall.erase
  | localTransfer hbo hse hre ham hch hsub hra =>
    exact (hall.put (hnew rfl _ rfl)).put (hnew rfl _ rfl)
  | inboundTransfer hbo hre hpa hsu hra => exact hall.put (hnew rfl _ rfl)
  | outboundTransfer hbo hse ham hch hsub => exact hall.put (hnew rfl _ rfl)

end Ledger

namespace Chain

/-! ## The times of the rows -/

/-- The time of a SUCCESS transaction. -/
def successTime : GradidoRecord → Option HederaTimestamp
  | .gradidoTransaction tr => if tr.result = .success then some tr.consensusTimestamp else none
  | _ => none

def successTimes (rows : List GradidoRecord) : List HederaTimestamp := rows.filterMap successTime

/-- A time an entry made by the row may have, live or rebuilt. -/
def RowRecords (r : GradidoRecord) (t : HederaTimestamp) : Prop :=
  successTime r = some t ∨ t = HederaTimestamp.zero

def Recorded (rows : List GradidoRecord) (t : HederaTimestamp) : Prop := ∃ r ∈ rows, RowRecords r t

theorem Recorded.append {rows : List GradidoRecord} {t : HederaTimestamp} (h : Recorded rows t)
    (rows' : List GradidoRecord) : Recorded (rows ++ rows') t := by
  obtain ⟨r, hr, ht⟩ := h
  exact ⟨r, List.mem_append_left _ hr, ht⟩

theorem successTimes_batch (rows : List GradidoRecord) (tr : Transaction) (parts : List Part) :
    successTimes (rows ++ batch tr parts) =
      successTimes rows ++ (successTime (.gradidoTransaction tr)).toList := by
  have hpa : (parts.map Part.record).filterMap successTime = [] := by
    rw [List.filterMap_map]
    refine List.filterMap_eq_nil_iff.mpr fun p _ => ?_
    cases p <;> rfl
  rw [successTimes, batch, List.filterMap_append, List.filterMap_cons, hpa]
  cases successTime (.gradidoTransaction tr) <;> rfl

section Rebuild

variable {idx idx' : Indexes} {P : UserInfo → Prop}

theorem setBalance_entries {k : Nat} {t : HederaTimestamp} {u : UserTransfer}
    (h : Ledger.setBalance idx k t u = some idx') (hall : idx.userIndex.All P)
    (hnew : ∀ info, info.timestampOfLastBalance = t → P info) : idx'.userIndex.All P := by
  unfold Ledger.setBalance at h
  split at h
  · cases h
  · cases h
    exact hall.put (hnew _ rfl)

theorem addIndexRow_entries {k : Nat} {r : GradidoRecord}
    (h : Ledger.addIndexRow idx k r = some idx') (hall : idx.userIndex.All P)
    (hnew : ∀ info, RowRecords r info.timestampOfLastBalance → P info) :
    idx'.userIndex.All P := by
  cases r with
  | gradidoTransaction tr =>
    rw [Ledger.addIndexRow] at h
    split at h
    · next hsu =>
      have htm : ∀ info, info.timestampOfLastBalance = tr.consensusTimestamp → P info := by
        intro info hin
        refine hnew info (.inl ?_)
        rw [successTime, if_pos hsu, hin]
      obtain ⟨number, time, body, result⟩ := tr
      cases body with
      | gradidoCreation c | inboundTransfer lt => exact setBalance_entries h hall htm
      | addGroupFriend g | removeGroupFriend g | other ty =>
        cases h
        exact hall
      | addUser u =>
        cases h
        exact hall.insertNew (htm _ rfl)
      | moveUserInbound m =>
        cases h
        exact hall.insertNew (hnew _ (.inr rfl))
      | moveUserOutbound m =>
        cases h
        exact hall.erase
      | localTransfer lt =>
        unfold Ledger.addIndexTransaction at h
        dsimp only at h
        split at h
        · cases h
        · next idx₁ hse =>
          exact setBalance_entries h (setBalance_entries hse hall htm) htm
      | outboundTransfer lt =>
        unfold Ledger.addIndexTransaction at h
        dsimp only at h
        split at h
        · cases h
        · next idx₁ hse =>
          have hall' := setBalance_entries hse hall htm
          cases h
          exact hall'
    · cases h
      exact hall
  | _ =>
    cases h
    exact hall

/-- The rebuilt entries have times of the rows. -/
theorem addIndexRows_entries {rows : List GradidoRecord} :
    ∀ {n : Nat} {idx : Indexes}, Ledger.addIndexRows n rows idx = some idx' → idx.userIndex.All P →
      (∀ info, Recorded rows info.timestampOfLastBalance → P info) → idx'.userIndex.All P := by
  induction rows with
  | nil =>
    intro n idx h hall hnew
    cases h
    exact hall
  | cons r rows ih =>
    intro n idx h hall hnew
    rw [Ledger.addIndexRows] at h
    split at h
    · cases h
    · next idx₁ hrow =>
      refine ih h (addIndexRow_entries hrow hall fun info hin => ?_) fun info hin => ?_
      · exact hnew info ⟨r, List.mem_cons_self, hin⟩
      · obtain ⟨r', hr', ht⟩ := hin
        exact hnew info ⟨r', List.mem_cons_of_mem _ hr', ht⟩

end Rebuild

/-! ## Runs -/

/-- What happens to a chain, restarts included. -/
inductive TimedEvent where
  | event (e : Event)
  /-- a new object over the stored rows -/
  | restart

def timedStep (d : DecayFunction) (s : Chain) : TimedEvent → Option Chain
  | .event e => step d s e
  | .restart => (Ledger.rebuild s.rows).map fun idx =>
    { s with ledger := Ledger.initial.restarted idx }

/-- The calls of `calc_deflation` an event makes. -/
def callsOf (d : DecayFunction) (s : Chain) : TimedEvent → List (HederaTimestamp × HederaTimestamp)
  | .event (.process env tr _) => s.ledger.deflationCalls d env tr
  | _ => []

/-- The time is later than the times of the SUCCESS rows. -/
def LaterThan (rows : List GradidoRecord) (t : HederaTimestamp) : Prop :=
  ∀ r ∈ rows, ∀ t0 ∈ successTime r, t0.less t = true ∧ t0.Fits t

/-- Where the entry of a user whose balance the transaction computes has no time, that of the
transaction is not before 1970. -/
def NotBefore1970 (l : Ledger) (tr : Transaction) : Prop :=
  ∀ u ∈ Ledger.balanceUsers tr.body, ∀ info ∈ l.userIndex u,
    info.timestampOfLastBalance = HederaTimestamp.zero →
      tr.consensusTimestamp.less HederaTimestamp.zero = false

/-- The transaction whose turn it is is put off, or has a later time. -/
def Follows (s : Chain) : TimedEvent → Prop
  | .event (.process _ tr _) => s.ledger.waitingForPaired = false →
      LaterThan s.rows tr.consensusTimestamp ∧ NotBefore1970 s.ledger tr
  | _ => True

/-- The second time is not before the first, the difference has the seconds between them, and
they are what `calculateDecay` is called with. -/
structure Elapses (c : HederaTimestamp × HederaTimestamp) : Prop where
  not_less : c.2.less c.1 = false
  seconds : (c.2.sub c.1).seconds.toInt = HederaTimestamp.elapsed c.1 c.2
  unsigned : ((c.2.sub c.1).seconds.toUInt64.toNat : Int) = HederaTimestamp.elapsed c.1 c.2

theorem elapses_of_fits {c : HederaTimestamp × HederaTimestamp} (h : c.2.less c.1 = false)
    (hfits : c.1.Fits c.2) : Elapses c := by
  have hse := HederaTimestamp.sub_seconds h hfits
  have hno := HederaTimestamp.elapsed_nonneg h
  rw [← hse] at hno
  exact ⟨h, hse, (toNat_toUInt64 hno).trans hse⟩

/-- Seconds that have not wrapped are those of an `int64_t`. -/
theorem Elapses.unsigned_lt {c : HederaTimestamp × HederaTimestamp} (h : Elapses c) :
    (c.2.sub c.1).seconds.toUInt64.toNat < 9223372036854775808 := by
  have hlt := (c.2.sub c.1).seconds.toInt_lt
  have heq := h.unsigned.trans h.seconds.symm
  omega

/-- What holds of a chain whose transactions have followed each other in time. -/
structure Timed (s : Chain) : Prop where
  growing : (successTimes s.rows).Pairwise fun t0 t1 => t0.less t1 = true
  entries : s.ledger.userIndex.All fun info => Recorded s.rows info.timestampOfLastBalance

theorem timed_initial : Timed initial := ⟨.nil, PMap.All.empty⟩

theorem LaterThan.recorded {rows : List GradidoRecord} {t t0 : HederaTimestamp}
    (h : LaterThan rows t) (ht0 : Recorded rows t0)
    (hze : t0 = HederaTimestamp.zero → t.less HederaTimestamp.zero = false) :
    t.less t0 = false ∧ t0.Fits t := by
  obtain ⟨r, hr, ht | rfl⟩ := ht0
  · obtain ⟨hls, hfits⟩ := h r hr t0 ht
    exact ⟨HederaTimestamp.less_asymm hls, hfits⟩
  · refine ⟨hze rfl, ?_⟩
    have hlt := t.seconds.toInt_lt
    have hse : HederaTimestamp.zero.seconds.toInt = 0 := rfl
    unfold HederaTimestamp.Fits
    omega

variable {d : DecayFunction} {s s' : Chain} {e : TimedEvent}

theorem Timed.elapses (h : Timed s) (hfo : Follows s e) : ∀ c ∈ callsOf d s e, Elapses c := by
  intro c hc
  unfold callsOf at hc
  split at hc
  · next env tr parts =>
    obtain ⟨hfr, u, hu, info, hin, rfl⟩ := Ledger.deflationCalls_entry hc
    obtain ⟨hla, hze⟩ := hfo hfr
    obtain ⟨hls, hfits⟩ := hla.recorded (h.entries u info hin) (hze u hu info hin)
    exact elapses_of_fits hls hfits
  · cases hc

theorem Timed.applied (h : Timed s) {env : Env} {n : Nat} {tr tr' : Transaction} {parts : List Part}
    (hla : LaterThan s.rows tr.consensusTimestamp)
    (hap : Ledger.Applied d env n s.ledger tr s'.ledger tr')
    (hro : s'.rows = s.rows ++ batch tr' parts) : Timed s' := by
  have htm := hap.time_eq
  refine ⟨?_, ?_⟩
  · rw [hro, successTimes_batch, List.pairwise_append]
    refine ⟨h.growing, ?_, fun t0 ht0 t1 ht1 => ?_⟩
    · cases successTime (.gradidoTransaction tr') with
      | none => exact .nil
      | some t => exact List.pairwise_singleton _ _
    · obtain ⟨r, hr, hrt⟩ := List.mem_filterMap.mp ht0
      have ht1' : t1 = tr.consensusTimestamp := by
        rw [Option.mem_toList, successTime] at ht1
        split at ht1
        · cases ht1
          exact htm
        · cases ht1
      rw [ht1']
      exact (hla r hr t0 hrt).1
  · rw [hro]
    refine hap.entries (h.entries.mono fun info hin => hin.append _) ?_
    intro hsu info hin
    refine ⟨.gradidoTransaction tr', List.mem_append_right _ List.mem_cons_self, .inl ?_⟩
    rw [successTime, if_pos hsu, hin, htm]

theorem Timed.step (h : Timed s) (hfo : Follows s e) (hs : timedStep d s e = some s') :
    Timed s' := by
  cases e with
  | event e =>
    rcases step_cases hs with ⟨hld, hro⟩ | ⟨env, tr, parts, tr', rfl, hap, hro⟩
    · refine ⟨by rw [hro]; exact h.growing, ?_⟩
      rw [show s'.ledger.userIndex = s.ledger.userIndex from congrArg _ hld, hro]
      exact h.entries
    · cases hwa : s.ledger.waitingForPaired with
      | true =>
        rw [step_waiting hwa hs]
        exact h
      | false => exact h.applied (hfo hwa).1 hap hro
  | restart =>
    obtain ⟨idx, hidx, rfl⟩ := Option.map_eq_some_iff.mp hs
    exact ⟨h.growing, addIndexRows_entries hidx PMap.All.empty fun info hin => hin⟩

/-- A `calculateDecay` that differs only at seconds that have wrapped makes no difference. -/
theorem timedStep_congr {d' : DecayFunction}
    (hd : ∀ g n, n.toNat < 9223372036854775808 → d' g n = d g n)
    (hca : ∀ c ∈ callsOf d s e, Elapses c) : timedStep d' s e = timedStep d s e := by
  cases e with
  | restart => rfl
  | event e =>
    cases e with
    | pairedTransactionDone t => rfl
    | process env tr parts =>
      have hcl : s.ledger.calcFieldsAndUpdateIndexesFor d' env (recCount s.rows) tr
          = s.ledger.calcFieldsAndUpdateIndexesFor d env (recCount s.rows) tr := by
        refine Ledger.calc_congr fun c hc v => ?_
        unfold calcDeflation
        rw [hd _ _ (hca c hc).unsigned_lt]
      show step d' s (.process env tr parts) = step d s (.process env tr parts)
      rw [step, step, hcl]

/-- **Consensus time only grows**, if each transaction that takes its turn has a later time than
those stored as SUCCESS: the times of the SUCCESS rows are strictly increasing, and
`calc_deflation` is never called with a second time before the first, so the seconds
never wrap, and what `calculateDecay` makes of seconds that have wrapped makes no
difference to the run. -/
theorem consensusTime_grows (d : DecayFunction) (es : List TimedEvent) (s : Chain)
    (hrun : run (timedStep d) initial es = some s)
    (hfollows : Along (timedStep d) Follows initial es) :
    (successTimes s.rows).Pairwise (fun t0 t1 => t0.less t1 = true) ∧
    Along (timedStep d) (fun s e => ∀ c ∈ callsOf d s e, Elapses c) initial es ∧
    ∀ d' : DecayFunction, (∀ g n, n.toNat < 9223372036854775808 → d' g n = d g n) →
      run (timedStep d') initial es = some s := by
  have hca : Along (timedStep d) (fun s e => ∀ c ∈ callsOf d s e, Elapses c) initial es :=
    along_of_inv Timed (fun s e h hf => ⟨h.elapses hf, fun s' hs' => h.step hf hs'⟩)
      timed_initial hfollows
  have htm : Timed s :=
    run_inv Timed (fun s e s' h hf hs => h.step hf hs) timed_initial hfollows hrun
  refine ⟨htm.growing, hca, fun d' hd => ?_⟩
  rw [run_congr (fun s e hc => timedStep_congr hd hc) hca]
  exact hrun

/-! ## Two runs -/

instance (rows : List GradidoRecord) (t : HederaTimestamp) : Decidable (LaterThan rows t) :=
  inferInstanceAs (Decidable (∀ r ∈ rows, _))

instance (l : Ledger) (tr : Transaction) : Decidable (NotBefore1970 l tr) :=
  inferInstanceAs (Decidable (∀ u ∈ Ledger.balanceUsers tr.body, ∀ info ∈ l.userIndex u, _))

instance (s : Chain) : ∀ e, Decidable (Follows s e)
  | .event (.process _ tr _) => inferInstanceAs (Decidable (_ = _ →
      LaterThan s.rows tr.consensusTimestamp ∧ NotBefore1970 s.ledger tr))
  | .event (.pairedTransactionDone _) | .restart => isTrue trivial

/-- A batch of one record at a time in seconds. -/
def plainAt (seconds : Int64) (body : TransactionBody) : TimedEvent :=
  .event (.process noChains ⟨0, ⟨seconds, 0⟩, body, .unknown⟩ [])

/-- Five gradidos for user 1. -/
def createFive (seconds : Int64) : TimedEvent :=
  plainAt seconds (.gradidoCreation ⟨userTransfer 1, ⟨5, 0⟩⟩)

/-- User 1 is added and given five gradidos. -/
def addAndCreate : List TimedEvent := [plainAt 98 (.addUser (key 1)), createFive 100]

/-- A second creation comes after a restart, and later. -/
theorem consensusTime_grows_restarted : ∃ s, run (timedStep keepNormalised) initial
        (addAndCreate ++ [.restart, createFive 101]) = some s ∧
      successTimes s.rows = [⟨98, 0⟩, ⟨100, 0⟩, ⟨101, 0⟩] ∧
      (successTimes s.rows).Pairwise (fun t0 t1 => t0.less t1 = true) := by
  obtain ⟨s, hs, htm⟩ : ∃ s, run (timedStep keepNormalised) initial
      (addAndCreate ++ [.restart, createFive 101]) = some s ∧
      successTimes s.rows = [⟨98, 0⟩, ⟨100, 0⟩, ⟨101, 0⟩] := by decide +kernel
  exact ⟨s, hs, htm, (consensusTime_grows keepNormalised _ s hs (by decide +kernel)).1⟩

/-- A second creation that is a second earlier is stored behind the first, and the seconds
`calculateDecay` is called with are the largest there are. -/
theorem earlier_transaction_stored :
    ∃ s s', run (timedStep keepNormalised) initial addAndCreate = some s ∧
      timedStep keepNormalised s (createFive 99) = some s' ∧
      successTimes s'.rows = [⟨98, 0⟩, ⟨100, 0⟩, ⟨99, 0⟩] ∧
      ¬ (successTimes s'.rows).Pairwise (fun t0 t1 => t0.less t1 = true) ∧
      callsOf keepNormalised s (createFive 99) = [(⟨100, 0⟩, ⟨99, 0⟩)] ∧
      (HederaTimestamp.mk 99 0).less ⟨100, 0⟩ = true ∧
      ((HederaTimestamp.mk 99 0).sub ⟨100, 0⟩).seconds.toUInt64 = 18446744073709551615 := by
  simp only [exists_and_left]
  decide +kernel

end Chain

end GradidoNode
