/-
# `GradidoNode.Ledger.Clocks` — the time from which a balance decays

`timestamp_of_last_balance` is the time from which the next transaction decays a balance.
It should be that of the last row which made the entry or set the balance, on the live
object as after a restart.

    live        always the time of that row                        (`Noted`)
    rebuilt     the same; zero, if the row is a MOVE_USER_INBOUND  (`rebuiltTime`)

So a user that was moved in, and has not transferred or been credited since, decays from
the beginning of time once the node restarts.  `clocks_iff` says that nothing else is wrong.
-/
import GradidoNode.Ledger.History
import GradidoNode.Ledger.Supply
import GradidoNode.Storage.Keeps

namespace GradidoNode

open Lib Blockchain

namespace Chain

open Ledger

variable {d : DecayFunction} {env : Env} {n k : Nat} {s s' : Chain} {e : Event}
  {idx idx' : Indexes} {l l' : Ledger} {tr tr' : Transaction} {rows : List GradidoRecord}
  {u : PubKey}

/-- The time `add_index_data` records for the users of a row. -/
def rebuiltTime (tr : Transaction) : HederaTimestamp :=
  match tr.body with
  | .moveUserInbound _ => HederaTimestamp.zero
  | _ => tr.consensusTimestamp

theorem rebuiltTime_eq_iff (tr : Transaction) : rebuiltTime tr = tr.consensusTimestamp ↔
      ∀ m, tr.body = .moveUserInbound m → tr.consensusTimestamp = HederaTimestamp.zero := by
  obtain ⟨seq, t, body, result⟩ := tr
  cases body with
  | moveUserInbound m => exact ⟨fun h _ _ => h.symm, fun h => (h m rfl).symm⟩
  | _ =>
    refine ⟨fun _ _ hm => ?_, fun _ => rfl⟩
    cases hm

/-! ## One row -/

/-- A row that opens an account is stored where there was none. -/
theorem enters_unknown (h : Applied d env n l tr l' tr')
    (hen : entersIn u (.gradidoTransaction tr') = true) : l.userIndex u = none := by
  obtain ⟨seq, t, body, result⟩ := tr
  cases h with
  | refused hre =>
    obtain ⟨tr, hr, hsu, -⟩ := setsBalance_cases (setsBalance_of_entersIn hen)
    cases hr
    exact absurd hsu hre
  | addUser hbo hno | moveUserInbound hbo hno =>
    cases hbo
    obtain rfl := beq_iff_eq.mp hen
    exact hno
  | _ hbo =>
    cases hbo
    cases hen

/-- Reading a row writes the entries of its users. -/
theorem addIndexRow_wrote (h : addIndexRow idx k (.gradidoTransaction tr) = some idx')
    (hop : ∀ u, entersIn u (.gradidoTransaction tr) = true → idx.userIndex u = none) :
    PMap.Wrote (rowUsers (.gradidoTransaction tr))
      (fun info => info.timestampOfLastBalance = rebuiltTime tr)
      idx.userIndex idx'.userIndex := by
  obtain ⟨seq, t, body, result⟩ := tr
  by_cases hre : result = .success
  · subst hre
    cases body with
    | gradidoCreation c | inboundTransfer lt =>
      rw [setBalance_users h]
      exact PMap.Wrote.refl.put rfl
    | addGroupFriend g | removeGroupFriend g | other ty =>
      cases h
      exact .refl
    | addUser v =>
      cases h
      rw [PMap.insertNew_of_none (hop v (beq_self_eq_true v))]
      exact PMap.Wrote.refl.put rfl
    | moveUserInbound m =>
      cases h
      rw [PMap.insertNew_of_none (hop m.user (beq_self_eq_true m.user))]
      exact PMap.Wrote.refl.put rfl
    | moveUserOutbound m =>
      cases h
      exact PMap.Wrote.refl.erase
    | localTransfer lt =>
      rw [addIndexRow_localTransfer h]
      have hse : PMap.Wrote [lt.sender.user] (fun info => info.timestampOfLastBalance = t)
          idx.userIndex
          (idx.userIndex.put lt.sender.user ⟨lt.sender.newBalance, .ofNat k, t⟩) :=
        PMap.Wrote.refl.put rfl
      exact hse.put rfl
    | outboundTransfer lt =>
      rw [addIndexRow_outboundTransfer h]
      exact PMap.Wrote.refl.put rfl
  · have hrow : addIndexRow idx k (.gradidoTransaction ⟨seq, t, body, result⟩) = some idx :=
      if_neg hre
    cases hrow.symm.trans h
    rw [rowUsers_of_ne hre]
    exact .refl

/-! ## A run -/

/-- What the rebuild makes of the rows of a run: the users of the live index, each with the
time `rebuiltTime` of the last row that set the balance. -/
structure Rebuilt (s : Chain) (idx : Indexes) : Prop where
  rebuilt : rebuild s.rows = some idx
  members : Agree (fun _ _ => True) idx s.ledger.toIndexes
  times : Traced (fun _ tr info => info.timestampOfLastBalance = rebuiltTime tr)
    idx.userIndex s.rows

theorem rebuilt_initial : Rebuilt initial clearIndexes where
  rebuilt := rfl
  members := ⟨PMap.Related.empty, rfl⟩
  times := by
    intro u info h
    cases h

theorem Rebuilt.step (h : Rebuilt s idx) (hs : step d s e = some s') : ∃ idx', Rebuilt s' idx' := by
  rcases step_cases hs with ⟨hin, hro⟩ | ⟨env, tr, parts, tr', rfl, happ, hro⟩
  · refine ⟨idx, ?_, ?_, ?_⟩
    · rw [hro]
      exact h.rebuilt
    · rw [hin]
      exact h.members
    · rw [hro]
      exact h.times
  · obtain ⟨idx', hidx', hme⟩ := rebuilt_applied h.members happ
      (.inr fun _ _ => trivial) (fun _ _ => trivial) fun _ _ _ => trivial
    refine ⟨idx', ?_, hme, ?_⟩
    · rw [hro, rebuild_batch h.rebuilt]
      exact hidx'
    · rw [hro]
      refine h.times.batch parts (addIndexRow_wrote hidx' fun u hen => ?_)
      exact h.members.users.none_left (enters_unknown happ hen)

theorem rebuilt_run {es : List Event} (hrun : run (step d) initial es = some s) :
    ∃ idx, Rebuilt s idx :=
  run_keeps (fun s => ∃ idx, Rebuilt s idx) (fun _ _ _ ⟨_, hinv⟩ hs => hinv.step hs)
    ⟨_, rebuilt_initial⟩ hrun

/-! ## The clocks -/

/-- There is one result of `add_index_data`: some object stores the rows. -/
theorem indexData_unique (h : IndexData rows idx) (h' : IndexData rows idx') : idx = idx' := by
  obtain ⟨st, hst⟩ := exists_keeps (digestFormat GradidoRecord) groupParams rows
  obtain ⟨cs, hcs⟩ := hst.holds
  obtain ⟨st₁, h₁⟩ := h _ groupParams st cs 0 rfl hcs
  obtain ⟨st₂, h₂⟩ := h' _ groupParams st cs 0 rfl hcs
  rw [h₁] at h₂
  exact (EStateM.Result.ok.inj h₂).1

/-- The balance of `u` decays from the time of the last row that made the entry or set the
balance. -/
def ClockRight (rows : List GradidoRecord) (users : PMap PubKey UserInfo) (u : PubKey) : Prop :=
  ∃ m tr info, LastBefore (setsBalance u) rows rows.length m ∧
    rows[m]? = some (.gradidoTransaction tr) ∧ users u = some info ∧
    info.timestampOfLastBalance = tr.consensusTimestamp

/-- **The decay clocks.**  After any run `add_index_data` returns, and every user's clock is
right on the live object and on the restarted one just if no last row of a user is a
MOVE_USER_INBOUND (with a time that is not zero). -/
theorem clocks_iff (d : DecayFunction) (es : List Event) (s : Chain)
    (hrun : run (step d) initial es = some s) :
    (∃ idx, IndexData s.rows idx ∧ ∀ u, (s.ledger.userIndex u).isSome →
      ClockRight s.rows s.ledger.userIndex u ∧ ClockRight s.rows idx.userIndex u) ↔
      ∀ u m tr mv, (s.ledger.userIndex u).isSome →
        LastBefore (setsBalance u) s.rows s.rows.length m →
        s.rows[m]? = some (.gradidoTransaction tr) → tr.body = .moveUserInbound mv →
        tr.consensusTimestamp = HederaTimestamp.zero := by
  obtain ⟨idx, hidx⟩ := rebuilt_run hrun
  constructor
  · rintro ⟨idx', hidx', hcl⟩ u m tr mv hu hm hrow hbo
    obtain rfl := indexData_unique hidx' (indexData_of_rebuild hidx.rebuilt)
    obtain ⟨-, m₁, tr₁, info, hm₁, hrow₁, hin, htm⟩ := hcl u hu
    obtain ⟨m₂, tr₂, hm₂, hrow₂, hti'⟩ := hidx.times u info hin
    obtain rfl := hm.unique hm₁
    obtain rfl := hm.unique hm₂
    cases hrow.symm.trans hrow₁
    cases hrow.symm.trans hrow₂
    exact (rebuiltTime_eq_iff tr).mp (hti'.symm.trans htm) mv hbo
  · intro hri
    refine ⟨idx, indexData_of_rebuild hidx.rebuilt, fun u hu => ?_⟩
    obtain ⟨info, hin⟩ := Option.isSome_iff_exists.mp hu
    obtain ⟨m, tr, hm, hrow, -, htm⟩ := (noted_run hrun).entries u info hin
    obtain ⟨info', hin', -⟩ := hidx.members.users.some_left hin
    obtain ⟨m', tr', hm', hrow', hti'⟩ := hidx.times u info' hin'
    obtain rfl := hm.unique hm'
    cases hrow.symm.trans hrow'
    have hsa := (rebuiltTime_eq_iff tr).mpr fun mv => hri u m tr mv hu hm hrow
    exact ⟨⟨m, tr, info, hm, hrow, hin, htm⟩, m, tr, info', hm, hrow, hin', hti'.trans hsa⟩

/-- The clock of a user for whom a gradido was created. -/
theorem clocks_addThenCreate :
    ∃ s idx, run (step keepNormalised) initial addThenCreate = some s ∧ IndexData s.rows idx ∧
      (s.ledger.userIndex (key 1)).isSome ∧ ∀ u, (s.ledger.userIndex u).isSome →
        ClockRight s.rows s.ledger.userIndex u ∧ ClockRight s.rows idx.userIndex u := by
  obtain ⟨s, hs, hro, hu⟩ : ∃ s, run (step keepNormalised) initial addThenCreate = some s ∧
      s.rows = [.gradidoTransaction ⟨0, HederaTimestamp.zero, .addUser (key 1), .success⟩,
        .gradidoTransaction ⟨0, HederaTimestamp.zero,
          .gradidoCreation ⟨⟨key 1, ⟨1, 0⟩, 0⟩, ⟨1, 0⟩⟩, .success⟩] ∧
      (s.ledger.userIndex (key 1)).isSome := ⟨_, rfl, rfl, rfl⟩
  obtain ⟨idx, hidx, hcl⟩ := (clocks_iff keepNormalised addThenCreate s hs).mpr (by
    rw [hro]
    intro u m tr mv _ _ hrow hbo
    rcases List.mem_cons.mp (List.mem_of_getElem? hrow) with heq | hmem
    · cases heq
      cases hbo
    · cases List.mem_singleton.mp hmem
      cases hbo)
  exact ⟨s, idx, hs, hidx, hu, hcl⟩

/-- A chain that user 1 has left. -/
def left : Chain :=
  (run (step keepNormalised) initial
    [plain (.addUser (key 1)), plain (.moveUserOutbound ⟨userTransfer 1, withGroupB⟩)]).getD initial

/-- User 1 comes from there, five seconds after the beginning of time. -/
def comesIn : Event :=
  .process ⟨fun _ => some (view (fun _ => none) left), 0⟩
    ⟨0, ⟨5, 0⟩, .moveUserInbound ⟨userTransfer 1, withGroupB⟩, .unknown⟩ []

/-- The live clock shows the five seconds, and the rebuilt one shows none. -/
theorem clock_lost : ∃ s idx, run (step keepNormalised) initial [comesIn] = some s ∧
      s.rows = [.gradidoTransaction
        ⟨0, ⟨5, 0⟩, .moveUserInbound ⟨userTransfer 1, withGroupB⟩, .success⟩] ∧
      IndexData s.rows idx ∧
      (s.ledger.userIndex (key 1)).map UserInfo.timestampOfLastBalance = some ⟨5, 0⟩ ∧
      (idx.userIndex (key 1)).map UserInfo.timestampOfLastBalance = some HederaTimestamp.zero := by
  obtain ⟨s, hs, hro, hli, idx, hidx, hre⟩ : ∃ s,
      run (step keepNormalised) initial [comesIn] = some s ∧
      s.rows = [.gradidoTransaction
        ⟨0, ⟨5, 0⟩, .moveUserInbound ⟨userTransfer 1, withGroupB⟩, .success⟩] ∧
      (s.ledger.userIndex (key 1)).map UserInfo.timestampOfLastBalance = some ⟨5, 0⟩ ∧
      ∃ idx, rebuild s.rows = some idx ∧ (idx.userIndex (key 1)).map UserInfo.timestampOfLastBalance
          = some HederaTimestamp.zero := by decide +kernel
  exact ⟨s, idx, hs, hro, indexData_of_rebuild hidx, hli, hre⟩

end Chain

end GradidoNode
