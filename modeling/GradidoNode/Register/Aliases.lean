/-
# `GradidoNode.Register.Aliases` — whether aliases are unique

Rule #02002: a group alias is globally unique.  A run of the register is live
transactions (`calc_fields_and_update_indexes_for`, then `append`) and restarts
(`clear_indexes`, then `add_index_data`) in any order.

An alias that is shorter than the field has two keys: live processing looks for the
whole field, NULs included, and the rebuild enters the string before the first NUL.
So after a restart none of the aliases that are registered is found, and each can be
registered once more (`registered_twice`).

* The invariant: every registered alias is in the index under one of its two keys
  (`Registry.covered`).
* A live transaction keeps aliases unique when its alias field is a string filled up
  with NULs and the string is not one of the keys (`Unloaded`).  The keys of live
  processing fill the field, so such a key was made by a restart.
-/
import GradidoNode.Ledger.Chain
import GradidoNode.Register.GroupRegister

namespace GradidoNode.GroupRegister

open Lib Blockchain Base Wire

variable {F : RowFormat GroupRegisterRecord} {cfg : Conf}

/-- A register. -/
abbrev Register (F : RowFormat GroupRegisterRecord) (cfg : Conf) := Base (child F cfg.K)

/-! ## Events -/

inductive Event where
  | transaction (now : Nat) (b : GroupRegisterRecord)
  | restart (now : Nat)

/-- `calc_fields_and_update_indexes_for`, then `append`. -/
def transaction (cfg : Conf) (now : Nat) (b : GroupRegisterRecord) :
    BaseM (child F cfg.K) Unit := do
  let s ← get
  let calculated := calcFieldsAndUpdateIndexesFor s.fields b
  modify fun s => { s with fields := calculated.1 }
  let _ ← onStorage (appendRecords cfg now [calculated.2])

/-- `clear_indexes`, then `add_index_data` from the first block on. -/
def restart (cfg : Conf) (now : Nat) : BaseM (child F cfg.K) Unit := do
  modify fun s => { s with fields := (child F cfg.K).clearIndexes s.fields, indexedBlocks := 0 }
  let _ ← Base.addIndexData now

/-- The calls an event is. -/
def call (cfg : Conf) : Event → BaseM (child F cfg.K) Unit
  | .transaction now b => transaction cfg now b
  | .restart now => restart cfg now

/-- One event.  A call that fails ends the run. -/
def step (cfg : Conf) (s : Register F cfg) (e : Event) : Option (Register F cfg) :=
  match call cfg e s with
  | .ok _ s' => some s'
  | .error _ _ => none

/-- A register over an empty folder. -/
def start (F : RowFormat GroupRegisterRecord) (cfg : Conf) : Register F cfg :=
  Base.create (Blockchain.create cfg.K (fun _ => .missing) 0) PMap.empty

/-! ## Unique aliases -/

/-- A GROUP_RECORD with `success`. -/
def Registered (r : GroupRegisterRecord) : Prop :=
  r.recordType = GROUP_RECORD ∧ r.groupRecord.success ≠ 0

/-- No two registered groups have the same alias. -/
def UniqueAliases (rows : List GroupRegisterRecord) : Prop :=
  rows.Pairwise fun r r' => Registered r → Registered r' →
    r.groupRecord.aliasString ≠ r'.groupRecord.aliasString

/-- A string that ends in the field, with NULs up to the end of it. -/
def Padded (groupAlias : Vector UInt8 GROUP_ALIAS_LENGTH) : Prop :=
  let text := groupAlias.toList.takeWhile (· ≠ 0)
  text.length < GROUP_ALIAS_LENGTH ∧
    groupAlias.toList = text ++ List.replicate (GROUP_ALIAS_LENGTH - text.length) 0

instance (groupAlias : Vector UInt8 GROUP_ALIAS_LENGTH) : Decidable (Padded groupAlias) :=
  inferInstanceAs (Decidable (_ ∧ _))

/-- A new group has a padded alias, and no restart has entered that alias in the index. -/
def Unloaded (s : Register F cfg) : Event → Prop
  | .transaction _ b => b.recordType = GROUP_RECORD →
      Padded b.groupRecord.groupAlias ∧ s.fields b.groupRecord.aliasString = none
  | .restart _ => True

theorem Padded.toList_inj {a b : Vector UInt8 GROUP_ALIAS_LENGTH} (ha : Padded a) (hb : Padded b)
    (h : a.toList.takeWhile (· ≠ 0) = b.toList.takeWhile (· ≠ 0)) : a.toList = b.toList := by
  rw [ha.2, hb.2, h]

/-- The rebuild reads the string in the field when it ends there. -/
theorem cString_body {r : GroupRegisterRecord} (h : Padded r.groupRecord.groupAlias) :
    cString r.body.toList = some r.groupRecord.aliasString := by
  obtain ⟨rest, hbo⟩ := r.body_eq
  have hnul : (0 : UInt8) ∈ r.groupRecord.groupAlias.toList := by
    rw [h.2]
    refine List.mem_append_right _ (List.mem_replicate.mpr ⟨?_, rfl⟩)
    exact Nat.sub_ne_zero_of_lt h.1
  have hen : ¬ (r.groupRecord.groupAlias.toList.takeWhile (· ≠ 0)).length
      = r.groupRecord.groupAlias.toList.length := by
    rw [Vector.length_toList]
    exact Nat.ne_of_lt h.1
  rw [cString, hbo, if_pos (List.mem_append_left _ hnul), List.takeWhile_append, if_neg hen]
  rfl

/-! ## Live processing -/

section Live

variable (aliases : Aliases) (b : GroupRegisterRecord)

/-- The key of live processing. -/
abbrev liveKey (r : GroupRegisterRecord) : List UInt8 := r.groupRecord.groupAlias.toList

theorem success_withSuccess (g : GroupRecord) (succ : Bool) :
    (g.withSuccess succ).success = if succ then 1 else 0 := rfl

theorem decide_liveKey : decide (0 < (liveKey b).length) = true := by
  rw [Vector.length_toList]
  rfl

theorem calc_snd : (calcFieldsAndUpdateIndexesFor aliases b).2
    = b.setGroupRecord (b.groupRecord.withSuccess (aliases (liveKey b)).isNone) := by
  simp only [calcFieldsAndUpdateIndexesFor, decide_liveKey, Bool.true_and]

theorem calc_fst : (calcFieldsAndUpdateIndexesFor aliases b).1 = if (aliases (liveKey b)).isNone
      then aliases.insertNew (liveKey b) (b.groupRecord.withSuccess (aliases (liveKey b)).isNone)
      else aliases := by
  simp only [calcFieldsAndUpdateIndexesFor, decide_liveKey, Bool.true_and]

theorem calc_groupAlias : (calcFieldsAndUpdateIndexesFor aliases b).2.groupRecord.groupAlias
      = b.groupRecord.groupAlias := by
  rw [calc_snd, GroupRegisterRecord.groupRecord_setGroupRecord]
  rfl

theorem calc_aliasString : (calcFieldsAndUpdateIndexesFor aliases b).2.groupRecord.aliasString
      = b.groupRecord.aliasString := by
  rw [GroupRecord.aliasString, GroupRecord.aliasString, calc_groupAlias]

theorem registered_calc : Registered (calcFieldsAndUpdateIndexesFor aliases b).2 ↔
      b.recordType = GROUP_RECORD ∧ aliases (liveKey b) = none := by
  rw [Registered, calc_snd, GroupRegisterRecord.groupRecord_setGroupRecord,
    GroupRegisterRecord.recordType_setGroupRecord, ← Option.isNone_iff_eq_none, success_withSuccess]
  refine and_congr Iff.rfl ?_
  cases (aliases (liveKey b)).isNone <;> decide

theorem calc_liveKey : ((calcFieldsAndUpdateIndexesFor aliases b).1 (liveKey b)).isSome := by
  rw [calc_fst]
  cases hkey : aliases (liveKey b) with
  | none =>
    rw [Option.isNone_none, if_pos rfl, PMap.insertNew_of_none hkey, PMap.put_self]
    rfl
  | some g =>
    rw [Option.isNone_some, if_neg Bool.false_ne_true, hkey]
    rfl

theorem calc_of_ne {k : List UInt8} (hk : k ≠ liveKey b) :
    (calcFieldsAndUpdateIndexesFor aliases b).1 k = aliases k := by
  rw [calc_fst]
  cases hkey : aliases (liveKey b) with
  | none => rw [Option.isNone_none, if_pos rfl, PMap.insertNew_of_none hkey, PMap.put_of_ne hk]
  | some g => rw [Option.isNone_some, if_neg Bool.false_ne_true]

theorem calc_isSome {k : List UInt8} (hk : (aliases k).isSome) :
    ((calcFieldsAndUpdateIndexesFor aliases b).1 k).isSome := by
  by_cases hkey : k = liveKey b
  · rw [hkey]
    exact calc_liveKey aliases b
  · rw [calc_of_ne aliases b hkey]
    exact hk

end Live

/-! ## The rebuild -/

/-- What a pass over rows adds to the index: the strings of the registered groups. -/
structure Loaded (rows : List GroupRegisterRecord) (aliases aliases' : Aliases) : Prop where
  keys : ∀ k, (aliases' k).isSome → (aliases k).isSome ∨
    ∃ r ∈ rows, Registered r ∧ k = r.groupRecord.aliasString
  kept : ∀ k, (aliases k).isSome → (aliases' k).isSome
  entered : ∀ r ∈ rows, Registered r → (aliases' r.groupRecord.aliasString).isSome

theorem Loaded.nil (aliases : Aliases) : Loaded [] aliases aliases where
  keys := fun _ h => .inl h
  kept := fun _ h => h
  entered := fun _ hr => by cases hr

theorem Loaded.cons {r : GroupRegisterRecord} {rows : List GroupRegisterRecord}
    {aliases aliases₁ aliases' : Aliases} (h : Loaded [r] aliases aliases₁)
    (h' : Loaded rows aliases₁ aliases') : Loaded (r :: rows) aliases aliases' where
  keys := by
    intro k hk
    rcases h'.keys k hk with hk₁ | ⟨r', hr', hreg, hkey⟩
    · rcases h.keys k hk₁ with hk₀ | ⟨r', hr', hreg, hkey⟩
      · exact .inl hk₀
      · exact .inr ⟨r', List.mem_cons.mpr (.inl (List.mem_singleton.mp hr')), hreg, hkey⟩
    · exact .inr ⟨r', List.mem_cons_of_mem _ hr', hreg, hkey⟩
  kept := fun k hk => h'.kept k (h.kept k hk)
  entered := by
    intro r' hr' hreg
    rcases List.mem_cons.mp hr' with rfl | hr'
    · exact h'.kept _ (h.entered r' (List.mem_singleton_self _) hreg)
    · exact h'.entered r' hr' hreg

/-- A registered row whose string is not in the index yet is entered, any other row is
passed over. -/
theorem addIndexRow_loaded {aliases : Aliases} {r : GroupRegisterRecord}
    (hpad : Registered r → Padded r.groupRecord.groupAlias)
    (hnew : Registered r → aliases r.groupRecord.aliasString = none) :
    ∃ aliases', addIndexRow aliases r = .ok aliases' ∧ Loaded [r] aliases aliases' ∧
      ∀ k, k ≠ r.groupRecord.aliasString → aliases' k = aliases k := by
  by_cases hreg : Registered r
  · refine ⟨aliases.put r.groupRecord.aliasString r.groupRecord, ?_, ⟨?_, ?_, ?_⟩, ?_⟩
    · rw [addIndexRow, if_pos (show _ ∧ _ from hreg), cString_body (hpad hreg)]
      simp only [hnew hreg]
    · intro k hk
      by_cases hkey : k = r.groupRecord.aliasString
      · exact .inr ⟨r, List.mem_singleton_self _, hreg, hkey⟩
      · rw [PMap.put_of_ne hkey] at hk
        exact .inl hk
    · intro k hk
      rw [PMap.put_apply]
      split
      · rfl
      · exact hk
    · intro r' hr' _
      rw [List.mem_singleton.mp hr', PMap.put_self]
      rfl
    · intro k hk
      exact PMap.put_of_ne hk
  · refine ⟨aliases, if_neg hreg, ⟨fun _ h => .inl h, fun _ h => h, ?_⟩, fun _ _ => rfl⟩
    intro r' hr' hreg'
    rw [List.mem_singleton.mp hr'] at hreg'
    exact absurd hreg' hreg

theorem rebuild_loaded : ∀ {rows : List GroupRegisterRecord} {aliases : Aliases},
    UniqueAliases rows → (∀ r ∈ rows, Registered r → Padded r.groupRecord.groupAlias) →
    (∀ r ∈ rows, Registered r → aliases r.groupRecord.aliasString = none) →
    ∃ aliases', rows.foldlM addIndexRow aliases = .ok aliases' ∧ Loaded rows aliases aliases' := by
  intro rows
  induction rows with
  | nil =>
    intro aliases _ _ _
    exact ⟨aliases, rfl, .nil aliases⟩
  | cons r rows ih =>
    intro aliases hun hpad hnew
    obtain ⟨hr, hro⟩ := List.pairwise_cons.mp hun
    obtain ⟨aliases₁, hrow, hlo, hot⟩ := addIndexRow_loaded
      (hpad r List.mem_cons_self) (hnew r List.mem_cons_self)
    have hnew₁ : ∀ r' ∈ rows, Registered r' → aliases₁ r'.groupRecord.aliasString = none := by
      intro r' hr' hreg'
      by_cases hreg : Registered r
      · rw [hot _ (hr r' hr' hreg hreg').symm]
        exact hnew r' (List.mem_cons_of_mem _ hr') hreg'
      · -- the row has been passed over
        have hsa : addIndexRow aliases r = .ok aliases := if_neg hreg
        cases hrow.symm.trans hsa
        exact hnew r' (List.mem_cons_of_mem _ hr') hreg'
    obtain ⟨aliases', hpa, hlo'⟩ := ih hro
      (fun r' hr' => hpad r' (List.mem_cons_of_mem _ hr')) hnew₁
    refine ⟨aliases', ?_, hlo.cons hlo'⟩
    rw [List.foldlM_cons, hrow]
    exact hpa

/-! ## Runs -/

/-- The invariant of a register that holds `rows`. -/
structure Registry (cfg : Conf) (rows : List GroupRegisterRecord) (s : Register F cfg) : Prop where
  keeps : Keeps cfg.K s.storage rows
  unique : UniqueAliases rows
  padded : ∀ r ∈ rows, Registered r → Padded r.groupRecord.groupAlias
  covered : ∀ r ∈ rows, Registered r →
    (s.fields (liveKey r)).isSome ∨ (s.fields r.groupRecord.aliasString).isSome

variable {rows : List GroupRegisterRecord} {s : Register F cfg}

theorem registry_start (cfg : Conf) : Registry cfg [] (start F cfg) where
  keeps := keeps_create fun _ => .inl rfl
  unique := List.Pairwise.nil
  padded := fun _ hr => by cases hr
  covered := fun _ hr => by cases hr

theorem transaction_keeps (h : Keeps cfg.K s.storage rows) (now : Nat) (b : GroupRegisterRecord) :
    Returns (transaction cfg now b) s fun _ s' =>
      s'.fields = (calcFieldsAndUpdateIndexesFor s.fields b).1 ∧
      Keeps cfg.K s'.storage (rows ++ [(calcFieldsAndUpdateIndexesFor s.fields b).2]) := by
  refine .bind (.get ?_)
  generalize calcFieldsAndUpdateIndexesFor s.fields b = calculated
  refine .bind (.of_modify (.bind ?_))
  refine onStorage_returns ((appendRecords_keeps now _ h).mono ?_)
  rintro r st ⟨-, hke⟩
  exact .pure ⟨rfl, hke⟩

theorem restart_keeps (hK : cfg.K.RecCount = GRADIDO_BLOCK_SIZE) (h : Keeps cfg.K s.storage rows)
    {aliases : Aliases} (hpa : rows.foldlM addIndexRow PMap.empty = .ok aliases) (now : Nat) :
    Returns (restart cfg now) s fun _ s' => s'.fields = aliases ∧ Keeps cfg.K s'.storage rows := by
  refine .bind (.of_modify (.bind (.bind (.get
    (.bind ?_)))))
  refine onStorage_returns ((addIndexData_keeps hK h hpa now).mono ?_)
  rintro r st ⟨rfl, hke⟩
  exact .bind (.of_modify (.pure (.pure ⟨rfl, hke⟩)))

theorem step_returns {e : Event} {Q : Register F cfg → Prop}
    (h : Returns (call cfg e) s fun _ s' => Q s') : ∃ s', step cfg s e = some s' ∧ Q s' := by
  obtain ⟨_, s', hca, hQ⟩ := h
  exact ⟨s', by rw [step, hca], hQ⟩

namespace Registry

/-- A new group with a padded alias that is in the index under neither of its keys has an
alias of its own. -/
theorem ne_of_new (h : Registry cfg rows s) {b : GroupRegisterRecord}
    (hpad : Padded b.groupRecord.groupAlias) (hst : s.fields b.groupRecord.aliasString = none)
    (hli : s.fields (liveKey b) = none) {r : GroupRegisterRecord} (hr : r ∈ rows)
    (hreg : Registered r) : r.groupRecord.aliasString ≠ b.groupRecord.aliasString := by
  intro hsa
  have hkey : liveKey r = liveKey b := (h.padded r hr hreg).toList_inj hpad hsa
  rcases h.covered r hr hreg with hcov | hcov
  · rw [hkey, hli] at hcov
    exact Bool.false_ne_true hcov
  · rw [hsa, hst] at hcov
    exact Bool.false_ne_true hcov

theorem transaction (h : Registry cfg rows s) {now : Nat} {b : GroupRegisterRecord}
    (hb : Unloaded s (.transaction now b)) :
    Returns (GroupRegister.transaction cfg now b) s fun _ s' =>
      s'.fields = (calcFieldsAndUpdateIndexesFor s.fields b).1 ∧
      Registry cfg (rows ++ [(calcFieldsAndUpdateIndexesFor s.fields b).2]) s' := by
  refine (transaction_keeps h.keeps now b).mono ?_
  rintro _ s' ⟨hfi, hke⟩
  have hal := calc_groupAlias s.fields b
  refine ⟨hfi, hke, ?_, ?_, ?_⟩
  · refine List.pairwise_append.mpr ⟨h.unique, List.pairwise_singleton _ _, ?_⟩
    intro r hr b' hb' hreg hreg'
    rw [List.mem_singleton.mp hb'] at hreg' ⊢
    obtain ⟨htype, hli⟩ := (registered_calc s.fields b).mp hreg'
    obtain ⟨hpad, hst⟩ := hb htype
    rw [calc_aliasString]
    exact h.ne_of_new hpad hst hli hr hreg
  · intro r hr hreg
    rcases List.mem_append.mp hr with hr | hr
    · exact h.padded r hr hreg
    · rw [List.mem_singleton.mp hr] at hreg ⊢
      rw [hal]
      exact (hb ((registered_calc s.fields b).mp hreg).1).1
  · intro r hr hreg
    rw [hfi]
    rcases List.mem_append.mp hr with hr | hr
    · rcases h.covered r hr hreg with hcov | hcov
      · exact .inl (calc_isSome s.fields b hcov)
      · exact .inr (calc_isSome s.fields b hcov)
    · rw [List.mem_singleton.mp hr, liveKey, hal]
      exact .inl (calc_liveKey s.fields b)

theorem restart (h : Registry cfg rows s) (hK : cfg.K.RecCount = GRADIDO_BLOCK_SIZE) (now : Nat) :
    Returns (GroupRegister.restart cfg now) s fun _ s' =>
      Registry cfg rows s' ∧ Loaded rows PMap.empty s'.fields := by
  obtain ⟨aliases, hpa, hlo⟩ := @rebuild_loaded rows PMap.empty h.unique h.padded fun _ _ _ => rfl
  refine (restart_keeps hK h.keeps hpa now).mono ?_
  rintro _ s' ⟨hfi, hke⟩
  rw [hfi]
  refine ⟨⟨hke, h.unique, h.padded, ?_⟩, hlo⟩
  intro r hr hreg
  rw [hfi]
  exact .inr (hlo.entered r hr hreg)

theorem step (h : Registry cfg rows s) (hK : cfg.K.RecCount = GRADIDO_BLOCK_SIZE) {e : Event}
    (he : Unloaded s e) : ∃ s' rows', GroupRegister.step cfg s e = some s' ∧ Registry cfg rows' s' := by
  cases e with
  | transaction now b =>
    obtain ⟨s', hs', -, h'⟩ := step_returns (e := .transaction now b) (h.transaction he)
    exact ⟨s', _, hs', h'⟩
  | restart now =>
    obtain ⟨s', hs', h', -⟩ := step_returns (e := .restart now) (h.restart hK now)
    exact ⟨s', _, hs', h'⟩

end Registry

/-! ## A restart between two groups -/

section Again

variable (F : RowFormat GroupRegisterRecord) (cfg : Conf)
  (hK : cfg.K.RecCount = GRADIDO_BLOCK_SIZE) {b b' : GroupRegisterRecord}
  (htype : b.recordType = GROUP_RECORD) (htype' : b'.recordType = GROUP_RECORD)
  (hpad : Padded b.groupRecord.groupAlias) (hpad' : Padded b'.groupRecord.groupAlias)

include hK htype htype' hpad hpad'

/-- Both are registered, also where they have the same alias. -/
theorem registered_again :
    ∃ s r r', run (step cfg) (start F cfg) [.transaction 0 b, .restart 0, .transaction 0 b'] = some s ∧
      Keeps cfg.K s.storage [r, r'] ∧ (Registered r ∧ Registered r') ∧
      r.groupRecord.groupAlias = b.groupRecord.groupAlias ∧
      r'.groupRecord.groupAlias = b'.groupRecord.groupAlias ∧
      (b'.groupRecord.aliasString ≠ b.groupRecord.aliasString → Along (step cfg) Unloaded
        (start F cfg) [.transaction 0 b, .restart 0, .transaction 0 b']) := by
  have h₀ := registry_start (F := F) cfg
  have hnew : Unloaded (start F cfg) (.transaction 0 b) := fun _ => ⟨hpad, rfl⟩
  obtain ⟨s₁, hs₁, -, h₁⟩ := step_returns (e := .transaction 0 b) (h₀.transaction hnew)
  obtain ⟨s₂, hs₂, h₂, hlo⟩ := step_returns (e := .restart 0) (h₁.restart hK 0)
  obtain ⟨s₃, hs₃, -, hke⟩ := step_returns (e := .transaction 0 b') (transaction_keeps h₂.keeps 0 b')
  refine ⟨s₃, _, _, by simp only [run, hs₁, hs₂, hs₃], hke, ⟨(registered_calc _ b).mpr ⟨htype, rfl⟩,
    (registered_calc _ b').mpr ⟨htype', Option.not_isSome_iff_eq_none.mp fun hkey => ?_⟩⟩,
    calc_groupAlias _ b, calc_groupAlias _ b', fun hne => ⟨hnew, fun t ht => ?_⟩⟩
  · rcases hlo.keys _ hkey with hno | ⟨r, hr, hreg, hsa⟩
    · cases hno
    · -- the keys of the rebuild are shorter than the field
      have hlen : r.groupRecord.aliasString.length < GROUP_ALIAS_LENGTH := (h₂.padded r hr hreg).1
      rw [← hsa, Vector.length_toList] at hlen
      exact Nat.lt_irrefl _ hlen
  · cases hs₁.symm.trans ht
    refine ⟨trivial, fun t ht => ?_⟩
    cases hs₂.symm.trans ht
    refine ⟨fun _ => ⟨hpad', Option.not_isSome_iff_eq_none.mp fun hkey => ?_⟩, fun _ _ => trivial⟩
    rcases hlo.keys _ hkey with hno | ⟨r, hr, -, hsa⟩
    · cases hno
    · rw [List.nil_append, List.mem_singleton] at hr
      rw [hr, calc_aliasString] at hsa
      exact hne hsa

end Again

/-! ## Every run -/

/-- In every run in which new groups have padded aliases that no restart has loaded, no two
registered groups have the same alias. -/
theorem uniqueAliases (F : RowFormat GroupRegisterRecord) (cfg : Conf)
    (hK : cfg.K.RecCount = GRADIDO_BLOCK_SIZE) (es : List Event)
    (hes : Along (step cfg) Unloaded (start F cfg) es) (s : Register F cfg)
    (hs : run (step cfg) (start F cfg) es = some s) : UniqueAliases (storedRows s.storage) := by
  have hinv : ∃ rows, Registry cfg rows s := by
    refine run_inv (fun s => ∃ rows, Registry cfg rows s) ?_ ⟨[], registry_start cfg⟩ hes hs
    rintro s e s' ⟨rows, h⟩ he hs'
    obtain ⟨t, rows', ht, h'⟩ := h.step hK he
    cases ht.symm.trans hs'
    exact ⟨rows', h'⟩
  obtain ⟨rows, h⟩ := hinv
  rw [h.keeps.storedRows_eq]
  exact h.unique

/-- A group with a given alias. -/
def groupCalled (name : List UInt8) : GroupRegisterRecord :=
  (⟨GROUP_RECORD, Vector.replicate _ 0⟩ : GroupRegisterRecord).setGroupRecord
    { GroupRecord.packed.zero with groupAlias := (Packed.array GROUP_ALIAS_LENGTH).read name }

theorem groupAlias_groupCalled (name : List UInt8) :
    (groupCalled name).groupRecord.groupAlias = (Packed.array GROUP_ALIAS_LENGTH).read name := by
  rw [groupCalled, GroupRegisterRecord.groupRecord_setGroupRecord]

theorem recordType_groupCalled (name : List UInt8) :
    (groupCalled name).recordType = GROUP_RECORD := by
  rw [groupCalled, GroupRegisterRecord.recordType_setGroupRecord]

/-- The register of a node. -/
def registerConf : Conf := ⟨groupParams, "group-register", 100, true⟩

/-- The alias `a`. -/
def groupA : GroupRegisterRecord := groupCalled [97]

theorem padded_groupA : Padded groupA.groupRecord.groupAlias := by
  rw [groupA, groupAlias_groupCalled]
  decide

/-- The alias `b`. -/
def groupB : GroupRegisterRecord := groupCalled [98]

theorem padded_groupB : Padded groupB.groupRecord.groupAlias := by
  rw [groupB, groupAlias_groupCalled]
  decide

/-- Two groups, with a restart between them. -/
theorem uniqueAliases_groupsAB : ∃ s r r',
    run (step registerConf) (start (digestFormat GroupRegisterRecord) registerConf)
        [.transaction 0 groupA, .restart 0, .transaction 0 groupB] = some s ∧
      storedRows s.storage = [r, r'] ∧ (Registered r ∧ Registered r') ∧
      UniqueAliases (storedRows s.storage) := by
  have hne : groupB.groupRecord.aliasString ≠ groupA.groupRecord.aliasString := by
    rw [GroupRecord.aliasString, GroupRecord.aliasString, groupA, groupB, groupAlias_groupCalled,
      groupAlias_groupCalled]
    decide
  obtain ⟨s, r, r', hs, hke, hreg, -, -, hal⟩ := registered_again (digestFormat _) registerConf rfl
    (recordType_groupCalled _) (recordType_groupCalled _) padded_groupA padded_groupB
  exact ⟨s, r, r', hs, hke.storedRows_eq, hreg, uniqueAliases _ registerConf rfl _ (hal hne) s hs⟩

/-- Any group can be registered a second time after a restart. -/
theorem registered_twice (F : RowFormat GroupRegisterRecord) (cfg : Conf)
    (hK : cfg.K.RecCount = GRADIDO_BLOCK_SIZE) {b : GroupRegisterRecord}
    (htype : b.recordType = GROUP_RECORD) (hpad : Padded b.groupRecord.groupAlias) :
    ∃ s, run (step cfg) (start F cfg) [.transaction 0 b, .restart 0, .transaction 0 b] = some s ∧
      ¬ UniqueAliases (storedRows s.storage) := by
  obtain ⟨s, r, r', hs, hke, ⟨hfi, hse⟩, hal, hal', -⟩ :=
    registered_again F cfg hK htype htype hpad hpad
  refine ⟨s, hs, fun hun => ?_⟩
  rw [hke.storedRows_eq] at hun
  refine (List.pairwise_cons.mp hun).1 r' (List.mem_singleton_self _) hfi hse ?_
  rw [GroupRecord.aliasString, GroupRecord.aliasString, hal, hal']

/-- Register, restart, register: the alias `a` is there twice. -/
theorem restart_allows_duplicate :
    ∃ s, run (step registerConf) (start (digestFormat GroupRegisterRecord) registerConf)
        [.transaction 0 groupA, .restart 0, .transaction 0 groupA] = some s ∧
      ¬ UniqueAliases (storedRows s.storage) :=
  registered_twice _ registerConf rfl (recordType_groupCalled _) padded_groupA

end GradidoNode.GroupRegister
