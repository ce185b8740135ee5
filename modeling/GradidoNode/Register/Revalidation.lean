/-
# `GradidoNode.Register.Revalidation` — whether a register reads its own rows back

After a restart `validate_next_batch` has `add_index_data` build the index from the rows,
and resets the validation when it returns false.  It does so at the second registered row
with the same string for its alias.

Live processing is to keep such rows out, and compares something else: all bytes of the
field, with an index that holds strings after a restart.  So the node stores rows it will
not read back (`own_rows_rejected`): the same alias registered again after a restart, and
without one two fields with the same string before the first NUL.

`rebuildKey` is the string `add_index_data` takes for the alias of a row.  `Readable` asks
of a group that is about to be registered that this string end in the record and be none
of a registered row.  In every run the register reads its rows back at every moment just if
all transactions are so (`revalidates_iff`).
-/
import GradidoNode.Base.Calls
import GradidoNode.Register.Aliases

namespace GradidoNode.GroupRegister

open Lib Blockchain Base

variable {F : RowFormat GroupRegisterRecord} {cfg : Conf} {rows : List GroupRegisterRecord}
  {s s' : Register F cfg}

/-! ## The pass over the rows -/

/-- The string the rebuild takes for the alias. -/
def rebuildKey (r : GroupRegisterRecord) : Option (List UInt8) := cString r.body.toList

variable {aliases aliases' : Aliases} {r : GroupRegisterRecord} {e : Event}

theorem addIndexRow_registered {key : List UInt8}
    (hreg : Registered r) (hkey : rebuildKey r = some key) (hnew : aliases key = none) :
    addIndexRow aliases r = .ok (aliases.put key r.groupRecord) := by
  have hkey' : cString r.body.toList = some key := hkey
  rw [addIndexRow, if_pos (show _ ∧ _ from hreg), hkey']
  simp only [hnew]

theorem addIndexRow_other (hreg : ¬ Registered r) :
    addIndexRow aliases r = .ok aliases := if_neg hreg

theorem addIndexRow_ok (h : addIndexRow aliases r = .ok aliases') (hreg : Registered r) :
    ∃ key, rebuildKey r = some key ∧ aliases key = none ∧
      aliases' = aliases.put key r.groupRecord := by
  rw [addIndexRow, if_pos (show _ ∧ _ from hreg)] at h
  split at h
  · cases h
  · next key hkey =>
    split at h
    · cases h
    · next hnew =>
      cases h
      exact ⟨key, hkey, hnew, rfl⟩

theorem addIndexRow_keys (h : addIndexRow aliases r = .ok aliases') (key : List UInt8) :
    (aliases' key).isSome ↔ (aliases key).isSome ∨ (Registered r ∧ rebuildKey r = some key) := by
  by_cases hreg : Registered r
  · obtain ⟨key', hkey', -, rfl⟩ := addIndexRow_ok h hreg
    rw [PMap.put_apply, hkey']
    by_cases hsa : key = key'
    · rw [if_pos hsa, hsa]
      exact ⟨fun _ => .inr ⟨hreg, rfl⟩, fun _ => rfl⟩
    · rw [if_neg hsa]
      exact ⟨.inl, fun hk => hk.elim id fun ⟨_, heq⟩ => absurd (Option.some.inj heq).symm hsa⟩
  · rw [addIndexRow_other hreg] at h
    cases h
    exact ⟨.inl, fun hk => hk.elim id fun ⟨hreg', _⟩ => absurd hreg' hreg⟩

/-- The keys after a pass: those before, and the strings of the registered rows. -/
theorem pass_keys : ∀ {rows : List GroupRegisterRecord} {aliases : Aliases},
    rows.foldlM addIndexRow aliases = .ok aliases' → ∀ key, (aliases' key).isSome ↔
      (aliases key).isSome ∨ ∃ r ∈ rows, Registered r ∧ rebuildKey r = some key := by
  intro rows
  induction rows with
  | nil =>
    intro aliases h key
    cases h
    exact ⟨.inl, fun hkey => hkey.elim id fun ⟨r, hr, _⟩ => by cases hr⟩
  | cons r rows ih =>
    intro aliases h key
    rw [List.foldlM_cons] at h
    cases hrow : addIndexRow aliases r with
    | error stopped =>
      rw [hrow] at h
      cases h
    | ok aliases₁ =>
      rw [hrow] at h
      rw [ih h key, addIndexRow_keys hrow key, or_assoc]
      refine or_congr Iff.rfl ?_
      constructor
      · rintro (hr | ⟨r', hr', hkey⟩)
        · exact ⟨r, List.mem_cons_self, hr⟩
        · exact ⟨r', List.mem_cons_of_mem _ hr', hkey⟩
      · rintro ⟨r', hr', hkey⟩
        rcases List.mem_cons.mp hr' with rfl | hr'
        · exact .inl hkey
        · exact .inr ⟨r', hr', hkey⟩

/-- The pass over the rows, from an empty index, goes through. -/
def Passes (rows : List GroupRegisterRecord) : Prop :=
  ∃ aliases : Aliases, rows.foldlM addIndexRow PMap.empty = .ok aliases

/-- It goes through one more row just if that is not registered, or has a string that ends and
that no registered row has. -/
theorem passes_snoc (h : Passes rows) (r : GroupRegisterRecord) :
    Passes (rows ++ [r]) ↔ (Registered r → ∃ key, rebuildKey r = some key ∧
      ∀ r' ∈ rows, Registered r' → rebuildKey r' ≠ some key) := by
  obtain ⟨aliases, hpa⟩ := h
  have hsn : (rows ++ [r]).foldlM addIndexRow (PMap.empty : Aliases) = addIndexRow aliases r := by
    rw [List.foldlM_append, hpa]
    exact bind_pure (addIndexRow aliases r)
  have hke : ∀ key, aliases key = none ↔ ∀ r' ∈ rows, Registered r' → rebuildKey r' ≠ some key := by
    intro key
    rw [← Option.not_isSome_iff_eq_none, pass_keys hpa key]
    refine ⟨fun hno r' hr' hreg hkey => hno (.inr ⟨r', hr', hreg, hkey⟩), ?_⟩
    rintro hro (hem | ⟨r', hr', hreg, hkey⟩)
    · cases hem
    · exact hro r' hr' hreg hkey
  constructor
  · rintro ⟨aliases', hpa'⟩ hreg
    obtain ⟨key, hkey, hnew, -⟩ := addIndexRow_ok (hsn.symm.trans hpa') hreg
    exact ⟨key, hkey, (hke key).mp hnew⟩
  · intro hr
    by_cases hreg : Registered r
    · obtain ⟨key, hkey, hnew⟩ := hr hreg
      exact ⟨_, hsn.trans (addIndexRow_registered hreg hkey ((hke key).mpr hnew))⟩
    · exact ⟨_, hsn.trans (addIndexRow_other hreg)⟩

/-! ## The register -/

/-- `add_index_data`, from an empty index, returns true. -/
def Revalidates (s : Register F cfg) : Prop :=
  ∀ now, Returns (addIndexData cfg.K 0 now PMap.empty) s.storage fun r _ => r.1 = true

theorem revalidates_of_keeps (hK : cfg.K.RecCount = GRADIDO_BLOCK_SIZE)
    (h : Keeps cfg.K s.storage rows) : Revalidates s ↔ Passes rows := by
  constructor
  · intro hrev
    obtain ⟨r, st, hca, htr⟩ := hrev 0
    have hen := addIndexData_endsAs hK h PMap.empty 0
    rw [hca] at hen
    cases hpa : rows.foldlM addIndexRow (PMap.empty : Aliases) with
    | ok aliases => exact ⟨aliases, hpa⟩
    | error stopped =>
      rw [hpa] at hen
      cases stopped with
      | duplicate aliases =>
        rw [hen.1] at htr
        cases htr
      | endless => exact hen.elim
  · rintro ⟨aliases, hpa⟩ now
    refine (addIndexData_keeps hK h hpa now).mono ?_
    rintro r st ⟨rfl, -⟩
    rfl

/-- The group as it is stored when it is registered. -/
def accepted (b : GroupRegisterRecord) : GroupRegisterRecord :=
  b.setGroupRecord (b.groupRecord.withSuccess true)

/-- A group that is about to be registered has a string for its alias that ends in the record,
and that no registered row has. -/
def Readable (s : Register F cfg) : Event → Prop
  | .transaction _ b => b.recordType = GROUP_RECORD → s.fields (liveKey b) = none →
      ∃ key, rebuildKey (accepted b) = some key ∧
        ∀ r ∈ storedRows s.storage, Registered r → rebuildKey r ≠ some key
  | .restart _ => True

/-- A group that is registered is stored as `accepted`. -/
theorem registered_accepted (aliases : Aliases) (b : GroupRegisterRecord)
    {P : GroupRegisterRecord → Prop} :
    (Registered (calcFieldsAndUpdateIndexesFor aliases b).2 →
      P (calcFieldsAndUpdateIndexesFor aliases b).2) ↔
    (b.recordType = GROUP_RECORD → aliases (liveKey b) = none → P (accepted b)) := by
  rw [registered_calc]
  have hst : aliases (liveKey b) = none →
      (calcFieldsAndUpdateIndexesFor aliases b).2 = accepted b := by
    intro hnew
    rw [calc_snd, hnew]
    rfl
  constructor
  · intro h htype hnew
    rw [← hst hnew]
    exact h ⟨htype, hnew⟩
  · rintro h ⟨htype, hnew⟩
    rw [hst hnew]
    exact h htype hnew

theorem restart_ensures (hK : cfg.K.RecCount = GRADIDO_BLOCK_SIZE) (h : Keeps cfg.K s.storage rows)
    (now : Nat) : Ensures (restart cfg now) s fun _ s' => Keeps cfg.K s'.storage rows := by
  refine .bind (.of_modify (.bind (.bind (.get
    (.bind ((onStorage_ensures _).mono ?_))))))
  rintro r s' ⟨st, hca, rfl⟩
  have hen := addIndexData_endsAs hK h PMap.empty now
  rw [show addIndexData cfg.K 0 now PMap.empty s.storage = .ok r st from hca] at hen
  refine .bind (.of_modify (.pure (.pure ?_)))
  cases hpa : rows.foldlM addIndexRow (PMap.empty : Aliases) with
  | ok aliases =>
    rw [hpa] at hen
    exact hen.2
  | error stopped =>
    rw [hpa] at hen
    cases stopped with
    | duplicate aliases => exact hen.2
    | endless => exact hen.elim

theorem call_of_step (h : step cfg s e = some s') : call cfg e s = .ok () s' := by
  unfold step at h
  split at h
  · next heq =>
    cases h
    exact heq
  · cases h

/-- The rows after an event, and when the pass goes through them. -/
theorem step_keeps (hK : cfg.K.RecCount = GRADIDO_BLOCK_SIZE) (h : Keeps cfg.K s.storage rows)
    (hs : step cfg s e = some s') : ∃ rows', Keeps cfg.K s'.storage rows' ∧
      (Passes rows → (Passes rows' ↔ Readable s e)) := by
  cases e with
  | transaction now b =>
    obtain ⟨t, ht, -, hke⟩ := step_returns (e := .transaction now b) (transaction_keeps h now b)
    cases ht.symm.trans hs
    refine ⟨_, hke, fun hpa => ?_⟩
    rw [passes_snoc hpa, Readable, h.storedRows_eq]
    exact registered_accepted s.fields b (P := fun r => ∃ key, rebuildKey r = some key ∧
      ∀ r' ∈ rows, Registered r' → rebuildKey r' ≠ some key)
  | restart now =>
    refine ⟨rows, restart_ensures hK h now () s' (call_of_step hs), fun hpa => ?_⟩
    exact ⟨fun _ => trivial, fun _ => hpa⟩

/-- **A register reads its rows back.**  In every run of live transactions and restarts
`add_index_data` returns true over the rows stored up to any moment, just if each group that
is registered has an alias the rebuild will tell from those there are. -/
theorem revalidates_iff (F : RowFormat GroupRegisterRecord) (cfg : Conf)
    (hK : cfg.K.RecCount = GRADIDO_BLOCK_SIZE) (es : List Event) (s : Register F cfg)
    (hrun : run (step cfg) (start F cfg) es = some s) :
    (∀ es' s', es' <+: es → run (step cfg) (start F cfg) es' = some s' → Revalidates s') ↔
      Along (step cfg) Readable (start F cfg) es := by
  have hst : Keeps cfg.K (start F cfg).storage [] := (registry_start cfg).keeps
  have hke : ∀ {es' : List Event} {s' : Register F cfg},
      run (step cfg) (start F cfg) es' = some s' → ∃ rows, Keeps cfg.K s'.storage rows := by
    intro es' s' hrun'
    refine run_keeps (fun s => ∃ rows, Keeps cfg.K s.storage rows) ?_ ⟨[], hst⟩ hrun'
    rintro s e s' ⟨rows, h⟩ hs
    obtain ⟨rows', h', -⟩ := step_keeps hK h hs
    exact ⟨rows', h'⟩
  have hall := throughout_iff_along (P := Readable)
    (fun s : Register F cfg => ∃ rows, Keeps cfg.K s.storage rows ∧ Passes rows) ?_
    ⟨[], hst, _, rfl⟩ hrun
  · rw [← hall]
    refine forall_congr' fun es' => forall_congr' fun s' => forall_congr' fun hpre =>
      forall_congr' fun hrun' => ?_
    obtain ⟨rows, h⟩ := hke hrun'
    rw [revalidates_of_keeps hK h]
    refine ⟨fun hpa => ⟨rows, h, hpa⟩, ?_⟩
    rintro ⟨rows', h', hpa⟩
    rw [← h.storedRows_eq, h'.storedRows_eq]
    exact hpa
  · rintro s e s' ⟨rows, h, hpa⟩ hs
    obtain ⟨rows', h', hiff⟩ := step_keeps hK h hs
    rw [← hiff hpa]
    refine ⟨?_, fun hpa' => ⟨rows', h', hpa'⟩⟩
    rintro ⟨rows'', h'', hpa''⟩
    rw [← h'.storedRows_eq, h''.storedRows_eq]
    exact hpa''

/-! ## Two runs -/

theorem rebuildKey_padded {b : GroupRegisterRecord} (hpad : Padded b.groupRecord.groupAlias)
    (hal : r.groupRecord.groupAlias = b.groupRecord.groupAlias) :
    rebuildKey r = some b.groupRecord.aliasString := by
  rw [rebuildKey, cString_body (by rw [hal]; exact hpad), GroupRecord.aliasString, hal]
  rfl

/-- One group, and a restart: the register reads its row back. -/
theorem revalidates_iff_groupA :
    ∃ s, run (step registerConf) (start (digestFormat GroupRegisterRecord) registerConf)
        [.transaction 0 groupA, .restart 0] = some s ∧ Revalidates s := by
  have hnew : Unloaded (start (digestFormat GroupRegisterRecord) registerConf)
      (.transaction 0 groupA) := fun _ => ⟨padded_groupA, rfl⟩
  obtain ⟨s₁, hs₁, -, h₁⟩ := step_returns (e := .transaction 0 groupA)
    ((registry_start registerConf).transaction hnew)
  obtain ⟨s₂, hs₂, -, -⟩ := step_returns (e := .restart 0) (h₁.restart rfl 0)
  have hrun : run (step registerConf) (start (digestFormat GroupRegisterRecord) registerConf)
      [.transaction 0 groupA, .restart 0] = some s₂ := by
    simp only [run, hs₁, hs₂]
  refine ⟨s₂, hrun, (revalidates_iff _ registerConf rfl _ s₂ hrun).mpr ⟨?_, fun s hs => ?_⟩ _ s₂
    (List.prefix_refl _) hrun⟩
  · intro _ _
    refine ⟨_, rebuildKey_padded padded_groupA ?_, ?_⟩
    · rw [accepted, GroupRegisterRecord.groupRecord_setGroupRecord]
      rfl
    · intro r hr
      rw [(registry_start registerConf).keeps.storedRows_eq] at hr
      cases hr
  · exact ⟨trivial, fun _ _ => trivial⟩

/-- A group registered again after a restart: the register does not read its rows back. -/
theorem own_rows_rejected :
    ∃ s, run (step registerConf) (start (digestFormat GroupRegisterRecord) registerConf)
        [.transaction 0 groupA, .restart 0, .transaction 0 groupA] = some s ∧ ¬ Revalidates s := by
  obtain ⟨s, r, r', hs, hke, ⟨hfi, hse⟩, hal, hal', -⟩ :=
    registered_again (digestFormat GroupRegisterRecord) registerConf rfl
      (recordType_groupCalled [97]) (recordType_groupCalled [97]) padded_groupA padded_groupA
  refine ⟨s, hs, fun hrev => ?_⟩
  have hkey := rebuildKey_padded padded_groupA hal
  have hkey' := rebuildKey_padded padded_groupA hal'
  -- the first row alone is read back, and its string is that of the second
  have hnil : Passes [] := ⟨_, rfl⟩
  have hone : Passes [r] := (passes_snoc hnil r).mpr fun _ => ⟨_, hkey, fun r' hr' => by cases hr'⟩
  obtain ⟨key, hsa, hot⟩ := (passes_snoc hone r').mp ((revalidates_of_keeps rfl hke).mp hrev) hse
  refine hot r (List.mem_singleton_self _) hfi ?_
  rw [← hsa, hkey, hkey']

end GradidoNode.GroupRegister
