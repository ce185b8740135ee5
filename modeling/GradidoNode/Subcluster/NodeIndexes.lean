/-
# `GradidoNode.Subcluster.NodeIndexes` — the two indexes of the nodes

`nodes` and `nodes_by_type` are two views of the nodes of a subcluster: a record is in the
map of a type under a key just if `nodes` has it under that key and it is of that type
(`Coherent`).  Two things part them:

    do_add_index_data   a second record for a key, of another type, is kept out of
                        `nodes` and gets into the map of its type
    clear_indexes       clears copies of the maps of `nodes_by_type`

`KeepsTypes` says of a call that it does neither, and `coherent_iff` that the indexes are
coherent throughout a run just if each of its calls keeps to that.  Inside `add_index_data`
the condition is on one row after the other; a row that breaks it leaves a clash that no
later row takes away (`Clash.rowStep`).
-/
import GradidoNode.Ledger.Spending
import GradidoNode.Subcluster.SubclusterBlockchain

namespace GradidoNode

open Lib Blockchain

/-- The value of an enumerator. -/
def SbNodeType.toByte : SbNodeType → UInt8
  | .ordering => 1
  | .gradido => 2
  | .login => 3
  | .backup => 4
  | .logger => 5
  | .pinger => 6

theorem SbNodeType.eq_toByte {b : UInt8} {t : SbNodeType} (h : ofByte b = some t) :
    b = t.toByte := by
  unfold ofByte at h
  split at h
  case h_7 => cases h
  all_goals
    cases h
    exact UInt8.toNat_inj.mp ‹_›

namespace SbIndexes

variable {idx idx' : SbIndexes}

/-- The nodes of a type. -/
def byType (idx : SbIndexes) (t : SbNodeType) : PMap PubKey SbNode :=
  fun k => (idx.nodesByType t).bind fun z => z k

/-- The two indexes have the same nodes. -/
def Coherent (idx : SbIndexes) : Prop :=
  ∀ t k n, idx.byType t k = some n ↔
    idx.nodes k = some n ∧ SbNodeType.ofByte n.nodeType = some t

/-- All indexes are empty. -/
def Emptied (idx : SbIndexes) : Prop :=
  ∀ k, idx.admins k = none ∧ idx.nodes k = none ∧ (∀ t, idx.byType t k = none) ∧
    idx.blockchains k = none

/-- The nodes have types. -/
def Typed (idx : SbIndexes) : Prop :=
  PMap.All (fun n => (SbNodeType.ofByte n.nodeType).isSome) idx.nodes

/-- One key has different records in the two indexes. -/
def Clash (idx : SbIndexes) : Prop :=
  ∃ t k n n', idx.byType t k = some n ∧ idx.nodes k = some n' ∧ n ≠ n'

/-- A node that is added under a key of `nodes` has the type of the node there. -/
def SameType (idx : SbIndexes) : SbBody → Prop
  | .addNode n => ∀ n', idx.nodes n.pubKey = some n' → n'.nodeType = n.nodeType
  | _ => True

/-! ## One record -/

/-- What SB_ADD_NODE does. -/
structure NodeAdded (idx : SbIndexes) (n : SbNode) (t : SbNodeType) (idx' : SbIndexes) : Prop where
  type : SbNodeType.ofByte n.nodeType = some t
  nodes : idx'.nodes = idx.nodes.insertNew n.pubKey n
  same : idx'.byType t = (idx.byType t).insertNew n.pubKey n
  others : ∀ t', t' ≠ t → idx'.byType t' = idx.byType t'

theorem addNode_added {n : SbNode} (h : idx.addNode n = .ok idx') :
    ∃ t, NodeAdded idx n t idx' := by
  unfold addNode at h
  split at h
  · cases h
  · next t htype =>
    split at h
    · cases h
    · next z hz =>
      cases h
      refine ⟨t, htype, rfl, ?_, ?_⟩
      · have hbe : idx.byType t = z := by
          funext k
          rw [byType, hz, Option.bind_some]
        rw [hbe]
        funext k
        simp only [byType, PMap.put_self, Option.bind_some]
      · intro t' hne
        funext k
        simp only [byType, PMap.put_of_ne hne]

/-- A record that is not a node leaves both indexes. -/
theorem doAddIndexData_cases {body : SbBody} (h : idx.doAddIndexData body = .ok idx') :
    (∃ n t, body = .addNode n ∧ NodeAdded idx n t idx') ∨
      ((∀ n, body ≠ .addNode n) ∧ idx'.nodes = idx.nodes ∧ ∀ t, idx'.byType t = idx.byType t) := by
  cases body with
  | addNode n =>
    obtain ⟨t, had⟩ := addNode_added h
    exact .inl ⟨n, t, rfl, had⟩
  | _ =>
    cases h
    exact .inr ⟨fun n hn => (nomatch hn), rfl, fun t => rfl⟩

namespace NodeAdded

variable {n : SbNode} {t : SbNodeType}

theorem coherent (h : NodeAdded idx n t idx') (hco : Coherent idx)
    (hsa : SameType idx (.addNode n)) : Coherent idx' := by
  intro t' k m
  rw [h.nodes]
  cases hold : idx.nodes n.pubKey with
  | some n' =>
    -- both indexes have the record for the key already
    have htype : SbNodeType.ofByte n'.nodeType = some t := by
      rw [hsa n' hold]
      exact h.type
    have hth : idx.byType t n.pubKey = some n' := (hco t n.pubKey n').mpr ⟨hold, htype⟩
    have hke : idx'.byType t' = idx.byType t' := by
      by_cases ht : t' = t
      · rw [ht, h.same, PMap.insertNew_of_some hth]
      · exact h.others t' ht
    rw [PMap.insertNew_of_some hold, hke]
    exact hco t' k m
  | none =>
    have hab : ∀ t'', idx.byType t'' n.pubKey = none := by
      intro t''
      cases hth : idx.byType t'' n.pubKey with
      | none => rfl
      | some n' =>
        rw [((hco t'' n.pubKey n').mp hth).1] at hold
        cases hold
    rw [PMap.insertNew_of_none hold]
    by_cases ht : t' = t
    · rw [ht, h.same, PMap.insertNew_of_none (hab t), PMap.put_apply, PMap.put_apply]
      split
      · constructor
        · intro hm
          cases hm
          exact ⟨rfl, h.type⟩
        · exact fun hm => hm.1
      · exact hco t k m
    · rw [h.others t' ht, PMap.put_apply]
      split
      · next hk =>
        rw [hk, hab t']
        constructor
        · intro hm
          cases hm
        · rintro ⟨hm, htype⟩
          cases hm
          exact absurd (Option.some.inj (htype.symm.trans h.type)) ht
      · exact hco t' k m

theorem clash (h : NodeAdded idx n t idx') (hco : Coherent idx)
    (hdi : ¬ SameType idx (.addNode n)) : Clash idx' := by
  obtain ⟨n', hold, hne⟩ : ∃ n', idx.nodes n.pubKey = some n' ∧ n'.nodeType ≠ n.nodeType := by
    simpa only [SameType, not_forall, exists_prop] using hdi
  have hab : idx.byType t n.pubKey = none := by
    cases hth : idx.byType t n.pubKey with
    | none => rfl
    | some m =>
      obtain ⟨hm, htype⟩ := (hco t n.pubKey m).mp hth
      cases hold.symm.trans hm
      exact absurd ((SbNodeType.eq_toByte htype).trans (SbNodeType.eq_toByte h.type).symm) hne
  refine ⟨t, n.pubKey, n, n', ?_, ?_, fun heq => hne (by rw [heq])⟩
  · rw [h.same, PMap.insertNew_of_none hab, PMap.put_self]
  · rw [h.nodes, PMap.insertNew_of_some hold]
    exact hold

end NodeAdded

theorem insertNew_keeps {m : PMap PubKey SbNode} {k k' : PubKey} {v w : SbNode}
    (h : m k = some v) : m.insertNew k' w k = some v := by
  cases hk : m k' with
  | some u => rw [PMap.insertNew_of_some hk, h]
  | none =>
    have hne : k ≠ k' := by
      rintro rfl
      rw [h] at hk
      cases hk
    rw [PMap.insertNew_of_none hk, PMap.put_of_ne hne, h]

theorem Clash.not_coherent (h : Clash idx) : ¬ Coherent idx := by
  obtain ⟨t, k, n, n', htype, hno, hne⟩ := h
  intro hco
  have hn := ((hco t k n).mp htype).1
  exact hne (Option.some.inj (hn.symm.trans hno))

theorem Clash.doAddIndexData {body : SbBody} (h : Clash idx)
    (hadd : idx.doAddIndexData body = .ok idx') : Clash idx' := by
  obtain ⟨t, k, n, n', htype, hno, hne⟩ := h
  rcases doAddIndexData_cases hadd with ⟨m, t', rfl, had⟩ | ⟨-, hno', hby⟩
  · refine ⟨t, k, n, n', ?_, ?_, hne⟩
    · by_cases ht : t = t'
      · subst ht
        rw [had.same]
        exact insertNew_keeps htype
      · rw [had.others t ht]
        exact htype
    · rw [had.nodes]
      exact insertNew_keeps hno
  · exact ⟨t, k, n, n', by rw [hby]; exact htype, by rw [hno']; exact hno, hne⟩

theorem Coherent.doAddIndexData {body : SbBody} (h : Coherent idx)
    (hadd : idx.doAddIndexData body = .ok idx') :
    (SameType idx body → Coherent idx') ∧ (¬ SameType idx body → Clash idx') := by
  rcases doAddIndexData_cases hadd with ⟨n, t, rfl, had⟩ | ⟨hbo, hno, hby⟩
  · exact ⟨had.coherent h, had.clash h⟩
  · have hco : Coherent idx' := by
      intro t k n
      rw [hno, hby]
      exact h t k n
    refine ⟨fun _ => hco, fun hdi => absurd ?_ hdi⟩
    cases body with
    | addNode n => exact absurd rfl (hbo n)
    | _ => trivial

/-! ## The rows of the storage -/

/-- A row as a step. -/
def rowStep (idx : SbIndexes) (r : SbRecord) : Option SbIndexes :=
  match idx.addIndexRow r with
  | .ok idx' => some idx'
  | .error _ => none

/-- A node of a row that is entered has the type of the node there. -/
def RowSameType (idx : SbIndexes) (r : SbRecord) : Prop :=
  r.result = SB_SUCCESS → SameType idx r.body

theorem run_rowStep {rows : List SbRecord} {idx : SbIndexes}
    (h : rows.foldlM addIndexRow idx = .ok idx') : run rowStep idx rows = some idx' := by
  induction rows generalizing idx with
  | nil =>
    cases h
    rfl
  | cons r rows ih =>
    rw [List.foldlM_cons] at h
    cases hrow : idx.addIndexRow r with
    | error e =>
      rw [hrow] at h
      cases h
    | ok idx₁ =>
      rw [hrow] at h
      rw [run, rowStep, hrow]
      exact ih h

theorem rowStep_cases {r : SbRecord} (h : rowStep idx r = some idx') :
    (r.result = SB_SUCCESS ∧ idx.doAddIndexData r.body = .ok idx') ∨
      (r.result ≠ SB_SUCCESS ∧ idx' = idx) := by
  unfold rowStep at h
  split at h
  · next idx₁ hrow =>
    cases h
    unfold addIndexRow at hrow
    split at hrow
    · next hre =>
      cases hrow
      exact .inr ⟨hre, rfl⟩
    · next hre => exact .inl ⟨not_not.mp hre, hrow⟩
  · cases h

theorem Typed.rowStep {r : SbRecord} (h : Typed idx) (hst : rowStep idx r = some idx') :
    Typed idx' := by
  rcases rowStep_cases hst with ⟨-, hadd⟩ | ⟨-, rfl⟩
  · rcases doAddIndexData_cases hadd with ⟨n, t, -, had⟩ | ⟨-, hno, -⟩
    · rw [Typed, had.nodes]
      exact PMap.All.insertNew h (by rw [had.type]; rfl)
    · rw [Typed, hno]
      exact h
  · exact h

theorem Clash.rowStep {r : SbRecord} (h : Clash idx) (hst : rowStep idx r = some idx') :
    Clash idx' := by
  rcases rowStep_cases hst with ⟨-, hadd⟩ | ⟨-, rfl⟩
  · exact h.doAddIndexData hadd
  · exact h

theorem Coherent.rowStep {r : SbRecord} (h : Coherent idx) (hst : rowStep idx r = some idx') :
    (RowSameType idx r → Coherent idx') ∧ (¬ RowSameType idx r → Clash idx') := by
  rcases rowStep_cases hst with ⟨hre, hadd⟩ | ⟨hre, rfl⟩
  · obtain ⟨hgo, hbad⟩ := h.doAddIndexData hadd
    exact ⟨fun hrow => hgo (hrow hre), fun hrow => hbad fun hsa => hrow fun _ => hsa⟩
  · exact ⟨fun _ => h, fun hrow => absurd (fun hr => absurd hr hre) hrow⟩

/-- The indexes are coherent after a pass just if each of its rows keeps the types. -/
theorem Coherent.rows {rows : List SbRecord} (h : Coherent idx)
    (hfo : rows.foldlM addIndexRow idx = .ok idx') :
    Coherent idx' ↔ Along SbIndexes.rowStep RowSameType idx rows :=
  end_iff_along Coherent Clash
    (fun _ _ _ hco hP hst => (hco.rowStep hst).1 hP)
    (fun _ _ _ hco hP hst => (hco.rowStep hst).2 hP)
    (fun _ _ _ hcl hst => hcl.rowStep hst)
    (fun _ hcl => hcl.not_coherent) h (run_rowStep hfo)

end SbIndexes

/-! ## Runs -/

namespace SubclusterBlockchain

open SbIndexes

variable {F : RowFormat SbRecord} {K : Params} {idx idx' : SbIndexes}

/-- What happens to the indexes after `init`: a transaction is accepted, `add_index_data` is
called over a storage, from a block on, or `clear_indexes` is. -/
inductive Event (F : RowFormat SbRecord) where
  | transaction (b : SbBatch)
  | addIndexData (storage : Blockchain F) (indexedBlocks now : Nat)
  | clearIndexes

/-- One event.  A call that fails ends the run. -/
def step (K : Params) (idx : SbIndexes) : Event F → Option SbIndexes
  | .transaction b =>
    match idx.calcFields b with
    | .ok (idx', _) => some idx'
    | .error _ => none
  | .addIndexData storage indexedBlocks now =>
    match addIndexData K indexedBlocks now idx storage with
    | .ok (_, idx') _ => some idx'
    | .error _ _ => none
  | .clearIndexes => some idx.clearIndexes

/-- A node that is entered has the type of the node that is there under its key, and nothing
is cleared while there are nodes. -/
def KeepsTypes (K : Params) (idx : SbIndexes) : Event F → Prop
  | .transaction b => SameType idx b.first.body
  | .addIndexData storage indexedBlocks now => ∀ rows storage',
      readRows K now indexedBlocks (storage.checksumValidBlockCount - indexedBlocks) storage
        = .ok rows storage' → Along rowStep RowSameType idx rows
  | .clearIndexes => ∀ k, idx.nodes k = none

theorem step_transaction (b : SbBatch) :
    step K idx (.transaction (F := F) b) = rowStep idx (idx.withResult b).first := by
  rw [step, calcFields_eq, rowStep]
  cases idx.addIndexRow (idx.withResult b).first <;> rfl

/-- A node always gets SUCCESS. -/
theorem rowSameType_withResult (b : SbBatch) :
    RowSameType idx (idx.withResult b).first ↔ SameType idx b.first.body := by
  refine ⟨fun h => ?_, fun h _ => h⟩
  cases hbo : b.first.body with
  | addNode n =>
    have hre : idx.resultOf b.first.body = SB_SUCCESS := by rw [hbo]; rfl
    rw [← hbo]
    exact h hre
  | _ => trivial

theorem step_addIndexData {storage : Blockchain F} {indexedBlocks now : Nat}
    (h : step K idx (.addIndexData storage indexedBlocks now) = some idx') :
    ∃ rows storage', readRows K now indexedBlocks
        (storage.checksumValidBlockCount - indexedBlocks) storage = .ok rows storage' ∧
      rows.foldlM addIndexRow idx = .ok idx' := by
  rw [step] at h
  cases hca : addIndexData K indexedBlocks now idx storage with
  | error e st =>
    rw [hca] at h
    cases h
  | ok r st =>
    rw [hca] at h
    cases h
    rw [addIndexData, get_bind] at hca
    obtain ⟨idx₁, st₁, hpa, hpu⟩ := bind_ok hca
    cases hpu
    obtain ⟨rows, hre, hfo⟩ := (passBlocks_eq_ok K now _ indexedBlocks).mp hpa
    exact ⟨rows, st, hre, hfo⟩

/-- `clear_indexes` keeps the indexes coherent just if there are no nodes. -/
theorem coherent_clearIndexes (h : Coherent idx) (hty : Typed idx) :
    Coherent idx.clearIndexes ↔ ∀ k, idx.nodes k = none := by
  constructor
  · intro hco k
    cases hn : idx.nodes k with
    | none => rfl
    | some n =>
      -- the node is still in the map of its type
      obtain ⟨t, ht⟩ := Option.isSome_iff_exists.mp (hty k n hn)
      have hlf : idx.byType t k = some n := (h t k n).mpr ⟨hn, ht⟩
      exact nomatch ((hco t k n).mp hlf).1
  · intro hno t k n
    refine ⟨fun hn => ?_, fun hn => nomatch hn.1⟩
    have hth := ((h t k n).mp hn).1
    rw [hno k] at hth
    cases hth

theorem typed_step {e : Event F} (h : Typed idx) (hst : step K idx e = some idx') :
    Typed idx' := by
  cases e with
  | transaction b =>
    rw [step_transaction] at hst
    exact h.rowStep hst
  | addIndexData storage indexedBlocks now =>
    obtain ⟨rows, -, -, hfo⟩ := step_addIndexData hst
    exact run_keeps Typed (fun s r s' hs hrow => hs.rowStep hrow) h (run_rowStep hfo)
  | clearIndexes =>
    cases hst
    exact PMap.All.empty

/-- One call keeps the indexes coherent just if it keeps to the types. -/
theorem coherent_step {e : Event F} (h : Coherent idx) (hty : Typed idx)
    (hst : step K idx e = some idx') : Coherent idx' ↔ KeepsTypes K idx e := by
  cases e with
  | transaction b =>
    rw [step_transaction] at hst
    obtain ⟨hgo, hbad⟩ := h.rowStep hst
    rw [KeepsTypes, ← rowSameType_withResult]
    exact ⟨fun hco => by_contra fun hdi => (hbad hdi).not_coherent hco, hgo⟩
  | addIndexData storage indexedBlocks now =>
    obtain ⟨rows, storage', hre, hfo⟩ := step_addIndexData hst
    rw [h.rows hfo, KeepsTypes]
    refine ⟨fun hal rows' st hre' => ?_, fun hall => hall rows storage' hre⟩
    cases hre.symm.trans hre'
    exact hal
  | clearIndexes =>
    cases hst
    exact coherent_clearIndexes h hty

theorem coherent_init : Coherent constructed.init := by
  intro t k n
  cases t <;> exact ⟨fun h => (nomatch h), fun h => (nomatch h.1)⟩

theorem typed_init : Typed constructed.init := PMap.All.empty

/-- Coherent indexes are all empty when they have been cleared. -/
theorem emptied_of_coherent (h : Coherent idx.clearIndexes) : Emptied idx.clearIndexes := by
  intro k
  refine ⟨rfl, rfl, fun t => ?_, rfl⟩
  cases hn : idx.clearIndexes.byType t k with
  | none => rfl
  | some n => exact nomatch ((h t k n).mp hn).1

/-- Throughout a run the indexes of the nodes are coherent, and all indexes are empty after
`clear_indexes`, just if each call keeps to the types. -/
theorem coherent_iff (F : RowFormat SbRecord) (es : List (Event F)) (idx : SbIndexes)
    (hrun : run (step groupParams) constructed.init es = some idx) :
    (∀ es' idx', es' <+: es → run (step groupParams) constructed.init es' = some idx' →
      Coherent idx' ∧ (es'.getLast? = some .clearIndexes → Emptied idx')) ↔
    Along (step groupParams) (KeepsTypes groupParams) constructed.init es := by
  have hth := throughout_iff_along (P := KeepsTypes groupParams)
    (fun idx => Coherent idx ∧ Typed idx)
    (fun idx e idx' h hst => by
      rw [← coherent_step h.1 h.2 hst]
      exact and_iff_left (typed_step h.2 hst))
    ⟨coherent_init, typed_init⟩ hrun
  rw [← hth]
  constructor
  · intro hall es' idx' hpre hrun'
    refine ⟨(hall es' idx' hpre hrun').1, ?_⟩
    exact run_keeps Typed (fun s e s' hs hst => typed_step hs hst) typed_init hrun'
  · intro hall es' idx' hpre hrun'
    have hco := (hall es' idx' hpre hrun').1
    refine ⟨hco, fun hla => ?_⟩
    obtain ⟨es₁, rfl⟩ := List.getLast?_eq_some_iff.mp hla
    obtain ⟨idx₁, -, hst⟩ := run_snoc hrun'
    cases hst
    exact emptied_of_coherent hco

/-! ## Two runs -/

/-- A node with key 1. -/
def node (nodeType : UInt8) : SbNode := ⟨nodeType, Chain.key 1, Vector.replicate 128 0⟩

/-- The transaction that adds it. -/
def addsNode (nodeType : UInt8) : Event (digestFormat SbRecord) :=
  .transaction ⟨⟨HederaTransaction.zero, .addNode (node nodeType), 0⟩, []⟩

/-- A node is added twice. -/
theorem coherent_iff_twice :
    ∃ idx, run (step groupParams) constructed.init [addsNode 2, addsNode 2] = some idx ∧
      idx.nodes (Chain.key 1) = some (node 2) ∧ Coherent idx := by
  have h : ((run (step groupParams) constructed.init [addsNode 2, addsNode 2]).map fun idx =>
      idx.nodes (Chain.key 1)) = some (some (node 2)) := rfl
  have hone : ((step groupParams constructed.init (addsNode 2)).map fun idx =>
      idx.nodes (Chain.key 1)) = some (some (node 2)) := rfl
  obtain ⟨idx, hrun, hno⟩ := Option.map_eq_some_iff.mp h
  have hall := (coherent_iff (digestFormat SbRecord) _ idx hrun).mpr
    ⟨fun n' hn' => (nomatch hn'), fun idx₁ hidx₁ => ⟨fun n' hn' => ?_, fun _ _ => trivial⟩⟩
  · exact ⟨idx, hrun, hno, (hall _ idx (List.prefix_refl _) hrun).1⟩
  · rw [hidx₁, Option.map_some] at hone
    cases (Option.some.inj hone).symm.trans hn'
    rfl

/-- A node is added and the indexes are cleared: it is still in the map of its type.  A node is
added again with another type: it is in two maps. -/
theorem nodes_not_coherent :
    (∃ idx, run (step groupParams) constructed.init [addsNode 2, .clearIndexes] = some idx ∧
      idx.byType .gradido (Chain.key 1) = some (node 2) ∧ ¬ Coherent idx ∧ ¬ Emptied idx) ∧
    ∃ idx, run (step groupParams) constructed.init [addsNode 2, addsNode 3] = some idx ∧
      idx.byType .gradido (Chain.key 1) = some (node 2) ∧
      idx.byType .login (Chain.key 1) = some (node 3) ∧ ¬ Coherent idx := by
  constructor
  · have h : ((run (step groupParams) constructed.init [addsNode 2, .clearIndexes]).map fun idx =>
        (idx.byType .gradido (Chain.key 1), idx.nodes (Chain.key 1)))
        = some (some (node 2), none) := rfl
    obtain ⟨idx, hrun, hfa⟩ := Option.map_eq_some_iff.mp h
    obtain ⟨htype, hno⟩ := Prod.mk.inj hfa
    refine ⟨idx, hrun, htype, fun hco => ?_, fun hem => ?_⟩
    · rw [((hco .gradido (Chain.key 1) (node 2)).mp htype).1] at hno
      cases hno
    · rw [(hem (Chain.key 1)).2.2.1 .gradido] at htype
      cases htype
  · have h : ((run (step groupParams) constructed.init [addsNode 2, addsNode 3]).map fun idx =>
        (idx.byType .gradido (Chain.key 1), idx.byType .login (Chain.key 1),
          idx.nodes (Chain.key 1)))
        = some (some (node 2), some (node 3), some (node 2)) := rfl
    obtain ⟨idx, hrun, hfa⟩ := Option.map_eq_some_iff.mp h
    simp only [Prod.mk.injEq] at hfa
    obtain ⟨htype, htype', hno⟩ := hfa
    refine ⟨idx, hrun, htype, htype', fun hco => ?_⟩
    have hth := ((hco .login (Chain.key 1) (node 3)).mp htype').1
    rw [hno] at hth
    exact absurd (Option.some.inj hth) (by decide)

end SubclusterBlockchain

end GradidoNode
