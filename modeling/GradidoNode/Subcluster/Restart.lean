/-
# `GradidoNode.Subcluster.Restart` — the indexes of a subcluster, live and rebuilt

Live processing looks at the first record of a batch and gives it a result; the rebuild
looks at every stored row with the result SUCCESS.  They come to the same indexes:

    first record, SUCCESS     entered by both, as the same record (`calcFields_eq`)
    first record, refused     entered by neither; its row carries the result
    SIGNATURES                entered by the rebuild, which does nothing for them

A record is refused when it is an SB_ADD_ADMIN with a key that is there, so the rebuild
never meets a key of `admins` twice either.
-/
import GradidoNode.Subcluster.BlockchainBase

namespace GradidoNode

open Lib Blockchain

namespace SubclusterBlockchain

open Base SbIndexes

variable {F : RowFormat SbRecord} {cfg : Conf}

/-- A batch is processed and appended. -/
def liveStep (cfg : Conf) (s : Base (child F cfg.K)) (e : Nat × SbBatch) :
    Option (Base (child F cfg.K)) :=
  match BlockchainBase.appendBatch cfg () e.1 ⟨some e.2, false⟩ e.2 s with
  | .ok _ s' => some s'
  | .error _ _ => none

/-- A chain over an empty folder, after `init`. -/
def started (F : RowFormat SbRecord) (cfg : Conf) : Base (child F cfg.K) :=
  Base.create (Blockchain.create cfg.K (fun _ => .missing) 0) initialised

/-- A main record, which has one of the six types if it is a node, and SIGNATURES records. -/
structure Transactional (b : SbBatch) : Prop where
  type : TypeKnown b.first.body
  signatures : ∀ r ∈ b.rest, (∃ l, r.body = .signatures l) ∧ r.result = SB_SUCCESS

/-- The rebuild makes the indexes of the object out of the rows it has stored. -/
structure Rebuilds (cfg : Conf) (s : Base (child F cfg.K)) (rows : List SbRecord) : Prop where
  keeps : Keeps cfg.K s.storage rows
  initialised : s.fields.Initialised
  rebuilt : rows.foldlM addIndexRow constructed.init = .ok s.fields.toSbIndexes

theorem rebuilds_started : Rebuilds cfg (started F cfg) [] where
  keeps := keeps_create fun _ => .inl rfl
  initialised := initialised_init
  rebuilt := rfl

theorem foldlM_signatures {l : List SbRecord} (h : ∀ r ∈ l, ∃ sigs, r.body = .signatures sigs)
    (idx : SbIndexes) : l.foldlM addIndexRow idx = .ok idx := by
  induction l with
  | nil => rfl
  | cons r l ih =>
    obtain ⟨sigs, hbo⟩ := h r List.mem_cons_self
    have hrow : idx.addIndexRow r = .ok idx := by
      rw [addIndexRow, hbo]
      split <;> rfl
    rw [List.foldlM_cons, hrow]
    exact ih fun r' hr' => h r' (List.mem_cons_of_mem _ hr')

/-- A batch is entered once, live and by the rebuild. -/
theorem Rebuilds.liveStep {s : Base (child F cfg.K)} {rows : List SbRecord}
    (h : Rebuilds cfg s rows) (now : Nat) {b : SbBatch} (hb : Transactional b) :
    ∃ s', liveStep cfg s (now, b) = some s' ∧
      Rebuilds cfg s' (rows ++ (s.fields.withResult b).records) := by
  obtain ⟨idx', hrow, hca, hin⟩ := calcFields_ok h.initialised hb.type
  have hcl : Returns (BlockchainBase.appendBatch cfg () now ⟨some b, false⟩ b) s fun _ s' =>
      Keeps cfg.K s'.storage (rows ++ (s.fields.withResult b).records) ∧
        s'.fields.toSbIndexes = idx' := by
    refine .bind (.get ?_)
    simp only [calcFieldsAndUpdateIndexesFor, hca]
    refine .bind (.of_modify (.bind (onStorage_returns
      ((appendRecords_keeps now _ h.keeps).mono ?_))))
    rintro r st ⟨-, hke⟩
    exact .pure ⟨hke, rfl⟩
  obtain ⟨goOn, s', hs', hke, hfi⟩ := hcl
  refine ⟨s', by rw [SubclusterBlockchain.liveStep, hs'], hke, by rw [hfi]; exact hin, ?_⟩
  rw [List.foldlM_append, h.rebuilt, hfi, SbBatch.records]
  show List.foldlM addIndexRow s.fields.toSbIndexes _ = _
  rw [List.foldlM_cons, hrow]
  exact foldlM_signatures (fun r hr => (hb.signatures r hr).1) idx'

theorem Rebuilds.run : ∀ {es : List (Nat × SbBatch)} {s : Base (child F cfg.K)}
    {rows : List SbRecord}, Rebuilds cfg s rows → (∀ e ∈ es, Transactional e.2) →
    ∃ s' rows', Lib.run (SubclusterBlockchain.liveStep cfg) s es = some s' ∧
      Rebuilds cfg s' rows' := by
  intro es
  induction es with
  | nil =>
    intro s rows h _
    exact ⟨s, rows, rfl, h⟩
  | cons e es ih =>
    intro s rows h hes
    obtain ⟨s₁, hs₁, h₁⟩ := h.liveStep e.1 (hes e List.mem_cons_self)
    obtain ⟨s', rows', hrun, h'⟩ := ih h₁ fun e' he' => hes e' (List.mem_cons_of_mem _ he')
    exact ⟨s', rows', by rw [Lib.run, hs₁]; exact hrun, h'⟩

/-- `add_index_data` of an object over a storage that holds the rows. -/
theorem addIndexData_holds {K : Params} (hK : K.RecCount = GRADIDO_BLOCK_SIZE)
    {st : Blockchain F} {rows : List SbRecord} {cs : Nat → F.Checksum} (h : Holds K st rows cs)
    {idx idx' : SbIndexes} (hfo : rows.foldlM addIndexRow idx = .ok idx') (now : Nat) :
    Returns (addIndexData K 0 now idx) st fun r _ => r = (true, idx') := by
  refine .bind (.get ?_)
  rw [h.valid_eq, Nat.sub_zero]
  refine .bind ((passBlocks_holds hK h hfo now).mono ?_)
  rintro r st' ⟨rfl, -⟩
  exact .pure rfl

/-- Transactions are processed live, and a new object rebuilds its indexes from the rows they
left: the indexes are the same. -/
theorem subcluster_restart (F : RowFormat SbRecord) (name : String) (batchSize : Nat)
    (es : List (Nat × SbBatch)) (hes : ∀ e ∈ es, Transactional e.2) :
    ∃ live rows,
      run (liveStep (sbConf name batchSize)) (started F (sbConf name batchSize)) es = some live ∧
      Keeps groupParams live.storage rows ∧
      ∀ (st : Blockchain F) (cs : Nat → F.Checksum) (now : Nat), Holds groupParams st rows cs →
        Returns (addIndexData groupParams 0 now constructed.init) st fun r _ =>
          r = (true, live.fields.toSbIndexes) := by
  have hsr : Rebuilds (sbConf name batchSize) (started F (sbConf name batchSize)) [] :=
    rebuilds_started
  obtain ⟨live, rows, hrun, h⟩ := hsr.run hes
  exact ⟨live, rows, hrun, h.keeps, fun st cs now hst => addIndexData_holds rfl hst h.rebuilt now⟩

/-- An admin with key 1. -/
def addsAdmin (name : UInt8) : SbBatch :=
  ⟨⟨HederaTransaction.zero, .addAdmin ⟨Chain.key 1, Vector.replicate 64 name,
    Vector.replicate 64 0⟩, 0⟩, []⟩

/-- The admin is added, again under another name, and a node that is signed. -/
def twoAdmins : List (Nat × SbBatch) :=
  [(0, addsAdmin 1), (0, addsAdmin 2),
    (0, ⟨⟨HederaTransaction.zero, .addNode (node 2), 0⟩, [signaturesRecord]⟩)]

theorem subcluster_restart_twoAdmins :
    ∃ live, run (liveStep (sbConf "sb" 100)) (started (digestFormat SbRecord) (sbConf "sb" 100))
        twoAdmins = some live ∧
      Returns (addIndexData groupParams 0 0 constructed.init) live.storage fun r _ =>
        r = (true, live.fields.toSbIndexes) := by
  have hes : ∀ e ∈ twoAdmins, Transactional e.2 := by
    intro e he
    simp only [twoAdmins, List.mem_cons, List.not_mem_nil, or_false] at he
    rcases he with rfl | rfl | rfl
    · exact ⟨trivial, fun r hr => (nomatch hr)⟩
    · exact ⟨trivial, fun r hr => (nomatch hr)⟩
    · refine ⟨rfl, fun r hr => ?_⟩
      rw [List.mem_singleton.mp hr]
      exact ⟨⟨_, rfl⟩, rfl⟩
  obtain ⟨live, rows, hrun, ⟨⟨cs, hcs⟩, -⟩, hre⟩ :=
    subcluster_restart (digestFormat SbRecord) "sb" 100 twoAdmins hes
  exact ⟨live, hrun, hre live.storage cs 0 hcs⟩

end SubclusterBlockchain

end GradidoNode
