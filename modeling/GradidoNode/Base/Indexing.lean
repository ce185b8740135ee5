/-
# `GradidoNode.Base.Indexing` — which rows the rebuild of the indexes is given

`add_index_data` is called after every validated block and once more when the chain
becomes READY.  It goes from `indexed_blocks` to the count of validated blocks, and
`indexed_blocks` is advanced by its caller, so it takes the two counters to stay in
step for a block to be indexed once:

    call            validated      indexed_blocks    rows given
    the first       0              0                 none; the indexes are cleared
    k + 1 <= n      k + 1          k                 those of block k
    the last        n              n                 none; READY

What is done with a row is of no account here.  `indexing` is the chain with any code
in the place of the index-building code of `BlockchainGradido`, which is one instance
of it (`child_eq_indexing`); the code that only writes down what it is given is
another.  `indexed_exactly_once` says of all of them that the calls from INITIAL to
READY give the code one list of rows, and what this list is.
-/
import GradidoNode.Base.BlockchainGradido
import GradidoNode.Storage.Scan

namespace GradidoNode.Indexing

open Lib Blockchain FileTile BlockchainGradido

variable {F : RowFormat GradidoRecord} {σ : Type}

/-! ## The loop around the index-building code -/

section Loop

variable (visit : σ → Nat → GradidoRecord → Option σ)

/-- The inner loop of `add_index_data`, as `Ledger.indexBlock`. -/
def visitBlock (i : Nat) (block : Nat → Row F.Body) : Nat → Nat → σ → Option σ
  | _, 0, x => some x
  | j, fuel + 1, x =>
    if (block j).type = RecordType.checksum then some x
    else
      match visit x (i * GRADIDO_BLOCK_SIZE + j) (F.payload (block j).body) with
      | none => none
      | some x => visitBlock i block (j + 1) fuel x

/-- The outer loop, as `Ledger.indexBlocks`. -/
def visitBlocks (K : Params) (now : Nat) : Nat → Nat → σ → ChainM F σ
  | _, 0, x => return x
  | i, count + 1, x => do
    let r ← getBlock K i now
    match r.1 with
    | none => throw (.undefined "null block")
    | some block =>
      match visitBlock visit i block 0 GRADIDO_BLOCK_SIZE x with
      | none => throw (.undefined "user_index.end() dereferenced")
      | some x => visitBlocks K now (i + 1) count x

def addIndexData (K : Params) (indexedBlocks now : Nat) (x : σ) : ChainM F (Bool × σ) := do
  let s ← get
  let x ← visitBlocks visit K now indexedBlocks (s.checksumValidBlockCount - indexedBlocks) x
  return (true, x)

/-- `BlockchainGradido` with other data members: what clears them, what is done with a row of
a validated block, and what with a batch. -/
abbrev indexing (F : RowFormat GradidoRecord) (K : Params) (clear : σ → σ)
    (calcFor : Env → Nat → σ → GradidoBatch → Calculated σ GradidoBatch) : Child F where
  Fields := σ
  Content := GradidoBatch
  Env := Env
  records b := Chain.batch b.transaction b.parts
  less a b := decide (a.transaction.sequenceNumber < b.transaction.sequenceNumber)
  getTransactionId b := b.transaction.sequenceNumber
  getLatestTransactionId := getLatestTransactionId K
  calcFieldsAndUpdateIndexesFor := calcFor
  clearIndexes := clear
  addIndexData := addIndexData visit K

end Loop

/-- The index-building code of `BlockchainGradido`. -/
def visitLedger (l : Ledger) (recNum : Nat) (r : GradidoRecord) : Option Ledger :=
  (Ledger.addIndexRow l.toIndexes recNum r).map fun idx => { l with toIndexes := idx }

theorem visitBlock_ledger (l : Ledger) (i : Nat) (block : Nat → Row F.Body) :
    ∀ (fuel j : Nat) (idx : Indexes),
      visitBlock visitLedger i block j fuel { l with toIndexes := idx }
        = (Ledger.indexBlock i block j fuel idx).map fun idx => { l with toIndexes := idx } := by
  intro fuel
  induction fuel with
  | zero =>
    intro j idx
    rfl
  | succ fuel ih =>
    intro j idx
    rw [visitBlock, Ledger.indexBlock]
    split
    · rfl
    · rw [visitLedger]
      cases Ledger.addIndexRow idx (i * GRADIDO_BLOCK_SIZE + j) (F.payload (block j).body) with
      | none => rfl
      | some idx' => exact ih (j + 1) idx'

theorem visitBlocks_ledger (l : Ledger) (K : Params) (now : Nat) :
    ∀ (count i : Nat) (idx : Indexes),
      visitBlocks visitLedger K now i count { l with toIndexes := idx } = (do
            let idx ← Ledger.indexBlocks K now i count idx
            return { l with toIndexes := idx } : ChainM F Ledger) := by
  intro count
  induction count with
  | zero =>
    intro i idx
    rfl
  | succ count ih =>
    intro i idx
    rw [visitBlocks, Ledger.indexBlocks, bind_assoc]
    refine bind_congr fun r => ?_
    cases r.1 with
    | none => rfl
    | some block =>
      dsimp only
      rw [visitBlock_ledger]
      cases Ledger.indexBlock i block 0 GRADIDO_BLOCK_SIZE idx with
      | none => rfl
      | some idx' => exact ih (i + 1) idx'

/-- `BlockchainGradido` is the chain with its own index-building code. -/
theorem child_eq_indexing (F : RowFormat GradidoRecord) (K : Params)
    (calculateDecay : DecayFunction) :
    child F K calculateDecay = indexing visitLedger F K
      (fun l => { l with toIndexes := Ledger.clearIndexes }) (calcBatch calculateDecay) := by
  have hadd : (child F K calculateDecay).addIndexData = addIndexData visitLedger K := by
    funext indexedBlocks now l
    show (do
      let idx ← Ledger.addIndexData K indexedBlocks now l.toIndexes
      return (true, { l with toIndexes := idx }) : ChainM F (Bool × Ledger)) = _
    rw [Ledger.addIndexData, addIndexData, bind_assoc]
    refine bind_congr fun s => ?_
    rw [visitBlocks_ledger l K now _ indexedBlocks l.toIndexes, bind_assoc]
    rfl
  unfold indexing
  rw [← hadd]

/-! ## The rows it is given -/

/-- Rows `j ..` of block `i` up to the CHECKSUM row, each with its number. -/
def blockVisits (i : Nat) (rows : Nat → Row F.Body) : Nat → Nat → List (Nat × GradidoRecord)
  | _, 0 => []
  | j, fuel + 1 =>
    if (rows j).type = RecordType.checksum then []
    else (i * GRADIDO_BLOCK_SIZE + j, F.payload (rows j).body) :: blockVisits i rows (j + 1) fuel

/-- The rows of the first `n` blocks of a folder. -/
def visits (disk : Nat → Entry F.Body) (n : Nat) : List (Nat × GradidoRecord) :=
  (List.range n).flatMap fun b => blockVisits b (entryRows F (disk b)) 0 GRADIDO_BLOCK_SIZE

/-- The code applied to each of them, in turn. -/
def visitAll (visit : σ → Nat → GradidoRecord → Option σ) :
    List (Nat × GradidoRecord) → σ → Option σ
  | [], x => some x
  | v :: vs, x => (visit x v.1 v.2).bind (visitAll visit vs)

theorem visitAll_append (visit : σ → Nat → GradidoRecord → Option σ)
    (vs vs' : List (Nat × GradidoRecord)) (x : σ) :
    visitAll visit (vs ++ vs') x = (visitAll visit vs x).bind (visitAll visit vs') := by
  induction vs generalizing x with
  | nil => rfl
  | cons v vs ih =>
    rw [List.cons_append, visitAll, visitAll]
    cases visit x v.1 v.2 with
    | none => rfl
    | some x' => exact ih x'

theorem visits_succ (disk : Nat → Entry F.Body) (n : Nat) : visits disk (n + 1)
      = visits disk n ++ blockVisits n (entryRows F (disk n)) 0 GRADIDO_BLOCK_SIZE := by
  rw [visits, List.range_succ, List.flatMap_append, List.flatMap_singleton]
  rfl

section Rows

variable {i : Nat} {rows : Nat → Row F.Body}

theorem visitBlock_eq (visit : σ → Nat → GradidoRecord → Option σ) {block : Nat → Row F.Body}
    (hblock : ∀ j < GRADIDO_BLOCK_SIZE, block j = rows j) :
    ∀ (fuel j : Nat) (x : σ), j + fuel = GRADIDO_BLOCK_SIZE →
      visitBlock visit i block j fuel x = visitAll visit (blockVisits i rows j fuel) x := by
  intro fuel
  induction fuel with
  | zero =>
    intro j x _
    rfl
  | succ fuel ih =>
    intro j x hj
    rw [visitBlock, blockVisits, hblock j (by omega)]
    split
    · rfl
    · rw [visitAll]
      cases visit x (i * GRADIDO_BLOCK_SIZE + j) (F.payload (rows j).body) with
      | none => rfl
      | some x' => exact ih (j + 1) x' (by omega)

/-- Only rows of the block, none of them the CHECKSUM row. -/
theorem mem_blockVisits {v : Nat × GradidoRecord} :
    ∀ (fuel j : Nat), v ∈ blockVisits i rows j fuel →
      ∃ m, j ≤ m ∧ m < j + fuel ∧ (rows m).type ≠ RecordType.checksum ∧
        v = (i * GRADIDO_BLOCK_SIZE + m, F.payload (rows m).body) := by
  intro fuel
  induction fuel with
  | zero =>
    intro j hv
    cases hv
  | succ fuel ih =>
    intro j hv
    rw [blockVisits] at hv
    split at hv
    · cases hv
    · next hsum =>
      rcases List.mem_cons.mp hv with rfl | hv
      · exact ⟨j, Nat.le_refl j, by omega, hsum, rfl⟩
      · obtain ⟨m, hm, hm', hsum', rfl⟩ := ih (j + 1) hv
        exact ⟨m, by omega, by omega, hsum', rfl⟩

theorem blockVisits_mem {m : Nat} (hbe : ∀ k ≤ m, (rows k).type ≠ RecordType.checksum) :
    ∀ (fuel j : Nat), j ≤ m → m < j + fuel →
      (i * GRADIDO_BLOCK_SIZE + m, F.payload (rows m).body) ∈ blockVisits i rows j fuel := by
  intro fuel
  induction fuel with
  | zero =>
    intro j hj hm
    omega
  | succ fuel ih =>
    intro j hj hm
    rw [blockVisits, if_neg (hbe j hj)]
    by_cases hjm : j = m
    · rw [hjm]
      exact List.mem_cons_self
    · exact List.mem_cons_of_mem _ (ih (j + 1) (by omega) (by omega))

theorem blockVisits_sorted : ∀ (fuel j : Nat),
    ((blockVisits i rows j fuel).map Prod.fst).Pairwise (· < ·) := by
  intro fuel
  induction fuel with
  | zero =>
    intro j
    exact List.Pairwise.nil
  | succ fuel ih =>
    intro j
    rw [blockVisits]
    split
    · exact List.Pairwise.nil
    · rw [List.map_cons, List.pairwise_cons]
      refine ⟨fun k hk => ?_, ih (j + 1)⟩
      obtain ⟨v, hv, rfl⟩ := List.mem_map.mp hk
      obtain ⟨m, hm, -, -, rfl⟩ := mem_blockVisits fuel (j + 1) hv
      omega

/-- In a block that is accepted no row before a PAYLOAD row is a CHECKSUM row. -/
theorem payload_before_checksum {K : Params} (h : WellShaped (rowTypes K rows)) {m : Nat}
    (hm : m < K.RecCount) (hpay : (rows m).type = RecordType.payload) :
    ∀ k ≤ m, (rows k).type ≠ RecordType.checksum := by
  obtain ⟨xs, n, heq, -, hxs⟩ := h
  have htype : ∀ j < K.RecCount,
      (xs ++ RecordType.checksum :: List.replicate n RecordType.empty)[j]?
        = some (rows j).type := by
    intro j hj
    rw [← heq]
    exact rowTypes_getElem? hj
  have hlt : m < xs.length := by
    by_contra hge
    have hmem := htype m hm
    rw [List.getElem?_append_right (by omega), hpay] at hmem
    rcases List.mem_cons.mp (List.mem_of_getElem? hmem) with hsum | hem
    · exact absurd hsum (by decide)
    · exact absurd (List.eq_of_mem_replicate hem) (by decide)
  intro k hk
  have hmem := htype k (by omega)
  rw [List.getElem?_append_left (by omega)] at hmem
  exact (hxs _ (List.mem_of_getElem? hmem)).2

end Rows

section Folder

variable {disk : Nat → Entry F.Body}

theorem mem_visits {n : Nat} {v : Nat × GradidoRecord} (h : v ∈ visits disk n) :
    ∃ b < n, ∃ m < GRADIDO_BLOCK_SIZE, (entryRows F (disk b) m).type ≠ RecordType.checksum ∧
        v = (b * GRADIDO_BLOCK_SIZE + m, F.payload (entryRows F (disk b) m).body) := by
  obtain ⟨b, hb, hv⟩ := List.mem_flatMap.mp h
  obtain ⟨m, -, hm, hsum, rfl⟩ := mem_blockVisits _ 0 hv
  exact ⟨b, List.mem_range.mp hb, m, by omega, hsum, rfl⟩

theorem visits_sorted (disk : Nat → Entry F.Body) (n : Nat) :
    ((visits disk n).map Prod.fst).Pairwise (· < ·) := by
  induction n with
  | zero => exact List.Pairwise.nil
  | succ n ih =>
    rw [visits_succ, List.map_append, List.pairwise_append]
    refine ⟨ih, blockVisits_sorted _ 0, fun k hk k' hk' => ?_⟩
    obtain ⟨v, hv, rfl⟩ := List.mem_map.mp hk
    obtain ⟨v', hv', rfl⟩ := List.mem_map.mp hk'
    obtain ⟨b, hb, m, hm, -, rfl⟩ := mem_visits hv
    obtain ⟨m', -, -, -, rfl⟩ := mem_blockVisits _ 0 hv'
    have hle : (b + 1) * GRADIDO_BLOCK_SIZE ≤ n * GRADIDO_BLOCK_SIZE := Nat.mul_le_mul_right _ hb
    rw [Nat.succ_mul] at hle
    omega

/-- Every PAYLOAD row of an accepted block is among them. -/
theorem payload_visited {K : Params} (hK : K.RecCount = GRADIDO_BLOCK_SIZE) {n b m : Nat}
    (hacc : Accepted K (disk b)) (hb : b < n) (hm : m < GRADIDO_BLOCK_SIZE)
    (hpay : (entryRows F (disk b) m).type = RecordType.payload) :
    (b * GRADIDO_BLOCK_SIZE + m, F.payload (entryRows F (disk b) m).body) ∈ visits disk n := by
  refine List.mem_flatMap.mpr ⟨b, List.mem_range.mpr hb, ?_⟩
  have hbe := payload_before_checksum hacc.wellShaped (by omega) hpay
  exact blockVisits_mem hbe _ 0 (Nat.zero_le m) (by omega)

end Folder

/-! ## The calls from INITIAL to READY -/

section Calls

variable {clear : σ → σ} {visit : σ → Nat → GradidoRecord → Option σ}
  {calcFor : Env → Nat → σ → GradidoBatch → Calculated σ GradidoBatch} {cfg : Base.Conf}
  {disk : Nat → Entry F.Body} {n k : Nat} {fields : σ}

/-- `continue_validation`, as long as it returns; a call comes with the sibling found and the
time. -/
def validationStep {C : Child F} (cfg : Base.Conf) (s : Base C) (call : Option String × Nat) :
    Option (Base C) :=
  match Base.continueValidation cfg call.1 call.2 s with
  | .ok _ s' => some s'
  | .error _ _ => none

/-- No reset so far. -/
def NoReset {C : Child F} (s : Base C) : Prop := ∀ cause, .resetValidation cause ∉ s.out

variable (cfg disk n fields) in
/-- VALIDATING, with `k` blocks validated and given to the code. -/
structure Indexed (k : Nat) (s : Base (indexing visit F cfg.K clear calcFor)) : Prop where
  state_eq : s.state = .validating
  scanned : Scanned cfg.K disk n k s.storage
  unread : Unread k s.storage
  indexed_eq : s.indexedBlocks = k
  fields_eq : visitAll visit (visits disk k) (clear fields) = some s.fields
  noReset : NoReset s

variable {s s' : Base (indexing visit F cfg.K clear calcFor)}

/-- `add_index_data` over the block that has just been validated: the code is given its rows. -/
theorem addIndexData_next (visit : σ → Nat → GradidoRecord → Option σ)
    (hK : cfg.K.RecCount = GRADIDO_BLOCK_SIZE) {st : Blockchain F}
    (h : Scanned cfg.K disk n (k + 1) st) (hun : Unread (k + 1) st) (hk : k < n) (now : Nat)
    (x : σ) :
    ∃ st', Scanned cfg.K disk n (k + 1) st' ∧ Unread (k + 1) st' ∧
      (∀ x', visitAll visit (blockVisits k (entryRows F (disk k)) 0 GRADIDO_BLOCK_SIZE) x = some x' →
        addIndexData visit cfg.K k now x st = .ok (true, x') st') ∧
      (visitAll visit (blockVisits k (entryRows F (disk k)) 0 GRADIDO_BLOCK_SIZE) x = none →
        addIndexData visit cfg.K k now x st
          = .error (.undefined "user_index.end() dereferenced") st') := by
  obtain ⟨r, st', heq, ⟨block, rfl, hro⟩, h', hun'⟩ := h.getBlock hk now
  rw [Nat.max_self] at hun'
  have hvi := visitBlock_eq (i := k) visit (fun j hj => hro j (by omega)) GRADIDO_BLOCK_SIZE 0
    x (Nat.zero_add _)
  rw [addIndexData, get_bind, h.valid_eq, Nat.add_sub_cancel_left, visitBlocks, bind_assoc,
    bind_eq heq]
  refine ⟨st', h', hun' hun, fun x' hall => ?_, fun hall => ?_⟩ <;> rw [hall] at hvi
  · simp only [hvi]
    rfl
  · simp only [hvi]
    rfl

theorem addIndexData_done {st : Blockchain F} (h : Scanned cfg.K disk n n st) (now : Nat) (x : σ) :
    addIndexData visit cfg.K n now x st = .ok (true, x) st := by
  rw [addIndexData, get_bind, h.valid_eq, Nat.sub_self]
  rfl

theorem continueValidation_initial (hn : 1 ≤ n) (hacc : ∀ b < n, Accepted cfg.K (disk b))
    (sibling : Option String) (now : Nat) :
    Returns (Base.continueValidation cfg sibling now)
      (Base.create (Blockchain.create cfg.K disk n) fields
        : Base (indexing visit F cfg.K clear calcFor))
      fun _ s' => Indexed cfg disk n fields 0 s' := by
  refine .bind (.get ?_)
  have hlen : (Blockchain.create cfg.K disk n).tiles.length = n := by simp [Blockchain.create]
  show Returns (if 0 < (Blockchain.create cfg.K disk n).tiles.length then _ else _) _ _
  rw [if_pos (by omega)]
  refine .of_modify ⟨rfl, create_scanned fun b hb => (hacc b hb).1, create_unread disk n,
    rfl, rfl, ?_⟩
  intro cause hmem
  cases List.mem_singleton.mp hmem

/-- VALIDATING, with a block left: it is validated, and the code is given its rows. -/
theorem Indexed.validates (hK : cfg.K.RecCount = GRADIDO_BLOCK_SIZE)
    (hacc : ∀ b < n, Accepted cfg.K (disk b)) (h : Indexed cfg disk n fields k s) (hk : k < n)
    (now : Nat) :
    ∃ st, Scanned cfg.K disk n (k + 1) st ∧ Unread (k + 1) st ∧
      (∀ x, visitAll visit (blockVisits k (entryRows F (disk k)) 0 GRADIDO_BLOCK_SIZE) s.fields
          = some x → Base.validateNextBatch cfg now s = .ok () { s with
            storage := st
            fields := x
            out := s.out ++ [.continueValidation 0]
            indexedBlocks := s.indexedBlocks + 1 }) ∧
      (visitAll visit (blockVisits k (entryRows F (disk k)) 0 GRADIDO_BLOCK_SIZE) s.fields = none →
        ∃ e s', Base.validateNextBatch cfg now s = .error e s') := by
  obtain ⟨r, st₁, hval, rfl, h₁, hun₁⟩ := h.scanned.validate hk (hacc k hk).wellShaped
    (h.unread.nextClosed (Nat.le_of_eq h.scanned.valid_eq.symm) now)
  obtain ⟨st, hst, hun, hso, hno⟩ := addIndexData_next visit hK h₁ (hun₁ h.unread) hk now s.fields
  have hlf : ¬ s.storage.checksumValidBlockCount = s.storage.tiles.length := by
    rw [h.scanned.valid_eq, h.scanned.length_eq]
    omega
  have hyes : Base.onStorage (validateNextChecksum cfg.K now) s
      = .ok (true, .ok) { s with storage := st₁ } := by simp only [Base.onStorage, hval]
  refine ⟨st, hst, hun, fun x hx => ?_, fun hx => ?_⟩
  · have hadd : Base.addIndexData now { s with storage := st₁ }
        = .ok true { s with storage := st, fields := x } := by
      have hon : Base.onStorage (addIndexData visit cfg.K s.indexedBlocks now s.fields)
          { s with storage := st₁ } = .ok (true, x) { s with storage := st } := by
        rw [h.indexed_eq]
        simp only [Base.onStorage, hso x hx]
      rw [Base.addIndexData, get_bind, bind_eq hon]
      rfl
    rw [Base.validateNextBatch, get_bind, if_neg hlf, bind_eq hyes]
    rw [if_pos rfl, bind_eq hadd]
    rfl
  · have hadd : Base.addIndexData now { s with storage := st₁ }
        = .error (.undefined "user_index.end() dereferenced") { s with storage := st } := by
      have hon : Base.onStorage (addIndexData visit cfg.K s.indexedBlocks now s.fields)
          { s with storage := st₁ }
          = .error (.undefined "user_index.end() dereferenced") { s with storage := st } := by
        rw [h.indexed_eq]
        simp only [Base.onStorage, hno hx]
      rw [Base.addIndexData, get_bind, bind_error hon]
    rw [Base.validateNextBatch, get_bind, if_neg hlf, bind_eq hyes]
    rw [if_pos rfl, bind_error hadd]
    exact ⟨_, _, rfl⟩

/-- One more block indexed, unless the code fails on a row of it. -/
theorem Indexed.next (hK : cfg.K.RecCount = GRADIDO_BLOCK_SIZE)
    (hacc : ∀ b < n, Accepted cfg.K (disk b)) (h : Indexed cfg disk n fields k s) (hk : k < n)
    (call : Option String × Nat) :
    (∃ x, visitAll visit (visits disk (k + 1)) (clear fields) = some x ∧
      ∃ s', validationStep cfg s call = some s' ∧ Indexed cfg disk n fields (k + 1) s') ∨
    (visitAll visit (visits disk (k + 1)) (clear fields) = none ∧
      validationStep cfg s call = none) := by
  obtain ⟨st, hst, hun, hso, hno⟩ := h.validates hK hacc hk call.2
  have hca : Base.continueValidation cfg call.1 call.2 s = Base.validateNextBatch cfg call.2 s := by
    unfold Base.continueValidation
    rw [get_bind, h.state_eq]
  have hfi := visitAll_append visit (visits disk k)
    (blockVisits k (entryRows F (disk k)) 0 GRADIDO_BLOCK_SIZE) (clear fields)
  rw [← visits_succ, h.fields_eq, Option.bind_some] at hfi
  cases hx : visitAll visit (blockVisits k (entryRows F (disk k)) 0 GRADIDO_BLOCK_SIZE) s.fields with
  | none =>
    obtain ⟨e, s', herr⟩ := hno hx
    refine .inr ⟨hfi.trans hx, ?_⟩
    rw [validationStep, hca, herr]
  | some x =>
    refine .inl ⟨x, hfi.trans hx, { s with
        storage := st
        fields := x
        out := s.out ++ [.continueValidation 0]
        indexedBlocks := s.indexedBlocks + 1 }, by rw [validationStep, hca, hso x hx],
      h.state_eq, hst, hun, congrArg (· + 1) h.indexed_eq, hfi.trans hx, ?_⟩
    intro cause hmem
    rcases List.mem_append.mp hmem with hold | hnew
    · exact h.noReset cause hold
    · cases List.mem_singleton.mp hnew

theorem Indexed.ready (h : Indexed cfg disk n fields n s) (call : Option String × Nat) :
    ∃ s', validationStep cfg s call = some s' ∧ s'.state = .ready ∧
      visitAll visit (visits disk n) (clear fields) = some s'.fields ∧ NoReset s' := by
  have hall : s.storage.checksumValidBlockCount = s.storage.tiles.length := by
    rw [h.scanned.valid_eq, h.scanned.length_eq]
  have hadd : Base.addIndexData call.2 { s with state := .ready }
      = .ok true { s with state := .ready } := by
    have hon : Base.onStorage (addIndexData visit cfg.K s.indexedBlocks call.2 s.fields)
        { s with state := .ready } = .ok (true, s.fields) { s with state := .ready } := by
      rw [h.indexed_eq]
      simp only [Base.onStorage, addIndexData_done h.scanned]
    rw [Base.addIndexData, get_bind, bind_eq hon]
    rfl
  refine ⟨{ s with state := .ready }, ?_, rfl, h.fields_eq, h.noReset⟩
  unfold validationStep Base.continueValidation
  rw [get_bind, h.state_eq]
  dsimp only
  rw [Base.validateNextBatch, get_bind, if_pos hall, modify_bind, bind_eq hadd]
  rfl

theorem visitAll_none_of_le {x : σ} (h : visitAll visit (visits disk k) x = none) (hk : k ≤ n) :
    visitAll visit (visits disk n) x = none := by
  induction hk with
  | refl => exact h
  | step _ ih => rw [visits_succ, visitAll_append, ih, Option.bind_none]

theorem validationStep_ready (h : s.state = .ready) (call : Option String × Nat) :
    validationStep cfg s call = none := by
  unfold validationStep Base.continueValidation
  rw [get_bind, h]
  rfl

theorem Indexed.run (hK : cfg.K.RecCount = GRADIDO_BLOCK_SIZE)
    (hacc : ∀ b < n, Accepted cfg.K (disk b)) {calls : List (Option String × Nat)}
    (h : Indexed cfg disk n fields k s) (hk : k ≤ n) :
    (∀ s', run (validationStep cfg) s calls = some s' → s'.state = .ready →
      visitAll visit (visits disk n) (clear fields) = some s'.fields ∧ NoReset s') ∧
    (k + calls.length = n + 1 → visitAll visit (visits disk n) (clear fields) ≠ none →
      ∃ s', run (validationStep cfg) s calls = some s' ∧ s'.state = .ready) := by
  induction calls generalizing k s with
  | nil =>
    refine ⟨fun s' hs' hready => ?_, fun hlen => ?_⟩
    · cases hs'
      rw [h.state_eq] at hready
      cases hready
    · rw [List.length_nil] at hlen
      omega
  | cons call calls ih =>
    rcases Nat.lt_or_eq_of_le hk with hlt | rfl
    · rcases h.next hK hacc hlt call with ⟨x, -, s₁, hs₁, h₁⟩ | ⟨hnn, hst⟩
      · rw [Lib.run, hs₁]
        obtain ⟨hend, hre⟩ := ih h₁ hlt
        refine ⟨hend, fun hlen => hre ?_⟩
        rw [List.length_cons] at hlen
        omega
      · -- the code fails on a row of this block, and so does the whole list
        rw [Lib.run, hst]
        refine ⟨fun s' hs' => ?_, fun _ hok => absurd (visitAll_none_of_le hnn hlt) hok⟩
        cases hs'
    · obtain ⟨s₁, hs₁, hready₁, hfi, hno⟩ := h.ready call
      rw [Lib.run, hs₁]
      cases calls with
      | nil =>
        refine ⟨fun s' hs' _ => ?_, fun _ _ => ⟨s₁, rfl, hready₁⟩⟩
        cases hs'
        exact ⟨hfi, hno⟩
      | cons call' calls =>
        refine ⟨fun s' hs' => ?_, fun hlen => ?_⟩
        · have hst : run (validationStep cfg) s₁ (call' :: calls) = none := by
            rw [Lib.run, validationStep_ready hready₁]
          cases hst.symm.trans hs'
        · rw [List.length_cons, List.length_cons] at hlen
          omega

end Calls

/-- **Exactly-once indexing.**  `BlockchainGradido` is one of the chains that give the rows of
validated blocks to some code.  For every such chain and every folder of accepted blocks there
is one list of rows, in increasing order, with every PAYLOAD row of every block in it, such
that: a sequence of calls of `continue_validation` that ends in READY has given the code the
rows of this list, one after the other, and has reset nothing; and `n + 2` calls do end in
READY, if the code does not fail on one of the rows. -/
theorem indexed_exactly_once (F : RowFormat GradidoRecord) (cfg : Base.Conf)
    (hK : cfg.K.RecCount = GRADIDO_BLOCK_SIZE) (disk : Nat → Entry F.Body) (n : Nat) (hn : 1 ≤ n)
    (hacc : ∀ b < n, Accepted cfg.K (disk b)) :
    (∀ calculateDecay, child F cfg.K calculateDecay = indexing visitLedger F cfg.K
      (fun l => { l with toIndexes := Ledger.clearIndexes }) (calcBatch calculateDecay)) ∧
    ∃ rows : List (Nat × GradidoRecord), (rows.map Prod.fst).Pairwise (· < ·) ∧
      (∀ b < n, ∀ j < GRADIDO_BLOCK_SIZE, (entryRows F (disk b) j).type = RecordType.payload →
        (b * GRADIDO_BLOCK_SIZE + j, F.payload (entryRows F (disk b) j).body) ∈ rows) ∧
      (∀ row ∈ rows, ∃ b < n, ∃ j < GRADIDO_BLOCK_SIZE,
        row = (b * GRADIDO_BLOCK_SIZE + j, F.payload (entryRows F (disk b) j).body)) ∧
      ∀ (σ : Type) (clear : σ → σ) (visit : σ → Nat → GradidoRecord → Option σ)
        (calcFor : Env → Nat → σ → GradidoBatch → Calculated σ GradidoBatch) (fields : σ)
        (calls : List (Option String × Nat)),
        let start : Base (indexing visit F cfg.K clear calcFor) :=
          Base.create (Blockchain.create cfg.K disk n) fields
        (∀ s, run (validationStep cfg) start calls = some s → s.state = .ready →
          visitAll visit rows (clear fields) = some s.fields ∧ NoReset s) ∧
        (calls.length = n + 2 → visitAll visit rows (clear fields) ≠ none →
          ∃ s, run (validationStep cfg) start calls = some s ∧ s.state = .ready) := by
  refine ⟨child_eq_indexing F cfg.K, visits disk n, visits_sorted disk n,
    fun b hb j hj hpay => payload_visited hK (hacc b hb) hb hj hpay, fun row hrow => ?_, ?_⟩
  · obtain ⟨b, hb, j, hj, -, rfl⟩ := mem_visits hrow
    exact ⟨b, hb, j, hj, rfl⟩
  intro σ clear visit calcFor fields calls start
  cases calls with
  | nil =>
    refine ⟨fun s hs hready => ?_, fun hlen => ?_⟩
    · cases hs
      cases hready
    · cases hlen
  | cons call calls =>
    have hin : Returns (Base.continueValidation cfg call.1 call.2) start
        fun _ s' => Indexed cfg disk n fields 0 s' :=
      continueValidation_initial hn hacc call.1 call.2
    obtain ⟨_, s₁, heq, h₁⟩ := hin
    have hs₁ : validationStep cfg start call = some s₁ := by rw [validationStep, heq]
    rw [run, hs₁]
    obtain ⟨hend, hre⟩ := h₁.run hK hacc (Nat.zero_le n)
    refine ⟨hend, fun hlen => hre ?_⟩
    rw [List.length_cons] at hlen
    omega

/-- Code that only writes down what it is given. -/
def writeDown (log : List (Nat × GradidoRecord)) (recNum : Nat) (r : GradidoRecord) :
    Option (List (Nat × GradidoRecord)) :=
  some (log ++ [(recNum, r)])

theorem visitAll_writeDown (rows log : List (Nat × GradidoRecord)) :
    visitAll writeDown rows log = some (log ++ rows) := by
  induction rows generalizing log with
  | nil => rw [List.append_nil]; rfl
  | cons row rows ih =>
    show visitAll writeDown rows (log ++ [row]) = _
    rw [ih, List.append_assoc]
    rfl

/-- Two blocks, and the rows the code writes down. -/
theorem indexed_exactly_once_writtenDown :
    let start : Base (indexing writeDown (digestFormat GradidoRecord) groupConf.K (fun _ => [])
        fun _ _ log _ => .notReady log none) :=
      Base.create (Blockchain.create groupConf.K
        (folderOf _ groupConf.K [[.memo], [.signatures, .memo]]) 2) []
    ∃ s, run (validationStep groupConf) start (List.replicate 4 (none, 0)) = some s ∧
      s.state = .ready ∧ NoReset s ∧ (s.fields.map Prod.fst).Pairwise (· < ·) ∧
      (1001, GradidoRecord.memo) ∈ s.fields := by
  intro start
  have hacc : ∀ b < 2, Accepted groupConf.K
      (folderOf (digestFormat GradidoRecord) groupConf.K [[.memo], [.signatures, .memo]] b) := by
    decide +kernel
  obtain ⟨-, rows, hso, hmem, -, hru⟩ := indexed_exactly_once (digestFormat GradidoRecord)
    groupConf rfl _ 2 (by decide) hacc
  obtain ⟨hend, hre⟩ := hru _ (fun _ => []) writeDown (fun _ _ log _ => .notReady log none) []
    (List.replicate 4 (none, 0))
  have hro : visitAll writeDown rows [] = some rows := visitAll_writeDown rows []
  obtain ⟨s, hs, hready⟩ := hre rfl (by rw [hro]; exact Option.some_ne_none rows)
  obtain ⟨hfi, hno⟩ := hend s hs hready
  have heq : rows = s.fields := Option.some.inj (hro.symm.trans hfi)
  subst heq
  exact ⟨s, hs, hready, hno, hso, hmem 1 (by decide) 1 (by decide) rfl⟩

end GradidoNode.Indexing
