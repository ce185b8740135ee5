/-
# `GradidoNode.Subcluster.SubclusterBlockchain` — the chain of a subcluster

`SubclusterBlockchain`: the records that make a subcluster (its header, the admins, the
nodes, the chains it has), and the indexes that are kept of them.

    initial_key      the key in the last SB_HEADER
    admins           by key
    nodes            by key
    nodes_by_type    a map by key for each of the six types; `init` makes the six maps
    blockchains      by key

`do_add_index_data` enters a record in them.  It is called for the first record of a
batch that gets SUCCESS, and by `add_index_data` for every stored row with the result
SUCCESS.  `insert` keeps what is there.

Of a record those fields are modelled that one of these functions reads or stores in an
index.  `record_type` and the member of the union it selects are one value; the types
nothing is done for have no data.
-/
import GradidoNode.Base.BlockchainBase
import GradidoNode.Lib.PMap
import GradidoNode.Storage.Pass
import GradidoNode.Wire.Layout

namespace GradidoNode

open Lib Blockchain Wire

/-! ## Records -/

inductive SbNodeType where
  | ordering | gradido | login | backup | logger | pinger
  deriving DecidableEq, Repr

/-- The enumerator with the value of a byte. -/
def SbNodeType.ofByte (b : UInt8) : Option SbNodeType :=
  match b.toNat with
  | 1 => some .ordering
  | 2 => some .gradido
  | 3 => some .login
  | 4 => some .backup
  | 5 => some .logger
  | 6 => some .pinger
  | _ => none

structure SbAdmin where
  pubKey : PubKey
  name : Vector UInt8 64
  email : Vector UInt8 64
  deriving DecidableEq

structure SbNode where
  nodeType : UInt8
  pubKey : PubKey
  endpoint : Vector UInt8 128
  deriving DecidableEq

structure PubKeyEntity where
  pubKey : PubKey
  deriving DecidableEq

/-- `SbRecordType` and the member of the union it selects; of the header only its key. -/
inductive SbBody where
  | header (pubKey : PubKey)
  | addAdmin (admin : SbAdmin)
  | addNode (node : SbNode)
  | enableAdmin
  | disableAdmin
  | enableNode
  | disableNode
  | addBlockchain (chain : PubKeyEntity)
  | addNodeToBlockchain
  | removeNodeFromBlockchain
  | signatures (signatures : Vector Signature 10)
  | other (recordType : UInt8)
  deriving DecidableEq

/-- `HederaTransaction()`: all bytes zero. -/
def HederaTransaction.zero : HederaTransaction :=
  ⟨HederaTimestamp.zero, Vector.replicate _ 0, 0, 0⟩

/-- `SbTransactionResult`, as the byte a record carries; only these two are given. -/
def SB_SUCCESS : UInt8 := 0

@[inherit_doc SB_SUCCESS] def DUPLICATE_PUB_KEY : UInt8 := 1

structure SbRecord where
  hederaTransaction : HederaTransaction
  body : SbBody
  result : UInt8
  deriving DecidableEq

/-- `SbRecord()`: all bytes zero. -/
instance : Inhabited SbRecord := ⟨⟨HederaTransaction.zero, .other 0, 0⟩⟩

/-- The records of a batch: `buff[0]`, and those behind it. -/
structure SbBatch where
  first : SbRecord
  rest : List SbRecord

/-- `buff`, `size` records long. -/
def SbBatch.records (b : SbBatch) : List SbRecord := b.first :: b.rest

/-! ## The indexes -/

/-- The indexes of `SubclusterBlockchain`. -/
structure SbIndexes where
  initialKey : Bytes
  admins : PMap PubKey SbAdmin
  nodes : PMap PubKey SbNode
  nodesByType : PMap SbNodeType (PMap PubKey SbNode)
  blockchains : PMap PubKey PubKeyEntity

namespace SbIndexes

/-- The indexes of a new object. -/
def constructed : SbIndexes := ⟨[], .empty, .empty, .empty, .empty⟩

/-- `init`, the part about the indexes. -/
def init (idx : SbIndexes) : SbIndexes :=
  { idx with
    nodesByType := (((((idx.nodesByType.insertNew .ordering .empty).insertNew
      .gradido .empty).insertNew .login .empty).insertNew .backup .empty).insertNew
      .logger .empty).insertNew .pinger .empty }

/-- The case SB_ADD_NODE.  `find` is not compared with `end()`. -/
def addNode (idx : SbIndexes) (n : SbNode) : Except Fault SbIndexes :=
  match SbNodeType.ofByte n.nodeType with
  | none => .error (.undefined "nodes_by_type.end() dereferenced")
  | some t =>
    match idx.nodesByType t with
    | none => .error (.undefined "nodes_by_type.end() dereferenced")
    | some z =>
      .ok { idx with
        nodes := idx.nodes.insertNew n.pubKey n
        nodesByType := idx.nodesByType.put t (z.insertNew n.pubKey n) }

def doAddIndexData (idx : SbIndexes) : SbBody → Except Fault SbIndexes
  | .header pubKey => .ok { idx with initialKey := pubKey.toList }
  | .addAdmin a => .ok { idx with admins := idx.admins.insertNew a.pubKey a }
  | .addNode n => idx.addNode n
  | .addBlockchain c => .ok { idx with blockchains := idx.blockchains.insertNew c.pubKey c }
  | .enableAdmin | .disableAdmin | .enableNode | .disableNode => .ok idx
  | .addNodeToBlockchain | .removeNodeFromBlockchain => .ok idx
  | .signatures _ | .other _ => .ok idx

/-- The result a record gets. -/
def resultOf (idx : SbIndexes) : SbBody → UInt8
  | .addAdmin a => if (idx.admins a.pubKey).isSome then DUPLICATE_PUB_KEY else SB_SUCCESS
  | _ => SB_SUCCESS

/-- `calc_fields_and_update_indexes_for` on the indexes: they are updated from the first
record, which gets its result. -/
def calcFields (idx : SbIndexes) (b : SbBatch) : Except Fault (SbIndexes × SbBatch) :=
  let result := idx.resultOf b.first.body
  let b' : SbBatch := { b with first := { b.first with result := result } }
  if result = SB_SUCCESS then
    match idx.doAddIndexData b.first.body with
    | .ok idx' => .ok (idx', b')
    | .error e => .error e
  else .ok (idx, b')

/-- `clear_indexes`.  The loop over `nodes_by_type` is over copies of its elements, so the
maps in it are left; the initial key is left as well. -/
def clearIndexes (idx : SbIndexes) : SbIndexes :=
  { idx with admins := .empty, nodes := .empty, blockchains := .empty }

/-- What `add_index_data` does with a row. -/
def addIndexRow (idx : SbIndexes) (r : SbRecord) : Except Fault SbIndexes :=
  if r.result ≠ SB_SUCCESS then .ok idx else idx.doAddIndexData r.body

end SbIndexes

/-! ## The child class -/

/-- The data members of `SubclusterBlockchain`; of the notifier, whether there is one, and how
many of its tasks have been pushed. -/
structure SbFields extends SbIndexes where
  notifier : Bool
  notified : Nat

namespace SubclusterBlockchain

variable {F : RowFormat SbRecord}

/-- The constructor, and `init`. -/
def initialised : SbFields := ⟨SbIndexes.constructed.init, false, 0⟩

/-- `calc_fields_and_update_indexes_for`.  It is given batches with a first record only. -/
def calcFieldsAndUpdateIndexesFor (f : SbFields) (b : SbBatch) : Calculated SbFields SbBatch :=
  match f.calcFields b with
  | .error e => .failed e
  | .ok (idx, b') =>
    .ready
      { f with
        toSbIndexes := idx
        notified := if b'.first.result = SB_SUCCESS ∧ f.notifier then f.notified + 1
          else f.notified }
      b'

/-- `add_index_data`, on the indexes. -/
def addIndexData (K : Params) (indexedBlocks now : Nat) (idx : SbIndexes) :
    ChainM F (Bool × SbIndexes) := do
  let s ← get
  let idx ← passBlocks SbIndexes.addIndexRow K now indexedBlocks
    (s.checksumValidBlockCount - indexedBlocks) idx
  return (true, idx)

def getLatestTransactionId (K : Params) (now : Nat) : ChainM F (Option UInt64) := do
  let s ← get
  if s.recCount = 0 then return none
  else do
    let r ← getRecord K (s.recCount - 2) now
    match r.1 with
    | none => throw (.undefined "null record")
    | some row => return some (F.payload row.body).hederaTransaction.sequenceNumber

def getTransactionId (b : SbBatch) : UInt64 := b.first.hederaTransaction.sequenceNumber

/-- `SubclusterBlockchain`. -/
abbrev child (F : RowFormat SbRecord) (K : Params) : Child F where
  Fields := SbFields
  Content := SbBatch
  Env := Unit
  records := SbBatch.records
  less a b := decide (getTransactionId a < getTransactionId b)
  getTransactionId := getTransactionId
  getLatestTransactionId := getLatestTransactionId K
  calcFieldsAndUpdateIndexesFor _ _ := calcFieldsAndUpdateIndexesFor
  clearIndexes f := { f with toSbIndexes := f.toSbIndexes.clearIndexes }
  addIndexData indexedBlocks now f := do
    let r ← addIndexData K indexedBlocks now f.toSbIndexes
    return (r.1, { f with toSbIndexes := r.2 })

end SubclusterBlockchain

/-! ## Records that can be entered -/

namespace SbIndexes

variable {idx idx' : SbIndexes}

/-- There is a map for each of the six types. -/
def Initialised (idx : SbIndexes) : Prop := ∀ t, (idx.nodesByType t).isSome

/-- A node has one of the six types. -/
def TypeKnown : SbBody → Prop
  | .addNode n => (SbNodeType.ofByte n.nodeType).isSome
  | _ => True

theorem initialised_init : constructed.init.Initialised := by
  intro t
  cases t <;> rfl

theorem addNode_ok (h : Initialised idx) {n : SbNode} (hbo : TypeKnown (.addNode n)) :
    ∃ idx', idx.addNode n = .ok idx' ∧ Initialised idx' := by
  obtain ⟨t, ht⟩ := Option.isSome_iff_exists.mp hbo
  obtain ⟨z, hz⟩ := Option.isSome_iff_exists.mp (h t)
  rw [addNode, ht]
  simp only [hz]
  refine ⟨_, rfl, fun t' => ?_⟩
  dsimp only
  rw [PMap.put_apply]
  split
  · rfl
  · exact h t'

/-- A row can be entered, unless it is a node of an unknown type. -/
theorem addIndexRow_ok (h : Initialised idx) {r : SbRecord} (hbo : TypeKnown r.body) :
    ∃ idx', idx.addIndexRow r = .ok idx' ∧ Initialised idx' := by
  unfold addIndexRow
  split
  · exact ⟨idx, rfl, h⟩
  · cases hr : r.body with
    | addNode n =>
      rw [hr] at hbo
      exact addNode_ok h hbo
    | _ => exact ⟨_, rfl, h⟩

/-- The batch with the result its first record gets. -/
def withResult (idx : SbIndexes) (b : SbBatch) : SbBatch :=
  { b with first := { b.first with result := idx.resultOf b.first.body } }

/-- Live processing enters the first record of a batch as the row that is stored of it. -/
theorem calcFields_eq (idx : SbIndexes) (b : SbBatch) :
    idx.calcFields b = (idx.addIndexRow (idx.withResult b).first).map fun idx' =>
      (idx', idx.withResult b) := by
  unfold calcFields addIndexRow withResult
  by_cases hre : idx.resultOf b.first.body = SB_SUCCESS
  · rw [if_pos hre, if_neg (not_not.mpr hre)]
    cases idx.doAddIndexData b.first.body <;> rfl
  · rw [if_neg hre, if_pos hre]
    rfl

theorem calcFields_ok (h : Initialised idx) {b : SbBatch} (hbo : TypeKnown b.first.body) :
    ∃ idx', idx.addIndexRow (idx.withResult b).first = .ok idx' ∧
      idx.calcFields b = .ok (idx', idx.withResult b) ∧ Initialised idx' := by
  obtain ⟨idx', hrow, hin⟩ := addIndexRow_ok (r := (idx.withResult b).first) h hbo
  exact ⟨idx', hrow, by rw [calcFields_eq, hrow]; rfl, hin⟩

theorem calcFields_error {b : SbBatch} (hbo : ¬ TypeKnown b.first.body) :
    ∃ e, idx.calcFields b = .error e := by
  cases hb : b.first.body with
  | addNode n =>
    rw [hb] at hbo
    have hno : SbNodeType.ofByte n.nodeType = none := Option.not_isSome_iff_eq_none.mp hbo
    refine ⟨.undefined "nodes_by_type.end() dereferenced", ?_⟩
    simp only [calcFields, resultOf, hb, if_true, doAddIndexData, addNode, hno]
  | _ =>
    rw [hb] at hbo
    exact absurd trivial hbo

end SbIndexes

end GradidoNode
