/-
# `GradidoNode.Register.GroupRegister` — the register of groups

`GroupRegister`, the other child of `BlockchainBaseDeprecated`: a chain of
`GroupRegisterRecord`s, and the index `aliases` of the groups that have been
registered.  Two functions write the index, and each makes the key in its own way:

    calc_fields_and_update_indexes_for   all GROUP_ALIAS_LENGTH bytes of the field
    add_index_data                       the bytes up to the first NUL, from the
                                         beginning of the field on

The second one reads on behind the field when there is no NUL in it, so what it reads
depends on the bytes of the record; a record is its bytes here, and `group_record` a
view of them.  Reading on behind the record is a fault.

A batch of the register has one record (`translate_from_ctr`).
-/
import GradidoNode.Base.BlockchainBase
import GradidoNode.Lib.PMap
import GradidoNode.Storage.Pass
import GradidoNode.Wire.Layout

namespace GradidoNode

open Lib Blockchain Wire

structure HederaTopicID where
  shardNum : Int64
  realmNum : Int64
  topicNum : Int64
  deriving DecidableEq

def HederaTopicID.packed : Packed HederaTopicID :=
  (Packed.int64.pair (Packed.int64.pair Packed.int64)).map
    ⟨fun t => (t.shardNum, t.realmNum, t.topicNum), fun p => ⟨p.1, p.2.1, p.2.2⟩,
      fun _ => rfl, fun _ => rfl⟩

/-- `GroupRecord`; `groupAlias` is its field `alias`, and `success` is a `bool`. -/
structure GroupRecord where
  groupAlias : Vector UInt8 GROUP_ALIAS_LENGTH
  topicId : HederaTopicID
  success : UInt8
  hederaTransaction : HederaTransaction
  signature : Signature
  deriving DecidableEq

namespace GroupRecord

/-- The fields behind the alias. -/
def behindAlias : Packed (HederaTopicID × UInt8 × HederaTransaction × Signature) :=
  HederaTopicID.packed.pair (Packed.byte.pair (HederaTransaction.packed.pair Signature.packed))

def packed : Packed GroupRecord :=
  ((Packed.array GROUP_ALIAS_LENGTH).pair behindAlias).map
    ⟨fun g => (g.groupAlias, g.topicId, g.success, g.hederaTransaction, g.signature),
      fun p => ⟨p.1, p.2.1, p.2.2.1, p.2.2.2.1, p.2.2.2.2⟩, fun _ => rfl, fun _ => rfl⟩

theorem write_packed (g : GroupRecord) : packed.write g = g.groupAlias.toList ++
    behindAlias.write (g.topicId, g.success, g.hederaTransaction, g.signature) := rfl

/-- The record with `success` set. -/
def withSuccess (g : GroupRecord) (succ : Bool) : GroupRecord :=
  { g with success := if succ then 1 else 0 }

/-- The string in the alias field. -/
def aliasString (g : GroupRecord) : List UInt8 := g.groupAlias.toList.takeWhile (· ≠ 0)

end GroupRecord

def registerBodySize : Nat :=
  unionSize [GroupRecord.packed.size, structurallyBadMessage.size, MEMO_PART_SIZE]

/-- `GroupRegisterRecordType::GROUP_RECORD`. -/
def GROUP_RECORD : UInt8 := 1

/-- `GroupRegisterRecord`; `body` is its union. -/
structure GroupRegisterRecord where
  recordType : UInt8
  body : Vector UInt8 registerBodySize
  deriving DecidableEq

namespace GroupRegisterRecord

/-- The member `group_record`. -/
def groupRecord (r : GroupRegisterRecord) : GroupRecord :=
  GroupRecord.packed.read (r.body.toList.take GroupRecord.packed.size)

/-- The member written; the bytes of the union behind it stay. -/
def setGroupRecord (r : GroupRegisterRecord) (g : GroupRecord) : GroupRegisterRecord :=
  ⟨r.recordType, (Packed.array registerBodySize).read
    (GroupRecord.packed.write g ++ r.body.toList.drop GroupRecord.packed.size)⟩

instance : Inhabited GroupRegisterRecord := ⟨⟨0, Vector.replicate _ 0⟩⟩

theorem recordType_setGroupRecord (r : GroupRegisterRecord) (g : GroupRecord) :
    (r.setGroupRecord g).recordType = r.recordType := by
  rw [setGroupRecord]

theorem packed_size_le : GroupRecord.packed.size ≤ registerBodySize := by decide

theorem groupRecord_setGroupRecord (r : GroupRegisterRecord) (g : GroupRecord) :
    (r.setGroupRecord g).groupRecord = g := by
  have hlen : (GroupRecord.packed.write g ++ r.body.toList.drop GroupRecord.packed.size).length
      = registerBodySize := by
    have hle := packed_size_le
    rw [List.length_append, GroupRecord.packed.length_write, List.length_drop, Vector.length_toList]
    omega
  rw [groupRecord, setGroupRecord, Packed.toList_read_array hlen,
    List.take_left' (GroupRecord.packed.length_write g), GroupRecord.packed.read_write]

/-- The union begins with the alias. -/
theorem body_eq (r : GroupRegisterRecord) :
    ∃ rest, r.body.toList = r.groupRecord.groupAlias.toList ++ rest := by
  have hlen : (r.body.toList.take GroupRecord.packed.size).length = GroupRecord.packed.size := by
    rw [List.length_take, Vector.length_toList]
    exact Nat.min_eq_left packed_size_le
  have hwr : GroupRecord.packed.write r.groupRecord = r.body.toList.take GroupRecord.packed.size :=
    GroupRecord.packed.write_read _ hlen
  rw [← List.take_append_drop GroupRecord.packed.size r.body.toList, ← hwr,
    GroupRecord.write_packed, List.append_assoc]
  exact ⟨_, rfl⟩

end GroupRegisterRecord

namespace GroupRegister

variable {F : RowFormat GroupRegisterRecord}

/-- The index of the registered groups. -/
abbrev Aliases := PMap (List UInt8) GroupRecord

/-- The string at the beginning of some memory; `none` when it does not end there. -/
def cString (memory : List UInt8) : Option (List UInt8) :=
  if 0 ∈ memory then some (memory.takeWhile (· ≠ 0)) else none

/-! ## Live processing -/

def calcFieldsAndUpdateIndexesFor (aliases : Aliases) (b : GroupRegisterRecord) :
    Aliases × GroupRegisterRecord :=
  let key := b.groupRecord.groupAlias.toList
  let succ := decide (0 < key.length) && (aliases key).isNone
  let g := b.groupRecord.withSuccess succ
  (if succ then aliases.insertNew key g else aliases, b.setGroupRecord g)

/-! ## The index rebuilt -/

/-- How the loop over the rows ends before its end. -/
inductive Stopped where
  /-- `return false` -/
  | duplicate (aliases : Aliases)
  /-- an alias without an end -/
  | endless

/-- One row. -/
def addIndexRow (aliases : Aliases) (r : GroupRegisterRecord) : Except Stopped Aliases :=
  if r.recordType = GROUP_RECORD ∧ r.groupRecord.success ≠ 0 then
    match cString r.body.toList with
    | none => .error .endless
    | some key =>
      match aliases key with
      | some _ => .error (.duplicate aliases)
      | none => .ok (aliases.put key r.groupRecord)
  else .ok aliases

/-- The inner loop: rows `j ..` of a block, up to the CHECKSUM row. -/
def indexBlock (block : Nat → Row F.Body) : Nat → Nat → Aliases → Except Stopped Aliases
  | _, 0, aliases => .ok aliases
  | j, fuel + 1, aliases =>
    if (block j).type = RecordType.checksum then .ok aliases
    else
      match addIndexRow aliases (F.payload (block j).body) with
      | .error e => .error e
      | .ok aliases => indexBlock block (j + 1) fuel aliases

/-- The outer loop: `count` blocks from block `i` on. -/
def indexBlocks (K : Params) (now : Nat) : Nat → Nat → Aliases → ChainM F (Bool × Aliases)
  | _, 0, aliases => return (true, aliases)
  | i, count + 1, aliases => do
    let r ← getBlock K i now
    match r.1 with
    | none => throw (.undefined "null block")
    | some block =>
      match indexBlock block 0 GRADIDO_BLOCK_SIZE aliases with
      | .ok aliases => indexBlocks K now (i + 1) count aliases
      | .error (.duplicate aliases) => return (false, aliases)
      | .error .endless => throw (.undefined "alias read past the end of the record")

def addIndexData (K : Params) (indexedBlocks now : Nat) (aliases : Aliases) :
    ChainM F (Bool × Aliases) := do
  let s ← get
  indexBlocks K now indexedBlocks (s.checksumValidBlockCount - indexedBlocks) aliases

/-! ## The child -/

def getLatestTransactionId (K : Params) (now : Nat) : ChainM F (Option UInt64) := do
  let s ← get
  if s.recCount = 0 then return none
  else do
    let r ← getRecord K (s.recCount - 2) now
    match r.1 with
    | none => throw (.undefined "null record")
    | some row => return some (F.payload row.body).groupRecord.hederaTransaction.sequenceNumber

def getTransactionId (b : GroupRegisterRecord) : UInt64 :=
  b.groupRecord.hederaTransaction.sequenceNumber

/-- `GroupRegister`. -/
abbrev child (F : RowFormat GroupRegisterRecord) (K : Params) : Child F where
  Fields := Aliases
  Content := GroupRegisterRecord
  Env := Unit
  records b := [b]
  less a b := decide (getTransactionId a < getTransactionId b)
  getTransactionId := getTransactionId
  getLatestTransactionId := getLatestTransactionId K
  calcFieldsAndUpdateIndexesFor _ _ aliases b :=
    .ready (calcFieldsAndUpdateIndexesFor aliases b).1 (calcFieldsAndUpdateIndexesFor aliases b).2
  clearIndexes _ := PMap.empty
  addIndexData := addIndexData K

/-! ## A pass over the rows -/

/-- The inner loop is a pass over the payloads it comes to. -/
theorem indexBlock_eq (block : Nat → Row F.Body) : ∀ (fuel j : Nat) (aliases : Aliases),
    indexBlock block j fuel aliases = (blockPayloads block j fuel).foldlM addIndexRow aliases := by
  intro fuel
  induction fuel with
  | zero =>
    intro j aliases
    rfl
  | succ fuel ih =>
    intro j aliases
    rw [indexBlock, blockPayloads]
    split
    · rfl
    · rw [List.foldlM_cons]
      cases addIndexRow aliases (F.payload (block j).body) with
      | error e => rfl
      | ok aliases' => exact ih (j + 1) aliases'

variable {K : Params} {rows : List GroupRegisterRecord}

/-- A call ends as a pass over the rows does: it returns true and the index, or false and the
index so far, or fails on an alias without an end. -/
def EndsAs (K : Params) (rows : List GroupRegisterRecord) :
    Except Stopped Aliases → EStateM.Result Fault (Blockchain F) (Bool × Aliases) → Prop
  | .ok aliases, .ok r st => r = (true, aliases) ∧ Keeps K st rows
  | .error (.duplicate aliases), .ok r st => r = (false, aliases) ∧ Keeps K st rows
  | .error .endless, .error _ _ => True
  | _, _ => False

theorem indexBlocks_endsAs (hK : K.RecCount = GRADIDO_BLOCK_SIZE) (now : Nat) :
    ∀ (count b : Nat) {st : Blockchain F} {aliases : Aliases}, Keeps K st rows →
      b + count = blockCount K rows.length →
      EndsAs K rows ((rows.drop (b * perBlock K)).foldlM addIndexRow aliases)
        (indexBlocks K now b count aliases st) := by
  intro count
  induction count with
  | zero =>
    intro b st aliases h hb
    obtain ⟨cs, hcs⟩ := h.holds
    have hnil : rows.drop (b * perBlock K) = [] := by
      apply List.drop_eq_nil_of_le
      rw [show b = st.tiles.length from hb.trans h.tiles_length.symm]
      exact hcs.length_le
    rw [hnil]
    exact ⟨rfl, h⟩
  | succ count ih =>
    intro b st aliases h hb
    obtain ⟨r, st', hget, ⟨block, c, rfl, hblock⟩, h'⟩ :=
      h.getBlock (show b < blockCount K rows.length by omega) now
    have hlt := chunk_length_lt K rows b
    rw [hK] at hblock hlt
    have hin := indexBlock_eq block GRADIDO_BLOCK_SIZE 0 aliases
    rw [blockPayloads_block hblock hlt] at hin
    rw [drop_chunk, List.foldlM_append, indexBlocks, bind_eq hget]
    simp only [hin]
    cases (chunk K rows b).foldlM addIndexRow aliases with
    | error stopped =>
      cases stopped with
      | duplicate found => exact ⟨rfl, h'⟩
      | endless => exact trivial
    | ok aliases₁ => exact ih (b + 1) h' (by omega)

theorem addIndexData_endsAs (hK : K.RecCount = GRADIDO_BLOCK_SIZE) {st : Blockchain F}
    (h : Keeps K st rows) (aliases : Aliases) (now : Nat) :
    EndsAs K rows (rows.foldlM addIndexRow aliases) (addIndexData K 0 now aliases st) := by
  have hlo : EndsAs K rows _ (indexBlocks K now 0 (blockCount K rows.length) aliases st) :=
    indexBlocks_endsAs hK now _ 0 h (Nat.zero_add _)
  rw [Nat.zero_mul, List.drop_zero] at hlo
  rw [addIndexData, get_bind, h.valid_eq, h.tiles_length, Nat.sub_zero]
  exact hlo

theorem addIndexData_keeps (hK : K.RecCount = GRADIDO_BLOCK_SIZE) {st : Blockchain F}
    (h : Keeps K st rows) {aliases aliases' : Aliases}
    (hpa : rows.foldlM addIndexRow aliases = .ok aliases') (now : Nat) :
    Returns (addIndexData K 0 now aliases) st fun r st' =>
      r = (true, aliases') ∧ Keeps K st' rows := by
  have hen := addIndexData_endsAs hK h aliases now
  rw [hpa] at hen
  cases hca : addIndexData K 0 now aliases st with
  | ok r st' =>
    rw [hca] at hen
    exact ⟨r, st', hca, hen⟩
  | error e st' =>
    rw [hca] at hen
    exact hen.elim

end GroupRegister

end GradidoNode
