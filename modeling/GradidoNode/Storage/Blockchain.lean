/-
# `GradidoNode.Storage.Blockchain` — blocks of rows in a vector of tiles

`Blockchain<T, RecCount>` of `blockchain.h`, over the tiles of
`GradidoNode.Storage.FileTile`, function by function.  The object is the state
of an `EStateM`; a call either returns or fails with a `Fault`.

**Faults.**  `thrown` is a `PRECISE_THROW` with its message; `undefined` is a
place where C++ gives the execution no meaning (a null buffer indexed, a value
function that ends without `return`).

**Parameters.**  `RowFormat T` is the union behind a row's type byte — how a
payload or a checksum is put into it and read out of it — and SHA-512 of a
checksum followed by a row, as an arbitrary function.  `Params` has the template
and constructor arguments and `std::sort`, of which only the contract is known
(the order of equal keys is not).

**Time.**  `time(0)` is read by every call that may flush the cache: it is the
argument `now` of the call.

**Left out.**  `append_block` does not compile when it is instantiated (it calls
`sync_from_file` without its argument) and nothing instantiates it.  Tile and row
counters are natural numbers; `get_file_count` keeps block numbers below `2^32`.
-/
import GradidoNode.Lib.Exec
import GradidoNode.Storage.FileTile
import Mathlib.Data.List.Sort

namespace GradidoNode

open FileTile

/-- How a call that does not return ends. -/
inductive Fault where
  | thrown (msg : String)
  | undefined (what : String)
  deriving DecidableEq, Repr

/-- The union behind the type byte of a row, and the checksum function. -/
structure RowFormat (T : Type) where
  Body : Type
  Checksum : Type
  payload : Body → T
  checksum : Body → Checksum
  ofPayload : T → Body
  ofChecksum : Checksum → Body
  zeroBody : Body
  zero : Checksum
  /-- `calc_checksum`: SHA-512 of the checksum followed by the row -/
  calcChecksum : Checksum → Row Body → Checksum
  /-- what `strcpy` of a row's checksum leaves in a zeroed checksum; `none` when
  no terminator stops it inside the destination -/
  strcpyChecksum : Body → Option Checksum
  payload_ofPayload : ∀ p, payload (ofPayload p) = p
  checksum_ofChecksum : ∀ c, checksum (ofChecksum c) = c
  checksum_zeroBody : checksum zeroBody = zero
  strcpyChecksum_zeroBody : strcpyChecksum zeroBody = some zero

/-- Template arguments, constructor arguments and `std::sort`. -/
structure Params where
  RecCount : Nat
  optimalCacheSize : Nat
  cacheAutoFlushMinIntervalSec : Nat
  sort : List (Nat × Nat) → List (Nat × Nat)
  two_le : 2 ≤ RecCount
  sort_perm : ∀ l, (sort l).Perm l
  sort_sorted : ∀ l, (sort l).Pairwise fun a b => a.2 ≤ b.2

/-- `GRADIDO_BLOCK_SIZE`. -/
def GRADIDO_BLOCK_SIZE : Nat := 1000

/-- `Blockchain::ExitCode`. -/
inductive ExitCode where
  | ok | nonEmptyRecordAfterChecksum | emptyRecordBeforeChecksum | noPayload | noChecksum
  | expectedFullBlock | onlyLastBlockMayNotBeFull | badChecksum | writeError | readError
  | lastBlockNotFull | indexTooLarge | badBlockLength
  deriving DecidableEq, Repr

namespace RowFormat

variable {T : Type} (F : RowFormat T)

def payloadRow (p : T) : Row F.Body := ⟨RecordType.payload, F.ofPayload p⟩

def checksumRow (c : F.Checksum) : Row F.Body := ⟨RecordType.checksum, F.ofChecksum c⟩

def blankRow : Row F.Body := Row.blank F.zeroBody

@[simp] theorem payloadRow_type (p : T) : (F.payloadRow p).type = RecordType.payload := rfl

@[simp] theorem checksumRow_type (c : F.Checksum) :
    (F.checksumRow c).type = RecordType.checksum := rfl

@[simp] theorem blankRow_type : F.blankRow.type = RecordType.empty := rfl

@[simp] theorem checksum_checksumRow (c : F.Checksum) :
    F.checksum (F.checksumRow c).body = c := F.checksum_ofChecksum c

@[simp] theorem payload_payloadRow (p : T) : F.payload (F.payloadRow p).body = p :=
  F.payload_ofPayload p

end RowFormat

/-- `Blockchain<T, RecCount>`, with the files of its folder. -/
structure Blockchain {T : Type} (F : RowFormat T) where
  /-- the path of block `i` -/
  disk : Nat → Entry F.Body
  /-- the `.bad` files: block index, time of the renaming, file -/
  badFiles : List (Nat × Nat × Entry F.Body)
  tiles : List (TileDesc F.Body F.Checksum)
  checksumValidBlockCount : Nat
  recCount : Nat
  nextCacheFlushTimestamp : Nat

namespace Blockchain

variable {T : Type} {F : RowFormat T} (K : Params)

/-- A call on a chain. -/
abbrev ChainM (F : RowFormat T) := EStateM Fault (Blockchain F)

/-! ## Tiles of the vector -/

/-- The constructor, over a folder in which `get_file_count` returned `fc`. -/
def create (disk : Nat → Entry F.Body) (fc : Nat) : Blockchain F where
  disk := disk
  badFiles := []
  tiles := (List.range fc).map fun i => reset F.zero (checkFile2 K.RecCount (disk i))
  checksumValidBlockCount := 0
  recCount := 0
  nextCacheFlushTimestamp := 0

/-- The chain after tile `i` has become `t`. -/
def putTile (s : Blockchain F) (i : Nat) (t : Tile F.Body F.Checksum) : Blockchain F :=
  { s with disk := Function.update s.disk i t.entry, tiles := s.tiles.set i t.desc }

/-- `tiles.get_tile(i)` followed by an operation on the tile. -/
def onTile {α : Type} (i : Nat) (f : Tile F.Body F.Checksum → α × Tile F.Body F.Checksum) :
    ChainM F α := do
  let s ← get
  match s.tiles[i]? with
  | none => throw (.thrown "TileFile: index too large")
  | some d =>
    let r := f ⟨s.disk i, d⟩
    set (s.putTile i r.2)
    return r.1

/-- The same for an operation that only updates the tile. -/
def updTile (i : Nat) (f : Tile F.Body F.Checksum → Tile F.Body F.Checksum) : ChainM F Unit :=
  onTile i fun t => ((), f t)

/-- `sync_to_file` on tile `i`. -/
def syncTileToFile (i : Nat) (closeOnExit : Bool) : ChainM F Bool := do
  match ← onTile i fun t =>
      match t.syncToFile K.RecCount F.zeroBody closeOnExit with
      | some (b, t') => (some b, t')
      | none => (none, t) with
  | some b => return b
  | none => throw (.undefined "sync_to_file ends without a return value")

/-- `tiles.get_tile_count() - 1`, on `uint32_t`. -/
def lastIndex (s : Blockchain F) : Nat :=
  if s.tiles.length = 0 then 4294967295 else s.tiles.length - 1

/-- `FileTile::append_tile`. -/
def appendTile (s : Blockchain F) : Blockchain F :=
  { s with tiles := s.tiles ++ [reset F.zero .ok] }

/-- `FileTile::truncate_tail`: the descriptors leave the vector; no file is touched. -/
def truncateTail (first : Nat) (s : Blockchain F) : Blockchain F :=
  { s with tiles := s.tiles.take first }

/-! ## The cache -/

/-- The indexes `flush_cache` sorts: the cached tiles but the last. -/
def cachedIndexes (tiles : List (TileDesc F.Body F.Checksum)) : List (Nat × Nat) :=
  (List.range (tiles.length - 1)).filterMap fun i =>
    match tiles[i]? with
    | some d => if d.fetchedData.isSome then some (i, d.lastUse) else none
    | none => none

/-- The tiles `flush_cache` releases. -/
def flushVictims (tiles : List (TileDesc F.Body F.Checksum)) : List Nat :=
  let sti := cachedIndexes tiles
  ((K.sort sti).take (sti.length - K.optimalCacheSize)).map Prod.fst

/-- What `flush_cache` does to one descriptor of a vector of `n`. -/
def flushDesc (n : Nat) (victims : List Nat) (i : Nat) (d : TileDesc F.Body F.Checksum) :
    TileDesc F.Body F.Checksum :=
  if i < n - 1 then
    { d with
      state := .ok
      fileHandle := none
      fetchedData := if i ∈ victims then none else d.fetchedData }
  else d

def flushCache (now : Nat) (s : Blockchain F) : Blockchain F :=
  if s.tiles.length = 0 then s
  else
    { s with
      tiles := s.tiles.mapIdx (flushDesc s.tiles.length (flushVictims K s.tiles))
      nextCacheFlushTimestamp := now + K.cacheAutoFlushMinIntervalSec }

def maybeFlushCache (now : Nat) (s : Blockchain F) : Blockchain F :=
  if s.nextCacheFlushTimestamp < now then flushCache K now s else s

/-! ## Checking a block -/

/-- The three flags of the loop of `validate_block`. -/
structure Scan where
  finished : Bool
  hasEmpty : Bool
  hasPayload : Bool
  deriving DecidableEq, Repr

/-- One turn of the loop.  A type byte outside `RecordType` meets no branch. -/
def scanRow (c : Scan) (type : UInt8) : Except ExitCode Scan :=
  if c.finished then
    if type ≠ RecordType.empty then .error .nonEmptyRecordAfterChecksum
    else .ok { c with hasEmpty := true }
  else if type = RecordType.payload then .ok { c with hasPayload := true }
  else if type = RecordType.empty then .error .emptyRecordBeforeChecksum
  else if type = RecordType.checksum then
    if !c.hasPayload then .error .noPayload else .ok { c with finished := true }
  else .ok c

/-- The loop of `validate_block` over a list of type bytes. -/
def scanRows : Scan → List UInt8 → Except ExitCode Scan
  | c, [] => .ok c
  | c, ty :: tys =>
    match scanRow c ty with
    | .ok c' => scanRows c' tys
    | .error e => .error e

/-- The type bytes of the `RecCount` rows of a block. -/
def rowTypes (r : Nat → Row F.Body) : List UInt8 :=
  (List.range K.RecCount).map fun i => (r i).type

def getPrevChecksum (blockIndex : Nat) : ChainM F F.Checksum := do
  if blockIndex = 0 then return F.zero
  else
    let (st, c) ← onTile (blockIndex - 1) fun t => ((t.desc.state, t.desc.sup), t)
    if st = .ok then return c
    else throw (.thrown ("no checksum for block_index " ++ toString blockIndex))

/-- `validate_block`.  Two of its refusals return an enumerator where a `bool` is
expected, which is `true`, and leave `ec` as the caller had it.  The comparison
of checksums at its end is commented out. -/
def validateBlock (blockIndex : Nat) (r : Nat → Row F.Body) (mustBeFull : Bool) (ec : ExitCode) :
    ChainM F (Bool × ExitCode) := do
  match scanRows ⟨false, false, false⟩ (rowTypes K r) with
  | .error e => return (false, e)
  | .ok c =>
    if !c.finished then return (false, .noChecksum)
    else if mustBeFull && c.hasEmpty then return (true, ec)
    else
      let s ← get
      if c.hasEmpty && decide (blockIndex ≠ s.lastIndex) then return (true, ec)
      else
        let _ ← getPrevChecksum blockIndex
        return (true, .ok)

/-- `get_rec_count(Record*)`: the rows before the first EMPTY one. -/
def blockRecCount (r : Nat → Row F.Body) : Nat :=
  ((rowTypes K r).takeWhile fun ty => decide (ty ≠ RecordType.empty)).length

def moveToBad (blockIndex now : Nat) (s : Blockchain F) : Blockchain F :=
  { s with
    disk := Function.update s.disk blockIndex .missing
    badFiles := s.badFiles ++ [(blockIndex, now, s.disk blockIndex)] }

/-- A block found good is counted, and its rows. -/
def countBlock (r : Nat → Row F.Body) (s : Blockchain F) : Blockchain F :=
  { s with
    checksumValidBlockCount := s.checksumValidBlockCount + 1
    recCount := s.recCount + blockRecCount K r }

def validateNextChecksum (now : Nat) : ChainM F (Bool × ExitCode) := do
  modify (maybeFlushCache K now)
  let s ← get
  let b := s.checksumValidBlockCount
  if s.tiles.length ≤ b then return (false, .ok)
  else
    let read ← onTile b fun t => t.syncFromFile K.RecCount F.zeroBody true
    if read then
      match ← onTile b Tile.getTileData with
      | none => throw (.undefined "null block")
      | some r =>
        let (good, ec) ← validateBlock K b r false .ok
        if good then
          modify (countBlock K r)
          return (true, ec)
        else
          modify (moveToBad b now)
          return (false, ec)
    else
      match ← onTile b fun t => (t.desc.state, t) with
      | .missingFile => return (false, .ok)
      | .badLength =>
        modify (moveToBad b now)
        return (false, .badBlockLength)
      | _ => throw (.thrown "bad block file, cannot recover, ")

/-! ## Reading -/

/-- `get_block`: the buffer, or null. -/
def getBlock (index now : Nat) : ChainM F (Option (Nat → Row F.Body) × ExitCode) := do
  modify (maybeFlushCache K now)
  let _ ← onTile index fun t => t.syncFromFile K.RecCount F.zeroBody true
  match ← onTile index Tile.getTileData with
  | some r => return (some r, .ok)
  | none =>
    if ← onTile index fun t => t.syncFromFile K.RecCount F.zeroBody true then
      match ← onTile index Tile.getTileData with
      | none => throw (.undefined "null block")
      | some r =>
        let (good, ec) ← validateBlock K index r false .ok
        return (if good then some r else none, ec)
    else return (none, .ok)

/-- `get_record`: the row, or null.  The division is by `GRADIDO_BLOCK_SIZE`, not by
`RecCount`, so the row may lie past the buffer. -/
def getRecord (index now : Nat) : ChainM F (Option (Row F.Body) × ExitCode) := do
  if (← get).recCount ≤ index then return (none, .indexTooLarge)
  match ← getBlock K (index / GRADIDO_BLOCK_SIZE) now with
  | (none, ec) => return (none, ec)
  | (some r, _) =>
    if index % GRADIDO_BLOCK_SIZE < K.RecCount then
      return (some (r (index % GRADIDO_BLOCK_SIZE)), .ok)
    else throw (.undefined "row past the end of the block")

def getRecCount (s : Blockchain F) : Nat := s.recCount

def getBlockCount (s : Blockchain F) : Nat := s.tiles.length

def getChecksumValidBlockCount (s : Blockchain F) : Nat := s.checksumValidBlockCount

def isBlockValid (index : Nat) (s : Blockchain F) : Bool :=
  decide (index < s.checksumValidBlockCount)

/-! ## Writing -/

/-- The last tile, if there is one, is closed before a new one is added. -/
def closeLastTile : ChainM F Unit := do
  let n := (← get).tiles.length
  if 0 < n then updTile (n - 1) Tile.closeFile

/-- "`checksum_valid_block_count` advances with new block". -/
def advanceValid (s : Blockchain F) : Blockchain F :=
  if s.tiles.length = s.checksumValidBlockCount then
    { s with checksumValidBlockCount := s.checksumValidBlockCount + 1 }
  else s

/-- `alloc_tile_data`, then `r[0]` and `r[1]` of the buffer set. -/
def setFirstRows (record cr : Row F.Body) (t : Tile F.Body F.Checksum) :
    Tile F.Body F.Checksum :=
  let t := t.allocTileData F.zeroBody
  { t with desc := { t.desc with
      fetchedData := t.desc.fetchedData.map fun r =>
        Function.update (Function.update r 0 record) 1 cr } }

/-- `append`, when the last block is full: a new tile with the row and its checksum. -/
def appendNewBlock (record : Row F.Body) : ChainM F (Bool × ExitCode) := do
  closeLastTile
  let n := (← get).tiles.length
  let prev ← getPrevChecksum n
  let cr := F.checksumRow (F.calcChecksum prev record)
  modify advanceValid
  modify appendTile
  updTile n (setFirstRows record cr)
  modify fun s => { s with recCount := s.recCount + 2 }
  let written ← syncTileToFile K n false
  return if written then (true, .ok) else (false, .writeError)

/-- `append`, inside a block: the row over the old checksum, the new checksum behind it. -/
def appendInBlock (record : Row F.Body) (blockPos : Nat) : ChainM F (Bool × ExitCode) := do
  let i := (← get).lastIndex
  match ← onTile i Tile.getTileData with
  | none => throw (.undefined "null tile data")
  | some r =>
    let cr := F.checksumRow (F.calcChecksum (F.checksum (r (blockPos - 1)).body) record)
    if ← onTile i fun t => t.write K.RecCount F.zeroBody record (blockPos - 1) false then
      if ← onTile i fun t => t.write K.RecCount F.zeroBody cr blockPos false then
        modify fun s => { s with recCount := s.recCount + 1 }
        return (true, .ok)
      else return (false, .writeError)
    else return (false, .writeError)

def append (recPayload : T) (now : Nat) : ChainM F (Bool × ExitCode) := do
  modify (maybeFlushCache K now)
  let blockPos := (← get).recCount % K.RecCount
  let record := F.payloadRow recPayload
  if blockPos = 0 then appendNewBlock K record else appendInBlock K record blockPos

def replaceBlock (index : Nat) (data : Nat → Row F.Body) (now : Nat) :
    ChainM F (Bool × ExitCode) := do
  modify (maybeFlushCache K now)
  if (← get).tiles.length ≤ index then return (false, .indexTooLarge)
  let (good, ec) ← validateBlock K index data true .ok
  if !good then return (false, ec)
  updTile index (Tile.setTileData data)
  if ← syncTileToFile K index true then return (true, ec) else return (false, .writeError)

def truncate (first : Nat) (s : Blockchain F) : Blockchain F := truncateTail first s

end Blockchain

end GradidoNode
