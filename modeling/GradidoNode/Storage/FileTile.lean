/-
# `GradidoNode.Storage.FileTile` — one tile of the imaginary tile array

`file_tile.h` keeps a chain as a vector of tiles.  A tile has a file of exactly
`TCount` rows on disk, may have a copy of these rows in memory (`fetched_data`),
and may hold the file open (`file_handle`).  This module models one tile with
its file; `GradidoNode.Storage.Blockchain` puts tiles in a vector.

**What a file is.**  A path is missing, is something that is not a regular file,
or is a regular file of some number of rows.  Rows are the unit: the code only
ever reads and writes whole rows, and a length that is not a multiple of the row
size (`slack`) only ever fails `check_file2`.  The buffers are functions of the
row number; a buffer has `TCount` rows and the code never looks past them.

**What a handle is.**  An open `FILE*` is its position, counted in rows.  The
position matters: `sync_from_file` and `sync_to_file` read and write *where the
handle stands*, and only `write` seeks.  So a tile whose file was just read to
the end reads nothing the next time, and a tile written by `write` is left at
row 0 and reads the whole file again.  `sync_from_file` has a `close_on_exit`
parameter and does not look at it.

**What is assumed of the operating system.**  `fopen` succeeds on a missing file
and on a file `check_file2` finds in order; `fclose`, `fseek`, `fread` and
`fwrite` do not fail.  Output of a handle reaches the file before the call that
wrote it ends (`write` seeks, `sync_to_file` flushes).
-/
import Mathlib.Logic.Function.Basic

namespace GradidoNode

/-- A row of a block: the `type` byte and the bytes of the union behind it
(`BlockchainTypes<T>::Record`). -/
structure Row (Body : Type) where
  type : UInt8
  body : Body
  deriving DecidableEq, Repr

/-- `BlockchainTypes<T>::RecordType`. -/
def RecordType.empty : UInt8 := 0
def RecordType.payload : UInt8 := 1
def RecordType.checksum : UInt8 := 2

/-- The row a zeroed buffer or a hole in a file consists of. -/
def Row.blank {Body : Type} (zeroBody : Body) : Row Body := ⟨RecordType.empty, zeroBody⟩

namespace FileTile

/-- `FileTile::TileState`: the outcome of the last operation on a tile. -/
inductive TileState where
  | ok | missingFile | notAFile | badLength | notReadable | notWriteable
  | cannotOpenFile | cannotCloseFile | errorWhileReading | errorWhileWriting
  | cannotSyncNoRawData | fseekFailed | recIndexExceedsBounds | truncated | badIndex
  deriving DecidableEq, Repr

/-- A regular file. -/
structure File (Body : Type) where
  rows : Nat → Row Body
  /-- the number of whole rows -/
  len : Nat
  /-- whether bytes of an incomplete row follow them -/
  slack : Bool
  readable : Bool
  writeable : Bool

/-- What is found at a path. -/
inductive Entry (Body : Type) where
  | missing
  | other
  | regular (f : File Body)

/-- `FileTile::TileDesc`, less `index` (a tile's index is its position in the
vector).  `sup` is the checksum and `lastUse` the time of `TileSup`. -/
structure TileDesc (Body Checksum : Type) where
  state : TileState
  fetchedData : Option (Nat → Row Body)
  fileHandle : Option Nat
  sup : Checksum
  lastUse : Nat

/-- A tile together with the path it is stored at. -/
structure Tile (Body Checksum : Type) where
  entry : Entry Body
  desc : TileDesc Body Checksum

variable {Body Checksum : Type} (TCount : Nat) (zeroBody : Body)

def checkFile2 : Entry Body → TileState
  | .missing => .missingFile
  | .other => .notAFile
  | .regular f =>
    if f.len ≠ TCount ∨ f.slack then .badLength
    else if !f.readable then .notReadable
    else if !f.writeable then .notWriteable
    else .ok

/-- `TileDesc::reset`, with the state `create_tile_desc`'s caller then sets. -/
def reset (zero : Checksum) (state : TileState) : TileDesc Body Checksum where
  state := state
  fetchedData := none
  fileHandle := none
  sup := zero
  lastUse := 0

/-- A buffer as `mem_pool.get()` hands it out. -/
def freshBuffer : Nat → Row Body := fun _ => Row.blank zeroBody

/-- The file `fopen(.., "wb+")` makes. -/
def createdFile : File Body where
  rows := fun _ => Row.blank zeroBody
  len := 0
  slack := false
  readable := true
  writeable := true

namespace Tile

def setState (st : TileState) (t : Tile Body Checksum) : Tile Body Checksum :=
  { t with desc := { t.desc with state := st } }

/-- `Tile::open_file`. -/
def openFile (t : Tile Body Checksum) : Bool × Tile Body Checksum :=
  match t.desc.fileHandle with
  | some _ => (true, t.setState .ok)
  | none =>
    match checkFile2 TCount t.entry with
    | .missingFile =>
      (true, { entry := .regular (createdFile zeroBody),
               desc := { t.desc with fileHandle := some 0, state := .ok } })
    | .ok => (true, { t with desc := { t.desc with fileHandle := some 0, state := .ok } })
    | _ => (false, t.setState .cannotOpenFile)

/-- `Tile::close_file`. -/
def closeFile (t : Tile Body Checksum) : Tile Body Checksum :=
  { t with desc := { t.desc with fileHandle := none, state := .ok } }

/-- The rows `rs` written over the file's rows from `pos` on, `n` of them. -/
def File.overwrite (f : File Body) (pos n : Nat) (rs : Nat → Row Body) : File Body :=
  { f with
    rows := fun i => if pos ≤ i ∧ i < pos + n then rs (i - pos) else f.rows i
    len := max f.len (pos + n) }

/-- `fwrite` of `n` rows at `pos`, through a handle on the tile's file.  A handle
that outlives its path (the file was renamed) writes elsewhere. -/
def fwrite (pos n : Nat) (rs : Nat → Row Body) : Entry Body → Entry Body
  | .regular f => .regular (File.overwrite f pos n rs)
  | e => e

/-- `Tile::write`: the file only, whatever is in `fetched_data`. -/
def write (record : Row Body) (recIndex : Nat) (closeOnExit : Bool) (t : Tile Body Checksum) :
    Bool × Tile Body Checksum :=
  if TCount ≤ recIndex then (false, t.setState .recIndexExceedsBounds)
  else
    match t.openFile TCount zeroBody with
    | (false, t) => (false, t)
    | (true, t) =>
      -- fseek(rec_index), fwrite, fseek(0)
      let t : Tile Body Checksum :=
        { entry := fwrite recIndex 1 (fun _ => record) t.entry,
          desc := { t.desc with fileHandle := some 0 } }
      (true, if closeOnExit then t.closeFile else t)

/-- `Tile::sync_to_file`.  `none`: the function ends without a `return`, which it
does when there is data and the file cannot be opened. -/
def syncToFile (closeOnExit : Bool) (t : Tile Body Checksum) :
    Option (Bool × Tile Body Checksum) :=
  match t.desc.fetchedData with
  | none => some (false, t.setState .cannotSyncNoRawData)
  | some data =>
    match t.openFile TCount zeroBody with
    | (false, _) => none
    | (true, t) =>
      let pos := t.desc.fileHandle.getD 0
      let t : Tile Body Checksum :=
        { entry := fwrite pos TCount data t.entry,
          desc := { t.desc with fileHandle := some (pos + TCount), state := .ok } }
      some (true, if closeOnExit then t.closeFile else t)

/-- The number of whole rows `fread` finds from `pos` on, at most `TCount`. -/
def available (pos : Nat) : Entry Body → Nat
  | .regular f => min TCount (f.len - pos)
  | _ => 0

/-- What the buffer holds after `fread`: the rows found, and below them what it held. -/
def freadInto (pos : Nat) (buf : Nat → Row Body) : Entry Body → (Nat → Row Body)
  | .regular f => fun i => if i < min TCount (f.len - pos) then f.rows (pos + i) else buf i
  | _ => buf

/-- `Tile::sync_from_file`; `close_on_exit` is never read. -/
def syncFromFile (_closeOnExit : Bool) (t : Tile Body Checksum) : Bool × Tile Body Checksum :=
  match t.openFile TCount zeroBody with
  | (false, t) => (false, t)
  | (true, t) =>
    let buf := t.desc.fetchedData.getD (freshBuffer zeroBody)
    let pos := t.desc.fileHandle.getD 0
    let got := available TCount pos t.entry
    let desc : TileDesc Body Checksum :=
      { t.desc with
        fetchedData := some (freadInto TCount pos buf t.entry)
        fileHandle := some (pos + got) }
    if got = TCount then (true, { t with desc := { desc with state := .ok } })
    else (false, { t with desc := { desc with state := .errorWhileReading } })

/-- `Tile::read`: from `fetched_data`, which is fetched if it is null. -/
def read (recIndex : Nat) (t : Tile Body Checksum) : Option (Row Body) × Tile Body Checksum :=
  if TCount ≤ recIndex then (none, t.setState .recIndexExceedsBounds)
  else
    match t.desc.fetchedData with
    | some data => (some (data recIndex), t)
    | none =>
      match t.syncFromFile TCount zeroBody true with
      | (false, t) => (none, t)
      | (true, t) => (t.desc.fetchedData.map fun data => data recIndex, t)

/-- `Tile::get_tile_data`. -/
def getTileData (t : Tile Body Checksum) : Option (Nat → Row Body) × Tile Body Checksum :=
  (t.desc.fetchedData, t.setState .ok)

/-- `Tile::alloc_tile_data`. -/
def allocTileData (t : Tile Body Checksum) : Tile Body Checksum :=
  match t.desc.fetchedData with
  | some _ => t
  | none => { t with desc := { t.desc with fetchedData := some (freshBuffer zeroBody) } }

/-- `Tile::set_tile_data`. -/
def setTileData (data : Nat → Row Body) (t : Tile Body Checksum) : Tile Body Checksum :=
  { t with desc := { t.desc with fetchedData := some data, state := .ok } }

/-- `Tile::release_fetched_data`. -/
def releaseFetchedData (t : Tile Body Checksum) : Tile Body Checksum :=
  { t with desc := { t.desc with fetchedData := none, state := .ok } }

end Tile

end FileTile

end GradidoNode
