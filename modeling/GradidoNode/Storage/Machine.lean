/-
# `GradidoNode.Storage.Machine` — the chain with what is under it

`GradidoNode.Storage.FileTile` assumes that the C library does not fail, and has no
memory pool: a tile has a buffer or not, a file is open or not.  Here both are looked
at.  A tile operation works on a tile and a `System`:

    script       what the next calls of `fopen`, `fseek` and `fwrite` do; when it is used
                 up they work.  An `fwrite` that fails has written some whole rows, and
                 maybe a part of the next
    memPool      `BigObjectMemoryPool`, by the lengths of its three lists
    openFiles    how many files are open

and a call on the object, besides, on `unused_tiles`: `truncate_tail` puts descriptors
there as they are, and `create_tile_desc` takes them from there and resets them.

The operations are those of `GradidoNode.Storage.FileTile` and
`GradidoNode.Storage.Blockchain`, with these effects written out.  Where nothing fails,
a tile is written as there (`GradidoNode.Storage.Mirror`).

`fread`, `fclose` and `fflush` do not fail here either, and there is always memory.
-/
import GradidoNode.Storage.Calls

namespace GradidoNode

open FileTile Lib

/-! ## The system -/

/-- What a call of the C library does. -/
inductive Outcome (Body : Type) where
  | works
  | fails (rows : Nat) (torn : Option (Row Body))

/-- `BigObjectMemoryPool`: the lengths of its lists. -/
structure BigObjectMemoryPool where
  noPayload : Nat
  ready : Nat
  used : Nat

namespace BigObjectMemoryPool

def memPoolBlockSize : Nat := 100

def get (p : BigObjectMemoryPool) : BigObjectMemoryPool :=
  if 0 < p.ready then { p with ready := p.ready - 1, used := p.used + 1 }
  else if 0 < p.noPayload then { p with noPayload := p.noPayload - 1, used := p.used + 1 }
  else { p with noPayload := memPoolBlockSize - 1, used := p.used + 1 }

/-- `release`; `none` where it throws. -/
def release (p : BigObjectMemoryPool) : Option BigObjectMemoryPool :=
  if p.used = 0 then none else some { p with used := p.used - 1, ready := p.ready + 1 }

end BigObjectMemoryPool

/-- What is under a tile. -/
structure System (Body : Type) where
  script : List (Outcome Body)
  memPool : BigObjectMemoryPool
  openFiles : Nat

/-- A tile, and what is under it. -/
structure TileOn (Body Checksum : Type) where
  tile : Tile Body Checksum
  sys : System Body

/-- An operation on a tile. -/
abbrev TileM (Body Checksum : Type) := EStateM Fault (TileOn Body Checksum)

namespace TileM

variable {Body Checksum : Type} (TCount : Nat) (zeroBody : Body)

/-! ## The C library -/

/-- What the next call does. -/
def nextOutcome : TileM Body Checksum (Outcome Body) :=
  modifyGet fun s => (s.sys.script.headD .works,
    { s with sys := { s.sys with script := s.sys.script.tail } })

def updateTile (f : Tile Body Checksum → Tile Body Checksum) : TileM Body Checksum Unit :=
  modify fun s => { s with tile := f s.tile }

def setState (st : TileState) : TileM Body Checksum Unit := updateTile (Tile.setState st)

/-- `fopen`, after which the file at the path is `e`. -/
def fopen (e : Entry Body) : TileM Body Checksum Bool := do
  match ← nextOutcome with
  | .works => do
    modify fun s =>
      { tile := { entry := e, desc := { s.tile.desc with fileHandle := some 0 } }
        sys := { s.sys with openFiles := s.sys.openFiles + 1 } }
    return true
  | .fails _ _ => return false

/-- A part of a row is written at `pos`: over a row, or behind the last one. -/
def tear (pos : Nat) : Option (Row Body) → Entry Body → Entry Body
  | some row, .regular f =>
    if pos < f.len then .regular { f with rows := Function.update f.rows pos row }
    else .regular { f with slack := true }
  | _, e => e

/-- `fseek`.  It writes what the handle has buffered, so the row last written is in the file
as a whole only if it works. -/
def fseek (pos : Nat) (buffered : Option Nat) : TileM Body Checksum Bool := do
  match ← nextOutcome with
  | .works => do
    updateTile fun t =>
      { t with desc := { t.desc with fileHandle := t.desc.fileHandle.map fun _ => pos } }
    return true
  | .fails _ torn => do
    updateTile fun t => { t with entry := buffered.elim t.entry fun i => tear i torn t.entry }
    return false

/-- `fwrite` of `n` rows. -/
def fwrite (n : Nat) (rs : Nat → Row Body) : TileM Body Checksum Bool := do
  match ← nextOutcome with
  | .works => do
    updateTile fun t =>
      let pos := t.desc.fileHandle.getD 0
      { entry := Tile.fwrite pos n rs t.entry
        desc := { t.desc with fileHandle := t.desc.fileHandle.map fun pos => pos + n } }
    return true
  | .fails rows torn => do
    let m := min rows (n - 1)
    updateTile fun t =>
      let pos := t.desc.fileHandle.getD 0
      { entry := tear (pos + m) torn (Tile.fwrite pos m rs t.entry)
        desc := { t.desc with fileHandle := t.desc.fileHandle.map fun pos => pos + m } }
    return false

/-- `fread` into the buffer of the tile. -/
def fread : TileM Body Checksum Nat :=
  modifyGet fun s =>
    let pos := s.tile.desc.fileHandle.getD 0
    let got := Tile.available TCount pos s.tile.entry
    (got, { s with tile := { s.tile with desc := { s.tile.desc with
      fetchedData := s.tile.desc.fetchedData.map fun buf =>
        Tile.freadInto TCount pos buf s.tile.entry
      fileHandle := s.tile.desc.fileHandle.map fun pos => pos + got } } })

/-! ## Operations on a tile -/

/-- `Tile::open_file`. -/
def openFile : TileM Body Checksum Bool := do
  let s ← get
  match s.tile.desc.fileHandle with
  | some _ => do
    setState .ok
    return true
  | none => do
    let opened ← match checkFile2 TCount s.tile.entry with
      | .missingFile => fopen (.regular (createdFile zeroBody))
      | .ok => fopen s.tile.entry
      | _ => pure false
    if opened then do
      setState .ok
      return true
    else do
      setState .cannotOpenFile
      return false

/-- `Tile::close_file`. -/
def closeFile : TileM Body Checksum Unit :=
  modify fun s =>
    { tile := s.tile.closeFile
      sys := match s.tile.desc.fileHandle with
        | some _ => { s.sys with openFiles := s.sys.openFiles - 1 }
        | none => s.sys }

/-- `Tile::write`.  A failure is noted in the state, and `close_file` then sets it to OK. -/
def write (record : Row Body) (recIndex : Nat) (closeOnExit : Bool) :
    TileM Body Checksum Bool := do
  if TCount ≤ recIndex then do
    setState .recIndexExceedsBounds
    return false
  else if ← openFile TCount zeroBody then do
    if ← fseek recIndex none then do
      let res2 ← fwrite 1 fun _ => record
      if ← fseek 0 (some recIndex) then do
        if res2 then do
          if closeOnExit then closeFile
          return true
        else do
          setState .errorWhileWriting
          closeFile
          return false
      else do
        setState .fseekFailed
        closeFile
        return false
    else do
      setState .fseekFailed
      closeFile
      return false
  else return false

/-- `Tile::sync_to_file`. -/
def syncToFile (closeOnExit : Bool) : TileM Body Checksum Bool := do
  let s ← get
  match s.tile.desc.fetchedData with
  | none => do
    setState .cannotSyncNoRawData
    return false
  | some data =>
    if ← openFile TCount zeroBody then do
      if ← fwrite TCount data then do
        setState .ok
        if closeOnExit then closeFile
        return true
      else do
        setState .errorWhileWriting
        return false
    else throw (.undefined "sync_to_file ends without a return value")

/-- `Tile::alloc_tile_data`: a buffer from the pool, unless there is one. -/
def allocTileData : TileM Body Checksum Unit :=
  modify fun s =>
    { tile := s.tile.allocTileData zeroBody
      sys := match s.tile.desc.fetchedData with
        | some _ => s.sys
        | none => { s.sys with memPool := s.sys.memPool.get } }

/-- `Tile::sync_from_file`. -/
def syncFromFile (_closeOnExit : Bool) : TileM Body Checksum Bool := do
  if ← openFile TCount zeroBody then do
    allocTileData zeroBody
    let got ← fread TCount
    if got = TCount then do
      setState .ok
      return true
    else do
      setState .errorWhileReading
      return false
  else return false

/-- `Tile::get_tile_data`. -/
def getTileData : TileM Body Checksum (Option (Nat → Row Body)) := do
  let s ← get
  setState .ok
  return s.tile.desc.fetchedData

/-- `Tile::get_state`. -/
def getState : TileM Body Checksum TileState := do return (← get).tile.desc.state

/-- `Tile::release_fetched_data`. -/
def releaseFetchedData : TileM Body Checksum Unit := do
  let s ← get
  match s.tile.desc.fetchedData with
  | none => setState .ok
  | some _ =>
    match s.sys.memPool.release with
    | none => throw (.thrown "BigObjectMemoryPool: cannot release")
    | some memPool => do
      modify fun s => { s with sys := { s.sys with memPool := memPool } }
      updateTile Tile.releaseFetchedData

/-- What `flush_cache` does to each tile but the last: `last_use`, if there is data. -/
def closeCached : TileM Body Checksum (Option Nat) := do
  let data ← getTileData
  let s ← get
  closeFile
  return data.map fun _ => s.tile.desc.lastUse

end TileM

/-! ## The object -/

/-- `Blockchain<T, RecCount>` with what is under it. -/
structure Machine {T : Type} (F : RowFormat T) where
  chain : Blockchain F
  sys : System F.Body
  unusedTiles : List (TileDesc F.Body F.Checksum)

namespace Machine

variable {T : Type} {F : RowFormat T} (K : Params)

/-- A call on the object. -/
abbrev MachineM (F : RowFormat T) := EStateM Fault (Machine F)

def tileBlockSize : Nat := 1000

/-- `create_tile_desc`, of which the caller gets the last descriptor of the list, reset. -/
def createTileDesc (unused : List (TileDesc F.Body F.Checksum)) :
    List (TileDesc F.Body F.Checksum) :=
  (if unused.isEmpty then List.replicate tileBlockSize (reset F.zero .ok) else unused).dropLast

/-- The constructor. -/
def create (disk : Nat → Entry F.Body) (fc : Nat) (script : List (Outcome F.Body)) : Machine F where
  chain := Blockchain.create K disk fc
  sys := { script := script, memPool := ⟨0, 0, 0⟩, openFiles := 0 }
  unusedTiles := Nat.iterate createTileDesc fc []

/-- `tiles.get_tile(i)` followed by an operation on the tile. -/
def onTile {α : Type} (i : Nat) (m : TileM F.Body F.Checksum α) : MachineM F α := fun M =>
  match M.chain.tiles[i]? with
  | none => .error (.thrown "TileFile: index too large") M
  | some d =>
    match m ⟨⟨M.chain.disk i, d⟩, M.sys⟩ with
    | .ok a r => .ok a { M with chain := M.chain.putTile i r.tile, sys := r.sys }
    | .error e r => .error e { M with chain := M.chain.putTile i r.tile, sys := r.sys }

/-- A call that opens and closes nothing and takes no buffer. -/
def onChain {α : Type} (m : Blockchain.ChainM F α) : MachineM F α := fun M =>
  match m M.chain with
  | .ok a s => .ok a { M with chain := s }
  | .error e s => .error e { M with chain := s }

def getChain : MachineM F (Blockchain F) := do return (← get).chain

def appendTile : MachineM F Unit :=
  modify fun M =>
    { M with chain := M.chain.appendTile, unusedTiles := createTileDesc M.unusedTiles }

def truncateTail (first : Nat) (M : Machine F) : Machine F :=
  { M with
    chain := M.chain.truncateTail first
    unusedTiles := M.unusedTiles
      ++ (M.chain.tiles.drop first).map fun d => { d with state := .truncated } }

/-! ## The cache -/

/-- The loop of `flush_cache` that closes the files and collects the cached tiles. -/
def closeTiles : List Nat → MachineM F (List (Nat × Nat))
  | [] => return []
  | i :: is => do
    let lastUse ← onTile i TileM.closeCached
    let sti ← closeTiles is
    match lastUse with
    | some t => return (i, t) :: sti
    | none => return sti

/-- The loop that releases buffers. -/
def releaseTiles : List Nat → MachineM F Unit
  | [] => return ()
  | i :: is => do
    onTile i TileM.releaseFetchedData
    releaseTiles is

def flushCache (now : Nat) : MachineM F Unit := do
  let s ← getChain
  if s.tiles.length = 0 then return ()
  else do
    let sti ← closeTiles (List.range (s.tiles.length - 1))
    releaseTiles (((K.sort sti).take (sti.length - K.optimalCacheSize)).map Prod.fst)
    onChain (modify fun s =>
      { s with nextCacheFlushTimestamp := now + K.cacheAutoFlushMinIntervalSec })

def maybeFlushCache (now : Nat) : MachineM F Unit := do
  let s ← getChain
  if s.nextCacheFlushTimestamp < now then flushCache K now else return ()

/-! ## Calls -/

def getBlock (index now : Nat) : MachineM F (Option (Nat → Row F.Body) × ExitCode) := do
  maybeFlushCache K now
  let _ ← onTile index (TileM.syncFromFile K.RecCount F.zeroBody true)
  match ← onTile index TileM.getTileData with
  | some r => return (some r, .ok)
  | none =>
    if ← onTile index (TileM.syncFromFile K.RecCount F.zeroBody true) then
      match ← onTile index TileM.getTileData with
      | none => throw (.undefined "null block")
      | some r =>
        let (good, ec) ← onChain (Blockchain.validateBlock K index r false .ok)
        return (if good then some r else none, ec)
    else return (none, .ok)

def closeLastTile : MachineM F Unit := do
  let n := (← getChain).tiles.length
  if 0 < n then onTile (n - 1) TileM.closeFile

/-- `append`, when the last block is full. -/
def appendNewBlock (record : Row F.Body) : MachineM F (Bool × ExitCode) := do
  closeLastTile
  let n := (← getChain).tiles.length
  let prev ← onChain (Blockchain.getPrevChecksum n)
  let cr := F.checksumRow (F.calcChecksum prev record)
  onChain (modify Blockchain.advanceValid)
  appendTile
  onTile n do
    TileM.allocTileData F.zeroBody
    TileM.updateTile (Blockchain.setFirstRows record cr)
  onChain (modify fun s => { s with recCount := s.recCount + 2 })
  let written ← onTile n (TileM.syncToFile K.RecCount F.zeroBody false)
  return if written then (true, .ok) else (false, .writeError)

/-- `append`, inside a block. -/
def appendInBlock (record : Row F.Body) (blockPos : Nat) :
    MachineM F (Bool × ExitCode) := do
  let i := (← getChain).lastIndex
  match ← onTile i TileM.getTileData with
  | none => throw (.undefined "null tile data")
  | some r =>
    let cr := F.checksumRow (F.calcChecksum (F.checksum (r (blockPos - 1)).body) record)
    if ← onTile i (TileM.write K.RecCount F.zeroBody record (blockPos - 1) false) then
      if ← onTile i (TileM.write K.RecCount F.zeroBody cr blockPos false) then
        onChain (modify fun s => { s with recCount := s.recCount + 1 })
        return (true, .ok)
      else return (false, .writeError)
    else return (false, .writeError)

def append (recPayload : T) (now : Nat) : MachineM F (Bool × ExitCode) := do
  maybeFlushCache K now
  let blockPos := (← getChain).recCount % K.RecCount
  let record := F.payloadRow recPayload
  if blockPos = 0 then appendNewBlock K record else appendInBlock K record blockPos

def validateNextChecksum (now : Nat) : MachineM F (Bool × ExitCode) := do
  maybeFlushCache K now
  let s ← getChain
  let b := s.checksumValidBlockCount
  if s.tiles.length ≤ b then return (false, .ok)
  else
    if ← onTile b (TileM.syncFromFile K.RecCount F.zeroBody true) then
      match ← onTile b TileM.getTileData with
      | none => throw (.undefined "null block")
      | some r =>
        let (good, ec) ← onChain (Blockchain.validateBlock K b r false .ok)
        if good then
          onChain (modify (Blockchain.countBlock K r))
          return (true, ec)
        else
          onChain (modify (Blockchain.moveToBad b now))
          return (false, ec)
    else
      match ← onTile b TileM.getState with
      | .missingFile => return (false, .ok)
      | .badLength =>
        onChain (modify (Blockchain.moveToBad b now))
        return (false, .badBlockLength)
      | _ => throw (.thrown "bad block file, cannot recover, ")

def truncate (first : Nat) (M : Machine F) : Machine F := truncateTail first M

/-- One call. -/
def machineStep (M : Machine F) : Blockchain.StoreCall T → Option (Machine F)
  | .append p now => Blockchain.inUse (append K p now M)
  | .getBlock i now => Blockchain.inUse (getBlock K i now M)
  | .validateNextChecksum now => Blockchain.inUse (validateNextChecksum K now M)
  | .flushCache now => Blockchain.inUse (flushCache K now M)
  | .truncate first => some (truncate first M)

end Machine

end GradidoNode
