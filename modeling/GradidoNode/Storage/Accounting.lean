/-
# `GradidoNode.Storage.Accounting` — whose buffers and open files these are

Every buffer the pool has in use, and every open file, belongs to a tile of the vector,
or to nobody any more.  Operations on a tile keep the number of the latter
(`Counted a b`: the tile's own, and `a` buffers and `b` files besides), whatever the C
library does; so do calls on the object (`Balanced a b`), with one exception:

    truncate     adds the buffers and files of the descriptors it drops  (`Balanced.truncate`)

The C library comes in through `Opens`, which lists what `open_file` can do.
-/
import GradidoNode.Storage.Machine

namespace GradidoNode

open FileTile Lib

namespace TileM

variable {Body Checksum : Type}

/-! ## What each call of the C library does -/

section Library

variable {N : Nat} {z : Body} {s : TileOn Body Checksum}

/-- One outcome less. -/
def advance (sys : System Body) : System Body := { sys with script := sys.script.tail }

theorem nextOutcome_bind {α : Type} (f : Outcome Body → TileM Body Checksum α) :
    (nextOutcome >>= f) s = f (s.sys.script.headD .works) { s with sys := advance s.sys } := rfl

theorem fseek_works (h : s.sys.script.headD .works = .works) (pos : Nat) (buffered : Option Nat) :
    fseek pos buffered s = .ok true
      { tile := { s.tile with desc := { s.tile.desc with
          fileHandle := s.tile.desc.fileHandle.map fun _ => pos } }
        sys := advance s.sys } := by
  rw [fseek, nextOutcome_bind, h]
  rfl

variable {torn : Option (Row Body)}

theorem fseek_fails {rows : Nat}
    (h : s.sys.script.headD .works = .fails rows torn) (pos : Nat) (buffered : Option Nat) :
    fseek pos buffered s = .ok false
      { tile := { s.tile with entry := buffered.elim s.tile.entry fun i => tear i torn s.tile.entry }
        sys := advance s.sys } := by
  rw [fseek, nextOutcome_bind, h]
  rfl

theorem fwrite_works (h : s.sys.script.headD .works = .works) (n : Nat) (rs : Nat → Row Body) :
    fwrite n rs s = .ok true
      { tile :=
          { entry := Tile.fwrite (s.tile.desc.fileHandle.getD 0) n rs s.tile.entry
            desc := { s.tile.desc with
              fileHandle := s.tile.desc.fileHandle.map fun pos => pos + n } }
        sys := advance s.sys } := by
  rw [fwrite, nextOutcome_bind, h]
  rfl

theorem fwrite_fails {rows : Nat} (h : s.sys.script.headD .works = .fails rows torn) (n : Nat)
    (rs : Nat → Row Body) :
    fwrite n rs s = .ok false
      { tile :=
          { entry := tear (s.tile.desc.fileHandle.getD 0 + min rows (n - 1)) torn
              (Tile.fwrite (s.tile.desc.fileHandle.getD 0) (min rows (n - 1)) rs s.tile.entry)
            desc := { s.tile.desc with
              fileHandle := s.tile.desc.fileHandle.map fun pos => pos + min rows (n - 1) } }
        sys := advance s.sys } := by
  rw [fwrite, nextOutcome_bind, h]
  rfl

/-- What `open_file` does: nothing when the file is open; otherwise `fopen` decides, unless
the file is not in order. -/
inductive Opens (N : Nat) (z : Body) (s : TileOn Body Checksum) :
    Bool → TileOn Body Checksum → Prop
  | already (hopen : s.tile.desc.fileHandle.isSome) :
      Opens N z s true { s with tile := (s.tile.openFile N z).2 }
  | opened (hclosed : s.tile.desc.fileHandle = none) (hfit : (s.tile.openFile N z).1 = true)
      (hnext : s.sys.script.headD .works = .works) :
      Opens N z s true
        { tile := (s.tile.openFile N z).2
          sys := { advance s.sys with openFiles := s.sys.openFiles + 1 } }
  | refused (hclosed : s.tile.desc.fileHandle = none) (hfit : (s.tile.openFile N z).1 = false) :
      Opens N z s false { s with tile := (s.tile.openFile N z).2 }
  | failed (hclosed : s.tile.desc.fileHandle = none) (hfit : (s.tile.openFile N z).1 = true)
      {rows : Nat} {torn : Option (Row Body)}
      (hnext : s.sys.script.headD .works = .fails rows torn) :
      Opens N z s false { tile := s.tile.setState .cannotOpenFile, sys := advance s.sys }

theorem fopen_works (h : s.sys.script.headD .works = .works) (e : Entry Body) : fopen e s = .ok true
      { tile := { entry := e, desc := { s.tile.desc with fileHandle := some 0 } }
        sys := { advance s.sys with openFiles := s.sys.openFiles + 1 } } := by
  rw [fopen, nextOutcome_bind, h]
  rfl

theorem fopen_fails {rows : Nat} (h : s.sys.script.headD .works = .fails rows torn)
    (e : Entry Body) : fopen e s = .ok false { s with sys := advance s.sys } := by
  rw [fopen, nextOutcome_bind, h]
  rfl

/-- `fopen` of a file that may be opened, and what `open_file` makes of it. -/
theorem openFile_fopen {e : Entry Body} (hh : s.tile.desc.fileHandle = none)
    (hop : s.tile.openFile N z
      = (true, ⟨e, { s.tile.desc with fileHandle := some 0, state := .ok }⟩))
    (hca : openFile N z s = (do
      if ← fopen e then do
        setState .ok
        return true
      else do
        setState .cannotOpenFile
        return false : TileM Body Checksum Bool) s) :
    ∃ b s', openFile N z s = .ok b s' ∧ Opens N z s b s' := by
  have hfit : (s.tile.openFile N z).1 = true := by rw [hop]
  rw [hca]
  cases hne : s.sys.script.headD .works with
  | works =>
    refine ⟨true, _, bind_eq (fopen_works hne e), ?_⟩
    have h := Opens.opened hh hfit hne
    rw [hop] at h
    exact h
  | fails rows torn =>
    exact ⟨false, _, bind_eq (fopen_fails hne e), .failed hh hfit hne⟩

theorem openFile_opens (N : Nat) (z : Body) (s : TileOn Body Checksum) :
    ∃ b s', openFile N z s = .ok b s' ∧ Opens N z s b s' := by
  cases hh : s.tile.desc.fileHandle with
  | some pos =>
    have hop : (s.tile.openFile N z).2 = s.tile.setState .ok := by
      rw [Tile.openFile, hh]
    refine ⟨true, { s with tile := s.tile.setState .ok }, ?_, ?_⟩
    · rw [openFile, get_bind, hh]
      rfl
    · rw [← hop]
      exact .already (by rw [hh]; rfl)
  | none =>
    have hre : checkFile2 N s.tile.entry ≠ .missingFile → checkFile2 N s.tile.entry ≠ .ok →
        ∃ b s', openFile N z s = .ok b s' ∧ Opens N z s b s' := by
      intro h₁ h₂
      have hop : s.tile.openFile N z = (false, s.tile.setState .cannotOpenFile) := by
        rw [Tile.openFile, hh]
        cases hc : checkFile2 N s.tile.entry <;> first | rfl | contradiction
      refine ⟨false, { s with tile := s.tile.setState .cannotOpenFile }, ?_, ?_⟩
      · rw [openFile, get_bind, hh]
        cases hc : checkFile2 N s.tile.entry <;> first | rfl | contradiction
      · have h := Opens.refused hh (by rw [hop] : (s.tile.openFile N z).1 = false)
        rw [hop] at h
        exact h
    by_cases h₁ : checkFile2 N s.tile.entry = .missingFile
    · refine openFile_fopen hh (e := .regular (createdFile z)) ?_ ?_
      · rw [Tile.openFile, hh, h₁]
      · rw [openFile, get_bind, hh, h₁]
    · by_cases h₂ : checkFile2 N s.tile.entry = .ok
      · refine openFile_fopen hh (e := s.tile.entry) ?_ ?_
        · rw [Tile.openFile, hh, h₂]
        · rw [openFile, get_bind, hh, h₂]
      · exact hre h₁ h₂

theorem allocTileData_eq (s : TileOn Body Checksum) : ∃ sys, allocTileData z s = .ok ()
      ⟨{ s.tile with desc := { s.tile.desc with
          fetchedData := some (s.tile.desc.fetchedData.getD (freshBuffer z)) } }, sys⟩ ∧
        sys.script = s.sys.script := by
  obtain ⟨⟨entry, ⟨state, fetchedData, fileHandle, sup, lastUse⟩⟩, sys⟩ := s
  cases fetchedData with
  | some data => exact ⟨sys, rfl, rfl⟩
  | none => exact ⟨_, rfl, rfl⟩

end Library

/-! ## One tile -/

section Counted

variable {N : Nat} {z : Body} {E : Fault → Bool} {a b : Nat}

/-- The buffers in use are that of the tile and `a` others, the open files that of the tile
and `b` others. -/
structure Counted (a b : Nat) (s : TileOn Body Checksum) : Prop where
  buffers : s.sys.memPool.used = s.tile.desc.fetchedData.isSome.toNat + a
  files : s.sys.openFiles = s.tile.desc.fileHandle.isSome.toNat + b

theorem get_used (p : BigObjectMemoryPool) : p.get.used = p.used + 1 := by
  unfold BigObjectMemoryPool.get
  split
  · rfl
  · split <;> rfl

theorem release_used {p p' : BigObjectMemoryPool} (h : p.release = some p') :
    p'.used + 1 = p.used := by
  unfold BigObjectMemoryPool.release at h
  split at h
  · cases h
  · next hpos =>
    cases h
    exact Nat.succ_pred_eq_of_ne_zero hpos

theorem counted_nextOutcome :
    Preserves E (Counted a b) (nextOutcome : TileM Body Checksum (Outcome Body)) :=
  .of_modifyGet fun _ h => ⟨h.buffers, h.files⟩

theorem counted_updateTile {f : Tile Body Checksum → Tile Body Checksum}
    (hf : ∀ t, (f t).desc.fetchedData.isSome = t.desc.fetchedData.isSome ∧
      (f t).desc.fileHandle.isSome = t.desc.fileHandle.isSome) :
    Preserves E (Counted a b) (updateTile f) := by
  refine .of_modify fun s h => ⟨?_, ?_⟩
  · rw [(hf s.tile).1]
    exact h.buffers
  · rw [(hf s.tile).2]
    exact h.files

theorem counted_setState (st : TileState) :
    Preserves E (Counted a b) (setState st : TileM Body Checksum Unit) :=
  counted_updateTile fun _ => ⟨rfl, rfl⟩

theorem counted_fseek (pos : Nat) (buffered : Option Nat) :
    Preserves E (Counted a b) (fseek pos buffered : TileM Body Checksum Bool) := by
  refine counted_nextOutcome.bind fun o => ?_
  cases o with
  | works =>
    refine .bind (counted_updateTile ?_) fun _ => .pure _
    exact fun _ => ⟨rfl, Option.isSome_map⟩
  | fails rows torn =>
    refine .bind (counted_updateTile ?_) fun _ => .pure _
    exact fun _ => ⟨rfl, rfl⟩

theorem counted_fwrite (n : Nat) (rs : Nat → Row Body) :
    Preserves E (Counted a b) (fwrite n rs : TileM Body Checksum Bool) := by
  refine counted_nextOutcome.bind fun o => ?_
  cases o with
  | works | fails rows torn =>
    refine .bind (counted_updateTile ?_) fun _ => .pure _
    exact fun _ => ⟨rfl, Option.isSome_map⟩

theorem counted_fread : Preserves E (Counted a b) (fread N : TileM Body Checksum Nat) := by
  refine .of_modifyGet fun s h => ⟨?_, ?_⟩
  · dsimp only
    rw [Option.isSome_map]
    exact h.buffers
  · dsimp only
    rw [Option.isSome_map]
    exact h.files

theorem openFile_tile (t : Tile Body Checksum) :
    (t.openFile N z).2.desc.fetchedData = t.desc.fetchedData ∧
      (t.openFile N z).2.desc.fileHandle.isSome = (t.openFile N z).1 := by
  rw [Tile.openFile]
  split
  · next hh => exact ⟨rfl, by rw [show (t.setState .ok).desc.fileHandle = _ from hh]; rfl⟩
  · next hh =>
    split
    · exact ⟨rfl, rfl⟩
    · exact ⟨rfl, rfl⟩
    · exact ⟨rfl, by rw [show (t.setState .cannotOpenFile).desc.fileHandle = _ from hh]; rfl⟩

theorem Opens.counted {s s' : TileOn Body Checksum} {o : Bool} (h : Opens N z s o s')
    (hs : Counted a b s) : Counted a b s' := by
  obtain ⟨hda, hha⟩ := openFile_tile s.tile
  cases h with
  | already hop =>
    have htr : (s.tile.openFile N z).1 = true := by
      obtain ⟨pos, hpos⟩ := Option.isSome_iff_exists.mp hop
      rw [Tile.openFile, hpos]
    refine ⟨?_, ?_⟩
    · rw [hda]
      exact hs.buffers
    · rw [hha, htr, ← hop]
      exact hs.files
  | opened hcl hfit _ =>
    refine ⟨?_, ?_⟩
    · rw [hda]
      exact hs.buffers
    · have hfi := hs.files
      rw [hcl] at hfi
      rw [hha, hfit]
      rw [hfi]
      simp [Nat.add_comm]
  | refused hcl hfit =>
    refine ⟨?_, ?_⟩
    · rw [hda]
      exact hs.buffers
    · have hfi := hs.files
      rw [hcl] at hfi
      rw [hha, hfit]
      exact hfi
  | failed _ _ _ => exact ⟨hs.buffers, hs.files⟩

theorem counted_openFile : Preserves E (Counted a b) (openFile N z : TileM Body Checksum Bool) := by
  intro s s' hs h
  obtain ⟨o, s₁, hca, hop⟩ := openFile_opens N z s
  rw [hca] at h
  cases h
  exact hop.counted hs

theorem counted_closeFile : Preserves E (Counted a b) (closeFile : TileM Body Checksum Unit) := by
  refine .of_modify fun s h => ⟨?_, ?_⟩
  · cases hh : s.tile.desc.fileHandle <;> exact h.buffers
  · have hfi := h.files
    cases hh : s.tile.desc.fileHandle with
    | none =>
      rw [hh] at hfi
      exact hfi
    | some pos =>
      rw [hh] at hfi
      show s.sys.openFiles - 1 = 0 + b
      rw [hfi]
      simp

theorem counted_write (record : Row Body) (i : Nat) (c : Bool) :
    Preserves E (Counted a b) (write N z record i c : TileM Body Checksum Bool) := by
  have hfa : ∀ st, Preserves E (Counted a b)
      (do setState st; closeFile; return false : TileM Body Checksum Bool) := fun st =>
    (counted_setState st).bind fun _ => counted_closeFile.bind fun _ => .pure _
  refine .ite ((counted_setState _).bind fun _ => .pure _) ?_
  refine counted_openFile.bind fun o => .ite ?_ (.pure _)
  refine (counted_fseek _ _).bind fun o => .ite ?_ (hfa _)
  refine (counted_fwrite _ _).bind fun res2 => ?_
  refine (counted_fseek _ _).bind fun o => .ite ?_ (hfa _)
  refine .ite (.ite ?_ ?_) (hfa _)
  · exact counted_closeFile.bind fun _ => .pure _
  · exact .pure _

theorem counted_syncToFile (c : Bool) :
    Preserves E (Counted a b) (syncToFile N z c : TileM Body Checksum Bool) := by
  refine Preserves.get.bind fun s => ?_
  cases s.tile.desc.fetchedData with
  | none => exact (counted_setState _).bind fun _ => .pure _
  | some data =>
    refine counted_openFile.bind fun o => .ite ?_ (.throw _)
    refine (counted_fwrite _ _).bind fun res => .ite ?_ ?_
    · refine (counted_setState _).bind fun _ => .ite ?_ (.pure _)
      exact counted_closeFile.bind fun _ => .pure _
    · exact (counted_setState _).bind fun _ => .pure _

theorem counted_allocTileData :
    Preserves E (Counted a b) (allocTileData z : TileM Body Checksum Unit) := by
  refine .of_modify fun s h => ?_
  have hbu := h.buffers
  cases hd : s.tile.desc.fetchedData with
  | some data =>
    have hal : s.tile.allocTileData z = s.tile := by rw [Tile.allocTileData, hd]
    rw [hal]
    exact h
  | none =>
    rw [Tile.allocTileData, hd]
    rw [hd] at hbu
    refine ⟨?_, h.files⟩
    rw [get_used, hbu]
    simp [Nat.add_comm]

theorem counted_syncFromFile (c : Bool) :
    Preserves E (Counted a b) (syncFromFile N z c : TileM Body Checksum Bool) := by
  refine counted_openFile.bind fun o => .ite ?_ (.pure _)
  refine counted_allocTileData.bind fun _ => counted_fread.bind fun got => .ite ?_ ?_
  · exact (counted_setState _).bind fun _ => .pure _
  · exact (counted_setState _).bind fun _ => .pure _

theorem counted_getTileData :
    Preserves E (Counted a b) (getTileData : TileM Body Checksum (Option (Nat → Row Body))) :=
  Preserves.get.bind fun _ => (counted_setState _).bind fun _ => .pure _

theorem counted_getState : Preserves E (Counted a b) (getState : TileM Body Checksum TileState) :=
  Preserves.get.bind fun _ => .pure _

theorem counted_closeCached :
    Preserves E (Counted a b) (closeCached : TileM Body Checksum (Option Nat)) :=
  counted_getTileData.bind fun _ => Preserves.get.bind fun _ =>
    counted_closeFile.bind fun _ => .pure _

theorem counted_releaseFetchedData :
    Preserves E (Counted a b) (releaseFetchedData : TileM Body Checksum Unit) := by
  intro s s' hs h
  rw [releaseFetchedData, get_bind] at h
  cases hd : s.tile.desc.fetchedData with
  | none =>
    rw [hd] at h
    exact counted_setState .ok s s' hs h
  | some data =>
    rw [hd] at h
    cases hp : s.sys.memPool.release with
    | none =>
      rw [hp] at h
      exact Preserves.throw _ s s' hs h
    | some memPool =>
      rw [hp] at h
      cases h
      have hbu := hs.buffers
      rw [hd] at hbu
      have hus := release_used hp
      refine ⟨?_, hs.files⟩
      show memPool.used = 0 + a
      simp at hbu
      omega

end Counted

end TileM

namespace Machine

variable {T : Type} {F : RowFormat T} {K : Params}

/-! ## The object -/

section Balanced

variable {E : Fault → Bool} {a b : Nat}

/-- Tiles with fetched data. -/
def fetchedCount (tiles : List (TileDesc F.Body F.Checksum)) : Nat :=
  tiles.countP fun d => d.fetchedData.isSome

/-- Tiles with an open file. -/
def openCount (tiles : List (TileDesc F.Body F.Checksum)) : Nat :=
  tiles.countP fun d => d.fileHandle.isSome

/-- The buffers in use are those of the tiles and `a` others, the open files those of the tiles
and `b` others. -/
structure Balanced (a b : Nat) (M : Machine F) : Prop where
  buffers : M.sys.memPool.used = fetchedCount M.chain.tiles + a
  files : M.sys.openFiles = openCount M.chain.tiles + b

theorem balanced_create (K : Params) (disk : Nat → Entry F.Body) (fc : Nat)
    (script : List (Outcome F.Body)) : Balanced 0 0 (create K disk fc script) := by
  refine ⟨?_, ?_⟩
  · refine (List.countP_eq_zero.mpr ?_).symm
    simp [create, Blockchain.create, reset]
  · refine (List.countP_eq_zero.mpr ?_).symm
    simp [create, Blockchain.create, reset]

/-- One place of a list, and the others. -/
theorem countP_place {α : Type} (p : α → Bool) {l : List α} {i : Nat} {x : α} (h : l[i]? = some x) :
    ∃ others, l.countP p = (p x).toNat + others ∧
      ∀ y, (l.set i y).countP p = (p y).toNat + others := by
  obtain ⟨hi, rfl⟩ := List.getElem?_eq_some_iff.mp h
  have hset : ∀ y, (l.set i y).countP p
      = (p y).toNat + ((l.take i).countP p + (l.drop (i + 1)).countP p) := by
    intro y
    rw [List.set_eq_take_append_cons_drop, if_pos hi, List.countP_append, List.countP_cons]
    cases p y <;> simp
    omega
  refine ⟨_, ?_, hset⟩
  have hsa := hset l[i]
  rw [List.set_getElem_self] at hsa
  exact hsa

theorem balanced_onTile {α : Type} {m : TileM F.Body F.Checksum α} (i : Nat)
    (hm : ∀ a b, Preserves E (TileM.Counted a b) m) : Preserves E (Balanced a b) (onTile i m) := by
  intro M M' hM h
  rw [onTile] at h
  cases hd : M.chain.tiles[i]? with
  | none =>
    rw [hd] at h
    exact Preserves.throw _ M M' hM h
  | some d =>
    rw [hd] at h
    dsimp only at h
    obtain ⟨a', hfe, hfe'⟩ := countP_place (fun d => d.fetchedData.isSome) hd
    obtain ⟨b', hop, hop'⟩ := countP_place (fun d => d.fileHandle.isSome) hd
    have hco : TileM.Counted (a' + a) (b' + b) ⟨⟨M.chain.disk i, d⟩, M.sys⟩ := by
      refine ⟨?_, ?_⟩
      · rw [← Nat.add_assoc, ← hfe]
        exact hM.buffers
      · rw [← Nat.add_assoc, ← hop]
        exact hM.files
    have hba : ∀ r : TileOn F.Body F.Checksum, TileM.Counted (a' + a) (b' + b) r →
        Balanced a b { M with chain := M.chain.putTile i r.tile, sys := r.sys } := by
      intro r hr
      refine ⟨?_, ?_⟩
      · show r.sys.memPool.used = fetchedCount (M.chain.tiles.set i r.tile.desc) + a
        rw [fetchedCount, hfe', Nat.add_assoc]
        exact hr.buffers
      · show r.sys.openFiles = openCount (M.chain.tiles.set i r.tile.desc) + b
        rw [openCount, hop', Nat.add_assoc]
        exact hr.files
    have hke := fun r => hm (a' + a) (b' + b) _ r hco
    cases hca : m ⟨⟨M.chain.disk i, d⟩, M.sys⟩ with
    | ok x r =>
      rw [hca] at h hke
      cases h
      exact hba r (hke r rfl)
    | error e r =>
      rw [hca] at h hke
      obtain ⟨hE, h⟩ := Option.ite_none_right_eq_some.mp h
      cases h
      exact hba r (hke r (if_pos hE))

theorem balanced_onChain {α : Type} {m : Blockchain.ChainM F α}
    (hm : ∀ tiles, Preserves E (fun s => s.tiles = tiles) m) :
    Preserves E (Balanced a b) (onChain m) := by
  intro M M' hM h
  have htl := fun s => hm M.chain.tiles M.chain s rfl
  have hba : ∀ s : Blockchain F, s.tiles = M.chain.tiles → Balanced a b { M with chain := s } := by
    intro s hs
    refine ⟨?_, ?_⟩
    · rw [show ({ M with chain := s } : Machine F).chain.tiles = _ from hs]
      exact hM.buffers
    · rw [show ({ M with chain := s } : Machine F).chain.tiles = _ from hs]
      exact hM.files
  rw [onChain] at h
  cases hca : m M.chain with
  | ok x s =>
    rw [hca] at h htl
    cases h
    exact hba s (htl s rfl)
  | error e s =>
    rw [hca] at h htl
    obtain ⟨hE, h⟩ := Option.ite_none_right_eq_some.mp h
    cases h
    exact hba s (htl s (if_pos hE))

theorem balanced_getChain : Preserves E (Balanced a b) (getChain : MachineM F (Blockchain F)) :=
  Preserves.get.bind fun _ => .pure _

theorem balanced_appendTile : Preserves E (Balanced a b) (appendTile : MachineM F Unit) := by
  refine .of_modify fun M hM => ⟨?_, ?_⟩
  · show M.sys.memPool.used = fetchedCount (M.chain.tiles ++ [reset F.zero .ok]) + a
    rw [hM.buffers, fetchedCount, fetchedCount, List.countP_append]
    rfl
  · show M.sys.openFiles = openCount (M.chain.tiles ++ [reset F.zero .ok]) + b
    rw [hM.files, openCount, openCount, List.countP_append]
    rfl

/-- What leaves the vector with its buffer and its file is still counted. -/
theorem Balanced.truncate {M : Machine F} (h : Balanced a b M) (first : Nat) :
    Balanced (fetchedCount (M.chain.tiles.drop first) + a)
      (openCount (M.chain.tiles.drop first) + b) (truncate first M) := by
  have hsp : ∀ p : TileDesc F.Body F.Checksum → Bool, M.chain.tiles.countP p
      = (M.chain.tiles.take first).countP p + (M.chain.tiles.drop first).countP p := by
    intro p
    rw [← List.countP_append, List.take_append_drop]
  refine ⟨?_, ?_⟩
  · rw [← Nat.add_assoc]
    refine h.buffers.trans ?_
    rw [fetchedCount, hsp]
    rfl
  · rw [← Nat.add_assoc]
    refine h.files.trans ?_
    rw [openCount, hsp]
    rfl

theorem balanced_closeTiles (is : List Nat) :
    Preserves E (Balanced a b) (closeTiles is : MachineM F (List (Nat × Nat))) := by
  induction is with
  | nil => exact .pure _
  | cons i is ih =>
    refine (balanced_onTile i fun a b => TileM.counted_closeCached).bind fun lastUse =>
      ih.bind fun sti => ?_
    cases lastUse <;> exact .pure _

theorem balanced_releaseTiles (is : List Nat) :
    Preserves E (Balanced a b) (releaseTiles is : MachineM F Unit) := by
  induction is with
  | nil => exact .pure _
  | cons i is ih =>
    exact (balanced_onTile i fun a b => TileM.counted_releaseFetchedData).bind fun _ => ih

theorem balanced_modify {g : Blockchain F → Blockchain F} (hg : ∀ s, (g s).tiles = s.tiles) :
    Preserves E (Balanced a b) (onChain (modify g) : MachineM F PUnit) :=
  balanced_onChain fun _ => .of_modify fun s hs => (hg s).trans hs

theorem balanced_flushCache (now : Nat) :
    Preserves E (Balanced a b) (flushCache K now : MachineM F Unit) := by
  refine balanced_getChain.bind fun s => .ite (.pure _) ?_
  refine (balanced_closeTiles _).bind fun sti => (balanced_releaseTiles _).bind fun _ => ?_
  exact balanced_modify fun _ => rfl

theorem balanced_maybeFlushCache (now : Nat) :
    Preserves E (Balanced a b) (maybeFlushCache K now : MachineM F Unit) :=
  balanced_getChain.bind fun _ => .ite (balanced_flushCache now) (.pure _)

theorem balanced_syncFromFile (i : Nat) (c : Bool) : Preserves E (Balanced a b)
    (onTile i (TileM.syncFromFile K.RecCount F.zeroBody c) : MachineM F Bool) :=
  balanced_onTile i fun _ _ => TileM.counted_syncFromFile c

theorem balanced_getTileData (i : Nat) : Preserves E (Balanced a b)
    (onTile i TileM.getTileData : MachineM F (Option (Nat → Row F.Body))) :=
  balanced_onTile i fun _ _ => TileM.counted_getTileData

theorem balanced_validateBlock (i : Nat) (r : Nat → Row F.Body) : Preserves E (Balanced a b)
    (onChain (Blockchain.validateBlock K i r false .ok) : MachineM F (Bool × ExitCode)) :=
  balanced_onChain fun _ => Blockchain.preserves_validateBlock i r false .ok

theorem balanced_getBlock (index now : Nat) : Preserves E (Balanced a b)
    (getBlock K index now : MachineM F (Option (Nat → Row F.Body) × ExitCode)) := by
  refine (balanced_maybeFlushCache now).bind fun _ => (balanced_syncFromFile index _).bind fun _ =>
    (balanced_getTileData index).bind fun data => ?_
  cases data with
  | some r => exact .pure _
  | none =>
    refine (balanced_syncFromFile index _).bind fun ok => .ite ?_ (.pure _)
    refine (balanced_getTileData index).bind fun data => ?_
    cases data with
    | none => exact .throw _
    | some r => exact (balanced_validateBlock index r).bind fun _ => .pure _

theorem balanced_closeLastTile : Preserves E (Balanced a b) (closeLastTile : MachineM F Unit) :=
  balanced_getChain.bind fun _ =>
    .ite (balanced_onTile _ fun _ _ => TileM.counted_closeFile) (.pure _)

theorem setFirstRows_isSome (record cr : Row F.Body) (t : Tile F.Body F.Checksum) :
    (Blockchain.setFirstRows record cr t).desc.fetchedData.isSome = true ∧
      (Blockchain.setFirstRows record cr t).desc.fileHandle = t.desc.fileHandle := by
  obtain ⟨entry, ⟨state, fetchedData, fileHandle, sup, lastUse⟩⟩ := t
  cases fetchedData <;> exact ⟨rfl, rfl⟩

/-- The buffer the rows are put in has been taken before. -/
theorem counted_firstRows (record cr : Row F.Body) : Preserves E (TileM.Counted a b)
    (do TileM.allocTileData F.zeroBody
        TileM.updateTile (Blockchain.setFirstRows record cr) : TileM F.Body F.Checksum Unit) := by
  intro s s' hs h
  obtain ⟨sys, hal, -⟩ := TileM.allocTileData_eq s
  have hco := TileM.counted_allocTileData (E := E) s _ hs (by rw [hal]; rfl)
  rw [bind_eq hal] at h
  cases h
  obtain ⟨hda, hha⟩ := setFirstRows_isSome record cr
    { s.tile with desc := { s.tile.desc with
      fetchedData := some (s.tile.desc.fetchedData.getD (freshBuffer F.zeroBody)) } }
  refine ⟨?_, ?_⟩
  · rw [hda]
    exact hco.buffers
  · rw [hha]
    exact hco.files

theorem balanced_appendNewBlock (record : Row F.Body) :
    Preserves E (Balanced a b) (appendNewBlock K record) := by
  refine balanced_closeLastTile.bind fun _ => balanced_getChain.bind fun s => ?_
  refine (balanced_onChain fun _ => Blockchain.preserves_getPrevChecksum _).bind fun prev => ?_
  refine (balanced_modify fun s => (Blockchain.advanceValid_frame s).1).bind fun _ => ?_
  refine balanced_appendTile.bind fun _ => ?_
  refine (balanced_onTile _ fun a b => counted_firstRows _ _).bind fun _ => ?_
  refine .bind (balanced_modify fun _ => rfl) fun _ => ?_
  exact (balanced_onTile _ fun _ _ => TileM.counted_syncToFile _).bind fun _ => .pure _

theorem balanced_append (p : T) (now : Nat) :
    Preserves E (Balanced a b) (append K p now : MachineM F (Bool × ExitCode)) := by
  have hwr : ∀ record i pos, Preserves E (Balanced a b)
      (onTile i (TileM.write K.RecCount F.zeroBody record pos false) : MachineM F Bool) :=
    fun record i pos => balanced_onTile i fun _ _ => TileM.counted_write record pos false
  refine (balanced_maybeFlushCache now).bind fun _ => balanced_getChain.bind fun s =>
    .ite (balanced_appendNewBlock _) ?_
  refine balanced_getChain.bind fun s => (balanced_getTileData _).bind fun data => ?_
  cases data with
  | none => exact .throw _
  | some r =>
    refine (hwr _ _ _).bind fun w => .ite ?_ (.pure _)
    refine (hwr _ _ _).bind fun w => .ite ?_ (.pure _)
    exact .bind (balanced_modify fun _ => rfl) fun _ => .pure _

theorem balanced_validateNextChecksum (now : Nat) : Preserves E (Balanced a b)
    (validateNextChecksum K now : MachineM F (Bool × ExitCode)) := by
  refine (balanced_maybeFlushCache now).bind fun _ => balanced_getChain.bind fun s =>
    .ite (.pure _) ?_
  refine (balanced_syncFromFile _ _).bind fun ok => .ite ?_ ?_
  · refine (balanced_getTileData _).bind fun data => ?_
    cases data with
    | none => exact .throw _
    | some r =>
      refine (balanced_validateBlock _ r).bind fun good => .ite ?_ ?_
      · exact .bind (balanced_modify fun _ => rfl) fun _ => .pure _
      · exact .bind (balanced_modify fun _ => rfl) fun _ => .pure _
  · refine (balanced_onTile _ fun _ _ => TileM.counted_getState).bind fun st => ?_
    split
    · exact .pure _
    · exact .bind (balanced_modify fun _ => rfl) fun _ => .pure _
    · exact .throw _

end Balanced

end Machine

end GradidoNode
