/-
# `GradidoNode.Storage.Mirror` — calls that work

`GradidoNode.Storage.Blockchain` has neither a pool nor calls that fail.  Where the C
library does not fail, `write` and `sync_to_file` of `GradidoNode.Storage.Machine` do to
the tile what those of `GradidoNode.Storage.FileTile` do (`write_worked`,
`syncToFile_worked`).  `flush_cache` calls nothing that fails: if it returns, its two loops
are the one pass over the descriptors (`flushCache_ok`).
-/
import GradidoNode.Storage.Accounting
import GradidoNode.Storage.Cache

namespace GradidoNode

open FileTile Lib

namespace TileM

variable {Body Checksum : Type}

/-! ## Operations on a tile -/

section Agrees

variable {N : Nat} {z : Body} {s s₁ : TileOn Body Checksum}

theorem Opens.openFile_eq (h : Opens N z s true s₁) : s.tile.openFile N z = (true, s₁.tile) := by
  cases h with
  | already hop =>
    obtain ⟨pos, hpos⟩ := Option.isSome_iff_exists.mp hop
    rw [Tile.openFile, hpos]
  | opened _ hfit _ => exact Prod.ext hfit rfl

theorem Opens.handle (h : Opens N z s true s₁) : ∃ pos, s₁.tile.desc.fileHandle = some pos := by
  have hha := (openFile_tile (N := N) (z := z) s.tile).2
  rw [h.openFile_eq] at hha
  exact Option.isSome_iff_exists.mp hha

/-- `write`, when none of its calls fails. -/
theorem write_worked {i : Nat} (hi : i < N) (hca : openFile N z s = .ok true s₁)
    (hop : Opens N z s true s₁) (h₁ : s₁.sys.script.headD .works = .works)
    (h₂ : (advance s₁.sys).script.headD .works = .works)
    (h₃ : (advance (advance s₁.sys)).script.headD .works = .works) (record : Row Body) :
    write N z record i false s = .ok true
      ⟨(s.tile.write N z record i false).2, advance (advance (advance s₁.sys))⟩ := by
  obtain ⟨pos, hpos⟩ := hop.handle
  have htl : (s.tile.write N z record i false).2
      = { entry := Tile.fwrite i 1 (fun _ => record) s₁.tile.entry
          desc := { s₁.tile.desc with fileHandle := some 0 } } := by
    rw [Tile.write, if_neg (Nat.not_le.mpr hi), hop.openFile_eq]
    rfl
  rw [write, if_neg (Nat.not_le.mpr hi), bind_eq hca, if_pos rfl, bind_eq (fseek_works h₁ i none),
    if_pos rfl, bind_eq (fwrite_works h₂ 1 _), bind_eq (fseek_works h₃ 0 _), if_pos rfl, if_pos rfl,
    htl]
  simp only [hpos, Option.map_some, Option.getD_some]
  rfl

/-- `sync_to_file`, when none of its calls fails. -/
theorem syncToFile_worked {data : Nat → Row Body} (hd : s.tile.desc.fetchedData = some data)
    (hca : openFile N z s = .ok true s₁) (hop : Opens N z s true s₁)
    (h₁ : s₁.sys.script.headD .works = .works) :
    ∃ t, s.tile.syncToFile N z false = some (true, t) ∧
      syncToFile N z false s = .ok true ⟨t, advance s₁.sys⟩ := by
  obtain ⟨pos, hpos⟩ := hop.handle
  refine ⟨_, by rw [Tile.syncToFile, hd]; dsimp only; rw [hop.openFile_eq], ?_⟩
  rw [syncToFile, get_bind, hd]
  dsimp only
  rw [bind_eq hca, if_pos rfl, bind_eq (fwrite_works h₁ N data), if_pos rfl]
  simp only [hpos, Option.map_some, Option.getD_some]
  rfl

theorem closeFile_eq (s : TileOn Body Checksum) :
    ∃ sys, closeFile s = .ok () ⟨s.tile.closeFile, sys⟩ ∧ sys.script = s.sys.script := by
  refine ⟨_, rfl, ?_⟩
  cases hh : s.tile.desc.fileHandle <;> rfl

theorem closeCached_eq (s : TileOn Body Checksum) : ∃ sys, closeCached s
        = .ok (s.tile.desc.fetchedData.map fun _ => s.tile.desc.lastUse) ⟨s.tile.closeFile, sys⟩ ∧
      sys.script = s.sys.script := by
  obtain ⟨sys, hcl, hsys⟩ := closeFile_eq { s with tile := s.tile.setState .ok }
  refine ⟨sys, ?_, hsys⟩
  rw [closeCached, bind_eq (rfl : getTileData s = .ok s.tile.desc.fetchedData _), get_bind]
  exact bind_eq hcl

/-- Released, if the pool agrees. -/
theorem releaseFetchedData_ok {u : Unit} (h : releaseFetchedData s = .ok u s₁) :
    s₁.tile = s.tile.releaseFetchedData ∧ s₁.sys.script = s.sys.script := by
  obtain ⟨⟨entry, ⟨state, fetchedData, fileHandle, sup, lastUse⟩⟩, sys⟩ := s
  rw [releaseFetchedData, get_bind] at h
  cases fetchedData with
  | none =>
    cases h
    exact ⟨rfl, rfl⟩
  | some data =>
    cases hp : sys.memPool.release with
    | none =>
      rw [hp] at h
      cases h
    | some memPool =>
      rw [hp] at h
      cases h
      exact ⟨rfl, rfl⟩

end Agrees

end TileM

namespace Machine

variable {T : Type} {F : RowFormat T} {K : Params}

/-! ## `flush_cache` -/

section Flush

variable {M M' : Machine F} {d : TileDesc F.Body F.Checksum}

theorem onTile_eq {α : Type} {m : TileM F.Body F.Checksum α} {i : Nat} {x : α}
    {r : TileOn F.Body F.Checksum}
    (hd : M.chain.tiles[i]? = some d) (h : m ⟨⟨M.chain.disk i, d⟩, M.sys⟩ = .ok x r) :
    onTile i m M = .ok x { M with chain := M.chain.putTile i r.tile, sys := r.sys } := by
  rw [onTile, hd]
  dsimp only
  rw [h]

theorem onTile_returned {α : Type} {m : TileM F.Body F.Checksum α} {i : Nat} {x : α}
    (h : onTile i m M = .ok x M') :
    ∃ d r, M.chain.tiles[i]? = some d ∧ m ⟨⟨M.chain.disk i, d⟩, M.sys⟩ = .ok x r ∧
      M' = { M with chain := M.chain.putTile i r.tile, sys := r.sys } := by
  rw [onTile] at h
  cases hd : M.chain.tiles[i]? with
  | none =>
    rw [hd] at h
    cases h
  | some d =>
    rw [hd] at h
    dsimp only at h
    cases hca : m ⟨⟨M.chain.disk i, d⟩, M.sys⟩ with
    | ok x' r =>
      rw [hca] at h
      cases h
      exact ⟨d, r, rfl, hca, rfl⟩
    | error e r =>
      rw [hca] at h
      cases h

theorem getChain_bind {α : Type} (f : Blockchain F → MachineM F α) :
    (getChain >>= f) M = f M.chain M := rfl

/-- The object after its descriptors have changed. -/
def withTiles (M : Machine F) (f : Nat → TileDesc F.Body F.Checksum → TileDesc F.Body F.Checksum)
    (sys : System F.Body) : Machine F :=
  { M with chain := { M.chain with tiles := M.chain.tiles.mapIdx f }, sys := sys }

theorem withTiles_nil (g : TileDesc F.Body F.Checksum → TileDesc F.Body F.Checksum) :
    withTiles M (fun j d => if j ∈ ([] : List Nat) then g d else d) M.sys = M := by
  have htl : M.chain.tiles.mapIdx (fun j d => if j ∈ ([] : List Nat) then g d else d)
      = M.chain.tiles := by
    refine List.ext_getElem? fun j => ?_
    rw [List.getElem?_mapIdx]
    cases M.chain.tiles[j]? <;> simp
  rw [withTiles, htl]

theorem withTiles_cons {i : Nat} {is : List Nat} (hd : M.chain.tiles[i]? = some d)
    (g : TileDesc F.Body F.Checksum → TileDesc F.Body F.Checksum) (hg : ∀ d, g (g d) = g d)
    (sys sys' : System F.Body) :
    withTiles { M with chain := M.chain.putTile i ⟨M.chain.disk i, g d⟩, sys := sys }
        (fun j d => if j ∈ is then g d else d) sys'
      = withTiles M (fun j d => if j ∈ i :: is then g d else d) sys' := by
  have hi : i < M.chain.tiles.length := (List.getElem?_eq_some_iff.mp hd).1
  have htl : (M.chain.tiles.set i (g d)).mapIdx (fun j d => if j ∈ is then g d else d)
      = M.chain.tiles.mapIdx fun j d => if j ∈ i :: is then g d else d := by
    refine List.ext_getElem? fun j => ?_
    rw [List.getElem?_mapIdx, List.getElem?_mapIdx, List.getElem?_set]
    by_cases hij : i = j
    · subst hij
      rw [if_pos rfl, if_pos hi, hd, Option.map_some, Option.map_some, if_pos List.mem_cons_self]
      split
      · rw [hg]
      · rfl
    · rw [if_neg hij]
      congr 1
      funext d
      simp [Ne.symm hij]
  simp only [withTiles, Blockchain.putTile, Function.update_eq_self, htl]

def closedDesc (d : TileDesc F.Body F.Checksum) : TileDesc F.Body F.Checksum :=
  { d with state := .ok, fileHandle := none }

def releasedDesc (d : TileDesc F.Body F.Checksum) : TileDesc F.Body F.Checksum :=
  { d with state := .ok, fetchedData := none }

/-- What `flush_cache` notes of a tile. -/
def cachedAt (tiles : List (TileDesc F.Body F.Checksum)) (i : Nat) : Option (Nat × Nat) :=
  tiles[i]?.bind fun d => d.fetchedData.map fun _ => (i, d.lastUse)

theorem cachedIndexes_eq (tiles : List (TileDesc F.Body F.Checksum)) :
    Blockchain.cachedIndexes tiles = (List.range (tiles.length - 1)).filterMap (cachedAt tiles) := by
  refine List.filterMap_congr fun i _ => ?_
  rw [cachedAt]
  cases tiles[i]? with
  | none => rfl
  | some d =>
    dsimp only [Option.bind_some]
    cases d.fetchedData <;> rfl

theorem cachedAt_closed {tiles : List (TileDesc F.Body F.Checksum)} {i : Nat}
    (hd : tiles[i]? = some d) (j : Nat) :
    cachedAt (tiles.set i (closedDesc d)) j = cachedAt tiles j := by
  have hi : i < tiles.length := (List.getElem?_eq_some_iff.mp hd).1
  rw [cachedAt, cachedAt, List.getElem?_set]
  by_cases hij : i = j
  · subst hij
    rw [if_pos rfl, if_pos hi, hd]
    rfl
  · rw [if_neg hij]

theorem closeTiles_eq (is : List Nat) (hin : ∀ i ∈ is, i < M.chain.tiles.length) :
    ∃ sys, closeTiles is M = .ok (is.filterMap (cachedAt M.chain.tiles))
        (withTiles M (fun j d => if j ∈ is then closedDesc d else d) sys) ∧
      sys.script = M.sys.script := by
  induction is generalizing M with
  | nil =>
    refine ⟨M.sys, ?_, rfl⟩
    rw [withTiles_nil]
    rfl
  | cons i is ih =>
    obtain ⟨d, hd⟩ : ∃ d, M.chain.tiles[i]? = some d :=
      ⟨_, List.getElem?_eq_getElem (hin i List.mem_cons_self)⟩
    obtain ⟨sys₁, hcl, hsys₁⟩ := TileM.closeCached_eq ⟨⟨M.chain.disk i, d⟩, M.sys⟩
    have hst : onTile i TileM.closeCached M = .ok (d.fetchedData.map fun _ => d.lastUse)
        { M with chain := M.chain.putTile i ⟨M.chain.disk i, closedDesc d⟩, sys := sys₁ } :=
      onTile_eq hd hcl
    obtain ⟨sys₂, hre, hsys₂⟩ := ih
      (M := { M with chain := M.chain.putTile i ⟨M.chain.disk i, closedDesc d⟩, sys := sys₁ })
      (fun j hj => by rw [Blockchain.putTile_length]; exact hin j (List.mem_cons_of_mem i hj))
    refine ⟨sys₂, ?_, hsys₂.trans hsys₁⟩
    rw [closeTiles, bind_eq hst, bind_eq hre, withTiles_cons hd closedDesc fun _ => rfl]
    have hno : is.filterMap (cachedAt (M.chain.tiles.set i (closedDesc d)))
        = is.filterMap (cachedAt M.chain.tiles) :=
      List.filterMap_congr fun j _ => cachedAt_closed hd j
    have hat : cachedAt M.chain.tiles i = d.fetchedData.map fun _ => (i, d.lastUse) := by
      rw [cachedAt, hd]
      rfl
    rw [List.filterMap_cons, hat, show (M.chain.putTile i ⟨M.chain.disk i, closedDesc d⟩).tiles
      = M.chain.tiles.set i (closedDesc d) from rfl, hno]
    cases d.fetchedData <;> rfl

theorem releaseTiles_ok {u : Unit} {is : List Nat} (h : releaseTiles is M = .ok u M') :
    ∃ sys, M' = withTiles M (fun j d => if j ∈ is then releasedDesc d else d) sys ∧
      sys.script = M.sys.script := by
  induction is generalizing M with
  | nil =>
    cases h
    exact ⟨M'.sys, (withTiles_nil _).symm, rfl⟩
  | cons i is ih =>
    obtain ⟨u₁, M₁, hst, hrs⟩ := bind_ok h
    obtain ⟨d, r, hd, hre, rfl⟩ := onTile_returned hst
    obtain ⟨htl, hsc⟩ := TileM.releaseFetchedData_ok hre
    obtain ⟨sys, hM', hsys⟩ := ih hrs
    refine ⟨sys, ?_, hsys.trans hsc⟩
    rw [hM', htl]
    exact withTiles_cons hd releasedDesc (fun _ => rfl) _ _

/-- `flush_cache`, loop by loop, is `flush_cache` of the chain. -/
theorem flushCache_ok {now : Nat} {u : Unit} (h : flushCache K now M = .ok u M') :
    M'.chain = Blockchain.flushCache K now M.chain ∧ M'.sys.script = M.sys.script := by
  rw [flushCache, getChain_bind] at h
  by_cases h0 : M.chain.tiles.length = 0
  · rw [if_pos h0] at h
    cases h
    rw [Blockchain.flushCache, if_pos h0]
    exact ⟨rfl, rfl⟩
  · rw [if_neg h0] at h
    obtain ⟨sys₁, hcl, hsys₁⟩ := closeTiles_eq (List.range (M.chain.tiles.length - 1))
      fun i hi => Nat.lt_of_lt_of_le (List.mem_range.mp hi) (Nat.sub_le _ _)
    rw [bind_eq hcl, ← cachedIndexes_eq] at h
    obtain ⟨u', M₂, hre, hM'⟩ := bind_ok h
    obtain ⟨sys₂, rfl, hsys₂⟩ := releaseTiles_ok hre
    cases hM'
    refine ⟨?_, hsys₂.trans hsys₁⟩
    rw [Blockchain.flushCache, if_neg h0]
    have htl : (M.chain.tiles.mapIdx fun j d =>
          if j ∈ List.range (M.chain.tiles.length - 1) then closedDesc d else d).mapIdx
            (fun j d => if j ∈ Blockchain.flushVictims K M.chain.tiles then releasedDesc d else d)
        = M.chain.tiles.mapIdx (Blockchain.flushDesc M.chain.tiles.length
            (Blockchain.flushVictims K M.chain.tiles)) := by
      refine List.ext_getElem? fun j => ?_
      rw [List.getElem?_mapIdx, List.getElem?_mapIdx, List.getElem?_mapIdx, Option.map_map]
      refine congrArg (fun f => Option.map f _) (funext fun d => ?_)
      -- a victim is one of the tiles that were closed
      by_cases hj : j < M.chain.tiles.length - 1
      · simp only [Function.comp, List.mem_range, hj, if_true, Blockchain.flushDesc]
        split <;> rfl
      · have hno : j ∉ Blockchain.flushVictims K M.chain.tiles := fun hv =>
          hj (Blockchain.mem_cachedBlocks.mp (Blockchain.mem_of_victim hv)).1
        simp only [Function.comp, List.mem_range, hj, hno, if_false, Blockchain.flushDesc]
    exact congrArg (fun tiles => ({ M.chain with
      tiles := tiles
      nextCacheFlushTimestamp := now + K.cacheAutoFlushMinIntervalSec } : Blockchain F)) htl

theorem maybeFlushCache_ok {now : Nat} {u : Unit} (h : maybeFlushCache K now M = .ok u M') :
    M'.chain = Blockchain.maybeFlushCache K now M.chain ∧ M'.sys.script = M.sys.script := by
  rw [maybeFlushCache, getChain_bind] at h
  rw [Blockchain.maybeFlushCache]
  split at h
  · next hlt =>
    rw [if_pos hlt]
    exact flushCache_ok h
  · next hlt =>
    rw [if_neg hlt]
    cases h
    exact ⟨rfl, rfl⟩

end Flush

end Machine

end GradidoNode
