/-
# `GradidoNode.Storage.Cache` — which blocks a flush keeps in memory

`flush_cache` is to keep the blocks used most recently.  It collects the cached
blocks but the last with their `last_use`, sorts them by it, and releases from the
front as many as exceed `optimal_cache_size`.

Nothing writes `last_use`, so all keys are equal and the order is whatever
`std::sort` makes of equal keys, which can be any order (`exists_sort`).  The rest is
as it should be: no more blocks stay than fit, the last one always stays, and a block
whose file is in order is read again unchanged.  A block whose file is not in order is
not: `get_block` of a missing file leaves an empty file and a blank buffer, and once
the buffer is released nothing is left to return (`Damaged`).
-/
import GradidoNode.Storage.Calls

namespace GradidoNode.Blockchain

open FileTile Lib Function

variable {T : Type} {F : RowFormat T} {K : Params} {s s' : Blockchain F}

/-! ## The cached blocks -/

/-- The blocks in memory, without the last one. -/
def cachedBlocks (tiles : List (TileDesc F.Body F.Checksum)) : List Nat :=
  (cachedIndexes tiles).map Prod.fst

/-- The buffer of a tile. -/
def buffer (tiles : List (TileDesc F.Body F.Checksum)) (i : Nat) : Option (Nat → Row F.Body) :=
  tiles[i]?.bind TileDesc.fetchedData

theorem cachedBlocks_eq (tiles : List (TileDesc F.Body F.Checksum)) :
    cachedBlocks tiles = (List.range (tiles.length - 1)).filter fun i => (buffer tiles i).isSome := by
  rw [cachedBlocks, cachedIndexes, List.map_filterMap, ← List.filterMap_eq_filter]
  refine List.filterMap_congr fun i _ => ?_
  rcases hi : tiles[i]? with _ | d
  · simp [Option.guard, buffer, hi]
  · cases hd : d.fetchedData with
    | none | some data => simp [Option.guard, buffer, hi, hd]

theorem mem_cachedBlocks {tiles : List (TileDesc F.Body F.Checksum)} {i : Nat} :
    i ∈ cachedBlocks tiles ↔ i < tiles.length - 1 ∧ (buffer tiles i).isSome := by
  rw [cachedBlocks_eq, List.mem_filter, List.mem_range]

/-- The victims are cached blocks, and no more others are than fit. -/
theorem flushVictims_perm (K : Params) (tiles : List (TileDesc F.Body F.Checksum)) :
    ∃ rest, (cachedBlocks tiles).Perm (flushVictims K tiles ++ rest) ∧
      rest.length ≤ K.optimalCacheSize := by
  have hpe := (K.sort_perm (cachedIndexes tiles)).symm.map Prod.fst
  refine ⟨((K.sort (cachedIndexes tiles)).drop
    ((cachedIndexes tiles).length - K.optimalCacheSize)).map Prod.fst, ?_, ?_⟩
  · rw [flushVictims, ← List.map_append, List.take_append_drop]
    exact hpe
  · rw [List.length_map, List.length_drop, (K.sort_perm _).length_eq]
    omega

theorem mem_of_victim {tiles : List (TileDesc F.Body F.Checksum)} {i : Nat}
    (h : i ∈ flushVictims K tiles) : i ∈ cachedBlocks tiles := by
  obtain ⟨rest, hpe, -⟩ := flushVictims_perm K tiles
  exact hpe.symm.mem_iff.mp (List.mem_append_left _ h)

theorem buffer_flush (now i : Nat) : buffer (flushCache K now s).tiles i
      = if i ∈ flushVictims K s.tiles then none else buffer s.tiles i := by
  rw [buffer, flushCache_tiles, buffer]
  cases hd : s.tiles[i]? with
  | none => simp
  | some d =>
    simp only [Option.map_some, Option.bind_some, flushDesc]
    by_cases hv : i ∈ flushVictims K s.tiles
    · have hlt := (mem_cachedBlocks.mp (mem_of_victim hv)).1
      rw [if_pos hv, if_pos hlt]
    · rw [if_neg hv]
      split <;> rfl

theorem mem_cachedBlocks_flush {now i : Nat} : i ∈ cachedBlocks (flushCache K now s).tiles ↔
      i ∈ cachedBlocks s.tiles ∧ i ∉ flushVictims K s.tiles := by
  rw [mem_cachedBlocks, mem_cachedBlocks, buffer_flush, (flushCache_frame now).2.2.2]
  by_cases hv : i ∈ flushVictims K s.tiles
  · simp [hv]
  · simp [hv]

theorem cachedBlocks_flush (now : Nat) : cachedBlocks (flushCache K now s).tiles
      = (cachedBlocks s.tiles).filter fun i => decide (i ∉ flushVictims K s.tiles) := by
  rw [cachedBlocks_eq, cachedBlocks_eq, List.filter_filter, (flushCache_frame now).2.2.2]
  refine List.filter_congr fun i _ => ?_
  rw [buffer_flush]
  by_cases hv : i ∈ flushVictims K s.tiles
  · simp [hv]
  · simp [hv]

theorem cachedBlocks_flush_length (now : Nat) :
    (cachedBlocks (flushCache K now s).tiles).length ≤ K.optimalCacheSize := by
  obtain ⟨rest, hpe, hlen⟩ := flushVictims_perm K s.tiles
  have hvi : (flushVictims K s.tiles).filter (fun i => decide (i ∉ flushVictims K s.tiles)) = [] :=
    List.filter_eq_nil_iff.mpr fun i hi => by simpa using hi
  rw [cachedBlocks_flush, (hpe.filter _).length_eq, List.filter_append, hvi, List.nil_append]
  exact Nat.le_trans (List.length_filter_le _ _) hlen

theorem flushVictims_nil {tiles : List (TileDesc F.Body F.Checksum)}
    (h : (cachedBlocks tiles).length ≤ K.optimalCacheSize) : flushVictims K tiles = [] := by
  rw [cachedBlocks, List.length_map] at h
  rw [flushVictims, Nat.sub_eq_zero_of_le h, List.take_zero, List.map_nil]

theorem buffer_flush_again (now now' i : Nat) :
    buffer (maybeFlushCache K now' (flushCache K now s)).tiles i
      = buffer (flushCache K now s).tiles i := by
  unfold maybeFlushCache
  split
  · rw [buffer_flush, flushVictims_nil (cachedBlocks_flush_length now), if_neg List.not_mem_nil]
  · rfl

/-! ## What `get_block` shows of a tile -/

/-- What `get_block` returns or throws, with the rows as a list. -/
def blockReply (K : Params) (s : Blockchain F) (b now : Nat) :
    Except Fault (Option (List (Row F.Body)) × ExitCode) :=
  (outcome (getBlock K b now s)).map fun r => (r.1.map (rowList K), r.2)

/-- A file that is not in order, and a tile that has no buffer, or one from a read that made an
empty file. -/
def Damaged (N : Nat) (t : Tile F.Body F.Checksum) : Prop :=
  checkFile2 N t.entry ≠ .ok ∧ ((t.desc.fileHandle = none ∧ t.desc.fetchedData = none) ∨
      (t.desc.fileHandle.getD 0 = 0 ∧ t.desc.fetchedData.isSome ∧
        ∃ f, t.entry = .regular f ∧ f.len = 0))

/-- A tile of a chain that is only read, or appended to. -/
def Readable (N : Nat) (t : Tile F.Body F.Checksum) : Prop :=
  (∃ rs, Synced N t rs) ∨ Damaged N t

/-- The rows `get_block` shows of a tile: those of a file in order; else what is in memory; else,
for a missing file, the buffer it then gets. -/
def shown (K : Params) (t : Tile F.Body F.Checksum) : Option (List (Row F.Body)) :=
  if checkFile2 K.RecCount t.entry = .ok then some (fileRows t.entry)
  else
    match t.desc.fetchedData with
    | some data => some (rowList K data)
    | none =>
      if checkFile2 K.RecCount t.entry = .missingFile then
        some (rowList K (freshBuffer F.zeroBody))
      else none

theorem shown_congr {t t' : Tile F.Body F.Checksum} (he : t.entry = t'.entry)
    (hd : checkFile2 K.RecCount t'.entry = .ok ∨ t.desc.fetchedData = t'.desc.fetchedData) :
    shown K t = shown K t' := by
  unfold shown
  rw [he]
  rcases hd with hok | hd
  · rw [if_pos hok, if_pos hok]
  · rw [hd]

section GetBlock

variable {b now : Nat} {d : TileDesc F.Body F.Checksum}

theorem getBlock_some {t : Tile F.Body F.Checksum} {ok : Bool} {r : Nat → Row F.Body}
    (hd : (maybeFlushCache K now s).tiles[b]? = some d)
    (hre : Tile.syncFromFile K.RecCount F.zeroBody true ⟨s.disk b, d⟩ = (ok, t))
    (hr : t.desc.fetchedData = some r) : blockReply K s b now = .ok (some (rowList K r), .ok) := by
  obtain ⟨hdi, -⟩ := maybeFlushCache_frame now
  have hget : Tile.getTileData t = (some r, t.setState .ok) := Prod.ext hr rfl
  unfold blockReply getBlock
  rw [modify_bind, bind_eq (onTile_ok _ hd), hdi, hre,
    bind_eq (onTile_putTile (List.getElem?_eq_some_iff.mp hd).1 t _), hget]
  rfl

theorem getBlock_none {t : Tile F.Body F.Checksum} {ok : Bool}
    (hd : (maybeFlushCache K now s).tiles[b]? = some d)
    (hre : Tile.syncFromFile K.RecCount F.zeroBody true ⟨s.disk b, d⟩ = (ok, t))
    (hr : t.desc.fetchedData = none)
    (hag : (Tile.syncFromFile K.RecCount F.zeroBody true (t.setState .ok)).1 = false) :
    blockReply K s b now = .ok (none, .ok) := by
  obtain ⟨hdi, -⟩ := maybeFlushCache_frame now
  have hlt := (List.getElem?_eq_some_iff.mp hd).1
  have hget : Tile.getTileData t = (none, t.setState .ok) := Prod.ext hr rfl
  unfold blockReply getBlock
  rw [modify_bind, bind_eq (onTile_ok _ hd), hdi, hre, bind_eq (onTile_putTile hlt t _), hget]
  dsimp only
  rw [bind_eq (onTile_putTile hlt _ _), hag]
  rfl

theorem getBlock_nowhere (hb : s.tiles.length ≤ b) :
    blockReply K s b now = .error (.thrown "TileFile: index too large") := by
  obtain ⟨-, -, -, hlen, -⟩ := maybeFlushCache_frame now
  unfold blockReply getBlock
  rw [modify_bind, bind_error (onTile_outside _ (by rw [hlen]; exact hb))]
  rfl

end GetBlock

section Damaged

variable {N : Nat} {t : Tile F.Body F.Checksum}

/-- A file that is there and not in order cannot be opened. -/
theorem syncFromFile_refused (hh : t.desc.fileHandle = none) (hok : checkFile2 N t.entry ≠ .ok)
    (hm : checkFile2 N t.entry ≠ .missingFile) (c : Bool) :
    t.syncFromFile N F.zeroBody c = (false, t.setState .cannotOpenFile) := by
  have hop : t.openFile N F.zeroBody = (false, t.setState .cannotOpenFile) := by
    unfold Tile.openFile
    rw [hh]
    dsimp only
    split
    · exact absurd ‹_› hm
    · exact absurd ‹_› hok
    · rfl
  unfold Tile.syncFromFile
  rw [hop]

theorem checkFile2_empty (hN : 0 < N) {f : File F.Body} (hf : f.len = 0) :
    checkFile2 N (.regular f) = .badLength := by
  have hne : ¬ 0 = N := by omega
  simp [checkFile2, hf, hne]

/-- Reading a damaged tile: it stays as it is, but for the empty file and the blank buffer a
missing file is given. -/
theorem Damaged.read (h : Damaged N t) (hN : 0 < N) :
    ∃ t', t.syncFromFile N F.zeroBody true = (false, t') ∧ Damaged N t' ∧
      ((t'.desc.fetchedData = t.desc.fetchedData ∧
          (t.desc.fetchedData.isSome ∨ checkFile2 N t.entry ≠ .missingFile)) ∨
        (checkFile2 N t.entry = .missingFile ∧ t.desc.fetchedData = none ∧
          t'.desc.fetchedData = some (freshBuffer F.zeroBody))) := by
  have hne : ¬ 0 = N := by omega
  obtain ⟨hok, ⟨hh, hd⟩ | ⟨hh, hd, f, he, hf⟩⟩ := h
  · by_cases hm : checkFile2 N t.entry = .missingFile
    · -- `fopen` makes an empty file, of which nothing is read
      have hop : t.openFile N F.zeroBody = (true,
          { entry := .regular (createdFile F.zeroBody)
            desc := { t.desc with fileHandle := some 0, state := .ok } }) := by
        unfold Tile.openFile
        rw [hh]
        rw [hm]
      have hre : t.syncFromFile N F.zeroBody true = (false,
          { entry := .regular (createdFile F.zeroBody)
            desc := { t.desc with
              fileHandle := some 0, state := .errorWhileReading,
              fetchedData := some (freshBuffer F.zeroBody) } }) := by
        unfold Tile.syncFromFile
        rw [hop]
        simp [Tile.available, createdFile, hne, Tile.freadInto, hd]
      refine ⟨_, hre, ⟨?_, .inr ⟨rfl, rfl, _, rfl, rfl⟩⟩, .inr ⟨hm, hd, rfl⟩⟩
      rw [checkFile2_empty hN rfl]
      simp
    · exact ⟨_, syncFromFile_refused hh hok hm true, ⟨hok, .inl ⟨hh, hd⟩⟩, .inl ⟨rfl, .inr hm⟩⟩
  · have hbad := checkFile2_empty hN hf
    rw [← he] at hbad
    cases hha : t.desc.fileHandle with
    | none =>
      have hm : checkFile2 N t.entry ≠ .missingFile := by
        rw [hbad]
        simp
      exact ⟨_, syncFromFile_refused hha hok hm true,
        ⟨hok, .inr ⟨hh, hd, f, he, hf⟩⟩, .inl ⟨rfl, .inl hd⟩⟩
    | some p =>
      rw [hha] at hh
      obtain rfl : p = 0 := hh
      obtain ⟨data, hda⟩ := Option.isSome_iff_exists.mp hd
      have hre : t.syncFromFile N F.zeroBody true = (false,
          { t with desc := { t.desc with state := .errorWhileReading } }) := by
        simp [Tile.syncFromFile, Tile.openFile, hha, Tile.setState, he, Tile.available, hf,
          hne, Tile.freadInto, hda]
      exact ⟨_, hre, ⟨hok, .inr ⟨by rw [hha]; rfl, hd, f, he, hf⟩⟩, .inl ⟨rfl, .inl hd⟩⟩

end Damaged

theorem blockReply_readable {b now : Nat} {d : TileDesc F.Body F.Checksum}
    (hd : (maybeFlushCache K now s).tiles[b]? = some d)
    (h : Readable K.RecCount (⟨s.disk b, d⟩ : Tile F.Body F.Checksum)) :
    blockReply K s b now = .ok (shown K ⟨s.disk b, d⟩, .ok) := by
  have hN : 0 < K.RecCount := Nat.lt_of_lt_of_le Nat.zero_lt_two K.two_le
  rcases h with ⟨rs, hsy⟩ | hdam
  · obtain ⟨-, -, -, -, data, hda, hro⟩ := syncFromFile_synced true hsy
    have hst : Stores K.RecCount (s.disk b) rs := hsy.1
    rw [getBlock_some hd rfl hda, shown, if_pos hst.checkFile2,
      show fileRows (⟨s.disk b, d⟩ : Tile F.Body F.Checksum).entry = rowList K data from ?_]
    rw [show (⟨s.disk b, d⟩ : Tile F.Body F.Checksum).entry = s.disk b from rfl, fileRows_stores hst]
    exact List.map_congr_left fun j hj => (hro j (List.mem_range.mp hj)).symm
  · have hbad : checkFile2 K.RecCount (s.disk b) ≠ .ok := hdam.1
    obtain ⟨t, hre, hdam', hca⟩ := hdam.read hN
    rw [shown, if_neg hbad]
    rcases hca with ⟨hsa, hwhy⟩ | ⟨hm, hno, hfr⟩
    · cases hb : d.fetchedData with
      | some data => exact getBlock_some hd hre (hsa.trans hb)
      | none =>
        have hm : checkFile2 K.RecCount (s.disk b) ≠ .missingFile := by
          refine hwhy.resolve_left ?_
          rw [show (⟨s.disk b, d⟩ : Tile F.Body F.Checksum).desc.fetchedData = none from hb]
          simp
        have hsta : Damaged K.RecCount (t.setState .ok) := hdam'
        obtain ⟨t', hag, -⟩ := hsta.read hN
        rw [if_neg hm]
        exact getBlock_none hd hre (hsa.trans hb) (by rw [hag])
    · rw [show (⟨s.disk b, d⟩ : Tile F.Body F.Checksum).desc.fetchedData = none from hno]
      rw [if_pos hm]
      exact getBlock_some hd hre hfr

/-! ## Chains that are read and appended to -/

/-- Readable, and those of the blocks `G` in order. -/
def ReadableOn (K : Params) (G : Nat → Prop) (i : Nat) (t : Tile F.Body F.Checksum) : Prop :=
  Readable K.RecCount t ∧ (G i → ∃ rs, Synced K.RecCount t rs)

theorem readInv_readableOn (G : Nat → Prop) : ReadInv (F := F) K (ReadableOn K G) := by
  have hN : 0 < K.RecCount := Nat.lt_of_lt_of_le Nat.zero_lt_two K.two_le
  -- each operation keeps a tile in order in order, and a damaged one damaged
  have hke : ∀ (f : Tile F.Body F.Checksum → Tile F.Body F.Checksum),
      (∀ t rs, Synced K.RecCount t rs → Synced K.RecCount (f t) rs) →
      (∀ t, Damaged K.RecCount t → Damaged K.RecCount (f t)) →
      ∀ i t, ReadableOn K G i t → ReadableOn K G i (f t) := by
    rintro f hsy hdam i t ⟨hre, hma⟩
    refine ⟨?_, fun hi => ?_⟩
    · rcases hre with ⟨rs, h⟩ | h
      · exact .inl ⟨rs, hsy t rs h⟩
      · exact .inr (hdam t h)
    · obtain ⟨rs, h⟩ := hma hi
      exact ⟨rs, hsy t rs h⟩
  refine ⟨hke _ (fun t rs h => h) fun t h => h, hke _ (fun t rs h => closeFile_synced h) ?_,
    hke _ (fun t rs h => ⟨h.1, .inl rfl⟩) fun t h => ⟨h.1, .inl ⟨rfl, rfl⟩⟩, hke _ ?_ ?_⟩
  · rintro t ⟨hok, ⟨-, hd⟩ | ⟨-, hd, hf⟩⟩
    · exact ⟨hok, .inl ⟨rfl, hd⟩⟩
    · exact ⟨hok, .inr ⟨rfl, hd, hf⟩⟩
  · intro t rs h
    obtain ⟨he, -, -, hh, hca⟩ := syncFromFile_synced true h
    exact ⟨by rw [he]; exact h.1, .inr (.inr ⟨hh, hca⟩)⟩
  · intro t h
    obtain ⟨t', heq, h', -⟩ := h.read hN
    rw [heq]
    exact h'

/-- The tile of a new block is in order once it is written. -/
theorem newTile_synced {e : Entry F.Body} {r cr : Row F.Body} {b : Bool}
    {t : Tile F.Body F.Checksum}
    (h : (setFirstRows r cr ⟨e, reset F.zero .ok⟩).syncToFile K.RecCount F.zeroBody false
      = some (b, t)) : ∃ rs, Synced K.RecCount t rs := by
  by_cases hu : Usable K.RecCount e
  · obtain ⟨t', heq, hde, hst⟩ := syncToFile_new
      (t := setFirstRows r cr ⟨e, reset F.zero .ok⟩) hu rfl rfl
    cases heq.symm.trans h
    exact ⟨_, hst, .inr (.inr ⟨by rw [hde], _, by rw [hde]; rfl, fun _ _ => rfl⟩)⟩
  · cases (syncToFile_occupied hu rfl rfl).symm.trans h

theorem ReadableOn.of_synced {G : Nat → Prop} {i : Nat} {t : Tile F.Body F.Checksum}
    (h : ∃ rs, Synced K.RecCount t rs) : ReadableOn K G i t :=
  ⟨.inl h, fun _ => h⟩

theorem create_readableOn (disk : Nat → Entry F.Body) {fc : Nat} {G : Nat → Prop}
    (hG : ∀ b < fc, ¬ G b) : AllTiles (ReadableOn K G) (create K disk fc) := by
  refine create_allTiles fun b hb => ⟨?_, fun hb' => absurd hb' (hG b hb)⟩
  by_cases hok : checkFile2 K.RecCount (disk b) = .ok
  · obtain ⟨rs, hst⟩ := stores_of_checkFile2 hok
    exact .inl ⟨rs, hst, .inl rfl⟩
  · exact .inr ⟨hok, .inl ⟨rfl, rfl⟩⟩

/-- The calls. -/
inductive CacheCall (T : Type) where
  | append (p : T) (now : Nat)
  | getBlock (index now : Nat)

def CacheCall.toCall : CacheCall T → StoreCall T
  | .append p now => .append p now
  | .getBlock i now => .getBlock i now

/-- One call. -/
def cacheStep (K : Params) (s : Blockchain F) (c : CacheCall T) : Option (Blockchain F) :=
  storeStep K s c.toCall

/-- The invariant: rows are only ever put in blocks `append` made, from block `fc` on; the
others were found in the folder. -/
structure Grown (K : Params) (fc : Nat) (s : Blockchain F) : Prop where
  tiles : AllTiles (ReadableOn K (fc ≤ ·)) s
  found : fc ≤ s.tiles.length
  inside : s.recCount % K.RecCount ≠ 0 → fc < s.tiles.length

namespace Grown

variable {fc : Nat}

theorem flush (h : Grown K fc s) (now : Nat) : Grown K fc (maybeFlushCache K now s) := by
  obtain ⟨-, hrec, -, hlen, -⟩ := maybeFlushCache_frame now
  refine ⟨(readInv_readableOn _).maybeFlush now h.tiles, by rw [hlen]; exact h.found, ?_⟩
  rw [hrec, hlen]
  exact h.inside

theorem getBlock (h : Grown K fc s) {index now : Nat}
    (hs : inUse (Blockchain.getBlock K index now s) = some s') : Grown K fc s' := by
  obtain ⟨hlen, hrec, -⟩ := getBlock_counters hs
  refine ⟨(readInv_readableOn _).getBlock index now s s' h.tiles hs, by rw [hlen]; exact h.found, ?_⟩
  rw [hrec, hlen]
  exact h.inside

theorem newBlock (h : Grown K fc s) (p : T)
    (hs : inUse (appendNewBlock K (F.payloadRow p) s) = some s') : Grown K fc s' := by
  have htl := (readInv_readableOn _).appendNewBlock
    (fun _ _ _ _ _ _ hsy => .of_synced (newTile_synced hsy)) (F.payloadRow p) s s' h.tiles hs
  have hfo := h.found
  by_cases hu : Usable K.RecCount (s.disk s.tiles.length)
  · obtain ⟨s₁, t, hc, heq, -⟩ := appendNewBlock_writes s hu p
    rw [heq] at hs
    cases hs
    have hlen : (withTail { advanceValid s₁ with recCount := s₁.recCount + 2 } t).tiles.length
        = s.tiles.length + 1 := by
      show ((advanceValid s₁).tiles ++ [t.desc]).length = _
      rw [(advanceValid_frame s₁).1, List.length_append, hc.length_eq]
      rfl
    exact ⟨htl, by omega, fun _ => by omega⟩
  · obtain ⟨s₁, heq⟩ := appendNewBlock_occupied s hu p
    rw [heq] at hs
    cases hs

theorem inBlock (h : Grown K fc s) (hpos : s.recCount % K.RecCount ≠ 0) (p : T)
    (hs : inUse (appendInBlock K (F.payloadRow p) (s.recCount % K.RecCount) s) = some s') :
    Grown K fc s' := by
  have hfit : s.recCount % K.RecCount < K.RecCount :=
    Nat.mod_lt _ (Nat.lt_of_lt_of_le Nat.zero_lt_two K.two_le)
  have hfo := h.inside hpos
  have hlt : s.tiles.length - 1 < s.tiles.length := by omega
  have hd : s.lastDesc = some s.tiles[s.tiles.length - 1] := List.getElem?_eq_getElem hlt
  generalize s.tiles[s.tiles.length - 1] = d at hd
  obtain ⟨rs, hsy⟩ := (h.tiles _ d hd).2 (by omega)
  cases hda : d.fetchedData with
  | none =>
    unfold appendInBlock at hs
    rw [get_bind] at hs
    rw [lastIndex_eq (by omega), bind_eq (onTile_ok _ hd), Tile.getTileData] at hs
    rw [hda] at hs
    cases hs
  | some data =>
    obtain ⟨t, heq, hde, hst⟩ := appendInBlock_writes (Nat.pos_of_ne_zero hpos) hfit hd hda hsy.1 p
    rw [heq] at hs
    cases hs
    have ht : Synced K.RecCount t _ := ⟨hst, .inr (.inl (by rw [hde]))⟩
    have hlen : (s.putTile (s.tiles.length - 1) t).tiles.length = s.tiles.length := by simp
    refine ⟨h.tiles.putTile hlt (.of_synced ⟨_, ht⟩), ?_, fun _ => ?_⟩
    · show fc ≤ (s.putTile (s.tiles.length - 1) t).tiles.length
      omega
    · show fc < (s.putTile (s.tiles.length - 1) t).tiles.length
      omega

theorem step (h : Grown K fc s) (c : CacheCall T) (hs : cacheStep K s c = some s') :
    Grown K fc s' := by
  cases c with
  | getBlock index now => exact h.getBlock hs
  | append p now =>
    have hf := h.flush now
    have hca : inUse (Blockchain.append K p now s) = some s' := hs
    unfold Blockchain.append at hca
    rw [modify_bind, get_bind] at hca
    generalize maybeFlushCache K now s = s₁ at hf hca
    by_cases hpos : s₁.recCount % K.RecCount = 0
    · rw [if_pos hpos] at hca
      exact hf.newBlock p hca
    · rw [if_neg hpos] at hca
      exact hf.inBlock hpos p hca

theorem run {disk : Nat → Entry F.Body} {cs : List (CacheCall T)}
    (hrun : Lib.run (cacheStep K) (create K disk fc) cs = some s) : Grown K fc s := by
  refine run_keeps (Grown K fc) (fun _ c _ h hs => h.step c hs) ⟨?_, ?_, ?_⟩ hrun
  · exact create_readableOn disk fun b hb => Nat.not_le.mpr hb
  · rw [create, List.length_map, List.length_range]
  · intro h
    exact absurd (Nat.zero_mod _) h

end Grown

/-! ## What a flush is for -/

/-- The block a call accesses: the one asked for, or the one the row is put in. -/
def accessed (K : Params) (s : Blockchain F) : CacheCall T → Option Nat
  | .getBlock i _ => some i
  | .append _ _ =>
    some (if s.recCount % K.RecCount = 0 then s.tiles.length else s.tiles.length - 1)

/-- The blocks accessed by a run, in order. -/
def accesses (K : Params) (s : Blockchain F) (cs : List (CacheCall T)) : List Nat :=
  observed (cacheStep K) (accessed K) s cs

/-- Block `i` was last accessed after block `j` was. -/
def AccessedAfter (accs : List Nat) (i j : Nat) : Prop :=
  accs.reverse.idxOf i < accs.reverse.idxOf j

instance (accs : List Nat) (i j : Nat) : Decidable (AccessedAfter accs i j) :=
  inferInstanceAs (Decidable (_ < _))

/-- A flush at `now`, after the accesses `accs`. -/
structure FlushLaw (K : Params) (s : Blockchain F) (accs : List Nat) (now : Nat) : Prop where
  fits : (cachedBlocks (flushCache K now s).tiles).length ≤ K.optimalCacheSize
  recent : ∀ i ∈ cachedBlocks s.tiles, i ∉ cachedBlocks (flushCache K now s).tiles →
    ∀ j ∈ cachedBlocks (flushCache K now s).tiles, ¬ AccessedAfter accs i j
  tail : (flushCache K now s).lastDesc = s.lastDesc
  /-- `get_block` at any time after the flush, against `get_block` before one was due -/
  contents : ∀ b now' before, before ≤ s.nextCacheFlushTimestamp →
    blockReply K (flushCache K now s) b now' = blockReply K s b before

/-- The same node with another `std::sort`. -/
def withSort (K : Params) (sort : List (Nat × Nat) → List (Nat × Nat))
    (hpe : ∀ l, (sort l).Perm l) (hso : ∀ l, (sort l).Pairwise fun a b => a.2 ≤ b.2) : Params :=
  { K with sort := sort, sort_perm := hpe, sort_sorted := hso }

/-- With `last_use` never set all keys are equal, and a sort may put the cached blocks in any
order. -/
theorem exists_sort (K : Params) (h : AllTiles (fun _ t => t.desc.lastUse = 0) s)
    {blocks : List Nat} (hb : blocks.Perm (cachedBlocks s.tiles)) :
    ∃ sort hpe hso, flushVictims (withSort K sort hpe hso) s.tiles =
      blocks.take ((cachedBlocks s.tiles).length - K.optimalCacheSize) := by
  have hze : (cachedBlocks s.tiles).map (fun i => (i, 0)) = cachedIndexes s.tiles := by
    rw [cachedBlocks, List.map_map]
    refine (List.map_congr_left fun p hp => ?_).trans (List.map_id _)
    obtain ⟨i, -, hi⟩ := List.mem_filterMap.mp hp
    cases hd : s.tiles[i]? with
    | none => simp [hd] at hi
    | some d =>
      rw [hd] at hi
      obtain ⟨-, hi⟩ := Option.ite_none_right_eq_some.mp hi
      cases hi
      exact Prod.ext rfl (h i d hd).symm
  refine ⟨update K.sort (cachedIndexes s.tiles) (blocks.map fun i => (i, 0)), ?_, ?_, ?_⟩
  · refine (forall_update_iff _ fun l l' => List.Perm l' l).mpr ⟨?_, fun l _ => K.sort_perm l⟩
    rw [← hze]
    exact hb.map _
  · refine (forall_update_iff _ fun _ l => List.Pairwise _ l).mpr
      ⟨?_, fun l _ => K.sort_sorted l⟩
    exact List.pairwise_map.mpr (List.pairwise_of_forall fun _ _ => Nat.le_refl 0)
  · show ((update K.sort _ _ _).take (_ - K.optimalCacheSize)).map _ = _
    rw [update_self, ← List.map_take, List.map_map, ← hze, List.length_map]
    exact List.map_id _

section Releases

variable (hze : AllTiles (fun _ t => t.desc.lastUse = 0) s)
  (hfull : K.optimalCacheSize < (cachedBlocks s.tiles).length) {i j : Nat}
  (hi : i ∈ cachedBlocks s.tiles)

include hze hfull hi

/-- Where not all fit, any block can be the first to go. -/
theorem exists_sort_releases :
    ∃ sort hpe hso, i ∈ flushVictims (withSort K sort hpe hso) s.tiles := by
  obtain ⟨sort, hpe, hso, hvi⟩ := exists_sort K hze (List.perm_cons_erase hi).symm
  refine ⟨sort, hpe, hso, ?_⟩
  rw [hvi, List.take_cons (Nat.sub_pos_of_lt hfull)]
  exact List.mem_cons_self

/-- And where one is to stay, any other can be the last. -/
theorem exists_sort_keeps (hop : 0 < K.optimalCacheSize) (hj : j ∈ cachedBlocks s.tiles)
    (hne : i ≠ j) : ∃ sort hpe hso, i ∈ flushVictims (withSort K sort hpe hso) s.tiles ∧
      j ∉ flushVictims (withSort K sort hpe hso) s.tiles := by
  have hpe := (List.perm_cons_erase hj).trans
    ((List.perm_cons_erase ((List.mem_erase_of_ne hne).mpr hi)).cons j)
  have hno : (cachedBlocks s.tiles).Nodup := by
    rw [cachedBlocks_eq]
    exact List.nodup_range.filter _
  have hout := (List.nodup_cons.mp (hpe.nodup hno)).1
  have hlen := hpe.length_eq
  obtain ⟨sort, hp, hs, hvi⟩ := exists_sort K hze
    ((List.perm_append_singleton j _).trans hpe.symm)
  rw [List.take_append_of_le_length (by simp only [List.length_cons] at hlen ⊢; omega)] at hvi
  refine ⟨sort, hp, hs, ?_, ?_⟩
  · rw [hvi, List.take_cons (Nat.sub_pos_of_lt hfull)]
    exact List.mem_cons_self
  · rw [hvi]
    exact fun hin => hout (List.mem_of_mem_take hin)

end Releases

/-- What is shown of a block before and after a flush. -/
theorem contents_iff {fc : Nat} (h : Grown K fc s) (now : Nat) :
    (∀ b now' before, before ≤ s.nextCacheFlushTimestamp →
      blockReply K (flushCache K now s) b now' = blockReply K s b before) ↔
    ∀ b ∈ flushVictims K s.tiles, checkFile2 K.RecCount (s.disk b) = .ok := by
  obtain ⟨hdi, -, -, hlen⟩ := flushCache_frame now
  have haf := (readInv_readableOn _).flush now h.tiles
  -- both replies, tile by tile
  have hre : ∀ b now' before, before ≤ s.nextCacheFlushTimestamp → ∀ d, s.tiles[b]? = some d →
      ∃ d', d'.fetchedData = (if b ∈ flushVictims K s.tiles then none else d.fetchedData) ∧
        blockReply K (flushCache K now s) b now' = .ok (shown K ⟨s.disk b, d'⟩, .ok) ∧
        blockReply K s b before = .ok (shown K ⟨s.disk b, d⟩, .ok) := by
    intro b now' before hbe d hd
    have hlt : b < (maybeFlushCache K now' (flushCache K now s)).tiles.length := by
      rw [(maybeFlushCache_frame now').2.2.2.1, hlen]
      exact (List.getElem?_eq_some_iff.mp hd).1
    have hd' := List.getElem?_eq_getElem hlt
    generalize (maybeFlushCache K now' (flushCache K now s)).tiles[b] = d' at hd'
    have hrd := ((readInv_readableOn _).maybeFlush now' haf b d' hd').1
    rw [(maybeFlushCache_frame now').1] at hrd
    have hsa : maybeFlushCache K before s = s := by
      rw [maybeFlushCache, if_neg (Nat.not_lt.mpr hbe)]
    have hbuf := buffer_flush_again (K := K) (s := s) now now' b
    rw [buffer_flush, buffer, hd', buffer, hd] at hbuf
    refine ⟨d', hbuf, ?_, ?_⟩
    · rw [blockReply_readable hd' hrd, hdi]
    · exact blockReply_readable (by rw [hsa]; exact hd) (h.tiles b d hd).1
  constructor
  · intro hall b hb
    by_contra hbad
    have hmem := mem_cachedBlocks.mp (mem_of_victim hb)
    obtain ⟨d, hd⟩ : ∃ d, s.tiles[b]? = some d := ⟨_, List.getElem?_eq_getElem (by omega)⟩
    obtain ⟨d', hbuf, hnew, hold⟩ := hre b 0 0 (Nat.zero_le _) d hd
    rw [if_pos hb] at hbuf
    have hso : d.fetchedData.isSome := by
      have := hmem.2
      rwa [buffer, hd] at this
    obtain ⟨data, hda⟩ := Option.isSome_iff_exists.mp hso
    have hreg : checkFile2 K.RecCount (s.disk b) ≠ .missingFile := by
      rcases (h.tiles b d hd).1 with ⟨rs, hsy⟩ | ⟨-, ⟨-, hno⟩ | ⟨-, -, f, he, hf⟩⟩
      · exact absurd hsy.1.checkFile2 hbad
      · rw [show d.fetchedData = none from hno] at hda
        cases hda
      · rw [show s.disk b = .regular f from he, checkFile2_empty
          (Nat.lt_of_lt_of_le Nat.zero_lt_two K.two_le) hf]
        simp
    have heq := hall b 0 0 (Nat.zero_le _)
    rw [hnew, hold, shown, shown, if_neg hbad, if_neg hbad] at heq
    simp only [hbuf, hda, hreg, if_false] at heq
    cases heq
  · intro hok b now' before hbe
    rcases Nat.lt_or_ge b s.tiles.length with hb | hb
    · obtain ⟨d', hbuf, hnew, hold⟩ := hre b now' before hbe _ (List.getElem?_eq_getElem hb)
      rw [hnew, hold]
      refine congrArg (fun x => Except.ok (x, ExitCode.ok)) (shown_congr rfl ?_)
      by_cases hv : b ∈ flushVictims K s.tiles
      · exact .inl (hok b hv)
      · rw [if_neg hv] at hbuf
        exact .inr hbuf
    · rw [getBlock_nowhere hb, getBlock_nowhere (by rw [hlen]; exact hb)]

/-- The law of one flush, by the blocks it releases. -/
theorem flushLaw_iff {fc : Nat} (h : Grown K fc s) (accs : List Nat) (now : Nat) :
    FlushLaw K s accs now ↔
      (∀ i ∈ flushVictims K s.tiles, ∀ j ∈ cachedBlocks s.tiles, j ∉ flushVictims K s.tiles →
        ¬ AccessedAfter accs i j) ∧
      ∀ i ∈ flushVictims K s.tiles, checkFile2 K.RecCount (s.disk i) = .ok := by
  rw [← contents_iff h now]
  constructor
  · intro h
    refine ⟨fun i hi j hj hno => ?_, h.contents⟩
    exact h.recent i (mem_of_victim hi) (fun hin => (mem_cachedBlocks_flush.mp hin).2 hi) j
      (mem_cachedBlocks_flush.mpr ⟨hj, hno⟩)
  · rintro ⟨hre, hco⟩
    refine ⟨cachedBlocks_flush_length now, fun i hi hout j hj => ?_, flushCache_lastDesc now, hco⟩
    have hv : i ∈ flushVictims K s.tiles := by
      by_contra hno
      exact hout (mem_cachedBlocks_flush.mpr ⟨hi, hno⟩)
    obtain ⟨hj, hno⟩ := mem_cachedBlocks_flush.mp hj
    exact hre i hv j hj hno

/-- **Which blocks stay.**  After any reads and appends on an object over any folder: whatever
`std::sort` makes of equal keys, a flush keeps the blocks accessed most recently and changes
nothing `get_block` returns, just if all cached blocks fit, or none of them has to stay or no
access tells them apart, and their files are in order. -/
theorem flushCache_law_iff (K : Params) (disk : Nat → Entry F.Body) (fc : Nat)
    (cs : List (CacheCall T)) (s : Blockchain F)
    (hrun : Lib.run (cacheStep K) (create K disk fc) cs = some s) (now : Nat) :
    (∀ sort hpe hso, FlushLaw (withSort K sort hpe hso) s (accesses K (create K disk fc) cs) now) ↔
      (cachedBlocks s.tiles).length ≤ K.optimalCacheSize ∨
      (K.optimalCacheSize = 0 ∨ ∀ i ∈ cachedBlocks s.tiles, ∀ j ∈ cachedBlocks s.tiles,
        ¬ AccessedAfter (accesses K (create K disk fc) cs) i j) ∧
      ∀ i ∈ cachedBlocks s.tiles, checkFile2 K.RecCount (s.disk i) = .ok := by
  have hze : AllTiles (fun _ t => t.desc.lastUse = 0) s :=
    run_keeps (AllTiles fun _ t => t.desc.lastUse = 0)
      (fun _ c _ h hs => tileInv_lastUse.step (CacheCall.toCall c) h hs)
      (create_allTiles fun _ _ => rfl) hrun
  have hgr : ∀ sort hpe hso, Grown (withSort K sort hpe hso) fc s := fun _ _ _ =>
    ⟨(Grown.run hrun).tiles, (Grown.run hrun).found, (Grown.run hrun).inside⟩
  generalize accesses K (create K disk fc) cs = accs
  constructor
  · intro hall
    refine or_iff_not_imp_left.mpr fun hle => ?_
    have hfull := Nat.lt_of_not_le hle
    refine ⟨or_iff_not_imp_left.mpr fun hop i hi j hj haf => ?_, fun i hi => ?_⟩
    · have hne : i ≠ j := by
        rintro rfl
        exact Nat.lt_irrefl _ haf
      obtain ⟨sort, hp, hs, hin, hout⟩ :=
        exists_sort_keeps hze hfull hi (Nat.pos_of_ne_zero hop) hj hne
      exact ((flushLaw_iff (hgr sort hp hs) accs now).mp (hall sort hp hs)).1 i hin j hj hout haf
    · obtain ⟨sort, hp, hs, hin⟩ := exists_sort_releases hze hfull hi
      exact ((flushLaw_iff (hgr sort hp hs) accs now).mp (hall sort hp hs)).2 i hin
  · intro h sort hp hs
    refine (flushLaw_iff (hgr sort hp hs) accs now).mpr ?_
    obtain ⟨rest, hpe, hre⟩ := flushVictims_perm (withSort K sort hp hs) s.tiles
    rcases h with hle | ⟨hre', hok⟩
    · rw [flushVictims_nil (K := withSort K sort hp hs) hle]
      exact ⟨List.forall_mem_nil _, List.forall_mem_nil _⟩
    · refine ⟨fun i hi j hj hno => ?_, fun i hi => hok i (mem_of_victim hi)⟩
      rcases hre' with hop | hre'
      · rw [List.length_eq_zero_iff.mp (Nat.le_zero.mp (hre.trans_eq hop)), List.append_nil] at hpe
        exact absurd (hpe.mem_iff.mp hj) hno
      · exact hre' i (mem_of_victim hi) j hj

/-- Blocks of one payload. -/
def twoRows : Params := Params.ofRecCount 2 (by decide)

/-- Three blocks: two are cached besides the last, and one fits. -/
def threeBlocks : List (CacheCall Nat) := [.append 7 0, .append 8 0, .append 9 0]

/-- No block besides the last is to stay. -/
def noneStays : Params := { twoRows with optimalCacheSize := 0 }

/-- Both blocks go, and are read again as they were. -/
theorem flushCache_law_noneStays : ∃ s, Lib.run (cacheStep (F := digestFormat Nat) noneStays)
        (create noneStays (fun _ => .missing) 0) (threeBlocks ++ [.getBlock 0 0]) = some s ∧
      cachedBlocks s.tiles = [0, 1] ∧ cachedBlocks (flushCache noneStays 11 s).tiles = [] ∧
      ∀ sort hpe hso, FlushLaw (withSort noneStays sort hpe hso) s
        (accesses (F := digestFormat Nat) noneStays (create noneStays (fun _ => .missing) 0)
          (threeBlocks ++ [.getBlock 0 0])) 11 := by
  refine ⟨_, rfl, by decide, by decide, ?_⟩
  exact (flushCache_law_iff noneStays _ 0 _ _ rfl 11).mpr (.inr ⟨.inl rfl, by decide⟩)

/-- The first block is read again, and goes nevertheless. -/
theorem flushCache_evicts_latest : ∃ s, Lib.run (cacheStep (F := digestFormat Nat) twoRows)
        (create twoRows (fun _ => .missing) 0) (threeBlocks ++ [.getBlock 0 0]) = some s ∧
      cachedBlocks s.tiles = [0, 1] ∧ cachedBlocks (flushCache twoRows 11 s).tiles = [1] ∧
      AccessedAfter (accesses (F := digestFormat Nat) twoRows
        (create twoRows (fun _ => .missing) 0) (threeBlocks ++ [.getBlock 0 0])) 0 1 ∧
      ¬ FlushLaw twoRows s (accesses (F := digestFormat Nat) twoRows
        (create twoRows (fun _ => .missing) 0) (threeBlocks ++ [.getBlock 0 0])) 11 := by
  refine ⟨_, rfl, by decide, by decide, by decide, fun h => ?_⟩
  exact h.recent 0 (by decide) (by decide) 1 (by decide) (by decide)

end GradidoNode.Blockchain
