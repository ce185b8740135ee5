/-
# `GradidoNode.Storage.Scan` — a folder of blocks while an object validates it

`GradidoNode.Storage.Layout` is about chains that `append` wrote.  Here the blocks
come from a folder, with whatever rows they have: all that is known is that
`check_file2` finds their files in order.

`Scanned K disk fc i s` is an object over such a folder after `validate_next_checksum`
has said yes to the blocks before block `i`:

    the files are as they were found
    rec_count is the number of rows in use in these blocks
    the tiles are in order, and those of these blocks have the state OK
    when all blocks are done, the last one is in memory

What each call does to it:

    validate_next_checksum, i < fc     next block, if the file of block i is not open   (`Scanned.validate`)
    validate_next_checksum, i = fc     nothing; returns false                           (`Scanned.validateDone`)
    get_block b                        nothing; returns the rows of block b             (`Scanned.getBlock`)

A file stays open behind the rows that were read, and reading on from there finds
nothing.  So the condition in the first line matters; `Unread i` says that no block
from block `i` on is open, which is so as long as only validated blocks are read.
-/
import GradidoNode.Storage.Tamper

namespace GradidoNode.Blockchain

open FileTile Lib

variable {T : Type} {F : RowFormat T} {K : Params} {s : Blockchain F}

/-! ## Tiles in order -/

section Tiles

variable {rs : Nat → Nat → Row F.Body}

theorem create_tiled {disk : Nat → Entry F.Body} {fc : Nat}
    (h : ∀ b < fc, Stores K.RecCount (disk b) (rs b)) : Tiled K (create K disk fc) rs := by
  intro b d hd
  simp only [create, List.getElem?_map] at hd
  obtain ⟨j, hj, rfl⟩ := Option.map_eq_some_iff.mp hd
  obtain ⟨hb, -⟩ := List.getElem?_eq_some_iff.mp hj
  rw [List.length_range] at hb
  exact ⟨h b hb, .inl rfl⟩

theorem Tiled.desc (h : Tiled K s rs) {b : Nat} (hb : b < s.tiles.length) (now : Nat) :
    ∃ d, (maybeFlushCache K now s).tiles[b]? = some d ∧ Synced K.RecCount ⟨s.disk b, d⟩ (rs b) := by
  obtain ⟨hdi, -, -, hlen, -⟩ := maybeFlushCache_frame (K := K) (s := s) now
  have hd := List.getElem?_eq_getElem (show b < (maybeFlushCache K now s).tiles.length by omega)
  have hsy := h.flush now b _ hd
  rw [hdi] at hsy
  exact ⟨_, hd, hsy⟩

end Tiles

/-! ## Blocks of a folder -/

/-- The rows of a file, as far as there are any. -/
def entryRows (F : RowFormat T) : Entry F.Body → Nat → Row F.Body
  | .regular f => f.rows
  | _ => fun _ => F.blankRow

theorem stores_entryRows {N : Nat} {e : Entry F.Body} (h : checkFile2 N e = .ok) :
    Stores N e (entryRows F e) := by
  obtain ⟨rs, f, rfl, hlen, hsl, hr, hw, -⟩ := stores_of_checkFile2 h
  exact ⟨f, rfl, hlen, hsl, hr, hw, fun _ _ => rfl⟩

theorem entryRows_stores {N : Nat} {e : Entry F.Body} {rs : Nat → Row F.Body} (h : Stores N e rs) :
    ∀ j < N, entryRows F e j = rs j :=
  (stores_entryRows h.checkFile2).unique h

/-- A folder of blocks with these payloads. -/
def folderOf (F : RowFormat T) (K : Params) (blocks : List (List T)) (b : Nat) : Entry F.Body :=
  match blocks[b]? with
  | some l => .regular ⟨blockRows F l F.zero, K.RecCount, false, true, true⟩
  | none => .missing

theorem Accepted.wellShaped {e : Entry F.Body} (h : Accepted K e) :
    WellShaped (rowTypes K (entryRows F e)) := by
  rw [rowTypes_stores (stores_entryRows h.1) fun _ _ => rfl]
  exact h.2

/-- No block from block `i` on is open. -/
def Unread (i : Nat) (s : Blockchain F) : Prop :=
  ∀ b d, i ≤ b → s.tiles[b]? = some d → d.fileHandle = none

/-- An object over the folder `disk` of `fc` blocks, the first `i` of them validated. -/
structure Scanned (K : Params) (disk : Nat → Entry F.Body) (fc i : Nat) (s : Blockchain F) :
    Prop where
  disk_eq : s.disk = disk
  length_eq : s.tiles.length = fc
  valid_eq : s.checksumValidBlockCount = i
  recCount_eq : s.recCount = ((List.range i).map fun b => blockRecCount K (entryRows F (disk b))).sum
  tiled : Tiled K s fun b => entryRows F (disk b)
  counted : ∀ b d, b < i → s.tiles[b]? = some d → d.state = .ok
  last : i = fc → ∀ d, s.lastDesc = some d → d.fetchedData.isSome

variable {disk : Nat → Entry F.Body} {fc i : Nat}

theorem create_scanned (hdi : ∀ b < fc, checkFile2 K.RecCount (disk b) = .ok) :
    Scanned K disk fc 0 (create K disk fc) where
  disk_eq := rfl
  length_eq := by simp [create]
  valid_eq := rfl
  recCount_eq := rfl
  tiled := create_tiled fun b hb => stores_entryRows (hdi b hb)
  counted := fun b d hb _ => absurd hb (Nat.not_lt_zero b)
  last := by
    rintro rfl d hd
    cases hd

theorem create_unread (disk : Nat → Entry F.Body) (fc : Nat) : Unread 0 (create K disk fc) :=
  fun b d _ hd => (create_opened disk fc).rest b d (Nat.zero_le b) hd

theorem Unread.flush (h : Unread i s) (now : Nat) : Unread i (maybeFlushCache K now s) := by
  intro b d hb hd
  obtain ⟨d₀, hd₀, ⟨hno, -⟩ | ⟨rfl, -⟩⟩ := maybeFlushCache_desc hd
  · exact hno
  · exact h b d hb hd₀

theorem Unread.putTile (h : Unread i s) {b : Nat} (hb : b < s.tiles.length)
    (t : Tile F.Body F.Checksum) : Unread (max i (b + 1)) (s.putTile b t) := by
  intro j d hj hd
  rw [putTile_tiles hb, if_neg (by omega)] at hd
  exact h j d (by omega) hd

theorem Scanned.flush (h : Scanned K disk fc i s) (now : Nat) :
    Scanned K disk fc i (maybeFlushCache K now s) := by
  obtain ⟨hdi, hrec, hva, hlen, hla⟩ := maybeFlushCache_frame now
  refine ⟨hdi.trans h.disk_eq, hlen.trans h.length_eq, hva.trans h.valid_eq,
    hrec.trans h.recCount_eq, h.tiled.flush now, ?_, ?_⟩
  · intro b d hb hd
    obtain ⟨d₀, hd₀, ⟨-, hok⟩ | ⟨rfl, -⟩⟩ := maybeFlushCache_desc hd
    · exact hok
    · exact h.counted b d hb hd₀
  · rw [hla]
    exact h.last

theorem Scanned.putTile (h : Scanned K disk fc i s) {b : Nat} (hb : b < fc)
    {t : Tile F.Body F.Checksum} (he : t.entry = disk b)
    (ht : Synced K.RecCount t (entryRows F (disk b))) (hok : t.desc.state = .ok)
    (hda : t.desc.fetchedData.isSome) : Scanned K disk fc i (s.putTile b t) := by
  have hlt : b < s.tiles.length := by
    rw [h.length_eq]
    exact hb
  refine ⟨?_, (putTile_length s b t).trans h.length_eq, h.valid_eq, h.recCount_eq, ?_, ?_, ?_⟩
  · funext j
    rw [putTile_disk, h.disk_eq]
    split
    · next hj => rw [hj, he]
    · rfl
  · have hput := h.tiled.putTile hlt ht
    rwa [Function.update_eq_self b (fun b => entryRows F (disk b))] at hput
  · intro j d hj hd
    rw [putTile_tiles hlt] at hd
    split at hd
    · cases hd
      exact hok
    · exact h.counted j d hj hd
  · intro hi d hd
    rw [putTile_lastDesc hlt] at hd
    split at hd
    · cases hd
      exact hda
    · exact h.last hi d hd

/-- The file of block `i` is closed when `validate_next_checksum` comes to it: it was closed
before, or the flush the call begins with closes it.  The last block is never flushed. -/
def NextClosed (now : Nat) (s : Blockchain F) : Prop :=
  ∀ d, s.tiles[s.checksumValidBlockCount]? = some d → d.fileHandle = none ∨
    (s.nextCacheFlushTimestamp < now ∧ s.checksumValidBlockCount + 1 < s.tiles.length)

instance (now : Nat) (s : Blockchain F) : Decidable (NextClosed now s) :=
  decidable_of_iff (∀ d ∈ s.tiles[s.checksumValidBlockCount]?, d.fileHandle = none ∨
      (s.nextCacheFlushTimestamp < now ∧ s.checksumValidBlockCount + 1 < s.tiles.length)) <| by
    simp only [NextClosed, Option.mem_def]

theorem NextClosed.flush {now : Nat} (h : NextClosed now s) {d : TileDesc F.Body F.Checksum}
    (hd : (maybeFlushCache K now s).tiles[s.checksumValidBlockCount]? = some d) :
    d.fileHandle = none := by
  obtain ⟨d₀, hd₀, ⟨hno, -⟩ | ⟨rfl, hkept⟩⟩ := maybeFlushCache_desc hd
  · exact hno
  · exact (h d hd₀).resolve_right hkept

theorem Unread.nextClosed (h : Unread i s) (hi : i ≤ s.checksumValidBlockCount) (now : Nat) :
    NextClosed now s :=
  fun d hd => .inl (h _ d hi hd)

/-- `validate_next_checksum` says yes to the next block and counts it. -/
theorem Scanned.validate (h : Scanned K disk fc i s) (hi : i < fc)
    (hsh : WellShaped (rowTypes K (entryRows F (disk i)))) {now : Nat}
    (hcl : NextClosed now s) :
    Returns (validateNextChecksum K now) s fun r s' => r = (true, .ok) ∧
      Scanned K disk fc (i + 1) s' ∧ (Unread i s → Unread (i + 1) s') := by
  have hf := h.flush now
  have hlt : i < s.tiles.length := by
    rw [h.length_eq]
    exact hi
  obtain ⟨d, hd, hsy⟩ := h.tiled.desc hlt now
  have hno : d.fileHandle = none := hcl.flush (by rw [h.valid_eq]; exact hd)
  have hpr : i = 0 ∨ ∃ d', (maybeFlushCache K now s).tiles[i - 1]? = some d' ∧ d'.state = .ok := by
    by_cases h0 : i = 0
    · exact .inl h0
    · have hd' := List.getElem?_eq_getElem
        (show i - 1 < (maybeFlushCache K now s).tiles.length by rw [hf.length_eq]; omega)
      exact .inr ⟨_, hd', hf.counted _ _ (by omega) hd'⟩
  obtain ⟨data, t, heq, hro, he, hca, hok, ht⟩ :=
    validateNextChecksum_reads h.valid_eq hd hno hsy.1 hsh hpr
  have hcount : blockRecCount K data = blockRecCount K (entryRows F (disk i)) := by
    have hty : rowTypes K data = rowTypes K (entryRows F (disk i)) :=
      List.map_congr_left fun j hj => by rw [hro j (List.mem_range.mp hj)]
    rw [blockRecCount, blockRecCount, hty]
  rw [h.disk_eq] at he
  have hput := hf.putTile hi he ht hok (by rw [hca]; rfl)
  refine ⟨_, _, heq, rfl, ⟨hput.disk_eq, hput.length_eq, ?_, ?_, hput.tiled, ?_, ?_⟩, ?_⟩
  · show (maybeFlushCache K now s).checksumValidBlockCount + 1 = i + 1
    rw [hf.valid_eq]
  · show (maybeFlushCache K now s).recCount + blockRecCount K data = _
    rw [hf.recCount_eq, hcount, List.range_succ, List.map_append, List.sum_append]
    simp
  · intro b d' hb hd'
    have hd'' : ((maybeFlushCache K now s).putTile i t).tiles[b]? = some d' := hd'
    rw [putTile_tiles (by rw [hf.length_eq]; exact hi)] at hd''
    split at hd''
    · cases hd''
      exact hok
    · exact hf.counted b d' (by omega) hd''
  · intro hall d' hd'
    have hd'' : ((maybeFlushCache K now s).putTile i t).lastDesc = some d' := hd'
    rw [putTile_lastDesc (by rw [hf.length_eq]; exact hi),
      if_pos (by rw [hf.length_eq]; omega)] at hd''
    cases hd''
    rw [hca]
    rfl
  · intro hun
    have := (hun.flush now).putTile (by rw [hf.length_eq]; exact hi) t
    rwa [Nat.max_eq_right (Nat.le_succ i)] at this

/-- With all blocks validated it says no, and that is all. -/
theorem Scanned.validateDone (h : Scanned K disk fc fc s) (now : Nat) :
    validateNextChecksum K now s = .ok (false, .ok) (maybeFlushCache K now s) := by
  have hf := h.flush now
  unfold validateNextChecksum
  rw [modify_bind, get_bind]
  rw [if_pos (by rw [hf.length_eq, hf.valid_eq])]
  rfl

theorem Scanned.getBlock (h : Scanned K disk fc i s) {b : Nat} (hb : b < fc) (now : Nat) :
    Returns (getBlock K b now) s fun r s' =>
      (∃ data, r = (some data, .ok) ∧ ∀ j < K.RecCount, data j = entryRows F (disk b) j) ∧
      Scanned K disk fc i s' ∧ (Unread i s → Unread (max i (b + 1)) s') := by
  have hf := h.flush now
  obtain ⟨d, hd, hsy⟩ := h.tiled.desc (by rw [h.length_eq]; exact hb) now
  obtain ⟨data, t, heq, hro, he, -, hca, hok, ht⟩ := getBlock_tile hd hsy
  rw [h.disk_eq] at he
  refine ⟨_, _, heq, ⟨data, rfl, hro⟩, hf.putTile hb he ht hok (by rw [hca]; rfl), ?_⟩
  intro hun
  exact (hun.flush now).putTile (by rw [hf.length_eq]; exact hb) t

end GradidoNode.Blockchain
