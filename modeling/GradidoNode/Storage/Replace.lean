/-
# `GradidoNode.Storage.Replace` — where `replace_block` puts the rows

`replace_block` copies the rows into the tile's buffer and calls `sync_to_file`,
which writes a whole block *where the file handle stands* and then closes it.

    the tile, after the flush the call begins with    what is at the path afterwards
    file closed                                       the block
    file open at row 0 (left there by `append`)       the block
    file open at row p > 0 (left there by a read)     the rows from row p on; p + RecCount rows
    file open and renamed meanwhile                   nothing; the `.bad` file was written

`true` is returned in all of these.  `replaceBlock_stores_iff` says that the first
two are exactly the ones in which the block is stored, for every object any calls
have led to, over any folder.
-/
import GradidoNode.Storage.Calls
import GradidoNode.Storage.Reopen

namespace GradidoNode.Blockchain

open FileTile Lib

variable {T : Type} {F : RowFormat T} {K : Params} {s s' : Blockchain F}

/-! ## What is asked for -/

/-- The file is `RecCount` rows, and these rows. -/
def FileIs (K : Params) (e : Entry F.Body) (data : Nat → Row F.Body) : Prop :=
  ∃ f, e = .regular f ∧ f.len = K.RecCount ∧ f.slack = false ∧ ∀ j < K.RecCount, f.rows j = data j

/-- Block `i` is stored, and nothing else is touched but for the flush at `now`. -/
structure Replaced (K : Params) (s : Blockchain F) (i : Nat) (data : Nat → Row F.Body) (now : Nat)
    (s' : Blockchain F) : Prop where
  file : FileIs K (s'.disk i) data
  block : ∀ now', BlockIs K s' i now' (rowList K data)
  reopened : ∀ listing now', Lists listing s'.disk →
    BlockIs K (create K s'.disk (getFileCount listing s'.disk)) i now' (rowList K data)
  others : ∀ b, b ≠ i → s'.disk b = s.disk b ∧ s'.tiles[b]? = (maybeFlushCache K now s).tiles[b]?
  otherBlocks : ∀ b d rs, b ≠ i → s.tiles[b]? = some d → Synced K.RecCount ⟨s.disk b, d⟩ rs →
    ∀ now', BlockIs K s b now' (rowList K rs) ∧ BlockIs K s' b now' (rowList K rs)

/-! ## One tile -/

variable {b : Nat} {d : TileDesc F.Body F.Checksum} {rs data : Nat → Row F.Body}
  {t t' : Tile F.Body F.Checksum} {e : Entry F.Body}

theorem flush_synced
    (hd : s.tiles[b]? = some d) (h : Synced K.RecCount ⟨s.disk b, d⟩ rs) (now : Nat) :
    ∃ d', (maybeFlushCache K now s).tiles[b]? = some d' ∧ Synced K.RecCount ⟨s.disk b, d'⟩ rs := by
  unfold maybeFlushCache
  split
  · refine ⟨_, by rw [flushCache_tiles, hd]; rfl, ?_⟩
    unfold flushDesc
    split
    · exact ⟨h.1, .inl rfl⟩
    · exact h
  · exact ⟨d, hd, h⟩

/-- `get_block` looks at its own tile. -/
theorem blockIs_of_synced
    (hd : s.tiles[b]? = some d) (h : Synced K.RecCount ⟨s.disk b, d⟩ rs) (now : Nat) :
    BlockIs K s b now (rowList K rs) := by
  obtain ⟨d', hd', h'⟩ := flush_synced hd h now
  obtain ⟨data, t, heq, hro, -⟩ := getBlock_tile hd' h'
  exact ⟨_, _, heq, data, rfl, List.map_congr_left fun j hj => hro j (List.mem_range.mp hj)⟩

theorem openFile_entry (h : t.openFile K.RecCount F.zeroBody = (true, t')) :
    t'.desc.fetchedData = t.desc.fetchedData ∧
      t'.desc.fileHandle = some (t.desc.fileHandle.getD 0) ∧
      (t.desc.fileHandle = none → isFile t'.entry = true) ∧
      (t.desc.fileHandle.isSome → t'.entry = t.entry) := by
  unfold Tile.openFile at h
  split at h
  · next p hp =>
    cases h
    exact ⟨rfl, by simp [Tile.setState, hp], by simp [hp], fun _ => rfl⟩
  · next hp =>
    split at h
    · cases h
      exact ⟨rfl, by simp [hp], fun _ => rfl, by simp [hp]⟩
    · next hok =>
      cases h
      obtain ⟨rs, f, he, -⟩ := stores_of_checkFile2 hok
      refine ⟨rfl, by simp [hp], fun _ => ?_, fun _ => rfl⟩
      rw [show t.entry = .regular f from he]
      rfl
    · cases h

/-- What `sync_to_file` of a tile with a buffer does, when it returns. -/
theorem syncToFile_true {b : Bool} (hda : t.desc.fetchedData = some data)
    (h : t.syncToFile K.RecCount F.zeroBody true = some (b, t')) :
    ∃ t₁, t.openFile K.RecCount F.zeroBody = (true, t₁) ∧
      t'.entry = Tile.fwrite (t.desc.fileHandle.getD 0) K.RecCount data t₁.entry ∧
      t'.desc.fileHandle = none := by
  unfold Tile.syncToFile at h
  rw [hda] at h
  cases hop : t.openFile K.RecCount F.zeroBody with
  | mk opened t₁ =>
    rw [hop] at h
    cases opened with
    | false => cases h
    | true =>
      obtain ⟨-, hh, -⟩ := openFile_entry hop
      cases h
      refine ⟨t₁, rfl, ?_, rfl⟩
      rw [hh]
      rfl

/-- A block written from row 0 on is the file. -/
theorem fwrite_stores {N : Nat} (hfi : isFile e = true)
    (hop : ∀ f, e = .regular f → Open N f) (data : Nat → Row F.Body) :
    Stores N (Tile.fwrite 0 N data e) data := by
  cases e with
  | missing | other => cases hfi
  | regular f =>
    obtain ⟨hlen, hsl, hr, hw⟩ := hop f rfl
    refine ⟨_, rfl, ?_, hsl, hr, hw, fun j hj => ?_⟩
    · show max f.len (0 + N) = N
      omega
    · show (if 0 ≤ j ∧ j < 0 + N then data (j - 0) else f.rows j) = data j
      rw [if_pos (by omega), Nat.sub_zero]

/-- A block written from another row on is not. -/
theorem fwrite_not_fileIs {pos : Nat} {data' : Nat → Row F.Body}
    (h : FileIs K (Tile.fwrite pos K.RecCount data e) data') : isFile e = true ∧ pos = 0 := by
  obtain ⟨f, hf, hlen, -⟩ := h
  cases e with
  | missing | other => cases hf
  | regular f₀ =>
    cases hf
    have hmax : max f₀.len (pos + K.RecCount) = K.RecCount := hlen
    exact ⟨rfl, by omega⟩

/-! ## The call -/

/-- The file of block `i` is closed when the block is written, or open at row 0 and at its path. -/
def WritesWhole (K : Params) (s : Blockchain F) (i now : Nat) : Prop :=
  ∀ d, (maybeFlushCache K now s).tiles[i]? = some d →
    d.fileHandle = none ∨ (d.fileHandle = some 0 ∧ isFile (s.disk i) = true)

/-- **Where `replace_block` stores the block.**  For every object any calls have led to, over any
folder: a call that returns true has stored the block exactly when it wrote to a file that was
closed, or open at row 0 and at its path. -/
theorem replaceBlock_stores_iff (K : Params) (disk : Nat → Entry F.Body) (fc : Nat)
    (cs : List (StoreCall T)) (s : Blockchain F)
    (hrun : run (storeStep K) (create K disk fc) cs = some s) (i : Nat) (data : Nat → Row F.Body)
    (now : Nat) (ec : ExitCode) (s' : Blockchain F)
    (heq : replaceBlock K i data now s = .ok (true, ec) s') :
    Replaced K s i data now s' ↔ WritesWhole K s i now := by
  have hall := tileInv_openFits.maybeFlush now (tileInv_openFits.run hrun)
  obtain ⟨hdi, -, -, hlen, -⟩ := maybeFlushCache_frame now
  obtain ⟨d, t', hd, -, hsn, rfl⟩ := replaceBlock_ok heq
  have hlt := (List.getElem?_eq_some_iff.mp hd).1
  obtain ⟨t₁, hop, hen, hcl⟩ := syncToFile_true rfl hsn
  obtain ⟨-, -, hnew, hold⟩ := openFile_entry hop
  have hfits : ∀ f, t₁.entry = .regular f → Open K.RecCount f := by
    have h := hall i d hd
    rw [hdi] at h
    have hfi := (openFile_fits (z := F.zeroBody) (t := Tile.setTileData data ⟨s.disk i, d⟩) h).2
    rw [hop] at hfi
    exact hfi rfl
  have hpa : ((maybeFlushCache K now s).putTile i t').disk i = t'.entry := by
    rw [putTile_disk, if_pos rfl]
  have hre : ∀ b, b ≠ i → ((maybeFlushCache K now s).putTile i t').disk b = s.disk b ∧
      ((maybeFlushCache K now s).putTile i t').tiles[b]? = (maybeFlushCache K now s).tiles[b]? := by
    intro b hb
    rw [putTile_disk, if_neg hb, hdi, putTile_tiles hlt, if_neg hb]
    exact ⟨rfl, rfl⟩
  constructor
  · intro h d' hd'
    cases hd.symm.trans hd'
    cases hh : d.fileHandle with
    | none => exact .inl rfl
    | some p =>
      have hfi := h.file
      rw [hpa, hen] at hfi
      obtain ⟨hreg, hpos⟩ := fwrite_not_fileIs hfi
      have hp : p = 0 := by
        rw [show (Tile.setTileData data ⟨s.disk i, d⟩).desc.fileHandle = some p from hh] at hpos
        exact hpos
      rw [hold (by rw [show (Tile.setTileData data ⟨s.disk i, d⟩).desc.fileHandle = some p from hh]
                   rfl)] at hreg
      exact .inr ⟨by rw [hp], hreg⟩
  · intro h
    have hwh : isFile t₁.entry = true ∧
        (Tile.setTileData data ⟨s.disk i, d⟩).desc.fileHandle.getD 0 = 0 := by
      rcases h d hd with hh | ⟨hh, hreg⟩
      · have hno : (Tile.setTileData data ⟨s.disk i, d⟩).desc.fileHandle = none := hh
        exact ⟨hnew hno, by rw [hno]; rfl⟩
      · have hso : (Tile.setTileData data ⟨s.disk i, d⟩).desc.fileHandle = some 0 := hh
        exact ⟨by rw [hold (by rw [hso]; rfl)]; exact hreg, by rw [hso]; rfl⟩
    have hst : Stores K.RecCount t'.entry data := by
      rw [hen, hwh.2]
      exact fwrite_stores hwh.1 hfits data
    have hsy : Synced K.RecCount t' data := ⟨hst, .inl hcl⟩
    have htl : ((maybeFlushCache K now s).putTile i t').tiles[i]? = some t'.desc := by
      rw [putTile_tiles hlt, if_pos rfl]
    refine ⟨?_, fun now' => ?_, fun listing now' hl => ?_, hre, fun b d₀ rs hb hd₀ hs now' => ?_⟩
    · obtain ⟨f, he, hfl, hsl, -, -, hro⟩ := hst
      exact ⟨f, hpa.trans he, hfl, hsl, hro⟩
    · exact blockIs_of_synced htl (by rw [hpa]; exact hsy) now'
    · have hfi : isFile (((maybeFlushCache K now s).putTile i t').disk i) = true := by
        rw [hpa]
        exact isFile_stores hst
      have hcount := lt_getFileCount (hl i hfi) hfi
      have hd' : (create K ((maybeFlushCache K now s).putTile i t').disk
          (getFileCount listing ((maybeFlushCache K now s).putTile i t').disk)).tiles[i]?
          = some (reset F.zero (checkFile2 K.RecCount
            (((maybeFlushCache K now s).putTile i t').disk i))) := by
        rw [create, List.getElem?_map, List.getElem?_range hcount]
        rfl
      refine blockIs_of_synced hd' ⟨?_, .inl rfl⟩ now'
      show Stores K.RecCount (((maybeFlushCache K now s).putTile i t').disk i) data
      rw [hpa]
      exact hst
    · refine ⟨blockIs_of_synced hd₀ hs now', ?_⟩
      obtain ⟨d₁, hd₁, hs₁⟩ := flush_synced hd₀ hs now
      refine blockIs_of_synced ((hre b hb).2.trans hd₁) ?_ now'
      rw [(hre b hb).1]
      exact hs₁

/-- A full block to replace others with. -/
def oneTwoThree : Nat → Row (digestFormat Nat).Body := blockRows (digestFormat Nat) [1, 2, 3] .zero

/-- Three rows appended, and the block they fill replaced. -/
theorem replaceBlock_stores_appended :
    ∃ s s', run (storeStep fourRows) (create fourRows (fun _ => .missing) 0)
        [.append 7 0, .append 8 0, .append 9 0] = some s ∧
      replaceBlock fourRows 0 oneTwoThree 0 s = .ok (true, .ok) s' ∧
      Replaced fourRows s 0 oneTwoThree 0 s' := by
  obtain ⟨s, hs, hfi, hha, hca⟩ : ∃ s, run (storeStep fourRows)
      (create fourRows (fun _ => .missing) 0) [.append 7 0, .append 8 0, .append 9 0] = some s ∧
      isFile (s.disk 0) ∧
      (maybeFlushCache fourRows 0 s).tiles[0]?.map TileDesc.fileHandle = some (some 0) ∧
      outcome (replaceBlock fourRows 0 oneTwoThree 0 s) = .ok (true, .ok) := by decide
  obtain ⟨s', hr⟩ := outcome_ok hca
  refine ⟨s, s', hs, hr, (replaceBlock_stores_iff fourRows _ 0 _ s hs 0 oneTwoThree 0 .ok s' hr).mpr
    fun d hd => .inr ⟨?_, hfi⟩⟩
  rw [hd] at hha
  exact Option.some.inj hha

/-- The same block read in between: `true`, and the file has eight rows. -/
theorem replaceBlock_behind_old_rows :
    ∃ s s', run (storeStep fourRows) (create fourRows (fun _ => .missing) 0)
        [.append 7 0, .append 8 0, .append 9 0, .getBlock 0 0] = some s ∧
      replaceBlock fourRows 0 oneTwoThree 0 s = .ok (true, .ok) s' ∧
      (fileRows (s'.disk 0)).length = 8 := by
  obtain ⟨s, hs, hca, hro⟩ : ∃ s, run (storeStep fourRows) (create fourRows (fun _ => .missing) 0)
      [.append 7 0, .append 8 0, .append 9 0, .getBlock 0 0] = some s ∧
      outcome (replaceBlock fourRows 0 oneTwoThree 0 s) = .ok (true, .ok) ∧
      (fileRows ((stateAfter (replaceBlock fourRows 0 oneTwoThree 0 s)).disk 0)).length = 8 := by
    decide
  obtain ⟨s', hr⟩ := outcome_ok hca
  rw [hr] at hro
  exact ⟨s, s', hs, hr, hro⟩

end GradidoNode.Blockchain
