/-
# `GradidoNode.Storage.TileSpec` — what the operations of a tile do to its rows

One lemma per operation of `FileTile::Tile`, for tiles whose file is in order.
A caller cites these and never unfolds an operation.

`Stores N e rs`: the path `e` is a file `check_file2` accepts, and its rows are
`rs`.  `Synced t rs`: moreover the handle, if there is one, stands where the next
`sync_from_file` leaves the buffer equal to the file — at row 0, so that the
whole file is read, or at the end, with the buffer already equal to it.  Every
operation the chain performs keeps `Synced`; that is why `get_block` is never
out of date although `write` does not touch the buffer.
-/
import GradidoNode.Storage.FileTile

namespace GradidoNode.FileTile

variable {Body Checksum : Type} {N : Nat} {z : Body}

/-! ## Files in order -/

/-- The path is a file in order with rows `rs`. -/
def Stores (N : Nat) (e : Entry Body) (rs : Nat → Row Body) : Prop :=
  ∃ f : File Body, e = .regular f ∧ f.len = N ∧ f.slack = false ∧ f.readable = true ∧
    f.writeable = true ∧ ∀ i < N, f.rows i = rs i

/-- A new tile can be written at this path: there is nothing, or a file in order. -/
def Usable (N : Nat) (e : Entry Body) : Prop :=
  e = .missing ∨ ∃ rs, Stores N e rs

/-- The buffer of a tile holds the rows `rs`. -/
def Cached (N : Nat) (d : TileDesc Body Checksum) (rs : Nat → Row Body) : Prop :=
  ∃ data, d.fetchedData = some data ∧ ∀ i < N, data i = rs i

/-- The next `sync_from_file` leaves the buffer equal to `rs`. -/
def HandleOk (N : Nat) (d : TileDesc Body Checksum) (rs : Nat → Row Body) : Prop :=
  d.fileHandle = none ∨ d.fileHandle = some 0 ∨ (d.fileHandle = some N ∧ Cached N d rs)

/-- A tile in order with rows `rs`. -/
def Synced (N : Nat) (t : Tile Body Checksum) (rs : Nat → Row Body) : Prop :=
  Stores N t.entry rs ∧ HandleOk N t.desc rs

variable {e : Entry Body} {rs rs' data : Nat → Row Body} {d : TileDesc Body Checksum}
  {t : Tile Body Checksum}

theorem Stores.checkFile2 (h : Stores N e rs) : FileTile.checkFile2 N e = .ok := by
  obtain ⟨f, rfl, hlen, hsl, hr, hw, -⟩ := h
  simp [FileTile.checkFile2, hlen, hsl, hr, hw]

theorem stores_of_checkFile2 (h : FileTile.checkFile2 N e = .ok) : ∃ rs, Stores N e rs := by
  cases e with
  | missing | other => cases h
  | regular f =>
    refine ⟨f.rows, f, rfl, ?_⟩
    unfold FileTile.checkFile2 at h
    grind

theorem Stores.congr (h : Stores N e rs) (hrs : ∀ i < N, rs i = rs' i) : Stores N e rs' := by
  obtain ⟨f, he, hlen, hsl, hr, hw, hro⟩ := h
  exact ⟨f, he, hlen, hsl, hr, hw, fun i hi => (hro i hi).trans (hrs i hi)⟩

theorem Stores.unique (h : Stores N e rs) (h' : Stores N e rs') : ∀ i < N, rs i = rs' i := by
  obtain ⟨f, he, -, -, -, -, hro⟩ := h
  obtain ⟨f', he', -, -, -, -, hro'⟩ := h'
  obtain rfl : f = f' := by
    rw [he] at he'
    exact Entry.regular.inj he'
  intro i hi
  exact (hro i hi).symm.trans (hro' i hi)

theorem HandleOk.congr (h : HandleOk N d rs) (hrs : ∀ i < N, rs i = rs' i) : HandleOk N d rs' := by
  rcases h with h | h | ⟨h, data, hd, hda⟩
  · exact .inl h
  · exact .inr (.inl h)
  · exact .inr (.inr ⟨h, data, hd, fun i hi => (hda i hi).trans (hrs i hi)⟩)

theorem handleOk_of_getD (h : d.fileHandle.getD 0 = 0) (rs : Nat → Row Body) : HandleOk N d rs := by
  cases hh : d.fileHandle with
  | none => exact .inl hh
  | some p =>
    rw [hh] at h
    exact .inr (.inl (by rw [hh]; exact congrArg some h))

/-! ## Opening and closing -/

theorem openFile_stores (h : Stores N t.entry rs) : t.openFile N z =
      (true, { t with desc := { t.desc with
        fileHandle := some (t.desc.fileHandle.getD 0), state := .ok } }) := by
  rcases t with ⟨e, ⟨st, fd, fh, sp, lu⟩⟩
  have hc : checkFile2 N e = .ok := h.checkFile2
  cases fh with
  | some p => rfl
  | none => simp [Tile.openFile, hc]

theorem closeFile_synced (h : Synced N t rs) : Synced N t.closeFile rs := ⟨h.1, .inl rfl⟩

/-! ## Reading -/

/-- After `sync_from_file`, whatever it returned, the buffer is the file. -/
theorem syncFromFile_synced (c : Bool) (h : Synced N t rs) : let t' := (t.syncFromFile N z c).2
    t'.entry = t.entry ∧ t'.desc.sup = t.desc.sup ∧ t'.desc.lastUse = t.desc.lastUse ∧
      t'.desc.fileHandle = some N ∧ Cached N t'.desc rs := by
  obtain ⟨hst, hh⟩ := h
  have hop := openFile_stores (z := z) hst
  obtain ⟨f, he, hlen, -, -, -, hro⟩ := hst
  simp only [Tile.syncFromFile, hop, he, Tile.available, Tile.freadInto, Option.getD_some, hlen]
  rcases hh with hh | hh | ⟨hh, data, hd, hda⟩
  · -- closed: opened at row 0, so the whole file is read
    simp only [hh, Option.getD_none, Nat.sub_zero, Nat.min_self, Nat.zero_add, if_true]
    refine ⟨trivial, trivial, trivial, trivial, _, rfl, fun i hi => ?_⟩
    simp [hi, hro i hi]
  · simp only [hh, Option.getD_some, Nat.sub_zero, Nat.min_self, Nat.zero_add, if_true]
    refine ⟨trivial, trivial, trivial, trivial, _, rfl, fun i hi => ?_⟩
    simp [hi, hro i hi]
  · -- at the end: nothing is read, and the buffer was already equal to the file
    simp only [hh, hd, Option.getD_some, Nat.sub_self, Nat.min_zero, Nat.add_zero]
    split <;>
      exact ⟨rfl, rfl, rfl, rfl, _, rfl, fun i hi => by simpa using hda i hi⟩

theorem syncFromFile_closed (c : Bool) (hst : Stores N t.entry rs) (hh : t.desc.fileHandle = none) :
    (t.syncFromFile N z c).1 = true ∧ (t.syncFromFile N z c).2.desc.state = .ok := by
  have hop := openFile_stores (z := z) hst
  obtain ⟨f, he, hlen, -, -, -, hro⟩ := hst
  simp [Tile.syncFromFile, hop, he, Tile.available, hlen, hh]

/-- Nothing is read through a new handle where no file is in order, and the state
says neither MISSING_FILE nor BAD_LENGTH. -/
theorem syncFromFile_bad (c : Bool) (hN : 0 < N)
    (hbad : checkFile2 N t.entry ≠ .ok) (hh : t.desc.fileHandle = none) :
    (t.syncFromFile N z c).1 = false ∧ ((t.syncFromFile N z c).2.desc.state = .cannotOpenFile ∨
        (t.syncFromFile N z c).2.desc.state = .errorWhileReading) := by
  rcases t with ⟨e, ⟨st, fd, fh, sp, lu⟩⟩
  subst hh
  cases e with
  | missing =>
    simp [Tile.syncFromFile, Tile.openFile, checkFile2, Tile.available, createdFile,
      Nat.ne_of_lt hN]
  | other => exact ⟨rfl, .inl rfl⟩
  | regular f =>
    have hmi : checkFile2 N (.regular f) ≠ .missingFile := by
      unfold checkFile2
      grind
    simp only [Tile.syncFromFile, Tile.openFile]
    exact ⟨trivial, .inl rfl⟩

/-- `sync_from_file` reads a whole buffer, or leaves one of two states. -/
theorem syncFromFile_cases (t : Tile Body Checksum) (c : Bool) : ((t.syncFromFile N z c).1 = true ∧
      ∃ data, (t.syncFromFile N z c).2.desc.fetchedData = some data) ∨
    ((t.syncFromFile N z c).1 = false ∧ ((t.syncFromFile N z c).2.desc.state = .cannotOpenFile ∨
        (t.syncFromFile N z c).2.desc.state = .errorWhileReading)) := by
  have hop : (t.openFile N z).1 = false → (t.openFile N z).2.desc.state = .cannotOpenFile := by
    unfold Tile.openFile
    split
    · intro h
      cases h
    · split
      · intro h
        cases h
      · intro h
        cases h
      · intro _
        rfl
  unfold Tile.syncFromFile
  generalize t.openFile N z = r at hop
  obtain ⟨opened, t'⟩ := r
  cases opened with
  | false => exact .inr ⟨rfl, .inl (hop rfl)⟩
  | true =>
    dsimp only
    split
    · exact .inl ⟨rfl, _, rfl⟩
    · exact .inr ⟨rfl, .inr rfl⟩

/-- Of a file in order a whole buffer is read exactly from row 0. -/
theorem syncFromFile_reads_iff (c : Bool) (hN : 0 < N) (h : Stores N t.entry rs) :
    (t.syncFromFile N z c).1 = true ↔ t.desc.fileHandle.getD 0 = 0 := by
  have hop := openFile_stores (z := z) h
  obtain ⟨f, he, hlen, -⟩ := h
  simp only [Tile.syncFromFile, hop, he, Tile.available, Option.getD_some, hlen]
  by_cases h0 : t.desc.fileHandle.getD 0 = 0
  · simp [h0]
  · have hsh : ¬ min N (N - t.desc.fileHandle.getD 0) = N := by omega
    simp only [hsh, if_false, h0, Bool.false_eq_true]

/-! ## Writing -/

/-- `write` replaces one row of the file, leaves the buffer alone and the handle at row 0. -/
theorem write_synced {i : Nat} (record : Row Body) (h : Stores N t.entry rs) (hi : i < N) :
    ∃ t', t.write N z record i false = (true, t') ∧
      t'.desc = { t.desc with fileHandle := some 0, state := .ok } ∧
      Stores N t'.entry (Function.update rs i record) := by
  have hop := openFile_stores (z := z) h
  obtain ⟨f, he, hlen, hsl, hr, hw, hro⟩ := h
  simp only [Tile.write, Nat.not_le.mpr hi, if_false, hop, he, Tile.fwrite, Bool.false_eq_true]
  refine ⟨_, rfl, rfl, _, rfl, ?_, hsl, hr, hw, ?_⟩
  · show max f.len (i + 1) = N
    omega
  · intro j hj
    by_cases hji : j = i
    · subst hji
      simp [Tile.File.overwrite]
    · have hou : ¬ (i ≤ j ∧ j < i + 1) := by omega
      rw [Function.update_of_ne hji, ← hro j hj]
      exact if_neg hou

/-- `sync_to_file` from row 0 on makes a file in order equal to the buffer. -/
theorem syncToFile_stores (c : Bool) (hst : Stores N t.entry rs) (hh : t.desc.fileHandle.getD 0 = 0)
    (hd : t.desc.fetchedData = some data) :
    ∃ t', t.syncToFile N z c = some (true, t') ∧
      t'.desc = { t.desc with fileHandle := if c then none else some N, state := .ok } ∧
      Stores N t'.entry data := by
  have hop := openFile_stores (z := z) hst
  obtain ⟨f, he, hlen, hsl, hr, hw, -⟩ := hst
  have hmax : max f.len (0 + N) = N := by omega
  have hro : ∀ i < N, (Tile.File.overwrite f 0 N data).rows i = data i := by
    intro i hi
    simp [Tile.File.overwrite, hi]
  simp only [Tile.syncToFile, hd, hop, hh, Option.getD_some, Nat.zero_add, he, Tile.fwrite]
  cases c with
  | false | true => exact ⟨_, rfl, rfl, _, rfl, hmax, hsl, hr, hw, hro⟩

/-- `sync_to_file` on a tile without a handle makes the file equal to the buffer. -/
theorem syncToFile_new
    (hu : Usable N t.entry) (hh : t.desc.fileHandle = none) (hd : t.desc.fetchedData = some data) :
    ∃ t', t.syncToFile N z false = some (true, t') ∧
      t'.desc = { t.desc with fileHandle := some N, state := .ok } ∧
      Stores N t'.entry data := by
  rcases hu with he | ⟨rs, hs⟩
  · rcases t with ⟨e, ⟨st, fd, fh, sp, lu⟩⟩
    subst hh hd he
    simp only [Tile.syncToFile, Tile.openFile, checkFile2, Option.getD_some, Nat.zero_add,
      Tile.fwrite, Bool.false_eq_true, if_false]
    refine ⟨_, rfl, rfl, _, rfl, ?_, rfl, rfl, rfl, fun i hi => ?_⟩
    · show max 0 (0 + N) = N
      omega
    · simp [Tile.File.overwrite, hi]
  · exact syncToFile_stores false hs (by rw [hh]; rfl) hd

/-- Where nothing usable is, `sync_to_file` of a tile without a handle ends without a value. -/
theorem syncToFile_occupied (hu : ¬ Usable N t.entry) (hh : t.desc.fileHandle = none)
    (hd : t.desc.fetchedData = some data) : t.syncToFile N z false = none := by
  rcases t with ⟨e, ⟨st, fd, fh, sp, lu⟩⟩
  subst hh hd
  cases e with
  | missing => exact absurd (.inl rfl) hu
  | other => rfl
  | regular f =>
    have hbad : checkFile2 N (.regular f) ≠ .ok := fun hok =>
      hu (.inr (stores_of_checkFile2 hok))
    have hmi : checkFile2 N (.regular f) ≠ .missingFile := by
      unfold checkFile2
      grind
    -- neither of the two cases in which `open_file` gets a handle
    simp only [Tile.syncToFile, Tile.openFile]

end GradidoNode.FileTile
