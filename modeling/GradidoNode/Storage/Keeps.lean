/-
# `GradidoNode.Storage.Keeps` — the storage as the classes above it use it

A chain object in a folder of its own: it holds a list of payloads, and every path
behind its last block can take a new one.  That is all the classes above need to
know, and every call they make keeps it:

    append p         returns true; the list grows by p          (`Keeps.append`)
    get_block b      the rows of block b                        (`Keeps.getBlock`)
    get_record i     the row numbered i                         (`Keeps.getRecord`)

`get_record` numbers rows through the blocks, checksum rows included, and divides by
`GRADIDO_BLOCK_SIZE`; its lemma is for chains of that block size.
-/
import GradidoNode.Storage.Layout

namespace GradidoNode.Blockchain

open FileTile Lib

variable {T : Type} {F : RowFormat T} {K : Params} {s s' : Blockchain F} {ps : List T}
  {cs : Nat → F.Checksum}

/-- Every path behind the last block can take a new one. -/
def Extensible (K : Params) (s : Blockchain F) : Prop :=
  ∀ b, s.tiles.length ≤ b → Usable K.RecCount (s.disk b)

theorem Extensible.of_untouched (h : Extensible K s) (hun : Untouched s s')
    (hlen : s.tiles.length ≤ s'.tiles.length) : Extensible K s' := by
  intro b hb
  rw [hun b hb]
  exact h b (Nat.le_trans hlen hb)

/-- The vector of tiles never gets shorter by an `append`. -/
theorem Holds.length_mono (h : Holds K s ps cs) {cs' : Nat → F.Checksum} {p : T}
    (h' : Holds K s' (ps ++ [p]) cs') : s.tiles.length ≤ s'.tiles.length := by
  rw [h.tiles_length, h'.tiles_length, List.length_append, List.length_singleton, blockCount_succ]
  split <;> omega

/-- A chain of the payloads `ps` that can be extended without end. -/
structure Keeps (K : Params) (s : Blockchain F) (ps : List T) : Prop where
  holds : ∃ cs, Holds K s ps cs
  extensible : Extensible K s

/-- The payloads in the files of the folder. -/
def storedRows (s : Blockchain F) : List T :=
  (List.range s.tiles.length).flatMap fun b => (payloadRows F (s.disk b)).map fun r => F.payload r.body

/-- A new object over a folder in which nothing is in the way. -/
theorem keeps_create {disk : Nat → Entry F.Body} (h : ∀ b, Usable K.RecCount (disk b)) :
    Keeps K (create K disk 0) [] where
  holds := ⟨fun _ => F.zero, holds_nil rfl rfl rfl _⟩
  extensible := fun b _ => h b

theorem chunk_row (hK : K.RecCount = GRADIDO_BLOCK_SIZE) (ps : List T) (i : Nat) :
    (chunk K ps (i / GRADIDO_BLOCK_SIZE))[i % GRADIDO_BLOCK_SIZE]?
      = if i % 1000 = 999 then none else ps[i / 1000 * 999 + i % 1000]? := by
  have hsize : GRADIDO_BLOCK_SIZE = 1000 := rfl
  have hper : perBlock K = 999 := by rw [perBlock, hK]; rfl
  rw [chunk, hsize, hper, List.getElem?_take, List.getElem?_drop]
  by_cases h : i % 1000 = 999
  · rw [if_pos h, if_neg (by omega)]
  · rw [if_neg h, if_pos (by omega)]

namespace Keeps

variable (h : Keeps K s ps)
include h

theorem recCount_eq : s.recCount = rowCount K ps.length := by
  obtain ⟨cs, hcs⟩ := h.holds
  exact hcs.recCount_eq

theorem tiles_length : s.tiles.length = blockCount K ps.length := by
  obtain ⟨cs, hcs⟩ := h.holds
  exact hcs.tiles_length

theorem valid_eq : s.checksumValidBlockCount = s.tiles.length := by
  obtain ⟨cs, hcs⟩ := h.holds
  exact hcs.valid_eq

theorem storedRows_eq : storedRows s = ps := by
  obtain ⟨cs, hcs⟩ := h.holds
  have hbl : storedRows s = (List.range s.tiles.length).flatMap (chunk K ps) := by
    refine List.flatMap_congr ?_
    intro b hb
    rw [hcs.payloadRows_eq (List.mem_range.mp hb), List.map_map]
    exact (List.map_congr_left fun p _ => F.payload_payloadRow p).trans (List.map_id _)
  rw [hbl, flatMap_chunk]
  exact List.take_of_length_le hcs.length_le

theorem append (p : T) (now : Nat) :
    Returns (Blockchain.append K p now) s fun r s' => r = (true, .ok) ∧ Keeps K s' (ps ++ [p]) := by
  obtain ⟨cs, hcs⟩ := h.holds
  refine (append_holds hcs (fun _ => h.extensible _ (Nat.le_refl _)) p now).mono ?_
  rintro r s' ⟨hr, hcs', hun, -⟩
  exact ⟨hr, ⟨_, hcs'⟩, h.extensible.of_untouched hun (hcs.length_mono hcs')⟩

theorem getBlock {b : Nat} (hb : b < blockCount K ps.length) (now : Nat) :
    Returns (Blockchain.getBlock K b now) s fun r s' =>
      (∃ rows c, r = (some rows, .ok) ∧
        ∀ j < K.RecCount, rows j = blockRows F (chunk K ps b) c j) ∧ Keeps K s' ps := by
  obtain ⟨cs, hcs⟩ := h.holds
  refine (getBlock_holds hcs (by rw [hcs.tiles_length]; exact hb) now).mono ?_
  rintro r s' ⟨⟨rows, hr, hro⟩, hcs', hun, -⟩
  have hlen : s.tiles.length ≤ s'.tiles.length := by
    rw [hcs.tiles_length, hcs'.tiles_length]
  exact ⟨⟨rows, cs b, hr, hro⟩, ⟨cs, hcs'⟩, h.extensible.of_untouched hun hlen⟩

theorem getRecord (hK : K.RecCount = GRADIDO_BLOCK_SIZE) {i : Nat}
    (hi : i < rowCount K ps.length) (now : Nat) :
    Returns (Blockchain.getRecord K i now) s fun r s' =>
      (∃ c, r = (some (blockRows F (chunk K ps (i / GRADIDO_BLOCK_SIZE)) c
        (i % GRADIDO_BLOCK_SIZE)), .ok)) ∧ Keeps K s' ps := by
  have hb : i / GRADIDO_BLOCK_SIZE < blockCount K ps.length := by
    have hle := rowCount_le K ps.length
    rw [hK] at hle
    exact Nat.div_lt_of_lt_mul (by rw [Nat.mul_comm]; omega)
  have hj : i % GRADIDO_BLOCK_SIZE < K.RecCount := by
    rw [hK]
    exact Nat.mod_lt _ (by decide)
  have hrec : ¬ s.recCount ≤ i := by
    rw [h.recCount_eq]
    exact Nat.not_le.mpr hi
  refine .bind (.get ?_)
  simp only [hrec, if_false]
  refine .bind ((h.getBlock hb now).mono ?_)
  rintro r s' ⟨⟨rows, c, rfl, hro⟩, h'⟩
  simp only [hj, if_true]
  exact .pure ⟨⟨c, by rw [hro _ hj]⟩, h'⟩

/-- The last row is a CHECKSUM row, and the one before it has the last payload. -/
theorem getRecord_last (hK : K.RecCount = GRADIDO_BLOCK_SIZE) {p : T}
    (hp : ps.getLast? = some p) (now : Nat) :
    2 ≤ s.recCount ∧ Returns (Blockchain.getRecord K (s.recCount - 2) now) s fun r s' =>
      r = (some (F.payloadRow p), .ok) ∧ Keeps K s' ps := by
  have hper : perBlock K = 999 := by rw [perBlock, hK]; rfl
  have hcount : s.recCount
      = ps.length + (ps.length / 999 + if ps.length % 999 = 0 then 0 else 1) := by
    rw [h.recCount_eq, rowCount, blockCount, hper]
  have hpos : 0 < ps.length := by
    refine List.length_pos_iff.mpr ?_
    rintro rfl
    cases hp
  -- the row of the last payload, in a full block and in one that is not
  have hrow : 2 ≤ s.recCount ∧ (s.recCount - 2) % 1000 ≠ 999 ∧
      (s.recCount - 2) / 1000 * 999 + (s.recCount - 2) % 1000 = ps.length - 1 := by
    rw [hcount]
    by_cases hfull : ps.length % 999 = 0
    · rw [if_pos hfull]
      omega
    · rw [if_neg hfull]
      omega
  have hla : ps[ps.length - 1]? = some p := by rw [← hp, List.getLast?_eq_getElem?]
  have hch := chunk_row hK ps (s.recCount - 2)
  rw [if_neg hrow.2.1, hrow.2.2, hla] at hch
  have hlt : s.recCount - 2 < rowCount K ps.length := by
    rw [← h.recCount_eq]
    omega
  refine ⟨hrow.1, (h.getRecord hK hlt now).mono ?_⟩
  rintro r s' ⟨⟨c, rfl⟩, h'⟩
  exact ⟨by rw [blockRows_payload hch], h'⟩

theorem extend (ps' : List T) : ∃ s' : Blockchain F, Keeps K s' (ps ++ ps') := by
  induction ps' generalizing s ps with
  | nil => exact ⟨s, by rw [List.append_nil]; exact h⟩
  | cons p ps' ih =>
    obtain ⟨r, s₁, -, -, h₁⟩ := h.append p 0
    rw [List.append_cons]
    exact ih h₁

end Keeps

/-- Every list of payloads is kept by some object. -/
theorem exists_keeps (F : RowFormat T) (K : Params) (ps : List T) :
    ∃ s : Blockchain F, Keeps K s ps := by
  have hem : Keeps K (create (F := F) K (fun _ => .missing) 0) [] := keeps_create fun _ => .inl rfl
  exact hem.extend ps

end GradidoNode.Blockchain
