/-
# `GradidoNode.Storage.Layout` — a chain holds a list of payloads

The abstract view of a chain is the list of the payloads appended to it.
`Holds K s ps cs` says that the object `s` is a chain of these payloads: block
`b` has the payloads `b * m .. (b + 1) * m - 1` with `m = RecCount - 1`, behind
them a checksum row with `cs b`, behind that EMPTY rows; the three counters
count all of it; every tile is `Synced` with its file.  Paths behind the last
block are another matter: `append` can start a new block only where the path is
`Usable`, and no call touches a path before it has a tile (`Untouched`).

    call                         what it does to `Holds K s ps cs`
    append p                     ps ++ [p], the last block's checksum recomputed   (`append_holds`)
    get_block b, b < blocks      nothing; returns the rows of block b              (`getBlock_holds`)
    get_block b, otherwise       nothing; throws                                   (`getBlock_outside`)
    flush_cache                  nothing                                           (`flushCache_holds`)

Blocks may also come from elsewhere, with any rows.  `Tiled K s rs` says only that the
tiles are in order and have the rows `rs`; `Appended` is what `append` does to such an
object.

The checksum `append` continues from is *not* `cs` of the last block: it is read
from the buffer of the last tile inside a block and from `TileSup` at a block
boundary (`usedChecksum`), and these need not be up to date.
-/
import GradidoNode.Storage.Blockchain
import GradidoNode.Storage.TileSpec
import Mathlib.Tactic.Ring
import Mathlib.Tactic.Linarith

namespace GradidoNode.Blockchain

open Function FileTile Lib

variable {T : Type} {F : RowFormat T} (K : Params)

/-! ## Blocks of a list -/

/-- The payload rows of a full block. -/
def perBlock : Nat := K.RecCount - 1

/-- The number of blocks `n` payloads take. -/
def blockCount (n : Nat) : Nat := n / perBlock K + if n % perBlock K = 0 then 0 else 1

/-- The number of rows `n` payloads take, checksums included. -/
def rowCount (n : Nat) : Nat := n + blockCount K n

/-- The payloads of block `b`. -/
def chunk (ps : List T) (b : Nat) : List T := (ps.drop (b * perBlock K)).take (perBlock K)

/-- The rows of a block: payloads, checksum, EMPTY rows. -/
def blockRows (F : RowFormat T) (l : List T) (c : F.Checksum) (j : Nat) : Row F.Body :=
  match l[j]? with
  | some p => F.payloadRow p
  | none => if j = l.length then F.checksumRow c else F.blankRow

theorem perBlock_pos : 0 < perBlock K := by
  have := K.two_le
  unfold perBlock
  omega

theorem perBlock_add_one : perBlock K + 1 = K.RecCount := by
  have := K.two_le
  unfold perBlock
  omega

theorem succ_div_mod {m : Nat} (hm : 0 < m) (n : Nat) :
    (n % m + 1 = m ∧ (n + 1) / m = n / m + 1 ∧ (n + 1) % m = 0) ∨
      (n % m + 1 < m ∧ (n + 1) / m = n / m ∧ (n + 1) % m = n % m + 1) := by
  have hlt := Nat.mod_lt n hm
  have hn := Nat.div_add_mod n m
  rcases Nat.lt_or_ge (n % m + 1) m with h | h
  · refine .inr ⟨h, ?_, ?_⟩
    · rw [← hn, Nat.add_assoc, Nat.mul_add_div hm, Nat.div_eq_of_lt h,
        Nat.mul_add_div hm, Nat.div_eq_of_lt hlt]
    · conv_lhs => rw [← hn, Nat.add_assoc, Nat.mul_add_mod, Nat.mod_eq_of_lt h]
  · have he : n % m + 1 = m := by omega
    refine .inl ⟨he, ?_, ?_⟩
    · rw [← hn, Nat.add_assoc, he, Nat.mul_add_div hm, Nat.div_self hm,
        Nat.mul_add_div hm, Nat.div_eq_of_lt hlt]
    · conv_lhs => rw [← hn, Nat.add_assoc, he, Nat.mul_add_mod, Nat.mod_self]

/-- `rec_count % RecCount` says how far the last block is filled. -/
theorem rowCount_mod (n : Nat) :
    rowCount K n % K.RecCount = if n % perBlock K = 0 then 0 else n % perBlock K + 1 := by
  have hlt := Nat.mod_lt n (perBlock_pos K)
  have hn := Nat.div_add_mod n (perBlock K)
  have hN := perBlock_add_one K
  unfold rowCount blockCount
  split
  · rename_i h
    have : n + (n / perBlock K + 0) = K.RecCount * (n / perBlock K) := by
      rw [← hN, Nat.add_mul, Nat.one_mul, Nat.add_zero]
      omega
    rw [this, Nat.mul_mod_right]
  · have : n + (n / perBlock K + 1) = K.RecCount * (n / perBlock K) + (n % perBlock K + 1) := by
      rw [← hN, Nat.add_mul, Nat.one_mul]
      omega
    rw [this, Nat.mul_add_mod, Nat.mod_eq_of_lt (by omega)]

theorem blockCount_succ (n : Nat) :
    blockCount K (n + 1) = if n % perBlock K = 0 then blockCount K n + 1 else blockCount K n := by
  unfold blockCount
  rcases succ_div_mod (perBlock_pos K) n with ⟨h, hd, hm⟩ | ⟨h, hd, hm⟩ <;>
    rw [hd, hm] <;> split <;> simp_all

theorem chunk_length (ps : List T) : (chunk K ps (ps.length / perBlock K)).length
    = ps.length % perBlock K := by
  have hlt := Nat.mod_lt ps.length (perBlock_pos K)
  have hn := Nat.div_add_mod' ps.length (perBlock K)
  simp only [chunk, List.length_take, List.length_drop]
  omega

theorem chunk_snoc (ps : List T) (p : T) :
    chunk K (ps ++ [p]) (ps.length / perBlock K) = chunk K ps (ps.length / perBlock K) ++ [p] := by
  have hlt := Nat.mod_lt ps.length (perBlock_pos K)
  have hn := Nat.div_add_mod' ps.length (perBlock K)
  unfold chunk
  have hd : (ps ++ [p]).drop (ps.length / perBlock K * perBlock K)
      = ps.drop (ps.length / perBlock K * perBlock K) ++ [p] :=
    List.drop_append_of_le_length (by omega)
  have hl : (ps.drop (ps.length / perBlock K * perBlock K)).length < perBlock K := by
    simp only [List.length_drop]
    omega
  rw [hd, List.take_of_length_le (by rw [List.length_append]; exact hl),
    List.take_of_length_le (Nat.le_of_lt hl)]

variable {b j N n i : Nat} {l ps : List T} {c : F.Checksum} {p : T} {e : Entry F.Body}
  {rs : Nat → Row F.Body} {s s' : Blockchain F} {d : TileDesc F.Body F.Checksum}
  {t : Tile F.Body F.Checksum}

theorem chunk_append_of_ne (ps : List T) (p : T) (hb : b ≠ ps.length / perBlock K) :
    chunk K (ps ++ [p]) b = chunk K ps b := by
  have hlt := Nat.mod_lt ps.length (perBlock_pos K)
  have hn := Nat.div_add_mod' ps.length (perBlock K)
  unfold chunk
  rcases Nat.lt_or_gt_of_ne hb with hb | hb
  · have hmul := Nat.mul_le_mul_right (perBlock K) (Nat.succ_le_of_lt hb)
    rw [Nat.succ_mul] at hmul
    rw [List.drop_append_of_le_length (by omega),
      List.take_append_of_le_length (by simp only [List.length_drop]; omega)]
  · have hmul := Nat.mul_le_mul_right (perBlock K) (Nat.succ_le_of_lt hb)
    rw [Nat.succ_mul] at hmul
    rw [List.drop_eq_nil_of_le (by simp; omega), List.drop_eq_nil_of_le (by omega)]

/-! ## The rows of a block -/

theorem blockRows_payload (h : l[j]? = some p) : blockRows F l c j = F.payloadRow p := by
  simp [blockRows, h]

theorem blockRows_middle (pre rest : List T) (r : T) (c : F.Checksum) :
    blockRows F (pre ++ r :: rest) c pre.length = F.payloadRow r := by
  apply blockRows_payload
  rw [List.getElem?_append_right (Nat.le_refl _), Nat.sub_self]
  rfl

@[simp] theorem blockRows_length (l : List T) (c : F.Checksum) :
    blockRows F l c l.length = F.checksumRow c := by
  simp [blockRows]

theorem blockRows_blank (h : l.length < j) : blockRows F l c j = F.blankRow := by
  have : l[j]? = none := List.getElem?_eq_none (Nat.le_of_lt h)
  simp [blockRows, this, Nat.ne_of_gt h]

/-- `append`'s two writes turn the rows of `l` into the rows of `l ++ [p]`. -/
theorem blockRows_snoc (l : List T) (c c' : F.Checksum) (p : T) :
    update (update (blockRows F l c) l.length (F.payloadRow p))
      (l.length + 1) (F.checksumRow c') = blockRows F (l ++ [p]) c' := by
  funext j
  rcases Nat.lt_trichotomy j l.length with h | h | h
  · rw [update_of_ne (by omega), update_of_ne (by omega)]
    have hs : l[j]? = some l[j] := List.getElem?_eq_getElem h
    have hs' : (l ++ [p])[j]? = some l[j] := by rw [List.getElem?_append_left h, hs]
    rw [blockRows_payload hs, blockRows_payload hs']
  · subst h
    rw [update_of_ne (by omega), update_self]
    exact (blockRows_payload (by simp)).symm
  · by_cases hj : j = l.length + 1
    · subst hj
      rw [update_self]
      have := blockRows_length (l ++ [p]) c'
      simpa using this.symm
    · rw [update_of_ne hj, update_of_ne (by omega), blockRows_blank h,
        blockRows_blank (by simp; omega)]

/-- The rows of all blocks, with one more payload in the last one. -/
theorem blockRows_chunk_snoc {q : Nat} (hq : q = ps.length / perBlock K)
    (cs : Nat → F.Checksum) (p : T) (c : F.Checksum) :
    (fun b => blockRows F (chunk K (ps ++ [p]) b) (update cs (ps.length / perBlock K) c b))
      = update (fun b => blockRows F (chunk K ps b) (cs b)) q
          (blockRows F (chunk K ps (ps.length / perBlock K) ++ [p]) c) := by
  subst hq
  funext b
  by_cases hb : b = ps.length / perBlock K
  · rw [hb, update_self, update_self, chunk_snoc]
  · rw [update_of_ne hb, update_of_ne hb, chunk_append_of_ne K ps p hb]

/-- A fresh buffer with its first two rows set. -/
theorem freshBuffer_first (p : T) (c : F.Checksum) :
    update (update (freshBuffer F.zeroBody) 0 (F.payloadRow p)) 1
      (F.checksumRow c) = blockRows F [p] c := by
  funext j
  match j with
  | 0 => rfl
  | 1 => rfl
  | j + 2 =>
    rw [update_of_ne (by omega), update_of_ne (by omega),
      blockRows_blank (by simp)]
    rfl

/-! ## What is on disk -/

/-- The rows of a file. -/
def fileRows {Body : Type} : Entry Body → List (Row Body)
  | .regular f => (List.range f.len).map f.rows
  | _ => []

/-- The PAYLOAD rows of a file. -/
def payloadRows (F : RowFormat T) (e : Entry F.Body) : List (Row F.Body) :=
  (fileRows e).filter fun r => r.type == RecordType.payload

/-- What its CHECKSUM rows hold. -/
def checksums (F : RowFormat T) (e : Entry F.Body) : List F.Checksum :=
  ((fileRows e).filter fun r => r.type == RecordType.checksum).map fun r => F.checksum r.body

theorem fileRows_stores (h : Stores N e rs) : fileRows e = (List.range N).map rs := by
  obtain ⟨f, rfl, hlen, -, -, -, hro⟩ := h
  rw [fileRows, hlen]
  exact List.map_congr_left fun i hi => hro i (List.mem_range.mp hi)

theorem fileRows_getElem? (h : Stores N e rs) (hj : j < N) : (fileRows e)[j]? = some (rs j) := by
  rw [fileRows_stores h, List.getElem?_map, List.getElem?_range hj]
  rfl

theorem map_blockRows (hl : l.length < N) : (List.range N).map (blockRows F l c)
      = l.map F.payloadRow ++ F.checksumRow c :: List.replicate (N - l.length - 1) F.blankRow := by
  apply List.ext_getElem
  · simp
    omega
  · intro j hj _
    rw [List.getElem_map, List.getElem_range]
    rcases Nat.lt_trichotomy j l.length with h | h | h
    · rw [blockRows_payload (List.getElem?_eq_getElem h)]
      simp [List.getElem_append_left, h]
    · subst h
      simp
    · rw [blockRows_blank h, List.getElem_append_right (by simp; omega)]
      obtain ⟨i, hi⟩ : ∃ i, j - l.length = i + 1 := ⟨j - l.length - 1, by omega⟩
      simp [hi]

theorem payloadRows_stores (h : Stores N e (blockRows F l c)) (hl : l.length < N) :
    payloadRows F e = l.map F.payloadRow := by
  rw [payloadRows, fileRows_stores h, map_blockRows hl, List.filter_append, List.filter_cons,
    List.filter_eq_self.mpr (by simp), List.filter_eq_nil_iff.mpr]
  · simp [RecordType.payload, RecordType.checksum]
  · intro r hr
    rw [List.eq_of_mem_replicate hr]
    simp [RecordType.payload, RecordType.empty]

theorem checksums_stores
    (h : Stores N e (blockRows F l c)) (hl : l.length < N) : checksums F e = [c] := by
  rw [checksums, fileRows_stores h, map_blockRows hl, List.filter_append, List.filter_cons,
    List.filter_eq_nil_iff.mpr, List.filter_eq_nil_iff.mpr]
  · simp
  · intro r hr
    rw [List.eq_of_mem_replicate hr]
    simp [RecordType.checksum, RecordType.empty]
  · intro r hr
    obtain ⟨p, -, rfl⟩ := List.mem_map.mp hr
    simp [RecordType.payload, RecordType.checksum]

theorem chunk_length_lt (ps : List T) (b : Nat) : (chunk K ps b).length < K.RecCount := by
  have := perBlock_add_one K
  simp only [chunk, List.length_take]
  omega

/-- The first blocks together have the first payloads. -/
theorem flatMap_chunk (ps : List T) (n : Nat) :
    (List.range n).flatMap (chunk K ps) = ps.take (n * perBlock K) := by
  induction n with
  | zero => simp
  | succ n ih =>
    rw [List.range_succ, List.flatMap_append, ih, Nat.add_mul, Nat.one_mul, List.take_add]
    simp [chunk]

theorem drop_chunk (ps : List T) (b : Nat) :
    ps.drop (b * perBlock K) = chunk K ps b ++ ps.drop ((b + 1) * perBlock K) := by
  rw [chunk, Nat.add_mul, Nat.one_mul, ← List.drop_drop, List.take_append_drop]

/-! ## How many blocks, and how full -/

variable {K}

theorem chunk_length_eq (K : Params) (ps : List T) (b : Nat) :
    (chunk K ps b).length = min (perBlock K) (ps.length - b * perBlock K) := by
  rw [chunk, List.length_take, List.length_drop]

theorem blockCount_pos (K : Params) (hn : 0 < n) : 0 < blockCount K n := by
  rw [blockCount]
  split
  · rename_i hmod
    exact Nat.div_pos (Nat.le_of_dvd hn (Nat.dvd_of_mod_eq_zero hmod)) (perBlock_pos K)
  · exact Nat.succ_pos _

theorem rowCount_le (K : Params) (n : Nat) : rowCount K n ≤ blockCount K n * K.RecCount := by
  have hn := Nat.div_add_mod' n (perBlock K)
  have hlt := Nat.mod_lt n (perBlock_pos K)
  have hper := perBlock_add_one K
  rw [rowCount, ← hper, Nat.mul_add, Nat.mul_one]
  refine Nat.add_le_add_right ?_ _
  rw [blockCount]
  split
  · rw [Nat.add_zero]
    omega
  · rw [Nat.add_mul, Nat.one_mul]
    omega

theorem lt_blockCount (h : (chunk K ps b)[j]? = some p) : b < blockCount K ps.length := by
  obtain ⟨hj, -⟩ := List.getElem?_eq_some_iff.mp h
  have hle := rowCount_le K ps.length
  rw [rowCount, ← perBlock_add_one K, Nat.mul_add, Nat.mul_one] at hle
  rw [chunk_length_eq] at hj
  exact Nat.lt_of_mul_lt_mul_right (a := perBlock K) (by omega)

theorem blockCount_eq_one (hpos : 0 < n) (hn : n < perBlock K) : blockCount K n = 1 := by
  rw [blockCount, Nat.div_eq_of_lt hn, Nat.mod_eq_of_lt hn, if_neg (Nat.ne_of_gt hpos)]

theorem chunk_full (hb : b + 1 < blockCount K ps.length) : (chunk K ps b).length = perBlock K := by
  have hle : b + 1 ≤ ps.length / perBlock K := by
    rw [blockCount] at hb
    split at hb <;> omega
  have hmul := (Nat.le_div_iff_mul_le (perBlock_pos K)).mp hle
  rw [Nat.add_mul, Nat.one_mul] at hmul
  rw [chunk_length_eq]
  omega

theorem chunk_last (hb : b + 1 = blockCount K ps.length) :
    0 < (chunk K ps b).length ∧ K.RecCount * b + ((chunk K ps b).length + 1) = rowCount K ps.length := by
  have hpos := perBlock_pos K
  have hn := Nat.div_add_mod' ps.length (perBlock K)
  have hlt := Nat.mod_lt ps.length hpos
  rw [rowCount, ← hb, chunk_length_eq, ← perBlock_add_one K, Nat.add_mul, Nat.one_mul,
    Nat.mul_comm (perBlock K) b]
  rw [blockCount] at hb
  split at hb
  · have hmul : ps.length / perBlock K * perBlock K = b * perBlock K + perBlock K := by
      rw [← Nat.succ_mul, Nat.succ_eq_add_one, hb, Nat.add_zero]
    omega
  · have hmul : ps.length / perBlock K * perBlock K = b * perBlock K := by
      rw [Nat.add_right_cancel hb]
    omega

/-! ## Calls, one tile operation at a time -/

theorem onTile_ok {α : Type}
    (f : Tile F.Body F.Checksum → α × Tile F.Body F.Checksum) (h : s.tiles[i]? = some d) :
    onTile i f s = .ok (f ⟨s.disk i, d⟩).1 (s.putTile i (f ⟨s.disk i, d⟩).2) := by
  rw [onTile, get_bind, h]
  rfl

theorem onTile_returns {α : Type}
    {f : Tile F.Body F.Checksum → α × Tile F.Body F.Checksum} {Q : α → Blockchain F → Prop}
    (h : s.tiles[i]? = some d)
    (hQ : Q (f ⟨s.disk i, d⟩).1 (s.putTile i (f ⟨s.disk i, d⟩).2)) : Returns (onTile i f) s Q :=
  ⟨_, _, onTile_ok f h, hQ⟩

theorem onTile_outside {α : Type}
    (f : Tile F.Body F.Checksum → α × Tile F.Body F.Checksum) (h : s.tiles.length ≤ i) :
    onTile i f s = .error (.thrown "TileFile: index too large") s := by
  rw [onTile, get_bind, List.getElem?_eq_none h]
  rfl

theorem onTile_inv {α : Type}
    {f : Tile F.Body F.Checksum → α × Tile F.Body F.Checksum} {a : α}
    (h : onTile i f s = .ok a s') :
    ∃ d, s.tiles[i]? = some d ∧ a = (f ⟨s.disk i, d⟩).1 ∧ s' = s.putTile i (f ⟨s.disk i, d⟩).2 := by
  cases hd : s.tiles[i]? with
  | none =>
    rw [onTile_outside f (List.getElem?_eq_none_iff.mp hd)] at h
    cases h
  | some d =>
    rw [onTile_ok f hd] at h
    cases h
    exact ⟨d, rfl, rfl, rfl⟩

theorem putTile_tiles (hi : i < s.tiles.length) :
    (s.putTile i t).tiles[j]? = if j = i then some t.desc else s.tiles[j]? := by
  simp only [putTile, List.getElem?_set, hi, if_true]
  by_cases h : i = j
  · simp [h]
  · simp [h, Ne.symm h]

@[simp] theorem putTile_length (s : Blockchain F) (i : Nat) (t : Tile F.Body F.Checksum) :
    (s.putTile i t).tiles.length = s.tiles.length := by
  simp [putTile]

@[simp] theorem putTile_putTile (s : Blockchain F) (i : Nat) (t t' : Tile F.Body F.Checksum) :
    (s.putTile i t).putTile i t' = s.putTile i t' := by
  simp [putTile]

theorem putTile_self (h : s.tiles[i]? = some d) : s.putTile i ⟨s.disk i, d⟩ = s := by
  obtain ⟨hi, rfl⟩ := List.getElem?_eq_some_iff.mp h
  simp [putTile]

theorem onTile_putTile {α : Type} (hi : i < s.tiles.length)
    (t : Tile F.Body F.Checksum) (f : Tile F.Body F.Checksum → α × Tile F.Body F.Checksum) :
    onTile i f (s.putTile i t) = .ok (f t).1 (s.putTile i (f t).2) := by
  have hd : (s.putTile i t).tiles[i]? = some t.desc := by simp [putTile, hi]
  have ht : (⟨(s.putTile i t).disk i, t.desc⟩ : Tile F.Body F.Checksum) = t := by simp [putTile]
  rw [onTile_ok f hd, ht, putTile_putTile]

theorem putTile_disk (s : Blockchain F) (i j : Nat) (t : Tile F.Body F.Checksum) :
    (s.putTile i t).disk j = if j = i then t.entry else s.disk j := by
  simp only [putTile, update_apply]

theorem lastIndex_eq (h : 0 < s.tiles.length) : s.lastIndex = s.tiles.length - 1 := by
  simp [lastIndex, Nat.ne_of_gt h]

/-- The descriptor of the last tile. -/
def lastDesc (s : Blockchain F) : Option (TileDesc F.Body F.Checksum) :=
  s.tiles[s.tiles.length - 1]?

theorem putTile_lastDesc (hi : i < s.tiles.length) :
    (s.putTile i t).lastDesc = if s.tiles.length - 1 = i then some t.desc else s.lastDesc := by
  rw [lastDesc, putTile_length, putTile_tiles hi, lastDesc]

/-- Paths that have no tile after a call are as they were before it. -/
def Untouched (s s' : Blockchain F) : Prop :=
  ∀ b, s'.tiles.length ≤ b → s'.disk b = s.disk b

theorem Untouched.refl (s : Blockchain F) : Untouched s s := fun _ _ => rfl

theorem Untouched.trans {s₁ s₂ s₃ : Blockchain F} (h : Untouched s₁ s₂) (h' : Untouched s₂ s₃)
    (hlen : s₂.tiles.length ≤ s₃.tiles.length) : Untouched s₁ s₃ :=
  fun b hb => (h' b hb).trans (h b (Nat.le_trans hlen hb))

theorem putTile_untouched (hi : i < s.tiles.length)
    (t : Tile F.Body F.Checksum) : Untouched s (s.putTile i t) := by
  intro b hb
  rw [putTile_length] at hb
  rw [putTile_disk, if_neg (by omega)]

/-- Every tile is in order; block `b` has the rows `rs b`. -/
def Tiled (K : Params) (s : Blockchain F) (rs : Nat → Nat → Row F.Body) : Prop :=
  ∀ b d, s.tiles[b]? = some d → Synced K.RecCount ⟨s.disk b, d⟩ (rs b)

/-! ## The chain of a list of payloads -/

/-- `s` is a chain of the payloads `ps`; block `b` ends with the checksum `cs b`. -/
structure Holds (K : Params) (s : Blockchain F) (ps : List T) (cs : Nat → F.Checksum) :
    Prop where
  recCount_eq : s.recCount = rowCount K ps.length
  tiles_length : s.tiles.length = blockCount K ps.length
  valid_eq : s.checksumValidBlockCount = s.tiles.length
  tile : ∀ b d, s.tiles[b]? = some d →
    Synced K.RecCount ⟨s.disk b, d⟩ (blockRows F (chunk K ps b) (cs b))
  tail : ∀ d, s.lastDesc = some d → d.fetchedData.isSome

variable {cs : Nat → F.Checksum}

theorem holds_nil (htl : s.tiles = []) (hrec : s.recCount = 0)
    (hva : s.checksumValidBlockCount = 0) (cs : Nat → F.Checksum) : Holds K s [] cs where
  recCount_eq := by simp [hrec, rowCount, blockCount]
  tiles_length := by simp [htl, blockCount]
  valid_eq := by simp [htl, hva]
  tile := by intro b d hd; simp [htl] at hd
  tail := by intro d hd; simp [lastDesc, htl] at hd

theorem Tiled.putTile {rs : Nat → Nat → Row F.Body} (h : Tiled K s rs)
    (hb : b < s.tiles.length) {rs' : Nat → Row F.Body}
    (ht : Synced K.RecCount t rs') : Tiled K (s.putTile b t) (update rs b rs') := by
  intro j d hd
  rw [putTile_tiles hb] at hd
  rw [putTile_disk]
  by_cases hj : j = b
  · rw [if_pos hj] at hd ⊢
    cases hd
    rw [hj, update_self]
    exact ht
  · rw [if_neg hj] at hd ⊢
    rw [update_of_ne hj]
    exact h j d hd

theorem Holds.putTile (h : Holds K s ps cs) (hb : b < s.tiles.length)
    (ht : Synced K.RecCount t (blockRows F (chunk K ps b) (cs b)))
    (hda : b = s.tiles.length - 1 → t.desc.fetchedData.isSome) :
    Holds K (s.putTile b t) ps cs where
  recCount_eq := h.recCount_eq
  tiles_length := by rw [putTile_length]; exact h.tiles_length
  valid_eq := by rw [putTile_length]; exact h.valid_eq
  tile := by
    have hput := Tiled.putTile h.tile hb ht
    rwa [update_eq_self b fun b => blockRows F (chunk K ps b) (cs b)] at hput
  tail := by
    intro d hd
    rw [putTile_lastDesc hb] at hd
    by_cases hj : s.tiles.length - 1 = b
    · rw [if_pos hj] at hd
      cases hd
      exact hda hj.symm
    · rw [if_neg hj] at hd
      exact h.tail d hd

theorem Holds.desc (h : Holds K s ps cs) (hb : b < s.tiles.length) : ∃ d, s.tiles[b]? = some d ∧
      Synced K.RecCount ⟨s.disk b, d⟩ (blockRows F (chunk K ps b) (cs b)) :=
  ⟨_, List.getElem?_eq_getElem hb, h.tile b _ (List.getElem?_eq_getElem hb)⟩

theorem Holds.payloadRows_eq (h : Holds K s ps cs) (hb : b < s.tiles.length) :
    payloadRows F (s.disk b) = (chunk K ps b).map F.payloadRow := by
  obtain ⟨d, -, hsy⟩ := h.desc hb
  exact payloadRows_stores hsy.1 (chunk_length_lt K ps b)

/-- The last block ends where the payloads end. -/
theorem Holds.length_le (h : Holds K s ps cs) : ps.length ≤ s.tiles.length * perBlock K := by
  have hle := rowCount_le K ps.length
  rw [rowCount, ← perBlock_add_one K, Nat.mul_add, Nat.mul_one] at hle
  rw [h.tiles_length]
  omega

/-! ## Flushing -/

theorem flushCache_tiles (now b : Nat) : (flushCache K now s).tiles[b]? =
      s.tiles[b]?.map (flushDesc s.tiles.length (flushVictims K s.tiles) b) := by
  unfold flushCache
  split
  · rename_i h0
    have : s.tiles = [] := List.length_eq_zero_iff.mp h0
    simp [this]
  · simp

theorem flushCache_frame (now : Nat) :
    (flushCache K now s).disk = s.disk ∧ (flushCache K now s).recCount = s.recCount ∧
      (flushCache K now s).checksumValidBlockCount = s.checksumValidBlockCount ∧
      (flushCache K now s).tiles.length = s.tiles.length := by
  unfold flushCache
  split <;> simp

theorem flushCache_lastDesc (now : Nat) : (flushCache K now s).lastDesc = s.lastDesc := by
  rw [lastDesc, (flushCache_frame now).2.2.2, flushCache_tiles, lastDesc]
  cases s.tiles[s.tiles.length - 1]? with
  | none => rfl
  | some d => simp [flushDesc]

theorem flushCache_tiled {rs : Nat → Nat → Row F.Body} (h : Tiled K s rs) (now : Nat) :
    Tiled K (flushCache K now s) rs := by
  intro b d hd
  rw [flushCache_tiles] at hd
  obtain ⟨d₀, hd₀, rfl⟩ := Option.map_eq_some_iff.mp hd
  have hs := h b d₀ hd₀
  rw [(flushCache_frame now).1]
  unfold flushDesc
  split
  · exact ⟨hs.1, .inl rfl⟩
  · exact hs

theorem flushCache_holds (h : Holds K s ps cs) (now : Nat) :
    Holds K (flushCache K now s) ps cs := by
  obtain ⟨-, hrec, hva, hlen⟩ := flushCache_frame now
  refine ⟨by rw [hrec]; exact h.recCount_eq, by rw [hlen]; exact h.tiles_length,
    by rw [hva, hlen]; exact h.valid_eq, flushCache_tiled h.tile now, ?_⟩
  intro d hd
  rw [flushCache_lastDesc] at hd
  exact h.tail d hd

theorem Tiled.flush {rs : Nat → Nat → Row F.Body} (h : Tiled K s rs) (now : Nat) :
    Tiled K (maybeFlushCache K now s) rs := by
  unfold maybeFlushCache
  split
  · exact flushCache_tiled h now
  · exact h

/-- A descriptor after `maybe_flush_cache`: closed in a flush, or the one there was. -/
theorem maybeFlushCache_desc {now : Nat} {d' : TileDesc F.Body F.Checksum}
    (hd' : (maybeFlushCache K now s).tiles[b]? = some d') :
    ∃ d, s.tiles[b]? = some d ∧ ((d'.fileHandle = none ∧ d'.state = .ok) ∨
      (d' = d ∧ ¬ (s.nextCacheFlushTimestamp < now ∧ b + 1 < s.tiles.length))) := by
  unfold maybeFlushCache at hd'
  split at hd'
  · rw [flushCache_tiles] at hd'
    obtain ⟨d, hd, rfl⟩ := Option.map_eq_some_iff.mp hd'
    refine ⟨d, hd, ?_⟩
    unfold flushDesc
    split
    · exact .inl ⟨rfl, rfl⟩
    · exact .inr ⟨rfl, by omega⟩
  · exact ⟨d', hd', .inr ⟨rfl, by omega⟩⟩

theorem maybeFlushCache_holds (h : Holds K s ps cs) (now : Nat) :
    Holds K (maybeFlushCache K now s) ps cs := by
  unfold maybeFlushCache
  split
  · exact flushCache_holds h now
  · exact h

theorem maybeFlushCache_frame (now : Nat) :
    (maybeFlushCache K now s).disk = s.disk ∧ (maybeFlushCache K now s).recCount = s.recCount ∧
      (maybeFlushCache K now s).checksumValidBlockCount = s.checksumValidBlockCount ∧
      (maybeFlushCache K now s).tiles.length = s.tiles.length ∧
      (maybeFlushCache K now s).lastDesc = s.lastDesc := by
  unfold maybeFlushCache
  split
  · obtain ⟨hdi, hrec, hva, hlen⟩ := flushCache_frame now
    exact ⟨hdi, hrec, hva, hlen, flushCache_lastDesc now⟩
  · exact ⟨rfl, rfl, rfl, rfl, rfl⟩

/-! ## Reading a block -/

/-- The descriptor after `get_block` has read the file again. -/
def readDesc (K : Params) (e : Entry F.Body) (d : TileDesc F.Body F.Checksum) :
    TileDesc F.Body F.Checksum :=
  (Tile.getTileData (Tile.syncFromFile K.RecCount F.zeroBody true ⟨e, d⟩).2).2.desc

/-- `get_block` on a tile in order: it returns the rows of the file, whatever was cached,
and leaves the tile in order with these rows in its buffer. -/
theorem getBlock_tile {now : Nat} (hd : (maybeFlushCache K now s).tiles[b]? = some d)
    (hsy : Synced K.RecCount ⟨s.disk b, d⟩ rs) :
    ∃ data t, getBlock K b now s = .ok (some data, .ok) ((maybeFlushCache K now s).putTile b t) ∧
      (∀ j < K.RecCount, data j = rs j) ∧ t.entry = s.disk b ∧
      t.desc = readDesc K (s.disk b) d ∧ t.desc.fetchedData = some data ∧ t.desc.state = .ok ∧
      Synced K.RecCount t rs := by
  obtain ⟨hdi, -⟩ := maybeFlushCache_frame now
  obtain ⟨he, -, -, hh, data, hda, hro⟩ := syncFromFile_synced true hsy
  let t := (Tile.syncFromFile K.RecCount F.zeroBody true ⟨s.disk b, d⟩).2
  have hget : Tile.getTileData t = (some data, t.setState .ok) := Prod.ext hda rfl
  refine ⟨data, t.setState .ok, ?_, hro, he, rfl, hda, rfl,
    ⟨by show Stores K.RecCount t.entry _; rw [he]; exact hsy.1, .inr (.inr ⟨hh, data, hda, hro⟩)⟩⟩
  unfold getBlock
  rw [modify_bind, bind_eq (onTile_ok _ hd), hdi,
    bind_eq (onTile_putTile (List.getElem?_eq_some_iff.mp hd).1 t _), hget]
  rfl

/-- `get_block` returns the rows the chain holds, whatever was cached. -/
theorem getBlock_holds (h : Holds K s ps cs) (hb : b < s.tiles.length) (now : Nat) :
    Returns (getBlock K b now) s fun r s' =>
      (∃ rows, r = (some rows, .ok) ∧
        ∀ j < K.RecCount, rows j = blockRows F (chunk K ps b) (cs b) j) ∧
      Holds K s' ps cs ∧ Untouched s s' ∧
      s'.lastDesc = if s.tiles.length - 1 = b then s.lastDesc.map (readDesc K (s.disk b))
        else s.lastDesc := by
  have hf := maybeFlushCache_holds h now
  obtain ⟨hdi, -, -, hlen, hla⟩ := maybeFlushCache_frame now
  have hb₁ : b < (maybeFlushCache K now s).tiles.length := by
    rw [hlen]
    exact hb
  obtain ⟨d, hd, hsy⟩ := hf.desc hb₁
  rw [hdi] at hsy
  obtain ⟨data, t, heq, hro, -, hde, hca, -, ht⟩ := getBlock_tile hd hsy
  have hun : Untouched s (maybeFlushCache K now s) := fun b _ => by rw [hdi]
  refine ⟨_, _, heq, ⟨data, rfl, hro⟩, hf.putTile hb₁ ht (fun _ => by rw [hca]; rfl),
    hun.trans (putTile_untouched hb₁ _) (by simp), ?_⟩
  rw [putTile_lastDesc hb₁, hlen, hla]
  by_cases hbl : s.tiles.length - 1 = b
  · rw [if_pos hbl, if_pos hbl, ← hla, lastDesc, hlen, hbl, hd, hde]
    rfl
  · rw [if_neg hbl, if_neg hbl]

theorem getBlock_outside (h : Holds K s ps cs) (hb : s.tiles.length ≤ b) (now : Nat) :
    ∃ s', getBlock K b now s = .error (.thrown "TileFile: index too large") s' ∧
      Holds K s' ps cs ∧ Untouched s s' ∧ s'.lastDesc = s.lastDesc := by
  obtain ⟨hdi, -, -, hlen, hla⟩ := maybeFlushCache_frame now
  refine ⟨maybeFlushCache K now s, ?_, maybeFlushCache_holds h now, fun b _ => by rw [hdi], hla⟩
  have := onTile_outside (fun t => t.syncFromFile K.RecCount F.zeroBody true)
    (s := maybeFlushCache K now s) (i := b) (by omega)
  show EStateM.bind _ _ (maybeFlushCache K now s) = _
  simp only [EStateM.bind, this]

/-! ## Appending -/

/-- The checksum `append` continues from: `TileSup` of the last tile at a block
boundary, the cached copy of the last checksum row inside a block. -/
def usedChecksum (K : Params) (s : Blockchain F) : F.Checksum :=
  match s.lastDesc with
  | none => F.zero
  | some d =>
    if s.recCount % K.RecCount = 0 then d.sup
    else
      match d.fetchedData with
      | none => F.zero
      | some data => F.checksum (data (s.recCount % K.RecCount - 1)).body

/-- The checksums of the blocks after an `append`. -/
def nextChecksums (K : Params) (s : Blockchain F) (ps : List T) (cs : Nat → F.Checksum) (p : T) :
    Nat → F.Checksum :=
  update cs (ps.length / perBlock K) (F.calcChecksum (usedChecksum K s) (F.payloadRow p))

/-- The descriptor of the last tile after an `append`. -/
def nextDesc (K : Params) (s : Blockchain F) (p : T) : TileDesc F.Body F.Checksum :=
  match s.lastDesc with
  | some d =>
    if s.recCount % K.RecCount = 0 then newDesc
    else { d with fileHandle := some 0, state := .ok }
  | none => newDesc
where
  newDesc : TileDesc F.Body F.Checksum :=
    { state := .ok
      fetchedData := some (blockRows F [p] (F.calcChecksum (usedChecksum K s) (F.payloadRow p)))
      fileHandle := some K.RecCount
      sup := F.zero
      lastUse := 0 }

/-- The chain with one more tile. -/
def withTail (s : Blockchain F) (t : Tile F.Body F.Checksum) : Blockchain F :=
  { s with disk := update s.disk s.tiles.length t.entry, tiles := s.tiles ++ [t.desc] }

theorem appendTile_eq (s : Blockchain F) :
    appendTile s = s.withTail ⟨s.disk s.tiles.length, reset F.zero .ok⟩ := by
  simp [appendTile, withTail]

theorem onTile_withTail {α : Type} (t : Tile F.Body F.Checksum)
    (f : Tile F.Body F.Checksum → α × Tile F.Body F.Checksum) :
    onTile s.tiles.length f (s.withTail t) = .ok (f t).1 (s.withTail (f t).2) := by
  have hd : (s.withTail t).tiles[s.tiles.length]? = some t.desc := by simp [withTail]
  have ht : (⟨(s.withTail t).disk s.tiles.length, t.desc⟩ : Tile F.Body F.Checksum) = t := by
    simp [withTail]
  rw [onTile_ok f hd, ht]
  simp [putTile, withTail]

theorem updTile_withTail (t : Tile F.Body F.Checksum)
    (f : Tile F.Body F.Checksum → Tile F.Body F.Checksum) :
    updTile s.tiles.length f (s.withTail t) = .ok () (s.withTail (f t)) :=
  onTile_withTail t _

theorem Tiled.withTail {rs : Nat → Nat → Row F.Body} (h : Tiled K s rs)
    {rs' : Nat → Row F.Body} (ht : Synced K.RecCount t rs') :
    Tiled K (s.withTail t) (update rs s.tiles.length rs') := by
  intro b d hd
  have hlt := (List.getElem?_eq_some_iff.mp hd).1
  simp only [Blockchain.withTail, List.length_append, List.length_singleton] at hlt
  by_cases hb : b = s.tiles.length
  · subst hb
    simp only [Blockchain.withTail, List.getElem?_append_right (Nat.le_refl _), Nat.sub_self,
      List.getElem?_cons_zero, Option.some.injEq] at hd
    subst hd
    simp only [Blockchain.withTail, update_self]
    exact ht
  · simp only [Blockchain.withTail, update_of_ne hb] at hd ⊢
    rw [List.getElem?_append_left (by omega)] at hd
    exact h b d hd

theorem Holds.withTail (h : Holds K s ps cs) (hfull : ps.length % perBlock K = 0)
    (ht : Synced K.RecCount t (blockRows F [p] c))
    (hda : t.desc.fetchedData.isSome) :
    Holds K { s.withTail t with
        recCount := s.recCount + 2
        checksumValidBlockCount := s.checksumValidBlockCount + 1 }
      (ps ++ [p]) (update cs (ps.length / perBlock K) c) := by
  have hq : s.tiles.length = ps.length / perBlock K := by
    rw [h.tiles_length, blockCount, if_pos hfull, Nat.add_zero]
  have hch : chunk K ps (ps.length / perBlock K) ++ [p] = [p] := by
    rw [List.eq_nil_of_length_eq_zero ((chunk_length K ps).trans hfull), List.nil_append]
  have hlen : (s.withTail t).tiles.length = s.tiles.length + 1 := by simp [Blockchain.withTail]
  rw [← hch] at ht
  have hta := Tiled.withTail h.tile ht
  rw [← blockRows_chunk_snoc K hq] at hta
  refine ⟨?_, ?_, ?_, hta, ?_⟩
  · show s.recCount + 2 = _
    rw [h.recCount_eq, rowCount, rowCount, List.length_append, List.length_singleton,
      blockCount_succ, if_pos hfull]
    omega
  · rw [hlen, h.tiles_length, List.length_append, List.length_singleton, blockCount_succ,
      if_pos hfull]
  · show s.checksumValidBlockCount + 1 = _
    rw [hlen, h.valid_eq]
  · intro d hd
    have : t.desc = d := by simpa [lastDesc, Blockchain.withTail] using hd
    rw [← this]
    exact hda

/-- The object with its last tile closed. -/
structure ClosedLast (s s' : Blockchain F) : Prop where
  disk_eq : s'.disk = s.disk
  length_eq : s'.tiles.length = s.tiles.length
  recCount_eq : s'.recCount = s.recCount
  valid_eq : s'.checksumValidBlockCount = s.checksumValidBlockCount
  lastDesc_eq : s'.lastDesc = s.lastDesc.map fun d => { d with fileHandle := none, state := .ok }
  tiled : ∀ {K : Params} {rs : Nat → Nat → Row F.Body}, Tiled K s rs → Tiled K s' rs

theorem closeLastTile_closes (s : Blockchain F) :
    Returns closeLastTile s fun _ s' => ClosedLast s s' := by
  refine .bind (.get ?_)
  by_cases h0 : 0 < s.tiles.length
  · simp only [h0, if_true]
    have hlt : s.tiles.length - 1 < s.tiles.length := by omega
    have hd : s.tiles[s.tiles.length - 1]? = some s.tiles[s.tiles.length - 1] :=
      List.getElem?_eq_getElem hlt
    refine onTile_returns hd ⟨by simp [putTile, Tile.closeFile], by simp, rfl, rfl, ?_, ?_⟩
    · rw [putTile_lastDesc hlt, if_pos rfl, lastDesc, hd]
      rfl
    · intro K rs h
      have hput := h.putTile hlt (closeFile_synced (h _ _ hd))
      rwa [update_eq_self] at hput
  · simp only [h0, if_false]
    have hnil : s.tiles = [] := List.length_eq_zero_iff.mp (by omega)
    exact .pure ⟨rfl, rfl, rfl, rfl, by simp [lastDesc, hnil], id⟩

theorem Holds.closed (h : Holds K s ps cs) (hc : ClosedLast s s') : Holds K s' ps cs where
  recCount_eq := hc.recCount_eq.trans h.recCount_eq
  tiles_length := hc.length_eq.trans h.tiles_length
  valid_eq := by rw [hc.valid_eq, hc.length_eq, h.valid_eq]
  tile := hc.tiled h.tile
  tail := by
    intro d hd
    rw [hc.lastDesc_eq] at hd
    obtain ⟨d₀, hd₀, rfl⟩ := Option.map_eq_some_iff.mp hd
    exact h.tail d₀ hd₀

/-- `get_prev_checksum` of the tile a new block follows. -/
theorem getPrevChecksum_last (hst : ∀ d, s.lastDesc = some d → d.state = .ok) :
    getPrevChecksum s.tiles.length s = .ok ((s.lastDesc.map TileDesc.sup).getD F.zero) s := by
  unfold getPrevChecksum
  by_cases h0 : s.tiles.length = 0
  · have hnil : s.tiles = [] := List.length_eq_zero_iff.mp h0
    rw [if_pos h0]
    simp [lastDesc, hnil]
    rfl
  · rw [if_neg h0]
    have hd : s.lastDesc = some s.tiles[s.tiles.length - 1] := List.getElem?_eq_getElem (by omega)
    show EStateM.bind _ _ _ = _
    simp only [EStateM.bind, onTile_ok _ hd, putTile_self hd, hst _ hd, if_true, hd]
    rfl

theorem syncTileToFile_withTail {b : Bool}
    {t' : Tile F.Body F.Checksum}
    (ht : t.syncToFile K.RecCount F.zeroBody false = some (b, t')) :
    syncTileToFile K s.tiles.length false (s.withTail t) = .ok b (s.withTail t') := by
  show EStateM.bind _ _ _ = _
  simp only [EStateM.bind, onTile_withTail, ht]
  rfl

theorem syncTileToFile_withTail_none (ht : t.syncToFile K.RecCount F.zeroBody false = none) :
    syncTileToFile K s.tiles.length false (s.withTail t)
      = .error (.undefined "sync_to_file ends without a return value") (s.withTail t) := by
  show EStateM.bind _ _ _ = _
  simp only [EStateM.bind, onTile_withTail, ht]
  rfl

/-- The tile of a new block before it is written. -/
def newTile (F : RowFormat T) (e : Entry F.Body) (p : T) (c : F.Checksum) :
    Tile F.Body F.Checksum where
  entry := e
  desc := { state := .ok, fetchedData := some (blockRows F [p] c), fileHandle := none,
            sup := F.zero, lastUse := 0 }

/-- The checksum a new block follows: that of `TileSup`. -/
def supChecksum (s : Blockchain F) : F.Checksum := (s.lastDesc.map TileDesc.sup).getD F.zero

theorem usedChecksum_boundary (hpos : s.recCount % K.RecCount = 0) :
    usedChecksum K s = supChecksum s := by
  rw [usedChecksum, supChecksum]
  cases s.lastDesc with
  | none => rfl
  | some d => simp [hpos]

theorem advanceValid_frame (s : Blockchain F) :
    (advanceValid s).tiles = s.tiles ∧ (advanceValid s).disk = s.disk ∧
      (advanceValid s).recCount = s.recCount := by
  unfold advanceValid
  split <;> exact ⟨rfl, rfl, rfl⟩

/-- Everything `append` does for a new block before it writes the file. -/
theorem appendNewBlock_prepares (s : Blockchain F) (p : T) : ∃ s₁ : Blockchain F, ClosedLast s s₁ ∧
      appendNewBlock K (F.payloadRow p) s = (do
            let written ← syncTileToFile K s₁.tiles.length false
            return if written then (true, ExitCode.ok) else (false, ExitCode.writeError))
          (withTail { advanceValid s₁ with recCount := s₁.recCount + 2 }
            (newTile F (s.disk s.tiles.length) p
              (F.calcChecksum (supChecksum s) (F.payloadRow p)))) := by
  obtain ⟨_, s₁, hcl, hc⟩ := closeLastTile_closes s
  have hst : ∀ d, s₁.lastDesc = some d → d.state = .ok := by
    intro d hd
    rw [hc.lastDesc_eq] at hd
    obtain ⟨d₀, -, rfl⟩ := Option.map_eq_some_iff.mp hd
    rfl
  have hsup : (s₁.lastDesc.map TileDesc.sup).getD F.zero = supChecksum s := by
    rw [hc.lastDesc_eq, supChecksum]
    cases s.lastDesc <;> rfl
  refine ⟨s₁, hc, ?_⟩
  have hpr := getPrevChecksum_last hst
  rw [hsup] at hpr
  obtain ⟨htl, hdi, hrec⟩ := advanceValid_frame s₁
  -- the new tile: buffer allocated and filled
  have hupd := updTile_withTail (s := advanceValid s₁)
    ⟨(advanceValid s₁).disk (advanceValid s₁).tiles.length, reset F.zero .ok⟩
    (setFirstRows (F.payloadRow p)
      (F.checksumRow (F.calcChecksum (supChecksum s) (F.payloadRow p))))
  have hnew : setFirstRows (F.payloadRow p)
        (F.checksumRow (F.calcChecksum (supChecksum s) (F.payloadRow p)))
        ⟨(advanceValid s₁).disk (advanceValid s₁).tiles.length, reset F.zero .ok⟩
      = newTile F (s.disk s.tiles.length) p (F.calcChecksum (supChecksum s) (F.payloadRow p)) := by
    rw [newTile, ← freshBuffer_first p, hdi, htl, hc.disk_eq, hc.length_eq]
    rfl
  rw [hnew, htl] at hupd
  unfold appendNewBlock
  rw [bind_eq hcl, get_bind, bind_eq hpr, modify_bind, modify_bind, appendTile_eq, htl,
    bind_eq hupd, modify_bind, ← hrec]
  rfl

/-- A new block at a usable path. -/
theorem appendNewBlock_writes (s : Blockchain F) (hu : Usable K.RecCount (s.disk s.tiles.length))
    (p : T) :
    ∃ s₁ t, ClosedLast s s₁ ∧ appendNewBlock K (F.payloadRow p) s
        = .ok (true, .ok) (withTail { advanceValid s₁ with recCount := s₁.recCount + 2 } t) ∧
      t.desc = { state := .ok
                 fetchedData := some (blockRows F [p]
                   (F.calcChecksum (supChecksum s) (F.payloadRow p)))
                 fileHandle := some K.RecCount
                 sup := F.zero
                 lastUse := 0 } ∧
      Synced K.RecCount t (blockRows F [p] (F.calcChecksum (supChecksum s) (F.payloadRow p))) := by
  obtain ⟨s₁, hc, heq⟩ := appendNewBlock_prepares s p
  obtain ⟨t, ht, hde, hst⟩ := syncToFile_new (t := newTile F (s.disk s.tiles.length) p
      (F.calcChecksum (supChecksum s) (F.payloadRow p))) hu rfl rfl
  refine ⟨s₁, t, hc, ?_, hde, hst, .inr (.inr ⟨by rw [hde], _, by rw [hde]; rfl, fun _ _ => rfl⟩)⟩
  have hsy := syncTileToFile_withTail (s := { advanceValid s₁ with recCount := s₁.recCount + 2 }) ht
  rw [show ({ advanceValid s₁ with recCount := s₁.recCount + 2 } : Blockchain F).tiles = s₁.tiles
    from (advanceValid_frame s₁).1] at hsy
  rw [heq, bind_eq hsy]
  rfl

theorem appendNewBlock_holds (h : Holds K s ps cs) (hfull : ps.length % perBlock K = 0)
    (hu : Usable K.RecCount (s.disk s.tiles.length)) (p : T) :
    Returns (appendNewBlock K (F.payloadRow p)) s fun r s' =>
      r = (true, .ok) ∧ Holds K s' (ps ++ [p]) (nextChecksums K s ps cs p) ∧ Untouched s s' ∧
        s'.lastDesc = some (nextDesc K s p) := by
  have hpos : s.recCount % K.RecCount = 0 := by
    rw [h.recCount_eq, rowCount_mod, if_pos hfull]
  have hus := usedChecksum_boundary hpos
  obtain ⟨s₁, t, hc, heq, hde, ht⟩ := appendNewBlock_writes s hu p
  have h₁ := h.closed hc
  have hadv : advanceValid s₁
      = { s₁ with checksumValidBlockCount := s₁.checksumValidBlockCount + 1 } := by
    rw [advanceValid, if_pos h₁.valid_eq.symm]
  rw [hadv] at heq
  refine ⟨_, _, heq, rfl, ?_, ?_, ?_⟩
  · rw [nextChecksums, hus]
    exact h₁.withTail hfull ht (by rw [hde]; rfl)
  · intro b hb
    have hb' : s₁.tiles.length + 1 ≤ b := by simpa [withTail] using hb
    rw [← hc.disk_eq]
    exact update_of_ne (by show b ≠ s₁.tiles.length; omega) _ _
  · have hla : ∀ s₂ : Blockchain F, (s₂.withTail t).lastDesc = some t.desc := by
      intro s₂
      simp [lastDesc, withTail]
    rw [hla, hde, nextDesc, ← hus]
    cases s.lastDesc with
    | none => rfl
    | some d =>
      simp only [hpos, if_true]
      rfl

/-- A new block cannot be started where the path is occupied. -/
theorem appendNewBlock_occupied (s : Blockchain F)
    (hu : ¬ Usable K.RecCount (s.disk s.tiles.length)) (p : T) :
    ∃ s', appendNewBlock K (F.payloadRow p) s
      = .error (.undefined "sync_to_file ends without a return value") s' := by
  obtain ⟨s₁, hc, heq⟩ := appendNewBlock_prepares s p
  have hsy := syncTileToFile_withTail_none
    (s := { advanceValid s₁ with recCount := s₁.recCount + 2 })
    (syncToFile_occupied (t := newTile F (s.disk s.tiles.length) p
        (F.calcChecksum (supChecksum s) (F.payloadRow p))) hu rfl rfl)
  rw [show ({ advanceValid s₁ with recCount := s₁.recCount + 2 } : Blockchain F).tiles = s₁.tiles
    from (advanceValid_frame s₁).1] at hsy
  rw [heq]
  exact ⟨_, bind_error hsy⟩

theorem Holds.inTail (h : Holds K s ps cs) (hpa : ps.length % perBlock K ≠ 0)
    (ht : Synced K.RecCount t (blockRows F (chunk K ps (ps.length / perBlock K) ++ [p]) c))
    (hda : t.desc.fetchedData.isSome) :
    Holds K { s.putTile (s.tiles.length - 1) t with recCount := s.recCount + 1 }
      (ps ++ [p]) (update cs (ps.length / perBlock K) c) := by
  have hn : s.tiles.length = ps.length / perBlock K + 1 := by
    rw [h.tiles_length, blockCount, if_neg hpa]
  have hlt : s.tiles.length - 1 < s.tiles.length := by
    rw [hn]
    exact Nat.lt_succ_self _
  have hla : s.tiles.length - 1 = ps.length / perBlock K := by omega
  have hlen : (s.putTile (s.tiles.length - 1) t).tiles.length = s.tiles.length := by simp
  have hcount : blockCount K (ps.length + 1) = blockCount K ps.length := by
    rw [blockCount_succ, if_neg hpa]
  have hput := Tiled.putTile h.tile hlt ht
  rw [← blockRows_chunk_snoc K hla] at hput
  refine ⟨?_, ?_, ?_, hput, ?_⟩
  · show s.recCount + 1 = _
    rw [h.recCount_eq, rowCount, rowCount, List.length_append, List.length_singleton, hcount]
    omega
  · rw [hlen, h.tiles_length, List.length_append, List.length_singleton, hcount]
  · show s.checksumValidBlockCount = _
    rw [hlen, h.valid_eq]
  · intro d hd
    have hd' : (s.putTile (s.tiles.length - 1) t).lastDesc = some d := hd
    rw [putTile_lastDesc hlt, if_pos rfl] at hd'
    cases hd'
    exact hda

/-- A row into the last block, which is in memory: the payload over row `blockPos - 1` of the
file, the new checksum behind it. -/
theorem appendInBlock_writes {blockPos : Nat} (hpos : 0 < blockPos) (hfit : blockPos < K.RecCount)
    {data : Nat → Row F.Body} (hd : s.lastDesc = some d)
    (hda : d.fetchedData = some data)
    (hst : Stores K.RecCount (s.disk (s.tiles.length - 1)) rs) (p : T) :
    ∃ t, appendInBlock K (F.payloadRow p) blockPos s = .ok (true, .ok)
            { s.putTile (s.tiles.length - 1) t with recCount := s.recCount + 1 } ∧
      t.desc = { d with fileHandle := some 0, state := .ok } ∧
      Stores K.RecCount t.entry
        (update (update rs (blockPos - 1) (F.payloadRow p)) blockPos
          (F.checksumRow (F.calcChecksum (F.checksum (data (blockPos - 1)).body)
            (F.payloadRow p)))) := by
  have hlt : s.tiles.length - 1 < s.tiles.length := (List.getElem?_eq_some_iff.mp hd).1
  let c := F.calcChecksum (F.checksum (data (blockPos - 1)).body) (F.payloadRow p)
  let t₀ : Tile F.Body F.Checksum := Tile.setState .ok ⟨s.disk (s.tiles.length - 1), d⟩
  have hget : Tile.getTileData ⟨s.disk (s.tiles.length - 1), d⟩ = (some data, t₀) :=
    Prod.ext hda rfl
  obtain ⟨t₁, hw₁, hde₁, hst₁⟩ := write_synced (t := t₀)
    (i := blockPos - 1) (F.payloadRow p) hst (by omega)
  obtain ⟨t₂, hw₂, hde₂, hst₂⟩ := write_synced (F.checksumRow c) hst₁ hfit
  refine ⟨t₂, ?_, by rw [hde₂, hde₁]; rfl, hst₂⟩
  have hca₁ : onTile (s.tiles.length - 1) (fun t => t.write K.RecCount F.zeroBody
      (F.payloadRow p) (blockPos - 1) false) (s.putTile (s.tiles.length - 1) t₀)
      = .ok true (s.putTile (s.tiles.length - 1) t₁) := by
    rw [onTile_putTile hlt, hw₁]
  have hca₂ : onTile (s.tiles.length - 1) (fun t => t.write K.RecCount F.zeroBody
      (F.checksumRow c) blockPos false) (s.putTile (s.tiles.length - 1) t₁)
      = .ok true (s.putTile (s.tiles.length - 1) t₂) := by
    rw [onTile_putTile hlt, hw₂]
  unfold appendInBlock
  rw [get_bind]
  rw [lastIndex_eq (by omega), bind_eq (onTile_ok _ hd), hget]
  dsimp only
  rw [bind_eq hca₁, if_pos rfl, bind_eq hca₂, if_pos rfl]
  rfl

theorem appendInBlock_holds (h : Holds K s ps cs) (hpa : ps.length % perBlock K ≠ 0) (p : T) :
    Returns (appendInBlock K (F.payloadRow p) (s.recCount % K.RecCount)) s fun r s' =>
      r = (true, .ok) ∧ Holds K s' (ps ++ [p]) (nextChecksums K s ps cs p) ∧ Untouched s s' ∧
        s'.lastDesc = some (nextDesc K s p) := by
  have hmod : s.recCount % K.RecCount = ps.length % perBlock K + 1 := by
    rw [h.recCount_eq, rowCount_mod, if_neg hpa]
  have hn : s.tiles.length = ps.length / perBlock K + 1 := by
    rw [h.tiles_length, blockCount, if_neg hpa]
  have hlt : s.tiles.length - 1 < s.tiles.length := by
    rw [hn]
    exact Nat.lt_succ_self _
  have hpos : 0 < s.recCount % K.RecCount := by
    rw [hmod]
    exact Nat.succ_pos _
  have hfit : s.recCount % K.RecCount < K.RecCount :=
    Nat.mod_lt _ (Nat.lt_of_lt_of_le Nat.zero_lt_two K.two_le)
  obtain ⟨d, hd, hsy⟩ := h.desc hlt
  have hd' : s.lastDesc = some d := hd
  obtain ⟨data, hda⟩ := Option.isSome_iff_exists.mp (h.tail d hd)
  have hus : usedChecksum K s = F.checksum (data (ps.length % perBlock K)).body := by
    simp only [usedChecksum, hd', hda, hmod, Nat.add_one_ne_zero, if_false, Nat.add_sub_cancel]
  have hro := blockRows_snoc (chunk K ps (ps.length / perBlock K)) (cs (ps.length / perBlock K))
    (F.calcChecksum (usedChecksum K s) (F.payloadRow p)) p
  obtain ⟨t, heq, hde, hst⟩ := appendInBlock_writes hpos hfit hd' hda hsy.1 p
  rw [hmod, Nat.add_sub_cancel] at hst
  rw [chunk_length, hus] at hro
  rw [show s.tiles.length - 1 = ps.length / perBlock K by omega, hro] at hst
  have hca : t.desc.fetchedData = some data := by
    rw [hde]
    exact hda
  refine ⟨_, _, heq, rfl, ?_, putTile_untouched hlt t, ?_⟩
  · rw [nextChecksums, hus]
    exact h.inTail hpa ⟨hst, .inr (.inl (by rw [hde]))⟩ (by rw [hca]; rfl)
  · have hl : (s.putTile (s.tiles.length - 1) t).lastDesc = some t.desc := by
      rw [putTile_lastDesc hlt, if_pos rfl]
    show (s.putTile (s.tiles.length - 1) t).lastDesc = _
    rw [hl, hde]
    simp only [nextDesc, hd', hmod, Nat.add_one_ne_zero, if_false]

/-! ### The call -/

/-- What `append` reads of the object does not depend on what was flushed. -/
theorem append_reads_flush (ps : List T) (cs : Nat → F.Checksum) (now : Nat) (p : T) :
    nextChecksums K (maybeFlushCache K now s) ps cs p = nextChecksums K s ps cs p ∧
      nextDesc K (maybeFlushCache K now s) p = nextDesc K s p := by
  obtain ⟨-, hrec, -, -, hla⟩ := maybeFlushCache_frame (K := K) (s := s) now
  simp only [nextChecksums, nextDesc, nextDesc.newDesc, usedChecksum, hrec, hla, and_self]

/-- `append` succeeds, and the payload is behind the others. -/
theorem append_holds (h : Holds K s ps cs)
    (hu : ps.length % perBlock K = 0 → Usable K.RecCount (s.disk s.tiles.length)) (p : T)
    (now : Nat) :
    Returns (append K p now) s fun r s' =>
      r = (true, .ok) ∧ Holds K s' (ps ++ [p]) (nextChecksums K s ps cs p) ∧ Untouched s s' ∧
        s'.lastDesc = some (nextDesc K s p) := by
  have hf := maybeFlushCache_holds h now
  obtain ⟨hdi, -, -, hlen, -⟩ := maybeFlushCache_frame (K := K) now
  obtain ⟨hcs, hde⟩ := append_reads_flush ps cs now p
  rw [← hdi, ← hlen] at hu
  have hun : Untouched (maybeFlushCache K now s) = Untouched s := by
    funext s'
    simp only [Untouched, hdi]
  refine .bind (.of_modify (.bind (.get ?_)))
  rw [← hcs, ← hde, ← hun]
  generalize maybeFlushCache K now s = s₁ at hf hu
  by_cases hfull : ps.length % perBlock K = 0
  · have hpos : s₁.recCount % K.RecCount = 0 := by
      rw [hf.recCount_eq, rowCount_mod, if_pos hfull]
    simp only [hpos, if_true]
    exact appendNewBlock_holds hf hfull (hu hfull) p
  · have hpos : ¬ s₁.recCount % K.RecCount = 0 := by
      rw [hf.recCount_eq, rowCount_mod, if_neg hfull]
      omega
    simp only [hpos, if_false]
    exact appendInBlock_holds hf hfull p

theorem append_occupied (h : Holds K s ps cs) (hfull : ps.length % perBlock K = 0)
    (hu : ¬ Usable K.RecCount (s.disk s.tiles.length)) (p : T) (now : Nat) :
    ∃ s', append K p now s
      = .error (.undefined "sync_to_file ends without a return value") s' := by
  have hf := maybeFlushCache_holds h now
  obtain ⟨hdi, hrec, -, hlen, -⟩ := maybeFlushCache_frame now
  rw [← hdi, ← hlen] at hu
  obtain ⟨s', hs'⟩ := appendNewBlock_occupied _ hu p
  refine ⟨s', ?_⟩
  have hpos : (maybeFlushCache K now s).recCount % K.RecCount = 0 := by
    rw [hf.recCount_eq, rowCount_mod, if_pos hfull]
  unfold append
  rw [modify_bind, get_bind]
  simp only [hpos, if_true]
  exact hs'

/-! ### Any rows -/

/-- What an `append` that succeeded did to an object whose tiles were in order. -/
inductive Appended (K : Params) (s : Blockchain F) (rs : Nat → Nat → Row F.Body) (p : T) :
    Blockchain F → Prop
  | newBlock {s' : Blockchain F} {c : F.Checksum} (hpos : s.recCount % K.RecCount = 0)
      (hlen : s'.tiles.length = s.tiles.length + 1) (hrec : s'.recCount = s.recCount + 2)
      (hdisk : ∀ b, b ≠ s.tiles.length → s'.disk b = s.disk b)
      (htiled : Tiled K s' (update rs s.tiles.length (blockRows F [p] c))) :
      Appended K s rs p s'
  | inBlock {s' : Blockchain F} {c : F.Checksum} (hpos : s.recCount % K.RecCount ≠ 0)
      (hsome : 0 < s.tiles.length) (hlen : s'.tiles.length = s.tiles.length)
      (hrec : s'.recCount = s.recCount + 1)
      (hdisk : ∀ b, b ≠ s.tiles.length - 1 → s'.disk b = s.disk b)
      (htiled : Tiled K s' (update rs (s.tiles.length - 1)
        (update (update (rs (s.tiles.length - 1)) (s.recCount % K.RecCount - 1)
          (F.payloadRow p)) (s.recCount % K.RecCount) (F.checksumRow c)))) :
      Appended K s rs p s'

section AnyRows

variable {rs : Nat → Nat → Row F.Body}

theorem appendNewBlock_appended (h : Tiled K s rs) (hpos : s.recCount % K.RecCount = 0)
    {r : Bool × ExitCode} (heq : appendNewBlock K (F.payloadRow p) s = .ok r s') :
    Appended K s rs p s' := by
  by_cases hu : Usable K.RecCount (s.disk s.tiles.length)
  · obtain ⟨s₁, t, hc, heq', -, ht⟩ := appendNewBlock_writes s hu p
    obtain ⟨htl, hdi, -⟩ := advanceValid_frame s₁
    cases heq'.symm.trans heq
    have h₁ : Tiled K { advanceValid s₁ with recCount := s₁.recCount + 2 } rs := by
      intro b d hd
      rw [hdi]
      exact hc.tiled h b d (htl ▸ hd)
    have hta := h₁.withTail ht
    rw [show ({ advanceValid s₁ with recCount := s₁.recCount + 2 } : Blockchain F).tiles.length
      = s.tiles.length from by rw [← hc.length_eq]; exact congrArg _ htl] at hta
    refine .newBlock hpos ?_ ?_ ?_ hta
    · show ((advanceValid s₁).tiles ++ [t.desc]).length = _
      rw [htl, List.length_append, hc.length_eq]
      rfl
    · show s₁.recCount + 2 = _
      rw [hc.recCount_eq]
    · intro b hb
      show update (advanceValid s₁).disk (advanceValid s₁).tiles.length t.entry b = _
      rw [htl, hdi, update_of_ne (by rw [hc.length_eq]; exact hb), hc.disk_eq]
  · obtain ⟨s₁, hfa⟩ := appendNewBlock_occupied s hu p
    cases hfa.symm.trans heq

theorem appendInBlock_appended (h : Tiled K s rs) (hpos : s.recCount % K.RecCount ≠ 0)
    {r : Bool × ExitCode}
    (heq : appendInBlock K (F.payloadRow p) (s.recCount % K.RecCount) s = .ok r s') :
    Appended K s rs p s' := by
  have hfit : s.recCount % K.RecCount < K.RecCount :=
    Nat.mod_lt _ (Nat.lt_of_lt_of_le Nat.zero_lt_two K.two_le)
  cases hd : s.lastDesc with
  | none =>
    -- no tile: the last index is past every tile
    have h0 : s.tiles.length = 0 := by
      have := List.getElem?_eq_none_iff.mp hd
      omega
    unfold appendInBlock at heq
    rw [get_bind] at heq
    rw [bind_error (onTile_outside Tile.getTileData (by omega))] at heq
    cases heq
  | some d =>
    have hlt : s.tiles.length - 1 < s.tiles.length := (List.getElem?_eq_some_iff.mp hd).1
    cases hda : d.fetchedData with
    | none =>
      unfold appendInBlock at heq
      rw [get_bind] at heq
      rw [lastIndex_eq (by omega), bind_eq (onTile_ok _ hd), Tile.getTileData] at heq
      rw [hda] at heq
      cases heq
    | some data =>
      obtain ⟨t, heq', hde, hst⟩ := appendInBlock_writes (Nat.pos_of_ne_zero hpos) hfit hd hda
        (h _ d hd).1 p
      cases heq'.symm.trans heq
      refine .inBlock hpos (by omega) (putTile_length s _ t) rfl ?_
        (h.putTile hlt ⟨hst, .inr (.inl (by rw [hde]))⟩)
      intro b hb
      rw [putTile_disk, if_neg hb]

theorem append_appended (h : Tiled K s rs) {now : Nat} {r : Bool × ExitCode}
    (heq : append K p now s = .ok r s') : Appended K s rs p s' := by
  have hf := h.flush now
  obtain ⟨hdi, hrec, -, hlen, -⟩ := maybeFlushCache_frame now
  have hba : Appended K (maybeFlushCache K now s) rs p s' → Appended K s rs p s' := by
    rintro (⟨hpos, hl, hr, hd, ht⟩ | ⟨hpos, hso, hl, hr, hd, ht⟩)
    · rw [hrec] at hpos hr
      rw [hlen] at hl hd ht
      rw [hdi] at hd
      exact .newBlock hpos hl hr hd ht
    · rw [hrec] at hpos hr ht
      rw [hlen] at hso hl hd ht
      rw [hdi] at hd
      exact .inBlock hpos hso hl hr hd ht
  apply hba
  unfold append at heq
  rw [modify_bind, get_bind] at heq
  split at heq
  · exact appendNewBlock_appended hf ‹_› heq
  · exact appendInBlock_appended hf ‹_› heq

end AnyRows

end GradidoNode.Blockchain
