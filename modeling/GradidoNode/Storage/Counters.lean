/-
# `GradidoNode.Storage.Counters` — `rec_count` and the blocks

`append` takes the place of the next row from `rec_count` alone: row `rec_count - 1`
of the chain is where the old checksum is, row `i` is row `i mod RecCount` of block
`i div RecCount`.  `RowCounters` says what has to be so for that to be right.  Three
calls change blocks, and they were meant to keep it:

    validate_next_checksum     refuses a block that is not full, unless it is the last
    append                     begins a block only when the last one is full
    replace_block              takes full blocks only

The first and the third leave the check to `validate_block`, which returns the
enumerator of its refusal, that is `true`.  Moreover `replace_block` does not touch
`rec_count`, and `sync_to_file` writes where the handle stands, so the data of a block
that has been read go behind the rows of its file.  `NextFits` and `Replaces` leave these three cases
out (`run_rowCounters`); each has a run of its own (`rowCounters_fails`).
-/
import GradidoNode.Storage.Scan

namespace GradidoNode.Blockchain

open Function FileTile Lib

variable {T : Type} {F : RowFormat T} {K : Params} {s s' : Blockchain F}

/-! ## What the counters are to say -/

/-- The rows of a file that are not EMPTY. -/
def filledRows {Body : Type} (e : Entry Body) : List (Row Body) :=
  (fileRows e).filter fun r => decide (r.type ≠ RecordType.empty)

/-- The same over all blocks. -/
def usedRows (s : Blockchain F) : List (Row F.Body) :=
  (List.range s.tiles.length).flatMap fun b => filledRows (s.disk b)

/-- Row `RecCount - 1` is the CHECKSUM row. -/
def FullBlock {Body : Type} (K : Params) (e : Entry Body) : Prop :=
  ((fileRows e)[K.RecCount - 1]?).map Row.type = some RecordType.checksum

instance {Body : Type} (K : Params) (e : Entry Body) : Decidable (FullBlock K e) :=
  inferInstanceAs (Decidable (_ = _))

/-- The counters describe the blocks. -/
structure RowCounters (K : Params) (s : Blockchain F) : Prop where
  full : ∀ b, b + 1 < s.tiles.length → FullBlock K (s.disk b)
  count : s.recCount = (usedRows s).length
  place : ∀ i < s.recCount, (usedRows s)[i]? = (fileRows (s.disk (i / K.RecCount)))[i % K.RecCount]?
  /-- inside a block the new row takes the place of the last checksum -/
  next : ∀ p now ec s', append K p now s = .ok (true, ec) s' → ∃ c,
    usedRows s' = (if s.recCount % K.RecCount = 0 then usedRows s else (usedRows s).dropLast)
      ++ [F.payloadRow p, F.checksumRow c]

/-- The calls that change blocks after validation. -/
inductive Update (F : RowFormat T) where
  | append (recPayload : T) (now : Nat)
  | replaceBlock (index : Nat) (data : Nat → Row F.Body) (now : Nat)

/-- A call that has to say yes. -/
def updateStep (K : Params) (s : Blockchain F) : Update F → Option (Blockchain F)
  | .append p now =>
    match append K p now s with
    | .ok (true, _) s' => some s'
    | _ => none
  | .replaceBlock index data now =>
    match replaceBlock K index data now s with
    | .ok (true, _) s' => some s'
    | _ => none

/-- The next block to be validated is full, or the last one. -/
def NextFits (K : Params) (s : Blockchain F) : Prop :=
  s.checksumValidBlockCount + 1 = s.tiles.length ∨ FullBlock K (s.disk s.checksumValidBlockCount)

instance (K : Params) (s : Blockchain F) : Decidable (NextFits K s) :=
  inferInstanceAs (Decidable (_ ∨ _))

/-- The file of block `index` is closed or at row 0 when `replace_block` writes it: it was so
before, or the flush the call begins with closes it. -/
def AtStart (index now : Nat) (s : Blockchain F) : Prop :=
  ∀ d, s.tiles[index]? = some d → d.fileHandle = none ∨ d.fileHandle = some 0 ∨
    (s.nextCacheFlushTimestamp < now ∧ index + 1 < s.tiles.length)

/-- A block is replaced by one with as many rows in use, through a file at row 0. -/
def Replaces (K : Params) (s : Blockchain F) : Update F → Prop
  | .append _ _ => True
  | .replaceBlock index data now =>
    (index < s.tiles.length → blockRecCount K data = (filledRows (s.disk index)).length) ∧
      AtStart index now s

/-! ## One block -/

/-- The first `u` rows of a block are in use, and the last of them is its CHECKSUM row. -/
structure Filled (K : Params) (r : Nat → Row F.Body) (u : Nat) : Prop where
  two_le : 2 ≤ u
  le : u ≤ K.RecCount
  used : ∀ j < u, (r j).type ≠ RecordType.empty
  closed : (r (u - 1)).type = RecordType.checksum
  blank : ∀ j, u ≤ j → j < K.RecCount → (r j).type = RecordType.empty

variable {r : Nat → Row F.Body} {u : Nat} {e : Entry F.Body}

theorem wellShaped_filled (h : WellShaped (rowTypes K r)) : Filled K r (blockRecCount K r) := by
  obtain ⟨xs, k, heq, hpay, hxs⟩ := h
  have hlen : xs.length + (k + 1) = K.RecCount := by
    have hl := congrArg List.length heq
    simp only [rowTypes, List.length_map, List.length_range, List.length_append, List.length_cons,
      List.length_replicate] at hl
    exact hl.symm
  have hcount : blockRecCount K r = xs.length + 1 := by
    have hre : (RecordType.checksum :: List.replicate k RecordType.empty).takeWhile
        (fun ty => decide (ty ≠ RecordType.empty)) = [RecordType.checksum] := by
      cases k <;> rfl
    rw [blockRecCount, heq, List.takeWhile_append_of_pos fun x hx => by simpa using (hxs x hx).1,
      hre, List.length_append]
    rfl
  have htype : ∀ j < K.RecCount,
      (xs ++ RecordType.checksum :: List.replicate k RecordType.empty)[j]? = some (r j).type := by
    intro j hj
    rw [← heq]
    exact rowTypes_getElem? hj
  have hpos : 0 < xs.length := List.length_pos_of_mem hpay
  rw [hcount]
  refine ⟨by omega, by omega, fun j hj => ?_, ?_, fun j hj hj' => ?_⟩
  · have hj' := htype j (by omega)
    rcases Nat.lt_succ_iff_lt_or_eq.mp hj with hlt | rfl
    · rw [List.getElem?_append_left hlt] at hj'
      exact (hxs _ (List.mem_of_getElem? hj')).1
    · rw [List.getElem?_append_right (Nat.le_refl _), Nat.sub_self, List.getElem?_cons_zero,
        Option.some.injEq] at hj'
      rw [← hj']
      decide
  · have hj' := htype xs.length (by omega)
    rw [List.getElem?_append_right (Nat.le_refl _), Nat.sub_self, List.getElem?_cons_zero,
      Option.some.injEq] at hj'
    exact hj'.symm
  · have hj'' := htype j hj'
    obtain ⟨m, rfl⟩ : ∃ m, j = xs.length + (m + 1) := ⟨j - xs.length - 1, by omega⟩
    rw [List.getElem?_append_right (by omega), Nat.add_sub_cancel_left,
      List.getElem?_cons_succ] at hj''
    exact List.eq_of_mem_replicate (List.mem_of_getElem? hj'')

theorem Filled.filledRows_eq (h : Filled K r u)
    (hst : Stores K.RecCount e r) : filledRows e = (List.range u).map r := by
  obtain ⟨m, hm⟩ : ∃ m, K.RecCount = u + m := ⟨K.RecCount - u, by have := h.le; omega⟩
  rw [filledRows, fileRows_stores hst, hm, List.range_add, List.map_append, List.filter_append,
    List.filter_eq_self.mpr, List.filter_eq_nil_iff.mpr, List.append_nil]
  · intro x hx
    obtain ⟨i, hi, rfl⟩ := List.mem_map.mp hx
    obtain ⟨j, hj, rfl⟩ := List.mem_map.mp hi
    have := h.blank (u + j) (Nat.le_add_right u j) (by have := List.mem_range.mp hj; omega)
    simp [this]
  · intro x hx
    obtain ⟨j, hj, rfl⟩ := List.mem_map.mp hx
    simpa using h.used j (List.mem_range.mp hj)

/-- The rows in use of a block of payloads. -/
theorem filledRows_stores {l : List T} {c : F.Checksum} {N : Nat}
    (h : Stores N e (blockRows F l c)) (hl : l.length < N) :
    filledRows e = l.map F.payloadRow ++ [F.checksumRow c] := by
  rw [filledRows, fileRows_stores h, map_blockRows hl, List.filter_append, List.filter_cons,
    List.filter_eq_self.mpr, List.filter_eq_nil_iff.mpr]
  · simp [RecordType.checksum, RecordType.empty]
  · intro r hr
    rw [List.eq_of_mem_replicate hr]
    simp
  · intro r hr
    obtain ⟨p, -, rfl⟩ := List.mem_map.mp hr
    simp [RecordType.payload, RecordType.empty]

theorem Filled.fullBlock (h : Filled K r K.RecCount)
    (hst : Stores K.RecCount e r) : FullBlock K e := by
  have hlt : K.RecCount - 1 < K.RecCount := by
    have := K.two_le
    omega
  rw [FullBlock, fileRows_getElem? hst hlt]
  exact congrArg some h.closed

theorem Filled.eq_of_fullBlock (h : Filled K r u)
    (hst : Stores K.RecCount e r) (hfull : FullBlock K e) : u = K.RecCount := by
  have hlt : K.RecCount - 1 < K.RecCount := by
    have := K.two_le
    omega
  rw [FullBlock, fileRows_getElem? hst hlt] at hfull
  have htype : (r (K.RecCount - 1)).type = RecordType.checksum := Option.some.inj hfull
  rcases Nat.lt_or_eq_of_le h.le with hu | hu
  · have hbl := h.blank (K.RecCount - 1) (by omega) hlt
    rw [htype] at hbl
    exact absurd hbl (by decide)
  · exact hu

theorem filled_first (p : T) (c : F.Checksum) : Filled K (blockRows F [p] c) 2 where
  two_le := Nat.le_refl 2
  le := K.two_le
  used := by
    intro j hj
    rcases Nat.lt_succ_iff_lt_or_eq.mp hj with h0 | rfl
    · obtain rfl : j = 0 := by omega
      exact (F.payloadRow_type p).trans_ne (by decide)
    · exact (F.checksumRow_type c).trans_ne (by decide)
  closed := rfl
  blank := fun j hj _ => congrArg Row.type (blockRows_blank hj)

theorem Filled.snoc (h : Filled K r u) (hu : u < K.RecCount) (p : T) (c : F.Checksum) :
    Filled K (update (update r (u - 1) (F.payloadRow p)) u (F.checksumRow c))
      (u + 1) where
  two_le := Nat.le_succ_of_le h.two_le
  le := hu
  used := by
    intro j hj
    by_cases hju : j = u
    · rw [hju, update_self]
      exact (F.checksumRow_type c).trans_ne (by decide)
    · rw [update_of_ne hju]
      by_cases hju' : j = u - 1
      · rw [hju', update_self]
        exact (F.payloadRow_type p).trans_ne (by decide)
      · rw [update_of_ne hju']
        exact h.used j (by omega)
  closed := by rw [Nat.add_sub_cancel, update_self]; rfl
  blank := by
    intro j hj hj'
    rw [update_of_ne (by omega), update_of_ne (by omega)]
    exact h.blank j (by omega) hj'

/-! ## All blocks -/

/-- Row `i` of the chain. -/
def rowOf (K : Params) (rs : Nat → Nat → Row F.Body) (i : Nat) : Row F.Body :=
  rs (i / K.RecCount) (i % K.RecCount)

/-- Tiles in order with the rows `rs`, filled one after the other, as many as are counted. -/
structure Laid (K : Params) (s : Blockchain F) (rs : Nat → Nat → Row F.Body) : Prop where
  tiled : Tiled K s rs
  empty : s.tiles.length = 0 → s.recCount = 0
  full : ∀ b, b + 1 < s.tiles.length → Filled K (rs b) K.RecCount
  last : ∀ b, b + 1 = s.tiles.length → ∃ u, Filled K (rs b) u ∧ s.recCount = b * K.RecCount + u

section Laid

variable {rs : Nat → Nat → Row F.Body} {p : T}

theorem rowOf_block (b : Nat) {j : Nat} (hj : j < K.RecCount) :
    rowOf K rs (b * K.RecCount + j) = rs b j := by
  rw [rowOf, Nat.add_comm, Nat.add_mul_div_right _ _ (Nat.zero_lt_of_lt hj), Nat.div_eq_of_lt hj,
    Nat.zero_add, Nat.add_mul_mod_self_right, Nat.mod_eq_of_lt hj]

theorem flatMap_full (rs : Nat → Nat → Row F.Body) (n : Nat) :
    (List.range n).flatMap (fun b => (List.range K.RecCount).map (rs b))
      = (List.range (n * K.RecCount)).map (rowOf K rs) := by
  induction n with
  | zero => simp
  | succ n ih =>
    rw [List.range_succ, List.flatMap_append, ih, Nat.succ_mul, List.range_add, List.map_append,
      List.map_map, List.flatMap_singleton]
    congr 1
    exact List.map_congr_left fun j hj => (rowOf_block n (List.mem_range.mp hj)).symm

theorem Tiled.stores (h : Tiled K s rs) {b : Nat} (hb : b < s.tiles.length) :
    Stores K.RecCount (s.disk b) (rs b) :=
  (h b _ (List.getElem?_eq_getElem hb)).1

theorem Laid.usedRows_eq (h : Laid K s rs) :
    usedRows s = (List.range s.recCount).map (rowOf K rs) := by
  rcases Nat.eq_zero_or_pos s.tiles.length with h0 | hpos
  · rw [usedRows, h0, h.empty h0]
    rfl
  · obtain ⟨n, hn⟩ : ∃ n, s.tiles.length = n + 1 := ⟨s.tiles.length - 1, by omega⟩
    obtain ⟨u, hfi, hrec⟩ := h.last n hn.symm
    have hfull : (List.range n).flatMap (fun b => filledRows (s.disk b))
        = (List.range n).flatMap (fun b => (List.range K.RecCount).map (rs b)) := by
      refine List.flatMap_congr fun b hb => ?_
      have hb' := List.mem_range.mp hb
      exact (h.full b (by omega)).filledRows_eq (h.tiled.stores (by omega))
    rw [usedRows, hn, List.range_succ, List.flatMap_append, hfull, flatMap_full, hrec,
      List.range_add, List.map_append, List.map_map, List.flatMap_singleton,
      hfi.filledRows_eq (h.tiled.stores (by omega))]
    congr 1
    refine List.map_congr_left fun j hj => (rowOf_block n ?_).symm
    exact Nat.lt_of_lt_of_le (List.mem_range.mp hj) hfi.le

theorem Laid.boundary (h : Laid K s rs) (hpos : s.recCount % K.RecCount = 0) :
    s.recCount = s.tiles.length * K.RecCount ∧
      ∀ b < s.tiles.length, Filled K (rs b) K.RecCount := by
  rcases Nat.eq_zero_or_pos s.tiles.length with h0 | hlen
  · rw [h.empty h0, h0, Nat.zero_mul]
    exact ⟨rfl, fun b hb => absurd hb (Nat.not_lt_zero b)⟩
  · obtain ⟨n, hn⟩ : ∃ n, s.tiles.length = n + 1 := ⟨s.tiles.length - 1, by omega⟩
    obtain ⟨u, hfi, hrec⟩ := h.last n hn.symm
    have hu : u = K.RecCount := by
      rw [hrec, Nat.add_comm, Nat.add_mul_mod_self_right] at hpos
      rcases Nat.lt_or_eq_of_le hfi.le with hlt | heq
      · rw [Nat.mod_eq_of_lt hlt] at hpos
        have := hfi.two_le
        omega
      · exact heq
    subst hu
    refine ⟨by rw [hrec, hn, Nat.succ_mul], fun b hb => ?_⟩
    by_cases hbn : b = n
    · rw [hbn]
      exact hfi
    · exact h.full b (by omega)

theorem Laid.inside (h : Laid K s rs) (hpos : s.recCount % K.RecCount ≠ 0) :
    Filled K (rs (s.tiles.length - 1)) (s.recCount % K.RecCount) ∧
      s.recCount = (s.tiles.length - 1) * K.RecCount + s.recCount % K.RecCount := by
  have hso : s.tiles.length ≠ 0 := fun h0 => hpos (by rw [h.empty h0, Nat.zero_mod])
  obtain ⟨u, hfi, hrec⟩ := h.last (s.tiles.length - 1) (by omega)
  have hmod : s.recCount % K.RecCount = u := by
    rw [hrec, Nat.add_comm, Nat.add_mul_mod_self_right] at hpos ⊢
    rcases Nat.lt_or_eq_of_le hfi.le with hlt | heq
    · exact Nat.mod_eq_of_lt hlt
    · exact absurd (by rw [heq, Nat.mod_self]) hpos
  rw [hmod]
  exact ⟨hfi, hrec⟩

theorem rowOf_update_of_lt {n i : Nat} (h : i < n * K.RecCount) (r : Nat → Row F.Body) :
    rowOf K (update rs n r) i = rowOf K rs i := by
  have hlt : i / K.RecCount < n := Nat.div_lt_of_lt_mul (by rw [Nat.mul_comm]; exact h)
  rw [rowOf, update_of_ne (Nat.ne_of_lt hlt)]
  rfl

/-- Two rows behind those that stay. -/
theorem map_range_add_two {α : Type} {f g : Nat → α} {m : Nat} (h : ∀ i < m, f i = g i) :
    (List.range (m + 2)).map f = (List.range m).map g ++ [f m, f (m + 1)] := by
  have hold : (List.range m).map f = (List.range m).map g :=
    List.map_congr_left fun i hi => h i (List.mem_range.mp hi)
  rw [List.range_add, List.map_append, hold]
  rfl

theorem Laid.newBlock (h : Laid K s rs) {c : F.Checksum} (hpos : s.recCount % K.RecCount = 0)
    (hlen : s'.tiles.length = s.tiles.length + 1) (hrec : s'.recCount = s.recCount + 2)
    (htl : Tiled K s' (update rs s.tiles.length (blockRows F [p] c))) :
    Laid K s' (update rs s.tiles.length (blockRows F [p] c)) ∧
      usedRows s' = usedRows s ++ [F.payloadRow p, F.checksumRow c] := by
  have hR := K.two_le
  obtain ⟨hcount, hfull⟩ := h.boundary hpos
  have hla : Laid K s' (update rs s.tiles.length (blockRows F [p] c)) := by
    refine ⟨htl, fun h0 => by omega, fun b hb => ?_, fun b hb => ⟨2, ?_, ?_⟩⟩
    · rw [update_of_ne (by omega)]
      exact hfull b (by omega)
    · obtain rfl : b = s.tiles.length := by omega
      rw [update_self]
      exact filled_first p c
    · obtain rfl : b = s.tiles.length := by omega
      rw [hrec, hcount]
  have hnew : ∀ j < 2, rowOf K (update rs s.tiles.length (blockRows F [p] c))
      (s.recCount + j) = blockRows F [p] c j := by
    intro j hj
    rw [hcount, rowOf_block _ (by omega), update_self]
  refine ⟨hla, ?_⟩
  rw [hla.usedRows_eq, h.usedRows_eq, hrec, map_range_add_two fun i hi =>
    rowOf_update_of_lt (by omega) _, hnew 1 (by omega)]
  rw [show rowOf K _ s.recCount = _ from hnew 0 (by omega)]
  rfl

/-- A row in the last block: row `u - 1` of it was the checksum, the last row in use. -/
theorem Laid.inBlock (h : Laid K s rs) {c : F.Checksum} (hpos : s.recCount % K.RecCount ≠ 0)
    (hso : 0 < s.tiles.length) (hlen : s'.tiles.length = s.tiles.length)
    (hrec : s'.recCount = s.recCount + 1)
    (htl : Tiled K s' (update rs (s.tiles.length - 1)
      (update (update (rs (s.tiles.length - 1)) (s.recCount % K.RecCount - 1)
        (F.payloadRow p)) (s.recCount % K.RecCount) (F.checksumRow c)))) :
    (∃ rs', Laid K s' rs') ∧
      usedRows s' = (usedRows s).dropLast ++ [F.payloadRow p, F.checksumRow c] := by
  have hR := K.two_le
  obtain ⟨hfi, hcount⟩ := h.inside hpos
  have hroom : s.recCount % K.RecCount < K.RecCount := Nat.mod_lt _ (by omega)
  have hfi' := hfi.snoc hroom p c
  generalize hn : s.tiles.length - 1 = n at *
  generalize s.recCount % K.RecCount = u at *
  generalize hr : update (update (rs n) (u - 1) (F.payloadRow p)) u
    (F.checksumRow c) = r at *
  have hla : Laid K s' (update rs n r) := by
    refine ⟨htl, fun h0 => by omega, fun b hb => ?_, fun b hb => ⟨u + 1, ?_, ?_⟩⟩
    · rw [update_of_ne (by omega)]
      exact h.full b (by omega)
    · obtain rfl : b = n := by omega
      rw [update_self]
      exact hfi'
    · obtain rfl : b = n := by omega
      omega
  refine ⟨⟨_, hla⟩, ?_⟩
  obtain ⟨m, hm⟩ : ∃ m, s.recCount = m + 1 := ⟨s.recCount - 1, by omega⟩
  have hold : ∀ i < m, rowOf K (update rs n r) i = rowOf K rs i := by
    intro i hi
    by_cases hin : i < n * K.RecCount
    · exact rowOf_update_of_lt hin r
    · obtain ⟨j, rfl⟩ : ∃ j, i = n * K.RecCount + j := ⟨i - n * K.RecCount, by omega⟩
      rw [rowOf_block n (by omega), rowOf_block n (by omega), update_self, ← hr,
        update_of_ne (by omega), update_of_ne (by omega)]
  have hpa : rowOf K (update rs n r) m = F.payloadRow p := by
    rw [show m = n * K.RecCount + (u - 1) by omega, rowOf_block n (by omega), update_self,
      ← hr, update_of_ne (by omega), update_self]
  have hch : rowOf K (update rs n r) (m + 1) = F.checksumRow c := by
    rw [show m + 1 = n * K.RecCount + u by omega, rowOf_block n hroom, update_self, ← hr,
      update_self]
  have hdr : ((List.range (m + 1)).map (rowOf K rs)).dropLast
      = (List.range m).map (rowOf K rs) := by
    rw [List.range_succ, List.map_append, List.map_singleton, List.dropLast_concat]
  rw [hla.usedRows_eq, h.usedRows_eq, hrec, hm, hdr, map_range_add_two hold, hpa, hch]

/-- `append` keeps the blocks filled one after the other. -/
theorem Laid.append (h : Laid K s rs) (ha : Appended K s rs p s') : ∃ rs' c, Laid K s' rs' ∧
      usedRows s' = (if s.recCount % K.RecCount = 0 then usedRows s else (usedRows s).dropLast)
        ++ [F.payloadRow p, F.checksumRow c] := by
  cases ha with
  | @newBlock c hpos hlen hrec hdi htl =>
    obtain ⟨hla, hus⟩ := h.newBlock hpos hlen hrec htl
    rw [if_pos hpos]
    exact ⟨_, c, hla, hus⟩
  | @inBlock c hpos hso hlen hrec hdi htl =>
    obtain ⟨⟨rs', hla⟩, hus⟩ := h.inBlock hpos hso hlen hrec htl
    rw [if_neg hpos]
    exact ⟨rs', c, hla, hus⟩

theorem Laid.rowCounters (h : Laid K s rs) : RowCounters K s where
  full := fun b hb => (h.full b hb).fullBlock (h.tiled.stores (by omega))
  count := by rw [h.usedRows_eq, List.length_map, List.length_range]
  place := by
    intro i hi
    have hpos : 0 < K.RecCount := by
      have := K.two_le
      omega
    have hlt : i / K.RecCount < s.tiles.length := by
      by_cases hb : s.recCount % K.RecCount = 0
      · rw [(h.boundary hb).1] at hi
        exact Nat.div_lt_of_lt_mul (by rwa [Nat.mul_comm])
      · have hso : s.tiles.length ≠ 0 := fun h0 => hb (by rw [h.empty h0, Nat.zero_mod])
        have hcount := (h.inside hb).2
        have hmod : s.recCount % K.RecCount < K.RecCount := Nat.mod_lt _ hpos
        refine Nat.div_lt_of_lt_mul ?_
        obtain ⟨n, hn⟩ : ∃ n, s.tiles.length = n + 1 := ⟨s.tiles.length - 1, by omega⟩
        rw [hn, Nat.add_sub_cancel] at hcount
        rw [hn, Nat.mul_comm, Nat.succ_mul]
        omega
    rw [h.usedRows_eq, List.getElem?_map, List.getElem?_range hi,
      fileRows_getElem? (h.tiled.stores hlt) (Nat.mod_lt _ hpos)]
    rfl
  next := by
    intro p now ec s' heq
    obtain ⟨-, c, -, hro⟩ := h.append (append_appended h.tiled heq)
    exact ⟨c, hro⟩

end Laid

/-! ## Validation -/

section Validation

variable {disk : Nat → Entry F.Body} {fc i : Nat}

/-- All blocks accepted, one after the other, each of them full or the last one. -/
theorem Scanned.run (hacc : ∀ b < fc, Accepted K (disk b)) {times : List Nat} {s₀ : Blockchain F}
    (htm : i + times.length = fc) (h : Scanned K disk fc i s₀) (hun : Unread i s₀)
    (hrun : run (validateStep K) s₀ times = some s)
    (hfits : Along (validateStep K) (fun s _ => NextFits K s) s₀ times) :
    Scanned K disk fc fc s ∧ ∀ b, i ≤ b → b + 1 < fc → FullBlock K (disk b) := by
  induction times generalizing i s₀ with
  | nil =>
    cases hrun
    obtain rfl : i = fc := htm
    exact ⟨h, fun b hb hb' => by omega⟩
  | cons now times ih =>
    rw [List.length_cons] at htm
    have hi : i < fc := by omega
    obtain ⟨r, s₁, heq, rfl, h₁, hun₁⟩ :=
      h.validate hi (hacc i hi).wellShaped (hun.nextClosed (Nat.le_of_eq h.valid_eq.symm) now)
    have hs₁ : validateStep K s₀ now = some s₁ := by rw [validateStep, heq]
    obtain ⟨s', hs', hrun'⟩ := run_cons hrun
    cases hs₁.symm.trans hs'
    obtain ⟨hs, hre⟩ := ih (by omega) h₁ (hun₁ hun) hrun' (hfits.2 s₁ hs₁)
    refine ⟨hs, fun b hb hb' => ?_⟩
    by_cases hbi : b = i
    · have hfit : NextFits K s₀ := hfits.1
      rw [NextFits, h.valid_eq, h.length_eq, h.disk_eq] at hfit
      rw [hbi]
      exact hfit.resolve_left (by omega)
    · exact hre b (by omega) hb'

theorem sum_full {f : Nat → Nat} {n : Nat} (h : ∀ b < n, f b = K.RecCount) :
    ((List.range n).map f).sum = n * K.RecCount := by
  induction n with
  | zero => rw [Nat.zero_mul]; rfl
  | succ n ih =>
    rw [List.range_succ, List.map_append, List.sum_append, ih fun b hb => h b (by omega),
      List.map_singleton, List.sum_singleton, h n (Nat.lt_succ_self n), Nat.succ_mul]

theorem Scanned.laid (h : Scanned K disk fc fc s) (hacc : ∀ b < fc, Accepted K (disk b))
    (hfull : ∀ b, b + 1 < fc → FullBlock K (disk b)) :
    Laid K s fun b => entryRows F (disk b) := by
  have hfi : ∀ b < fc, Filled K (entryRows F (disk b)) (blockRecCount K (entryRows F (disk b))) :=
    fun b hb => wellShaped_filled (hacc b hb).wellShaped
  have hcount : ∀ b, b + 1 < fc → blockRecCount K (entryRows F (disk b)) = K.RecCount :=
    fun b hb => (hfi b (by omega)).eq_of_fullBlock (stores_entryRows (hacc b (by omega)).1)
      (hfull b hb)
  have hlen := h.length_eq
  refine ⟨h.tiled, fun h0 => ?_, fun b hb => ?_, fun b hb => ⟨_, hfi b (by omega), ?_⟩⟩
  · rw [h.recCount_eq, ← hlen, h0]
    rfl
  · have := hfi b (by omega)
    rwa [hcount b (by omega)] at this
  · rw [h.recCount_eq, ← hlen, ← hb, List.range_succ, List.map_append, List.sum_append,
      sum_full fun b' hb' => hcount b' (by omega), List.map_singleton, List.sum_singleton]

theorem validated_laid {times : List Nat}
    (hrun : run (validateStep K) (create K disk fc) times = some s)
    (hall : s.checksumValidBlockCount = s.tiles.length)
    (hfits : Along (validateStep K) (fun s _ => NextFits K s) (create K disk fc) times) :
    Laid K s fun b => entryRows F (disk b) := by
  have hop := run_opened (create_opened disk fc) hrun
  have htm : 0 + times.length = fc := by
    rw [← hop.valid_eq, hall, hop.length_eq]
  have hacc : ∀ b < fc, Accepted K (disk b) := by
    have := ((validateAll_iff disk fc times).mp ⟨s, hrun⟩).2
    rwa [← Nat.zero_add times.length, htm] at this
  obtain ⟨hsc, hfull⟩ := Scanned.run hacc htm (create_scanned fun b hb => (hacc b hb).1)
    (create_unread disk fc) hrun hfits
  exact hsc.laid hacc fun b hb => hfull b (Nat.zero_le b) hb

end Validation

/-! ## Replacing a block -/

section Replace

variable {rs : Nat → Nat → Row F.Body} {index now : Nat} {data : Nat → Row F.Body} {ec : ExitCode}

theorem AtStart.flush (h : AtStart index now s) {d : TileDesc F.Body F.Checksum}
    (hd : (maybeFlushCache K now s).tiles[index]? = some d) : d.fileHandle.getD 0 = 0 := by
  obtain ⟨d₀, hd₀, ⟨hno, -⟩ | ⟨rfl, hkept⟩⟩ := maybeFlushCache_desc hd
  · rw [hno]
    rfl
  · rcases h d hd₀ with h | h | h
    · rw [h]
      rfl
    · rw [h]
      rfl
    · exact absurd h hkept

/-- What a `replace_block` that succeeded did. -/
theorem replaceBlock_replaces (h : Tiled K s rs) (hh : AtStart index now s)
    (heq : replaceBlock K index data now s = .ok (true, ec) s') :
    index < s.tiles.length ∧ WellShaped (rowTypes K data) ∧ s'.tiles.length = s.tiles.length ∧
      s'.recCount = s.recCount ∧ Tiled K s' (update rs index data) := by
  obtain ⟨hdi, hrec, -, hlen, -⟩ := maybeFlushCache_frame (K := K) (s := s) now
  have hf := h.flush now
  obtain ⟨d, t', hd, hsh, hsn, rfl⟩ := replaceBlock_ok heq
  have hlt := (List.getElem?_eq_some_iff.mp hd).1
  have hsr := hh.flush hd
  obtain ⟨t, hsy, hde, hst⟩ := syncToFile_stores (t := Tile.setTileData data ⟨s.disk index, d⟩)
    true (hdi ▸ (hf _ _ hd).1) hsr rfl
  cases hsn.symm.trans hsy
  refine ⟨hlen ▸ hlt, hsh, (putTile_length _ index t').trans hlen, hrec, ?_⟩
  exact hf.putTile hlt ⟨hst, .inl (by rw [hde]; rfl)⟩

/-- A block replaced by one with as many rows in use. -/
theorem Laid.replace (h : Laid K s rs) (hidx : index < s.tiles.length)
    (hsh : WellShaped (rowTypes K data))
    (hcount : blockRecCount K data = (filledRows (s.disk index)).length)
    (hlen : s'.tiles.length = s.tiles.length) (hrec : s'.recCount = s.recCount)
    (htl : Tiled K s' (update rs index data)) :
    Laid K s' (update rs index data) := by
  -- the new block is filled as far as the old one was
  have hfi : ∀ u, Filled K (rs index) u → Filled K data u := by
    intro u hu
    have hnew := wellShaped_filled hsh
    rwa [hcount, hu.filledRows_eq (h.tiled.stores hidx), List.length_map, List.length_range] at hnew
  have hfi' : ∀ b u, Filled K (rs b) u → Filled K (update rs index data b) u := by
    intro b u hu
    by_cases hb : b = index
    · subst hb
      rw [update_self]
      exact hfi u hu
    · rwa [update_of_ne hb]
  refine ⟨htl, fun h0 => by omega, fun b hb => hfi' b _ (h.full b (by omega)), fun b hb => ?_⟩
  obtain ⟨u, hu, hsum⟩ := h.last b (by omega)
  exact ⟨u, hfi' b u hu, hrec.trans hsum⟩

theorem Laid.step (h : Laid K s rs) {u : Update F} (hu : Replaces K s u)
    (hs : updateStep K s u = some s') : ∃ rs', Laid K s' rs' := by
  cases u with
  | append p now =>
    unfold updateStep at hs
    dsimp only at hs
    split at hs
    · cases hs
      obtain ⟨rs', -, h', -⟩ := h.append (append_appended h.tiled ‹_›)
      exact ⟨rs', h'⟩
    · cases hs
  | replaceBlock index data now =>
    unfold updateStep at hs
    dsimp only at hs
    split at hs
    · cases hs
      obtain ⟨hidx, hsh, hlen, hrec, htl⟩ := replaceBlock_replaces h.tiled hu.2 ‹_›
      exact ⟨_, h.replace hidx hsh (hu.1 hidx) hlen hrec htl⟩
    · cases hs

end Replace

/-! ## Runs -/

/-- **The counters describe the blocks**, in every state reached from a folder of blocks by
validating all of them, each full or the last, and then by appending rows and replacing
blocks by others with as many rows in use. -/
theorem run_rowCounters (K : Params) (disk : Nat → Entry F.Body) (fc : Nat) (times : List Nat)
    (s₀ : Blockchain F) (hval : run (validateStep K) (create K disk fc) times = some s₀)
    (hall : s₀.checksumValidBlockCount = s₀.tiles.length)
    (hfits : Along (validateStep K) (fun s _ => NextFits K s) (create K disk fc) times)
    (us : List (Update F)) (hus : Along (updateStep K) (Replaces K) s₀ us) (s : Blockchain F)
    (hrun : run (updateStep K) s₀ us = some s) : RowCounters K s := by
  obtain ⟨rs, h⟩ := run_inv (fun s : Blockchain F => ∃ rs, Laid K s rs)
    (fun _ _ _ ⟨_, h⟩ hu hs => h.step hu hs) ⟨_, validated_laid hval hall hfits⟩ hus hrun
  exact h.rowCounters

/-- A full block and one that is not, the first replaced, a row appended. -/
theorem run_rowCounters_replaced :
    let disk := folderOf (digestFormat Nat) fourRows [[7, 8, 9], [10]]
    let us : List (Update (digestFormat Nat)) :=
      [.replaceBlock 0 (blockRows _ [1, 2, 3] .zero) 1, .append 11 1]
    ∃ s₀ s, run (validateStep fourRows) (create fourRows disk 2) [0, 0] = some s₀ ∧
      run (updateStep fourRows) s₀ us = some s ∧ s.recCount = 7 ∧ RowCounters fourRows s := by
  intro disk us
  obtain ⟨s₀, hs₀, hva, hlen, hfl, hfi, s, hs, hrec⟩ : ∃ s₀, run (validateStep fourRows)
      (create fourRows disk 2) [0, 0] = some s₀ ∧ s₀.checksumValidBlockCount = 2 ∧
      s₀.tiles.length = 2 ∧ s₀.nextCacheFlushTimestamp = 0 ∧ (filledRows (s₀.disk 0)).length = 4 ∧
      ∃ s, run (updateStep fourRows) s₀ us = some s ∧ s.recCount = 7 := by decide
  have hus : Along (updateStep fourRows) (Replaces fourRows) s₀ us := by
    refine ⟨⟨fun _ => ?_, fun d _ => .inr (.inr ⟨?_, ?_⟩)⟩, fun _ _ => ⟨trivial, fun _ _ => trivial⟩⟩
    · rw [hfi]
      decide
    · rw [hfl]
      decide
    · rw [hlen]
      decide
  exact ⟨s₀, s, hs₀, hs, hrec, run_rowCounters fourRows disk 2 [0, 0] s₀ hs₀
    (hva.trans hlen.symm) (by decide) us hus s hs⟩

/-- A run after validation, and the object it ends with. -/
theorem miscounted {disk : Nat → Entry (digestFormat Nat).Body} {fc m n : Nat}
    {times : List Nat} {us : List (Update (digestFormat Nat))}
    (hfa : ∃ s₀, run (validateStep fourRows) (create fourRows disk fc) times = some s₀ ∧
      s₀.checksumValidBlockCount = s₀.tiles.length ∧ ∃ s, run (updateStep fourRows) s₀ us = some s ∧
        s.recCount = m ∧ (usedRows s).length = n) (hne : m ≠ n) :
    ∃ s₀ s, run (validateStep fourRows) (create fourRows disk fc) times = some s₀ ∧
      s₀.checksumValidBlockCount = s₀.tiles.length ∧ run (updateStep fourRows) s₀ us = some s ∧
      ¬ RowCounters fourRows s := by
  obtain ⟨s₀, hs₀, hall, s, hs, hrec, hus⟩ := hfa
  refine ⟨s₀, s, hs₀, hall, hs, fun h => hne ?_⟩
  rw [← hrec, ← hus]
  exact h.count

/-- Two blocks of one payload each are validated, although the first is not the last.  A full
block in place of one with three rows is not counted.  A full block in place of one that has
just been read is written behind it. -/
theorem rowCounters_fails : (∃ s, run (validateStep fourRows) (create fourRows
        (folderOf (digestFormat Nat) fourRows [[7], [8]]) 2) [0, 0] = some s ∧
      s.checksumValidBlockCount = s.tiles.length ∧ ¬ RowCounters fourRows s) ∧
    (∃ s₀ s, run (validateStep fourRows) (create fourRows
        (folderOf (digestFormat Nat) fourRows [[7]]) 1) [0] = some s₀ ∧
      s₀.checksumValidBlockCount = s₀.tiles.length ∧
      run (updateStep fourRows) s₀
        [.append 8 0, .replaceBlock 0 (blockRows _ [1, 2, 3] .zero) 0] = some s ∧
      ¬ RowCounters fourRows s) ∧
    (∃ s₀ s, run (validateStep fourRows) (create fourRows
        (folderOf (digestFormat Nat) fourRows [[7, 8, 9]]) 1) [0] = some s₀ ∧
      s₀.checksumValidBlockCount = s₀.tiles.length ∧
      run (updateStep fourRows) s₀ [.replaceBlock 0 (blockRows _ [1, 2, 3] .zero) 0] = some s ∧
      ¬ RowCounters fourRows s) := by
  obtain ⟨s, hs, hva, hlen, hfull⟩ : ∃ s, run (validateStep fourRows) (create fourRows
      (folderOf (digestFormat Nat) fourRows [[7], [8]]) 2) [0, 0] = some s ∧
      s.checksumValidBlockCount = 2 ∧ s.tiles.length = 2 ∧ ¬ FullBlock fourRows (s.disk 0) := by
    decide
  refine ⟨⟨s, hs, hva.trans hlen.symm, fun h => hfull (h.full 0 ?_)⟩,
    miscounted (m := 3) (n := 4) (by decide) (by decide),
    miscounted (m := 4) (n := 8) (by decide) (by decide)⟩
  rw [hlen]
  decide

end GradidoNode.Blockchain
