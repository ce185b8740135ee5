/-
# `GradidoNode.Base.Serve` — what a chain serves to a sibling

`get_checksums` and `get_block_record` over a chain of a list of payloads, for the
block size of the node.

* `get_checksums` announces one entry for each block: `GRADIDO_BLOCK_SIZE` rows for
  each before the last, and for the last the rows up to its CHECKSUM row, so that all
  rows are counted (`Announced`).  For the last block it copies the checksum of row
  `2 * j`, `j` being the CHECKSUM row.  With half a block of payloads or more that row
  is outside the block (`LastHalfFull`); otherwise it is EMPTY, and what is copied is
  no checksum but an empty string.
* `get_block_record` gives the payloads of a block and its checksum, and nothing
  behind them or behind the last block.
-/
import GradidoNode.Base.BlockchainBase

namespace GradidoNode.Base

open Lib Blockchain

variable {T : Type} {F : RowFormat T} {cfg : Conf} {rows : List T} {cs : Nat → F.Checksum}
  {st : Blockchain F}

/-! ## What is announced -/

/-- The first CHECKSUM row of a block. -/
def firstSum (block : Nat → Row F.Body) : Option Nat :=
  ((List.range GRADIDO_BLOCK_SIZE).map block).findIdx? fun r => r.type == RecordType.checksum

/-- The entries made of a block, the last one or another; `none` where the call fails. -/
def entriesOf (cfg : Conf) (block : Nat → Row F.Body) (last : Bool) :
    Option (List (BlockInfo F)) :=
  if last then
    match firstSum block with
    | none => some []
    | some j =>
      if 2 * j < cfg.K.RecCount then
        (F.strcpyChecksum (block (2 * j)).body).map fun c => [⟨j + 1, c⟩]
      else none
  else
    (F.strcpyChecksum (block (GRADIDO_BLOCK_SIZE - 1)).body).map fun c => [⟨GRADIDO_BLOCK_SIZE, c⟩]

/-- The entries of the last `count` blocks, from block `i` on. -/
def entriesFrom (cfg : Conf) (blocks : Nat → Nat → Row F.Body) :
    Nat → Nat → Option (List (BlockInfo F))
  | _, 0 => some []
  | i, count + 1 => do
    let bis ← entriesOf cfg (blocks i) (count == 0)
    let rest ← entriesFrom cfg blocks (i + 1) count
    return bis ++ rest

section Entries

variable {block block' : Nat → Row F.Body} {blocks : Nat → Nat → Row F.Body} {l : List T}

theorem lastBlockInfo_entries (hK : cfg.K.RecCount = GRADIDO_BLOCK_SIZE)
    (hblock : ∀ j < cfg.K.RecCount, block' j = block j) (st : Blockchain F) :
    ∀ fuel j, j + fuel = GRADIDO_BLOCK_SIZE → (∀ k < j, (block k).type ≠ RecordType.checksum) →
      (∃ r, lastBlockInfo cfg block' j fuel st = .ok r st ∧
        entriesOf cfg block true = some r.toList) ∨
      ((∃ e, lastBlockInfo cfg block' j fuel st = .error e st) ∧
        entriesOf cfg block true = none) := by
  intro fuel
  induction fuel with
  | zero =>
    intro j hj hno
    have hfi : firstSum block = none := by
      simpa [firstSum, ← hj] using hno
    exact .inl ⟨none, rfl, by simp [entriesOf, hfi]⟩
  | succ fuel ih =>
    intro j hj hno
    rw [lastBlockInfo, hblock j (by omega)]
    by_cases hsum : (block j).type = RecordType.checksum
    · have hfi : firstSum block = some j := by
        have hlt : j < GRADIDO_BLOCK_SIZE := by omega
        simpa [firstSum, List.findIdx?_eq_some_iff_getElem, hlt, hsum] using hno
      simp only [entriesOf, hfi, if_true, if_pos hsum]
      by_cases h2 : 2 * j < cfg.K.RecCount
      · rw [if_pos h2, if_pos h2, hblock _ h2]
        cases F.strcpyChecksum (block (2 * j)).body with
        | none => exact .inr ⟨⟨_, rfl⟩, rfl⟩
        | some c => exact .inl ⟨_, rfl, rfl⟩
      · rw [if_neg h2, if_neg h2]
        exact .inr ⟨⟨_, rfl⟩, rfl⟩
    · rw [if_neg hsum]
      refine ih (j + 1) (by omega) fun k hk => ?_
      rcases Nat.lt_succ_iff_lt_or_eq.mp hk with hk | rfl
      · exact hno k hk
      · exact hsum

/-- Reads keep `I`, and show these blocks. -/
def Shows (K : Params) (n : Nat) (blocks : Nat → Nat → Row F.Body) (I : Blockchain F → Prop) :
    Prop :=
  ∀ st b now, I st → b < n → Returns (getBlock K b now) st fun r st' =>
    (∃ block, r = (some block, .ok) ∧ ∀ j < K.RecCount, block j = blocks b j) ∧ I st'

/-- The loop of `get_checksums` over blocks that are only read. -/
theorem checksumsFrom_entries (hK : cfg.K.RecCount = GRADIDO_BLOCK_SIZE) {n : Nat}
    {I : Blockchain F → Prop} (hI : Shows cfg.K n blocks I) (now : Nat) :
    ∀ count i {st : Blockchain F}, I st → i + count = n →
      (∃ bis st', checksumsFrom cfg now i count st = .ok bis st' ∧
        entriesFrom cfg blocks i count = some bis ∧ I st') ∨
      ((∃ e st', checksumsFrom cfg now i count st = .error e st') ∧
        entriesFrom cfg blocks i count = none) := by
  intro count
  induction count with
  | zero => exact fun i st h _ => .inl ⟨[], st, rfl, rfl, h⟩
  | succ count ih =>
    intro i st h hi
    obtain ⟨_, st₁, heq, ⟨block, rfl, hblock⟩, h₁⟩ := hI st i now h (by omega)
    rw [checksumsFrom, bind_eq heq, entriesFrom]
    dsimp only
    by_cases hla : count = 0
    · subst hla
      rw [if_pos rfl]
      rcases lastBlockInfo_entries hK hblock st₁ _ 0 (Nat.zero_add _) (fun k hk => nomatch hk)
        with ⟨r, hr, hen⟩ | ⟨⟨e, he⟩, hen⟩
      · exact .inl ⟨r.toList, st₁, bind_eq hr, by simp [hen, entriesFrom], h₁⟩
      · exact .inr ⟨⟨e, st₁, bind_error he⟩, by simp [hen]⟩
    · have hen : entriesOf cfg (blocks i) (count == 0)
          = (F.strcpyChecksum (block (GRADIDO_BLOCK_SIZE - 1)).body).map
            fun c => [⟨GRADIDO_BLOCK_SIZE, c⟩] := by
        rw [hblock _ (by rw [hK]; decide), entriesOf, if_neg (by simpa using hla)]
      rw [if_neg hla, hen]
      cases F.strcpyChecksum (block (GRADIDO_BLOCK_SIZE - 1)).body with
      | none => exact .inr ⟨⟨_, _, rfl⟩, rfl⟩
      | some c =>
        rcases ih (i + 1) h₁ (by omega) with ⟨bis, st₂, hbis, hre, h₂⟩ | ⟨⟨e, st₂, he⟩, hre⟩
        · exact .inl ⟨_, st₂, bind_eq hbis, by simp [hre], h₂⟩
        · exact .inr ⟨⟨e, st₂, bind_error he⟩, by simp [hre]⟩

theorem checksumsFrom_returns_iff (hK : cfg.K.RecCount = GRADIDO_BLOCK_SIZE) {n : Nat}
    {I : Blockchain F → Prop} (hI : Shows cfg.K n blocks I) (now : Nat) {count i : Nat}
    (h : I st) (hi : i + count = n) {Q : List (BlockInfo F) → Prop} :
    (Returns (checksumsFrom cfg now i count) st fun bis _ => Q bis) ↔
      ∃ bis, entriesFrom cfg blocks i count = some bis ∧ Q bis := by
  rcases checksumsFrom_entries hK hI now count i h hi with ⟨bis, st', hok, hen, -⟩ | ⟨⟨e, st', he⟩, hen⟩
  · rw [returns_iff_of_ok hok, hen]
    simp
  · rw [hen]
    constructor
    · rintro ⟨bis, st', hok, -⟩
      cases he.symm.trans hok
    · rintro ⟨bis, hbis, -⟩
      cases hbis

theorem entriesFrom_isSome : ∀ {count i : Nat}, (entriesFrom cfg blocks i count).isSome ↔
    ∀ k < count, (entriesOf cfg (blocks (i + k)) (k + 1 == count)).isSome := by
  intro count
  induction count with
  | zero => exact fun {i} => ⟨fun _ k hk => (nomatch hk), fun _ => rfl⟩
  | succ count ih =>
    intro i
    have hsp : (entriesFrom cfg blocks i (count + 1)).isSome ↔
        (entriesOf cfg (blocks i) (count == 0)).isSome ∧
          (entriesFrom cfg blocks (i + 1) count).isSome := by
      rw [entriesFrom]
      cases entriesOf cfg (blocks i) (count == 0) <;>
        cases entriesFrom cfg blocks (i + 1) count <;> simp
    rw [hsp, ih, Nat.forall_lt_succ_left]
    refine and_congr ?_ (forall₂_congr fun k _ => ?_)
    · cases count <;> exact Iff.rfl
    · rw [Nat.add_right_comm, Nat.add_assoc i]
      simp

/-- Of the last block the row that is read is EMPTY, or outside. -/
theorem entriesOf_last (hK : cfg.K.RecCount = GRADIDO_BLOCK_SIZE)
    (hl : l.length < cfg.K.RecCount) (hpos : 0 < l.length) (c : F.Checksum) :
    entriesOf cfg (blockRows F l c) true
      = if 2 * l.length < cfg.K.RecCount then some [⟨l.length + 1, F.zero⟩] else none := by
  have hfi : firstSum (blockRows F l c) = some l.length := by
    rw [firstSum, ← hK, map_blockRows hl, List.findIdx?_append, List.findIdx?_eq_none_iff.mpr,
      List.findIdx?_cons]
    · simp
    · intro r hr
      obtain ⟨p, -, rfl⟩ := List.mem_map.mp hr
      simp [RecordType.payload, RecordType.checksum]
  simp only [entriesOf, hfi, if_true]
  rw [blockRows_blank (by omega), show (F.blankRow).body = F.zeroBody from rfl,
    F.strcpyChecksum_zeroBody]
  rfl

theorem entriesOf_before (hl : l.length + 1 = GRADIDO_BLOCK_SIZE) (c : F.Checksum) :
    entriesOf cfg (blockRows F l c) false
      = (F.strcpyChecksum (F.ofChecksum c)).map fun c => [⟨GRADIDO_BLOCK_SIZE, c⟩] := by
  rw [entriesOf, if_neg Bool.false_ne_true, ← hl, Nat.add_sub_cancel, blockRows_length]
  rfl

end Entries

variable (cfg rows) in
/-- The announcement of the blocks from `i` on: one entry for each, full blocks before
the last, and all rows counted. -/
structure Announced (i : Nat) (bis : List (BlockInfo F)) : Prop where
  length_eq : i + bis.length = blockCount cfg.K rows.length
  sum_eq : GRADIDO_BLOCK_SIZE * i + (bis.map BlockInfo.size).sum = rowCount cfg.K rows.length
  full : ∀ bi ∈ bis.dropLast, bi.size = GRADIDO_BLOCK_SIZE

/-- Half a block of payloads or more in the last block, and the scan reads behind it. -/
def LastHalfFull (K : Params) (rows : List T) : Prop :=
  K.RecCount ≤ 2 * (chunk K rows (blockCount K rows.length - 1)).length

section Holds

variable (cfg rows cs) in
/-- The blocks of a chain of payloads. -/
def blocksOf (b : Nat) : Nat → Row F.Body := blockRows F (chunk cfg.K rows b) (cs b)

theorem shows_holds : Shows cfg.K (blockCount cfg.K rows.length) (blocksOf cfg rows cs)
    fun st => Holds cfg.K st rows cs := by
  intro st b now h hb
  refine (getBlock_holds h (by rw [h.tiles_length]; exact hb) now).mono ?_
  rintro r st' ⟨hr, h', -⟩
  exact ⟨hr, h'⟩

theorem entriesFrom_announced (hK : cfg.K.RecCount = GRADIDO_BLOCK_SIZE) :
    ∀ (count i : Nat) {bis : List (BlockInfo F)}, i + (count + 1) = blockCount cfg.K rows.length →
      entriesFrom cfg (blocksOf cfg rows cs) i (count + 1) = some bis →
      Announced cfg rows i bis ∧ ¬ LastHalfFull cfg.K rows := by
  intro count
  induction count with
  | zero =>
    intro i bis hi hen
    obtain ⟨hpos, hsum⟩ := chunk_last hi
    have hone : entriesOf cfg (blocksOf cfg rows cs i) true = some bis := by
      simpa [entriesFrom] using hen
    rw [blocksOf, entriesOf_last hK (chunk_length_lt _ _ _) hpos] at hone
    split at hone
    next h2 =>
      cases hone
      refine ⟨⟨hi, ?_, fun bi hbi => (nomatch hbi)⟩, ?_⟩
      · rw [← hsum, hK]
        rfl
      · rw [LastHalfFull, ← hi, Nat.add_sub_cancel]
        exact Nat.not_le.mpr h2
    next => cases hone
  | succ count ih =>
    intro i bis hi hen
    rw [entriesFrom] at hen
    obtain ⟨_, hone, hen⟩ := Option.bind_eq_some_iff.mp hen
    obtain ⟨bis, hbis, hen⟩ := Option.bind_eq_some_iff.mp hen
    obtain ⟨c, -, rfl⟩ := Option.map_eq_some_iff.mp hone
    cases hen
    obtain ⟨hbis, hla⟩ := ih (i + 1) (by omega) hbis
    refine ⟨⟨?_, ?_, ?_⟩, hla⟩
    · rw [List.singleton_append, List.length_cons, ← hbis.length_eq]
      omega
    · rw [List.singleton_append, List.map_cons, List.sum_cons, ← hbis.sum_eq, Nat.mul_add,
        Nat.mul_one, Nat.add_assoc]
    · intro bi hbi
      have hne : bis ≠ [] := by
        intro hnil
        have hlen := hbis.length_eq
        rw [hnil, List.length_nil] at hlen
        omega
      rw [List.singleton_append, List.dropLast_cons_of_ne_nil hne] at hbi
      rcases List.mem_cons.mp hbi with rfl | hbi
      · rfl
      · exact hbis.full bi hbi

end Holds

theorem getChecksums_ensures (hK : cfg.K.RecCount = GRADIDO_BLOCK_SIZE)
    (h : Holds cfg.K st rows cs) (now : Nat) :
    Ensures (getChecksums cfg now) st fun bis st' =>
      Holds cfg.K st' rows cs ∧ Announced cfg rows 0 bis ∧ ¬ LastHalfFull cfg.K rows := by
  refine .bind (.get ?_)
  rw [h.tiles_length]
  cases hcount : blockCount cfg.K rows.length with
  | zero =>
    have hze : rows.length = 0 := Nat.eq_zero_of_not_pos fun hpos =>
      Nat.ne_of_gt (blockCount_pos cfg.K hpos) hcount
    refine .pure ⟨h, ⟨hcount.symm, ?_, ?_⟩, ?_⟩
    · rw [rowCount, hcount, hze]
      rfl
    · intro bi hbi
      cases hbi
    · have htwo := cfg.K.two_le
      rw [LastHalfFull, chunk_length_eq, hze]
      omega
  | succ count =>
    rcases checksumsFrom_entries hK shows_holds now (count + 1) 0 h (by omega)
      with ⟨bis, st', hok, hen, h'⟩ | ⟨⟨e, st', he⟩, -⟩
    · exact Returns.ensures ⟨bis, st', hok, h', entriesFrom_announced hK count 0 (by omega) hen⟩
    · intro bis st'' hok
      cases he.symm.trans hok

/-- It does return when the last block is less than half full and the checksums of the
blocks before it can be copied. -/
theorem getChecksums_returns (hK : cfg.K.RecCount = GRADIDO_BLOCK_SIZE)
    (h : Holds cfg.K st rows cs) (hla : ¬ LastHalfFull cfg.K rows)
    (hco : 1 < blockCount cfg.K rows.length → ∀ c, (F.strcpyChecksum (F.ofChecksum c)).isSome)
    (now : Nat) :
    Returns (getChecksums cfg now) st fun bis st' =>
      Holds cfg.K st' rows cs ∧ Announced cfg rows 0 bis := by
  have hall : (entriesFrom cfg (blocksOf cfg rows cs) 0 (blockCount cfg.K rows.length)).isSome := by
    refine entriesFrom_isSome.mpr fun k hk => ?_
    rw [Nat.zero_add]
    by_cases hlast : k + 1 = blockCount cfg.K rows.length
    · rw [LastHalfFull, ← hlast, Nat.add_sub_cancel, Nat.not_le] at hla
      rw [beq_iff_eq.mpr hlast, blocksOf,
        entriesOf_last hK (chunk_length_lt _ _ _) (chunk_last hlast).1, if_pos hla]
      rfl
    · have hfull : (chunk cfg.K rows k).length + 1 = GRADIDO_BLOCK_SIZE := by
        rw [chunk_full (by omega), perBlock_add_one, hK]
      rw [beq_false_of_ne hlast, blocksOf, entriesOf_before hfull, Option.isSome_map]
      exact hco (by omega) (cs k)
  have hre : Returns (getChecksums cfg now) st fun _ _ => True := by
    refine .bind (.get ?_)
    rw [h.tiles_length]
    obtain ⟨bis, hbis⟩ := Option.isSome_iff_exists.mp hall
    exact (checksumsFrom_returns_iff hK shows_holds now h (Nat.zero_add _)).mpr ⟨bis, hbis, trivial⟩
  refine (hre.and_ensures (getChecksums_ensures hK h now)).mono ?_
  rintro bis st' ⟨-, h', hbis, -⟩
  exact ⟨h', hbis⟩

/-! ## The rows of a block -/

/-- Row `j` of block `b`: the payloads and the checksum behind them are sent. -/
theorem getBlockRecord_row (hK : cfg.K.RecCount = GRADIDO_BLOCK_SIZE) (h : Holds cfg.K st rows cs)
    {b j : Nat} (hb : b < blockCount cfg.K rows.length) (hj : j < GRADIDO_BLOCK_SIZE) (now : Nat) :
    Returns (getBlockRecord cfg (j + GRADIDO_BLOCK_SIZE * b) now) st fun r st' =>
      Holds cfg.K st' rows cs ∧
      r = if j ≤ (chunk cfg.K rows b).length
        then some (some (blockRows F (chunk cfg.K rows b) (cs b) j).body) else none := by
  have hpos : 0 < GRADIDO_BLOCK_SIZE := by decide
  have hdiv : (j + GRADIDO_BLOCK_SIZE * b) / GRADIDO_BLOCK_SIZE = b := by
    rw [Nat.add_mul_div_left _ _ hpos, Nat.div_eq_of_lt hj, Nat.zero_add]
  have hmod : (j + GRADIDO_BLOCK_SIZE * b) % GRADIDO_BLOCK_SIZE = j := by
    rw [Nat.add_mul_mod_self_left, Nat.mod_eq_of_lt hj]
  have htl : ¬ st.tiles.length ≤ b := by
    rw [h.tiles_length]
    exact Nat.not_le.mpr hb
  refine .bind (.get ?_)
  simp only [hdiv, hmod, htl, if_false]
  refine .bind ((getBlock_holds h (Nat.not_le.mp htl) now).mono ?_)
  rintro r st' ⟨⟨block, rfl, hblock⟩, h', -, -⟩
  simp only [hblock j (by omega)]
  rcases Nat.lt_trichotomy j (chunk cfg.K rows b).length with hlt | heq | hgt
  · have hrow := blockRows_payload (c := cs b) (List.getElem?_eq_getElem hlt)
    rw [if_pos (Nat.le_of_lt hlt), hrow]
    exact .pure ⟨h', rfl⟩
  · rw [if_pos (Nat.le_of_eq heq), heq, blockRows_length]
    exact .pure ⟨h', rfl⟩
  · rw [if_neg (Nat.not_le.mpr hgt), blockRows_blank hgt]
    exact .pure ⟨h', rfl⟩

theorem getBlockRecord_outside (h : Holds cfg.K st rows cs) {b : Nat}
    (hb : blockCount cfg.K rows.length ≤ b) (now : Nat) :
    getBlockRecord cfg (0 + GRADIDO_BLOCK_SIZE * b) now st = .ok none st := by
  have hdiv : (0 + GRADIDO_BLOCK_SIZE * b) / GRADIDO_BLOCK_SIZE = b := by
    rw [Nat.zero_add, Nat.mul_div_cancel_left _ (by decide)]
  rw [getBlockRecord, get_bind]
  simp only [hdiv]
  rw [if_pos (by rw [h.tiles_length]; exact hb)]
  rfl

end GradidoNode.Base
