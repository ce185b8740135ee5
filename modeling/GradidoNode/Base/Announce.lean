/-
# `GradidoNode.Base.Announce` — whether the announced checksums are the stored ones

`get_checksums` is to announce, for each block of a READY chain, how many rows are in
use and the checksum in its CHECKSUM row.  What it takes is (`CopiesBlock`)

    for a block before the last    size `GRADIDO_BLOCK_SIZE`, the text of the last row
    for the last block             size `j + 1`, the text of row `2 * j`,

`j` being the first CHECKSUM row; and a text ends at its first zero byte.
`getChecksums_stored_iff` says when that comes to the same.

For chains that `append` wrote it hardly ever does (`copiesStored_holds_iff`): row
`2 * j` of the last block is EMPTY or outside, so the checksum announced for it is
zero; and for the blocks before it the checksum has to be a string (`IsText`).
-/
import GradidoNode.Base.BlockchainGradido
import GradidoNode.Base.Serve
import GradidoNode.Storage.Counters
import GradidoNode.Storage.Ready
import GradidoNode.Wire.Layout

namespace GradidoNode.Base

open Lib Blockchain FileTile

variable {T : Type} {F : RowFormat T} {cfg : Conf} {s : Blockchain F}

/-- An entry with the number of rows in use of a block, and its checksum. -/
structure RightEntry (e : Entry F.Body) (bi : BlockInfo F) : Prop where
  size_eq : bi.size = (filledRows e).length
  checksum_eq : (checksums F e).getLast? = some bi.checksum

/-- `get_checksums` returns an entry for each block, and the right one. -/
def AnnouncesStored (cfg : Conf) (now : Nat) (s : Blockchain F) : Prop :=
  Returns (getChecksums cfg now) s fun bis _ =>
    bis.length = s.tiles.length ∧ ∀ b bi, bis[b]? = some bi → RightEntry (s.disk b) bi

/-! ## What is taken -/

/-- The first CHECKSUM row of a file. -/
def firstChecksum {Body : Type} (e : Entry Body) : Option Nat :=
  (fileRows e).findIdx? fun r => r.type == RecordType.checksum

/-- The text of row `i` is the checksum of the file. -/
def TextIsChecksum (F : RowFormat T) (e : Entry F.Body) (i : Nat) : Prop :=
  ∃ r c, (fileRows e)[i]? = some r ∧ F.strcpyChecksum r.body = some c ∧
    (checksums F e).getLast? = some c

/-- The rows of block `b` of `n`: of the last block those in use end with its first CHECKSUM row
`j`, and the checksum is the text of row `2 * j`; of a block before it all are in use, and the
checksum is the text of the last one. -/
def CopiesBlock (F : RowFormat T) (n b : Nat) (e : Entry F.Body) : Prop :=
  if b + 1 = n then ∃ j, firstChecksum e = some j ∧ (filledRows e).length = j + 1 ∧
    TextIsChecksum F e (2 * j)
  else (filledRows e).length = GRADIDO_BLOCK_SIZE ∧ TextIsChecksum F e (GRADIDO_BLOCK_SIZE - 1)

/-- So for every block. -/
def CopiesStored (s : Blockchain F) : Prop :=
  ∀ b < s.tiles.length, CopiesBlock F s.tiles.length b (s.disk b)

/-- An entry of the size of the block with the text of row `i`. -/
theorem textIsChecksum_iff {N : Nat} {e : Entry F.Body} {rs : Nat → Row F.Body}
    (hst : Stores N e rs) {size i : Nat} (hi : i < N) :
    (filledRows e).length = size ∧ TextIsChecksum F e i ↔
      ∃ bi : BlockInfo F, (F.strcpyChecksum (rs i).body).map (fun c => [BlockInfo.mk size c]) =
        some [bi] ∧ RightEntry e bi := by
  have hrow : (fileRows e)[i]? = some (rs i) := by simp [fileRows_stores hst, hi]
  constructor
  · rintro ⟨hsize, r, c, hr, hc, hsum⟩
    cases hr.symm.trans hrow
    exact ⟨⟨size, c⟩, by rw [hc]; rfl, hsize.symm, hsum⟩
  · rintro ⟨bi, hbi, hsize, hsum⟩
    obtain ⟨c, hc, hbi⟩ := Option.map_eq_some_iff.mp hbi
    cases hbi
    exact ⟨hsize.symm, _, c, hrow, hc, hsum⟩

/-- That is what `get_checksums` makes of the block. -/
theorem copiesBlock_iff (hK : cfg.K.RecCount = GRADIDO_BLOCK_SIZE) {e : Entry F.Body}
    {rs : Nat → Row F.Body} (hst : Stores cfg.K.RecCount e rs) {n b : Nat} :
    CopiesBlock F n b e ↔ ∃ bi, entriesOf cfg rs (b + 1 == n) = some [bi] ∧ RightEntry e bi := by
  have hrows := fileRows_stores hst
  rw [CopiesBlock, entriesOf]
  by_cases hb : b + 1 = n
  · have hfirst : firstChecksum e = firstSum rs := by
      rw [firstChecksum, hrows, hK]
      rfl
    rw [if_pos hb, if_pos (beq_iff_eq.mpr hb), hfirst]
    cases firstSum rs with
    | none => simp
    | some j =>
      by_cases h2 : 2 * j < cfg.K.RecCount
      · simpa [h2] using textIsChecksum_iff hst h2
      · -- there is no row `2 * j`, and the call fails
        simp [h2, TextIsChecksum, hrows]
  · rw [if_neg hb, if_neg (by simpa using hb)]
    exact textIsChecksum_iff hst (by rw [hK]; decide)

/-! ## Block after block -/

/-- The entries are right from block `i` on. -/
def RightFrom (disk : Nat → Entry F.Body) (i : Nat) (bis : List (BlockInfo F)) : Prop :=
  ∀ k bi, bis[k]? = some bi → RightEntry (disk (i + k)) bi

theorem rightFrom_cons {disk : Nat → Entry F.Body} {i : Nat} {bi : BlockInfo F}
    {bis : List (BlockInfo F)} :
    RightFrom disk i (bi :: bis) ↔ RightEntry (disk i) bi ∧ RightFrom disk (i + 1) bis := by
  constructor
  · intro h
    refine ⟨h 0 bi rfl, fun k bi' hk => ?_⟩
    rw [Nat.add_assoc, Nat.add_comm 1]
    exact h (k + 1) bi' hk
  · rintro ⟨h0, h⟩ k bi' hk
    cases k with
    | zero =>
      cases hk
      exact h0
    | succ k =>
      rw [← Nat.add_assoc, Nat.add_right_comm]
      exact h k bi' hk

theorem entriesFrom_right (hK : cfg.K.RecCount = GRADIDO_BLOCK_SIZE) {n : Nat}
    {rs : Nat → Nat → Row F.Body} {disk : Nat → Entry F.Body}
    (hst : ∀ b < n, Stores cfg.K.RecCount (disk b) (rs b)) :
    ∀ count i, i + count = n → ((∃ bis, entriesFrom cfg rs i count = some bis ∧ bis.length = count ∧
          RightFrom disk i bis) ↔
        ∀ k < count, CopiesBlock F n (i + k) (disk (i + k))) := by
  intro count
  induction count with
  | zero => exact fun i _ => ⟨fun _ k hk => (nomatch hk), fun _ => ⟨[], rfl, rfl, nofun⟩⟩
  | succ count ih =>
    intro i hi
    have hbl : (i + 1 == n) = (count == 0) := by
      simp [← hi]
    have hre := ih (i + 1) (by omega)
    simp only [Nat.add_right_comm i 1, Nat.add_assoc i] at hre
    rw [Nat.forall_lt_succ_left, ← hre, Nat.add_zero i, copiesBlock_iff hK (hst i (by omega)), hbl]
    constructor
    · rintro ⟨bis, hbis, hlen, hri⟩
      obtain ⟨one, hone, hbis⟩ := Option.bind_eq_some_iff.mp hbis
      obtain ⟨rest, hrest, hbis⟩ := Option.bind_eq_some_iff.mp hbis
      cases hbis
      obtain ⟨bi, rfl⟩ : ∃ bi, one = [bi] := by
        cases count with
        | zero =>
          cases hrest
          exact List.length_eq_one_iff.mp (by simpa using hlen)
        | succ count =>
          obtain ⟨c, -, rfl⟩ := Option.map_eq_some_iff.mp hone
          exact ⟨_, rfl⟩
      obtain ⟨h0, hri⟩ := rightFrom_cons.mp hri
      exact ⟨⟨bi, hone, h0⟩, rest, hrest, by simpa using hlen, hri⟩
    · rintro ⟨⟨bi, hone, h0⟩, rest, hrest, hlen, hri⟩
      exact ⟨bi :: rest, by simp [entriesFrom, hone, hrest], by simp [hlen],
        rightFrom_cons.mpr ⟨h0, hri⟩⟩

theorem announcesStored_iff (hK : cfg.K.RecCount = GRADIDO_BLOCK_SIZE)
    {rs : Nat → Nat → Row F.Body} (h : Tiled cfg.K s rs) (now : Nat) :
    AnnouncesStored cfg now s ↔ CopiesStored s := by
  have hst : ∀ b < s.tiles.length, Stores cfg.K.RecCount (s.disk b) (rs b) :=
    fun b hb => (h b _ (List.getElem?_eq_getElem hb)).1
  have hsh : Shows cfg.K s.tiles.length rs fun s' =>
      Tiled cfg.K s' rs ∧ s'.disk = s.disk ∧ s'.tiles.length = s.tiles.length := by
    rintro s₁ b now ⟨h₁, hdi, hlen⟩ hb
    refine (h₁.getBlock (hlen ▸ hb) now).mono ?_
    rintro r s₂ ⟨hr, h₂, hdi', hlen'⟩
    exact ⟨hr, h₂, hdi'.trans hdi, hlen'.trans hlen⟩
  have hlo := entriesFrom_right hK hst _ 0 (Nat.zero_add _)
  simp only [RightFrom, Nat.zero_add] at hlo
  rw [CopiesStored, ← hlo, AnnouncesStored, getChecksums, returns_bind_iff,
    returns_iff_of_ok (show (get : ChainM F (Blockchain F)) s = .ok s s from rfl)]
  exact checksumsFrom_returns_iff hK hsh now ⟨h, rfl, rfl⟩ (Nat.zero_add _)

/-- **Announced checksums.**  `get_checksums` of a READY chain returns for each block the number
of its rows in use and its checksum exactly when these are what it takes: `GRADIDO_BLOCK_SIZE`
rows and the text of the last row, and of the last block the rows to its CHECKSUM row `j` and the
text of row `2 * j`. -/
theorem getChecksums_stored_iff (cfg : Conf) (hK : cfg.K.RecCount = GRADIDO_BLOCK_SIZE)
    (s : Blockchain F) (h : Ready cfg.K s) (now : Nat) :
    AnnouncesStored cfg now s ↔ CopiesStored s := by
  obtain ⟨rs, htl⟩ := h.tiled
  exact announcesStored_iff hK htl now

/-! ## Chains that `append` wrote -/

section Appended

variable {ps : List T} {cs : Nat → F.Checksum}

section Written

variable {e : Entry F.Body} {l : List T} {c : F.Checksum} {n b : Nat}
  (hK : cfg.K.RecCount = GRADIDO_BLOCK_SIZE) (h : Stores cfg.K.RecCount e (blockRows F l c))
  (hl : l.length < cfg.K.RecCount)

include h hl

theorem rightEntry_stores {bi : BlockInfo F} : RightEntry e bi ↔ bi = ⟨l.length + 1, c⟩ := by
  obtain ⟨size, c'⟩ := bi
  have hsum := checksums_stores h hl
  have hfill := filledRows_stores h hl
  constructor
  · rintro ⟨hsize, hla⟩
    simp_all
  · rintro ⟨⟩
    exact ⟨by simp [hfill], by simp [hsum]⟩

include hK

/-- The last block: the row that is read is EMPTY, or outside. -/
theorem copiesBlock_last (hpos : 0 < l.length) :
    CopiesBlock F (b + 1) b e ↔ 2 * l.length < cfg.K.RecCount ∧ c = F.zero := by
  rw [copiesBlock_iff hK h, beq_self_eq_true, entriesOf_last hK hl hpos]
  simp only [rightEntry_stores h hl]
  by_cases h2 : 2 * l.length < cfg.K.RecCount
  · simp [h2, eq_comm]
  · simp [h2]

theorem copiesBlock_before (hfull : l.length + 1 = GRADIDO_BLOCK_SIZE) (hb : b + 1 ≠ n) :
    CopiesBlock F n b e ↔ F.strcpyChecksum (F.ofChecksum c) = some c := by
  rw [copiesBlock_iff hK h, beq_false_of_ne hb, entriesOf_before hfull]
  simp [rightEntry_stores h hl, hfull]

end Written

/-- What is announced of a chain of payloads is right only if its last checksum is zero and
those before it are strings. -/
theorem copiesStored_holds_iff (hK : cfg.K.RecCount = GRADIDO_BLOCK_SIZE)
    (h : Holds cfg.K s ps cs) :
    CopiesStored s ↔ (ps ≠ [] → ¬ LastHalfFull cfg.K ps ∧ cs (s.tiles.length - 1) = F.zero) ∧
      ∀ b, b + 1 < s.tiles.length → F.strcpyChecksum (F.ofChecksum (cs b)) = some (cs b) := by
  have hst : ∀ b < s.tiles.length, Stores cfg.K.RecCount (s.disk b)
      (blockRows F (chunk cfg.K ps b) (cs b)) :=
    fun b hb => (h.tile b _ (List.getElem?_eq_getElem hb)).1
  have hnil : s.tiles.length = 0 ↔ ps = [] := by
    rw [h.tiles_length]
    constructor
    · intro h0
      by_contra hne
      exact absurd h0 (Nat.ne_of_gt (blockCount_pos cfg.K (List.length_pos_iff.mpr hne)))
    · rintro rfl
      simp [blockCount]
  have hbe : ∀ b, b + 1 < s.tiles.length → (CopiesBlock F s.tiles.length b (s.disk b) ↔
        F.strcpyChecksum (F.ofChecksum (cs b)) = some (cs b)) := by
    intro b hb
    have hfull : (chunk cfg.K ps b).length = perBlock cfg.K :=
      chunk_full (by rw [← h.tiles_length]; exact hb)
    have hper := perBlock_add_one cfg.K
    exact copiesBlock_before hK (hst b (by omega)) (chunk_length_lt _ _ _) (by omega) (by omega)
  have hla : s.tiles.length ≠ 0 →
      (CopiesBlock F s.tiles.length (s.tiles.length - 1) (s.disk (s.tiles.length - 1)) ↔
        ¬ LastHalfFull cfg.K ps ∧ cs (s.tiles.length - 1) = F.zero) := by
    intro h0
    obtain ⟨n, hn⟩ : ∃ n, s.tiles.length = n + 1 := ⟨s.tiles.length - 1, by omega⟩
    have hpos : 0 < (chunk cfg.K ps n).length := (chunk_last (by rw [← h.tiles_length, hn])).1
    rw [LastHalfFull, ← h.tiles_length, hn, Nat.add_sub_cancel, Nat.not_le]
    exact copiesBlock_last hK (hst n (by omega)) (chunk_length_lt _ ps n) hpos
  constructor
  · intro hall
    refine ⟨fun hne => ?_, fun b hb => (hbe b hb).mp (hall b (by omega))⟩
    have h0 : s.tiles.length ≠ 0 := fun h0 => hne (hnil.mp h0)
    exact (hla h0).mp (hall _ (by omega))
  · rintro ⟨hl, hb⟩ b hbn
    by_cases hbl : b + 1 < s.tiles.length
    · exact (hbe b hbl).mpr (hb b hbl)
    · obtain rfl : b = s.tiles.length - 1 := by omega
      have h0 : s.tiles.length ≠ 0 := by omega
      exact (hla h0).mpr (hl fun hps => h0 (hnil.mpr hps))

/-- **Announced bytes.**  Of a chain as it is in the files, the checksums that a sibling is sent
are right just if the last one is zero, and the others are strings with their terminator. -/
theorem announcesStored_bytes_iff
    {sha512 : List UInt8 → Vector UInt8 Wire.BLOCKCHAIN_CHECKSUM_SIZE}
    (hK : cfg.K.RecCount = GRADIDO_BLOCK_SIZE) {s : Blockchain (Wire.rowFormat sha512)}
    {ps : List Wire.GradidoRecord} {cs : Nat → Vector UInt8 Wire.BLOCKCHAIN_CHECKSUM_SIZE}
    (h : Holds cfg.K s ps cs) (now : Nat) :
    AnnouncesStored cfg now s ↔
      (ps ≠ [] → ¬ LastHalfFull cfg.K ps ∧ cs (s.tiles.length - 1) = Vector.replicate _ 0) ∧
      ∀ b, b + 1 < s.tiles.length → Wire.IsText (cs b) := by
  rw [announcesStored_iff hK h.tile now, copiesStored_holds_iff hK h]
  exact and_congr_right fun _ => forall_congr' fun b => imp_congr_right fun _ =>
    Wire.strcpyChecksum_ofChecksum sha512 (cs b)

/-- A chain of one payload, in an empty folder. -/
def onePayload (F : RowFormat T) (K : Params) (p : T) : Blockchain F :=
  stateAfter (append K p 0 (Blockchain.create K (fun _ => .missing) 0))

theorem onePayload_spec (F : RowFormat T) (K : Params) (p : T) :
    Ready K (onePayload F K p) ∧ (onePayload F K p).tiles.length = 1 ∧
      ∃ cs, Holds K (onePayload F K p) [p] cs ∧ cs 0 = F.calcChecksum F.zero (F.payloadRow p) := by
  let s₀ : Blockchain F := Blockchain.create K (fun _ => .missing) 0
  have h₀ : Holds K s₀ [] fun _ => F.zero := holds_nil rfl rfl rfl _
  obtain ⟨r, s, heq, -, h, -⟩ := append_holds h₀ (fun _ => .inl rfl) p 0
  have hs : onePayload F K p = s := by
    rw [onePayload, heq]
    rfl
  have hst : readyStep K s₀ (.append p 0) = some s := by
    rw [readyStep, if_pos (show s₀.tiles.length ≤ s₀.checksumValidBlockCount from Nat.le_refl 0),
      storeStep, heq]
    rfl
  have hrun : Lib.run (readyStep K) s₀ [.append p 0] = some s := by
    rw [Lib.run, hst]
    rfl
  rw [hs]
  refine ⟨⟨⟨_, _, _, hrun⟩, Nat.le_of_eq h.valid_eq.symm⟩, ?_, _, h, ?_⟩
  · have hone := blockCount_succ K 0
    rw [Nat.zero_mod, if_pos rfl] at hone
    rw [h.tiles_length]
    exact hone.trans (by simp [blockCount])
  · rw [nextChecksums, List.length_nil, Nat.zero_div, Function.update_self]
    rfl

theorem not_lastHalfFull_one {K : Params} (hK : K.RecCount = GRADIDO_BLOCK_SIZE) (p : T) :
    ¬ LastHalfFull K [p] := by
  have hsize : GRADIDO_BLOCK_SIZE = 1000 := rfl
  rw [LastHalfFull, chunk_length_eq, List.length_singleton]
  omega

end Appended

/-- A row of zeros, and a digest of 64 bytes `x` whatever is hashed. -/
def oneRow (x : UInt8) : Blockchain (Wire.rowFormat fun _ => Vector.replicate _ x) :=
  onePayload _ BlockchainGradido.groupConf.K ⟨0, Vector.replicate _ 0⟩

theorem oneRow_spec (x : UInt8) : Ready BlockchainGradido.groupConf.K (oneRow x) ∧
      (oneRow x).tiles.length = 1 ∧ ∃ cs, Holds BlockchainGradido.groupConf.K (oneRow x)
        [⟨0, Vector.replicate _ 0⟩] cs ∧ cs ((oneRow x).tiles.length - 1) = Vector.replicate _ x := by
  obtain ⟨hready, hlen, cs, h, hsum⟩ := onePayload_spec
    (Wire.rowFormat fun _ => Vector.replicate _ x) BlockchainGradido.groupConf.K
    ⟨0, Vector.replicate _ 0⟩
  exact ⟨hready, hlen, cs, h, (congrArg (fun n => cs (n - 1)) hlen).trans hsum⟩

theorem announcesStored_bytes_zeros :
    AnnouncesStored BlockchainGradido.groupConf 0 (oneRow 0) := by
  obtain ⟨-, hlen, cs, h, hsum⟩ := oneRow_spec 0
  refine (announcesStored_bytes_iff rfl h 0).mpr
    ⟨fun _ => ⟨not_lastHalfFull_one rfl _, hsum⟩, fun b hb => ?_⟩
  omega

/-- With digests of zeros what is announced is right. -/
theorem getChecksums_stored_zeros :
    Ready BlockchainGradido.groupConf.K (oneRow 0) ∧ (oneRow 0).tiles.length = 1 ∧
      AnnouncesStored BlockchainGradido.groupConf 0 (oneRow 0) := by
  obtain ⟨hready, hlen, cs, h, hsum⟩ := oneRow_spec 0
  refine ⟨hready, hlen, (getChecksums_stored_iff _ rfl _ hready 0).mpr ?_⟩
  refine (copiesStored_holds_iff rfl h).mpr
    ⟨fun _ => ⟨not_lastHalfFull_one rfl _, hsum⟩, fun b hb => ?_⟩
  omega

/-- With digests of ones zeros are announced. -/
theorem getChecksums_last_zero : Ready BlockchainGradido.groupConf.K (oneRow 1) ∧
      (outcome (getChecksums BlockchainGradido.groupConf 0 (oneRow 1))).map
        (List.map fun bi => (bi.size, bi.checksum)) = .ok [(2, Vector.replicate _ 0)] ∧
      checksums _ ((oneRow 1).disk 0) = [Vector.replicate _ 1] ∧
      ¬ AnnouncesStored BlockchainGradido.groupConf 0 (oneRow 1) := by
  obtain ⟨hready, hlen, cs, h, hsum⟩ := oneRow_spec 1
  have hst := (h.tile 0 _ (List.getElem?_eq_getElem (by rw [hlen]; decide))).1
  have hsr := checksums_stores hst (chunk_length_lt _ _ _)
  rw [show cs 0 = _ from hlen ▸ hsum] at hsr
  refine ⟨hready, rfl, hsr, fun hann => ?_⟩
  obtain ⟨rs, htl⟩ := hready.tiled
  have hco := (announcesStored_iff rfl htl 0).mp hann
  have hze := (((copiesStored_holds_iff rfl h).mp hco).1 (by simp)).2
  have hne : Vector.replicate Wire.BLOCKCHAIN_CHECKSUM_SIZE (1 : UInt8) ≠ Vector.replicate _ 0 := by
    decide
  exact hne (hsum.symm.trans hze)

end GradidoNode.Base
