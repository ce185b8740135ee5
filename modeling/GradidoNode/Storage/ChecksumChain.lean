/-
# `GradidoNode.Storage.ChecksumChain` — the checksum rows against the fold they should be

The rules ask every checksum row to be the left fold of `calc_checksum` over all
payload rows stored up to it, from the zero checksum, across all blocks
(`ChecksumLaw`).  `append` extends that fold from a checksum it does not read
from the file:

    inside a block       the last checksum row in `fetched_data` of the last tile
    at a block boundary  `TileSup::checksum` of the last tile

`Tile::write` changes the file and not `fetched_data`, and nothing ever writes
`TileSup::checksum`.  So the copy may be stale, and then the new checksum row is
the fold of something else.  `append_law` is the exact effect of one `append` on
the law; `run_checksumLaw` says that the law holds throughout every run in which
the copy was current (`CacheCurrent`) whenever `append` used it.

`digestFormat` is a row format with a collision-free checksum: a digest is the
term that was hashed.  Concrete chains are built over it.
-/
import GradidoNode.Storage.Layout
import Mathlib.Logic.Function.Basic

namespace GradidoNode

open FileTile Lib

/-! ## A collision-free checksum -/

/-- Digests as terms. -/
inductive Digest (T : Type) where
  | zero
  | ofPayload (prev : Digest T) (type : UInt8) (p : T)
  | ofChecksum (prev : Digest T) (type : UInt8) (c : Digest T)
  deriving DecidableEq

/-- The rows over a type of payloads, hashed into terms. -/
def digestFormat (T : Type) [Inhabited T] : RowFormat T where
  Body := T ⊕ Digest T
  Checksum := Digest T
  payload := Sum.elim id fun _ => default
  checksum := Sum.elim (fun _ => .zero) id
  ofPayload := Sum.inl
  ofChecksum := Sum.inr
  zeroBody := .inr .zero
  zero := .zero
  calcChecksum c r := match r.body with
    | .inl p => .ofPayload c r.type p
    | .inr d => .ofChecksum c r.type d
  strcpyChecksum := Sum.elim (fun _ => none) some
  payload_ofPayload _ := rfl
  checksum_ofChecksum _ := rfl
  checksum_zeroBody := rfl
  strcpyChecksum_zeroBody := rfl

instance {T : Type} [Inhabited T] [DecidableEq T] : DecidableEq (digestFormat T).Checksum :=
  inferInstanceAs (DecidableEq (Digest T))

theorem digestFormat_injective {T : Type} [Inhabited T] :
    Function.Injective2 (digestFormat T).calcChecksum := by
  rintro c c' ⟨ty, b⟩ ⟨ty', b'⟩ h
  rcases b with p | d <;> rcases b' with p' | d' <;> cases h <;> exact ⟨rfl, rfl⟩

/-- Parameters for blocks of `n` rows, a cache of one block and a flush every ten seconds. -/
def Params.ofRecCount (n : Nat) (h : 2 ≤ n) : Params where
  RecCount := n
  optimalCacheSize := 1
  cacheAutoFlushMinIntervalSec := 10
  sort := List.insertionSort fun a b => a.2 ≤ b.2
  two_le := h
  sort_perm := List.perm_insertionSort _
  sort_sorted l := by
    have hto : Std.Total fun a b : Nat × Nat => a.2 ≤ b.2 := ⟨fun a b => Nat.le_total a.2 b.2⟩
    have htr : IsTrans (Nat × Nat) fun a b => a.2 ≤ b.2 := ⟨fun _ _ _ => Nat.le_trans⟩
    exact List.pairwise_insertionSort _ l

namespace Blockchain

variable {T : Type} {F : RowFormat T} {K : Params}

/-! ## The law -/

/-- The fold over the payload rows of blocks `0 .. b`. -/
def chainFold (F : RowFormat T) (disk : Nat → Entry F.Body) (b : Nat) : F.Checksum :=
  ((List.range (b + 1)).flatMap fun i => payloadRows F (disk i)).foldl F.calcChecksum F.zero

/-- Every block has one checksum row, and it is the fold up to it. -/
def ChecksumLaw (s : Blockchain F) : Prop :=
  ∀ b < s.tiles.length, checksums F (s.disk b) = [chainFold F s.disk b]

/-- The checksum row of the last block, as it is on disk. -/
def storedChecksum (s : Blockchain F) : F.Checksum :=
  if s.tiles.length = 0 then F.zero
  else (checksums F (s.disk (s.tiles.length - 1))).headD F.zero

/-- The copy `append` is about to use agrees with the file. -/
def CacheCurrent (K : Params) (s : Blockchain F) : Prop := usedChecksum K s = storedChecksum s

instance [DecidableEq F.Checksum] (K : Params) (s : Blockchain F) : Decidable (CacheCurrent K s) :=
  inferInstanceAs (Decidable (_ = _))

instance [DecidableEq F.Checksum] (s : Blockchain F) : Decidable (ChecksumLaw s) :=
  inferInstanceAs (Decidable (∀ b < _, _))

/-- The fold over a list of payloads. -/
def payloadFold (F : RowFormat T) (ps : List T) : F.Checksum :=
  (ps.map F.payloadRow).foldl F.calcChecksum F.zero

theorem payloadFold_snoc (ps : List T) (p : T) :
    payloadFold F (ps ++ [p]) = F.calcChecksum (payloadFold F ps) (F.payloadRow p) := by
  simp [payloadFold]

section Law

variable {s : Blockchain F} {ps : List T} {cs : Nat → F.Checksum}

section

variable (h : Holds K s ps cs)
include h

theorem Holds.checksums_eq {b : Nat} (hb : b < s.tiles.length) :
    checksums F (s.disk b) = [cs b] := by
  obtain ⟨d, -, hsy⟩ := h.desc hb
  exact checksums_stores hsy.1 (chunk_length_lt K ps b)

theorem Holds.chainFold_eq {b : Nat} (hb : b < s.tiles.length) :
    chainFold F s.disk b = payloadFold F (ps.take ((b + 1) * perBlock K)) := by
  have hro : (List.range (b + 1)).flatMap (fun i => payloadRows F (s.disk i))
      = (List.range (b + 1)).flatMap fun i => (chunk K ps i).map F.payloadRow := by
    apply List.flatMap_congr
    intro i hi
    exact h.payloadRows_eq (by have := List.mem_range.mp hi; omega)
  rw [chainFold, hro, payloadFold, ← flatMap_chunk, List.map_flatMap]

theorem Holds.checksumLaw_iff : ChecksumLaw s ↔
      ∀ b < s.tiles.length, cs b = payloadFold F (ps.take ((b + 1) * perBlock K)) := by
  refine forall₂_congr fun b hb => ?_
  rw [h.checksums_eq hb, h.chainFold_eq hb, List.singleton_inj]

/-- Under the law the last checksum row is the fold over everything. -/
theorem Holds.storedChecksum_eq (hlaw : ChecksumLaw s) :
    storedChecksum s = payloadFold F ps := by
  unfold storedChecksum
  have hle := h.length_le
  split
  · rename_i h0
    have : ps = [] := by
      rw [h0, Nat.zero_mul] at hle
      exact List.eq_nil_of_length_eq_zero (by omega)
    simp [this, payloadFold]
  · rename_i h0
    have hlt : s.tiles.length - 1 < s.tiles.length := by omega
    have hn : s.tiles.length - 1 + 1 = s.tiles.length := by omega
    rw [h.checksums_eq hlt, List.headD_cons, h.checksumLaw_iff.mp hlaw _ hlt, hn,
      List.take_of_length_le hle]

/-- One `append`, on the law: the new row continues from the copy. -/
theorem append_law (hlaw : ChecksumLaw s) {p : T} {s' : Blockchain F}
    (h' : Holds K s' (ps ++ [p]) (nextChecksums K s ps cs p)) :
    ChecksumLaw s' ↔ F.calcChecksum (usedChecksum K s) (F.payloadRow p)
      = F.calcChecksum (storedChecksum s) (F.payloadRow p) := by
  have hn := Nat.div_add_mod' ps.length (perBlock K)
  have hmod := Nat.mod_lt ps.length (perBlock_pos K)
  have hcount : s'.tiles.length = ps.length / perBlock K + 1 := by
    rw [h'.tiles_length, List.length_append, List.length_singleton, blockCount_succ, blockCount]
    split <;> rfl
  -- the block of the new row, and the blocks before it
  have hla : (ps ++ [p]).take ((ps.length / perBlock K + 1) * perBlock K) = ps ++ [p] := by
    apply List.take_of_length_le
    rw [List.length_append, List.length_singleton, Nat.add_mul, Nat.one_mul]
    omega
  have hbe : ∀ b < ps.length / perBlock K,
      (ps ++ [p]).take ((b + 1) * perBlock K) = ps.take ((b + 1) * perBlock K) := by
    intro b hb
    have := Nat.mul_le_mul_right (perBlock K) hb
    exact List.take_append_of_le_length (Nat.le_trans this (by omega))
  have hold : ∀ b < ps.length / perBlock K,
      cs b = payloadFold F (ps.take ((b + 1) * perBlock K)) := by
    intro b hb
    refine h.checksumLaw_iff.mp hlaw b ?_
    rw [h.tiles_length, blockCount]
    exact Nat.lt_of_lt_of_le hb (Nat.le_add_right _ _)
  rw [h.storedChecksum_eq hlaw, h'.checksumLaw_iff, hcount, ← payloadFold_snoc]
  constructor
  · intro H
    have := H _ (Nat.lt_succ_self _)
    rwa [hla, nextChecksums, Function.update_self] at this
  · intro H b hb
    by_cases hq : b = ps.length / perBlock K
    · rw [hq, hla, nextChecksums, Function.update_self]
      exact H
    · have hlt : b < ps.length / perBlock K := by omega
      rw [hbe b hlt, nextChecksums, Function.update_of_ne hq]
      exact hold b hlt

end

end Law

/-! ## Runs -/

/-- The calls of a run. -/
inductive ChainOp (T : Type) where
  | append (p : T) (now : Nat)
  | getBlock (index now : Nat)
  | getRecord (index now : Nat)
  | flushCache (now : Nat)

/-- One call.  An `append` that does not succeed ends the run; a read that throws
leaves the object in use. -/
def opStep (K : Params) (s : Blockchain F) : ChainOp T → Option (Blockchain F)
  | .append p now =>
    match Blockchain.append K p now s with
    | .ok (true, _) s' => some s'
    | _ => none
  | .getBlock i now => some (stateAfter (Blockchain.getBlock K i now s))
  | .getRecord i now => some (stateAfter (Blockchain.getRecord K i now s))
  | .flushCache now => some (Blockchain.flushCache K now s)

/-- The copy is current whenever `append` uses it. -/
def UsesCurrent (K : Params) (s : Blockchain F) : ChainOp T → Prop
  | .append _ _ => CacheCurrent K s
  | _ => True

instance [DecidableEq F.Checksum] (K : Params) (s : Blockchain F) :
    ∀ op, Decidable (UsesCurrent K s op)
  | .append _ _ => inferInstanceAs (Decidable (CacheCurrent K s))
  | .getBlock _ _ => isTrue trivial
  | .getRecord _ _ => isTrue trivial
  | .flushCache _ => isTrue trivial

section Runs

variable {s s' : Blockchain F} {ps : List T} {cs : Nat → F.Checksum}

theorem getBlock_after (h : Holds K s ps cs) (i now : Nat) :
    Holds K (stateAfter (Blockchain.getBlock K i now s)) ps cs ∧
      Untouched s (stateAfter (Blockchain.getBlock K i now s)) := by
  by_cases hi : i < s.tiles.length
  · obtain ⟨r, s', heq, -, h', hun, -⟩ := getBlock_holds h hi now
    rw [heq]
    exact ⟨h', hun⟩
  · obtain ⟨s', heq, h', hun, -⟩ := getBlock_outside h (Nat.le_of_not_lt hi) now
    rw [heq]
    exact ⟨h', hun⟩

theorem getRecord_after (h : Holds K s ps cs) (i now : Nat) :
    Holds K (stateAfter (Blockchain.getRecord K i now s)) ps cs ∧
      Untouched s (stateAfter (Blockchain.getRecord K i now s)) := by
  have hb := getBlock_after h (i / GRADIDO_BLOCK_SIZE) now
  unfold Blockchain.getRecord
  rw [get_bind]
  by_cases hi : s.recCount ≤ i
  · simp only [hi, if_true]
    exact ⟨h, Untouched.refl s⟩
  · simp only [hi, if_false]
    cases hg : Blockchain.getBlock K (i / GRADIDO_BLOCK_SIZE) now s with
    | error e s' =>
      rw [hg] at hb
      rw [bind_error hg]
      exact hb
    | ok r s' =>
      rw [hg] at hb
      rw [bind_eq hg]
      rcases r with ⟨_ | rows, ec⟩
      · exact hb
      · dsimp only
        split <;> exact hb

theorem append_ok (h : Holds K s ps cs) {p : T} {now : Nat} {r : Bool × ExitCode}
    (heq : Blockchain.append K p now s = .ok r s') :
    Holds K s' (ps ++ [p]) (nextChecksums K s ps cs p) ∧ Untouched s s' := by
  by_cases hu : ps.length % perBlock K = 0 → Usable K.RecCount (s.disk s.tiles.length)
  · obtain ⟨r', s'', heq', -, h', hun, -⟩ := append_holds h hu p now
    rw [heq] at heq'
    cases heq'
    exact ⟨h', hun⟩
  · obtain ⟨hfull, hocc⟩ := Classical.not_imp.mp hu
    obtain ⟨s'', heq'⟩ := append_occupied h hfull hocc p now
    rw [heq] at heq'
    cases heq'

/-- What one call does: nothing to the payloads, or one more of them. -/
theorem opStep_cases (h : Holds K s ps cs) {op : ChainOp T} (hs : opStep K s op = some s') :
    Untouched s s' ∧ (((∀ p now, op ≠ .append p now) ∧ Holds K s' ps cs) ∨
      ∃ p now, op = .append p now ∧ Holds K s' (ps ++ [p]) (nextChecksums K s ps cs p)) := by
  cases op with
  | append p now =>
    unfold opStep at hs
    dsimp only at hs
    split at hs
    · cases hs
      obtain ⟨h', hun⟩ := append_ok h ‹_›
      exact ⟨hun, .inr ⟨p, now, rfl, h'⟩⟩
    · exact absurd hs (by simp)
  | getBlock i now =>
    cases hs
    obtain ⟨h', hun⟩ := getBlock_after h i now
    exact ⟨hun, .inl ⟨fun _ _ => nofun, h'⟩⟩
  | getRecord i now =>
    cases hs
    obtain ⟨h', hun⟩ := getRecord_after h i now
    exact ⟨hun, .inl ⟨fun _ _ => nofun, h'⟩⟩
  | flushCache now =>
    cases hs
    exact ⟨fun b _ => by rw [(flushCache_frame now).1],
      .inl ⟨fun _ _ => nofun, flushCache_holds h now⟩⟩

/-- The invariant of a run in which the copy is always current. -/
theorem opStep_law {op : ChainOp T} (hinv : ∃ ps cs, Holds K s ps cs ∧ ChecksumLaw s)
    (hcur : UsesCurrent K s op) (hs : opStep K s op = some s') :
    ∃ ps cs, Holds K s' ps cs ∧ ChecksumLaw s' := by
  obtain ⟨ps, cs, h, hlaw⟩ := hinv
  rcases (opStep_cases h hs).2 with ⟨-, h'⟩ | ⟨p, now, rfl, h'⟩
  · refine ⟨ps, cs, h', h'.checksumLaw_iff.mpr ?_⟩
    rw [h'.tiles_length, ← h.tiles_length]
    exact h.checksumLaw_iff.mp hlaw
  · have hcur' : usedChecksum K s = storedChecksum s := hcur
    exact ⟨_, _, h', (append_law h hlaw h').mpr (by rw [hcur'])⟩

theorem create_law (disk : Nat → Entry F.Body) :
    ∃ ps cs, Holds K (create K disk 0) ps cs ∧ ChecksumLaw (create K disk 0) :=
  ⟨[], fun _ => F.zero, holds_nil rfl rfl rfl _, fun b hb => absurd hb (Nat.not_lt_zero b)⟩

/-- **The checksum chain.**  In every run from an object without blocks in which
the copy is current whenever `append` uses it, every checksum row of every state
is the fold over all payload rows up to it. -/
theorem run_checksumLaw (K : Params) (disk : Nat → Entry F.Body) (ops : List (ChainOp T))
    (hcur : Along (opStep K) (UsesCurrent K) (create K disk 0) ops) (s : Blockchain F)
    (hrun : run (opStep K) (create K disk 0) ops = some s) : ChecksumLaw s := by
  obtain ⟨-, -, -, hlaw⟩ := run_inv
    (fun s : Blockchain F => ∃ ps cs, Holds K s ps cs ∧ ChecksumLaw s)
    (fun _ _ _ hinv hP hs => opStep_law hinv hP hs) (create_law disk) hcur hrun
  exact hlaw

end Runs

/-! ## Two runs -/

/-- Blocks of four rows. -/
def fourRows : Params := Params.ofRecCount 4 (by decide)

/-- Two rows, the block read again, a third. -/
theorem run_checksumLaw_readBack :
    let ops : List (ChainOp Nat) := [.append 7 0, .append 8 0, .getBlock 0 0, .append 9 0]
    ∃ s, run (opStep (F := digestFormat Nat) fourRows) (create fourRows (fun _ => .missing) 0) ops
        = some s ∧ s.recCount = 4 ∧ ChecksumLaw s := by
  intro ops
  obtain ⟨s, hs⟩ := Option.isSome_iff_exists.mp (show (run (opStep (F := digestFormat Nat) fourRows)
    (create fourRows (fun _ => .missing) 0) ops).isSome from by decide)
  have hrec : (run (opStep (F := digestFormat Nat) fourRows)
      (create fourRows (fun _ => .missing) 0) ops).map recCount = some 4 := by decide
  rw [hs] at hrec
  exact ⟨s, hs, by simpa using hrec, run_checksumLaw fourRows _ ops (by decide) s hs⟩

/-- Three rows one after the other: the third checksum starts from an EMPTY row of
the buffer, which the second `append` did not update. -/
theorem append_three_breaks_law :
    ∃ s, run (opStep (F := digestFormat Nat) fourRows) (create fourRows (fun _ => .missing) 0)
        [.append 7 0, .append 8 0, .append 9 0] = some s ∧ ¬ ChecksumLaw s := by
  decide

end Blockchain

end GradidoNode
