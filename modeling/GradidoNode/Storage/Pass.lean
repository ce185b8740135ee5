/-
# `GradidoNode.Storage.Pass` — a pass over the payloads of validated blocks

The loops of `add_index_data`, with the code that is run on a payload left open:

    for every block from `indexed_blocks` to the count of validated blocks
      for every row of the block, up to its CHECKSUM row
        visit the payload

A pass that returns is the fold of `visit` over the rows that are read
(`passBlocks_eq_ok`), whatever the storage has; over a chain of payloads these are the
payloads behind the blocks left out (`readRows_holds`).
-/
import GradidoNode.Storage.Layout

namespace GradidoNode.Blockchain

open Lib

variable {T : Type} {F : RowFormat T} {σ : Type}

section Loop

variable (visit : σ → T → Except Fault σ)

/-- The inner loop: rows `j ..` of a block, up to the CHECKSUM row. -/
def passBlock (block : Nat → Row F.Body) : Nat → Nat → σ → Except Fault σ
  | _, 0, x => .ok x
  | j, fuel + 1, x =>
    if (block j).type = RecordType.checksum then .ok x
    else
      match visit x (F.payload (block j).body) with
      | .error e => .error e
      | .ok x => passBlock block (j + 1) fuel x

/-- The outer loop: `count` blocks from block `i` on. -/
def passBlocks (K : Params) (now : Nat) : Nat → Nat → σ → ChainM F σ
  | _, 0, x => return x
  | i, count + 1, x => do
    let r ← getBlock K i now
    match r.1 with
    | none => throw (.undefined "null block")
    | some block =>
      match passBlock visit block 0 GRADIDO_BLOCK_SIZE x with
      | .error e => throw e
      | .ok x => passBlocks K now (i + 1) count x

end Loop

/-- The payloads the inner loop comes to. -/
def blockPayloads (block : Nat → Row F.Body) : Nat → Nat → List T
  | _, 0 => []
  | j, fuel + 1 =>
    if (block j).type = RecordType.checksum then []
    else F.payload (block j).body :: blockPayloads block (j + 1) fuel

/-- The payloads the outer loop comes to. -/
def readRows (K : Params) (now : Nat) : Nat → Nat → ChainM F (List T)
  | _, 0 => return []
  | i, count + 1 => do
    let r ← getBlock K i now
    match r.1 with
    | none => throw (.undefined "null block")
    | some block => do
      let rest ← readRows K now (i + 1) count
      return blockPayloads block 0 GRADIDO_BLOCK_SIZE ++ rest

variable {visit : σ → T → Except Fault σ}

theorem passBlock_eq (block : Nat → Row F.Body) : ∀ (fuel j : Nat) (x : σ),
    passBlock visit block j fuel x = (blockPayloads block j fuel).foldlM visit x := by
  intro fuel
  induction fuel with
  | zero =>
    intro j x
    rfl
  | succ fuel ih =>
    intro j x
    rw [passBlock, blockPayloads]
    split
    · rfl
    · rw [List.foldlM_cons]
      cases visit x (F.payload (block j).body) with
      | error e => rfl
      | ok x' => exact ih (j + 1) x'

/-- A pass that returns is the fold over the rows that are read. -/
theorem passBlocks_eq_ok (K : Params) (now : Nat) :
    ∀ (count i : Nat) {x y : σ} {st st' : Blockchain F},
      passBlocks visit K now i count x st = .ok y st' ↔
        ∃ rows, readRows K now i count st = .ok rows st' ∧ rows.foldlM visit x = .ok y := by
  intro count
  induction count with
  | zero =>
    intro i x y st st'
    constructor
    · intro h
      cases h
      exact ⟨[], rfl, rfl⟩
    · rintro ⟨rows, hre, hfo⟩
      cases hre
      cases hfo
      rfl
  | succ count ih =>
    intro i x y st st'
    rw [passBlocks, readRows]
    cases hget : getBlock K i now st with
    | error e st₁ =>
      rw [bind_error hget, bind_error hget]
      exact ⟨fun h => (nomatch h), fun ⟨_, h, _⟩ => (nomatch h)⟩
    | ok r st₁ =>
      rw [bind_eq hget, bind_eq hget]
      obtain ⟨block?, ec⟩ := r
      cases block? with
      | none => exact ⟨fun h => (nomatch h), fun ⟨_, h, _⟩ => (nomatch h)⟩
      | some block =>
        dsimp only
        rw [passBlock_eq]
        cases hblock : (blockPayloads block 0 GRADIDO_BLOCK_SIZE).foldlM visit x with
        | error e =>
          refine ⟨fun h => (nomatch h), ?_⟩
          rintro ⟨rows, hre, hfo⟩
          obtain ⟨rest, st₂, hrs, hpu⟩ := bind_ok hre
          cases hpu
          rw [List.foldlM_append, hblock] at hfo
          exact nomatch hfo
        | ok x₁ =>
          refine (ih (i + 1)).trans ⟨?_, ?_⟩
          · rintro ⟨rows, hre, hfo⟩
            refine ⟨_, bind_eq hre, ?_⟩
            rw [List.foldlM_append, hblock]
            exact hfo
          · rintro ⟨rows, hre, hfo⟩
            obtain ⟨rest, st₂, hrs, hpu⟩ := bind_ok hre
            cases hpu
            rw [List.foldlM_append, hblock] at hfo
            exact ⟨rest, hrs, hfo⟩

/-! ## Over a chain of payloads -/

variable {K : Params} {rows : List T}

theorem blockPayloads_eq {block : Nat → Row F.Body} {l : List T} {c : F.Checksum}
    (hblock : ∀ j < GRADIDO_BLOCK_SIZE, block j = blockRows F l c j)
    (hl : l.length < GRADIDO_BLOCK_SIZE) :
    ∀ rest pre : List T, l = pre ++ rest →
      blockPayloads block pre.length (GRADIDO_BLOCK_SIZE - pre.length) = rest := by
  intro rest
  induction rest with
  | nil =>
    -- the CHECKSUM row ends the loop
    intro pre heq
    rw [List.append_nil] at heq
    subst heq
    obtain ⟨fuel, hfu⟩ := Nat.exists_eq_succ_of_ne_zero (Nat.sub_ne_zero_of_lt hl)
    rw [hfu, blockPayloads, hblock _ hl, blockRows_length]
    rfl
  | cons p rest ih =>
    intro pre heq
    have hlen : pre.length < l.length := by
      rw [heq, List.length_append, List.length_cons]
      omega
    have hrow : block pre.length = F.payloadRow p := by
      rw [hblock _ (Nat.lt_trans hlen hl), heq, blockRows_middle]
    have hne : (F.payloadRow p).type ≠ RecordType.checksum := by
      rw [RowFormat.payloadRow_type]
      decide
    obtain ⟨fuel, hfu⟩ := Nat.exists_eq_succ_of_ne_zero
      (Nat.sub_ne_zero_of_lt (Nat.lt_trans hlen hl))
    have hfu' : GRADIDO_BLOCK_SIZE - (pre ++ [p]).length = fuel := by
      rw [List.length_append, List.length_singleton]
      omega
    have hnx := ih (pre ++ [p]) (by rw [heq, List.append_assoc]; rfl)
    rw [hfu', List.length_append, List.length_singleton] at hnx
    rw [hfu, blockPayloads, hrow, if_neg hne, RowFormat.payload_payloadRow, hnx]

theorem blockPayloads_block {block : Nat → Row F.Body} {l : List T} {c : F.Checksum}
    (hblock : ∀ j < GRADIDO_BLOCK_SIZE, block j = blockRows F l c j)
    (hl : l.length < GRADIDO_BLOCK_SIZE) : blockPayloads block 0 GRADIDO_BLOCK_SIZE = l :=
  blockPayloads_eq hblock hl l [] rfl

theorem readRows_holds (hK : K.RecCount = GRADIDO_BLOCK_SIZE) (now : Nat) :
    ∀ (count b : Nat) {st : Blockchain F} {cs : Nat → F.Checksum}, Holds K st rows cs →
      b + count = st.tiles.length →
      Returns (readRows K now b count) st fun r st' =>
        r = rows.drop (b * perBlock K) ∧ Holds K st' rows cs := by
  intro count
  induction count with
  | zero =>
    intro b st cs h hb
    refine .pure ⟨?_, h⟩
    rw [List.drop_eq_nil_of_le]
    rw [show b = st.tiles.length from hb]
    exact h.length_le
  | succ count ih =>
    intro b st cs h hb
    refine .bind ((getBlock_holds h (show b < st.tiles.length by omega) now).mono ?_)
    rintro r st₁ ⟨⟨block, rfl, hblock⟩, h₁, -⟩
    have hlt := chunk_length_lt K rows b
    rw [hK] at hblock hlt
    have hlen : st₁.tiles.length = st.tiles.length := by rw [h₁.tiles_length, h.tiles_length]
    refine .bind ((ih (b + 1) h₁ (by omega)).mono ?_)
    rintro rest st₂ ⟨rfl, h₂⟩
    refine .pure ⟨?_, h₂⟩
    rw [blockPayloads_block hblock hlt]
    exact (drop_chunk K rows b).symm

theorem passBlocks_holds (hK : K.RecCount = GRADIDO_BLOCK_SIZE) {st : Blockchain F}
    {cs : Nat → F.Checksum} (h : Holds K st rows cs) {x y : σ}
    (hfo : rows.foldlM visit x = .ok y) (now : Nat) :
    Returns (passBlocks visit K now 0 st.tiles.length x) st fun r st' =>
      r = y ∧ Holds K st' rows cs := by
  obtain ⟨r, st', hre, rfl, h'⟩ := readRows_holds hK now _ 0 h (Nat.zero_add _)
  rw [Nat.zero_mul, List.drop_zero] at hre
  exact ⟨y, st', (passBlocks_eq_ok K now _ 0).mpr ⟨rows, hre, hfo⟩, rfl, h'⟩

end GradidoNode.Blockchain
