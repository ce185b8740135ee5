/-
# `GradidoNode.Lib.Memory` — a flat memory

Memory is a byte at every address; `write` puts bytes at an address and on, `read` takes
so many from an address on, and `load` takes an object.  What a program that writes only
from some address on leaves alone is `Frame`, and frames compose.

Several writes are a list (`writes`).  What is read after them is settled by the last one
that is not `Apart` from it.  A write that reaches into what is read leaves it as it was
just if it has the same bytes there (`read_write_over_iff`).
-/
import GradidoNode.Lib.Packed
import Mathlib.Data.List.Basic

namespace GradidoNode.Lib

/-- A byte at every address. -/
abbrev Memory := Nat → UInt8

namespace Memory

/-- `bs` written from `off` on. -/
def write (off : Nat) (bs : List UInt8) (m : Memory) : Memory := fun i =>
  if off ≤ i ∧ i < off + bs.length then bs.getD (i - off) 0 else m i

/-- The `len` bytes from `off` on. -/
def read (m : Memory) (off len : Nat) : List UInt8 := (List.range len).map fun i => m (off + i)

variable {m m' m'' : Memory} {off off' len : Nat} {bs : List UInt8}

theorem length_read (m : Memory) (off len : Nat) : (m.read off len).length = len := by
  rw [read, List.length_map, List.length_range]

theorem getElem_read (m : Memory) (off : Nat) {i : Nat} (h : i < (m.read off len).length) :
    (m.read off len)[i] = m (off + i) := by
  simp only [read, List.getElem_map, List.getElem_range]

theorem headD_read (m : Memory) (off : Nat) : (m.read off 1).headD 0 = m off := rfl

theorem write_outside {i : Nat} (h : i < off ∨ off + bs.length ≤ i) : m.write off bs i = m i := by
  rw [write, if_neg (by omega)]

theorem write_head (b : UInt8) (bs : List UInt8) : m.write off (b :: bs) off = b := by
  rw [write, if_pos ⟨Nat.le_refl _, by rw [List.length_cons]; omega⟩, Nat.sub_self]
  rfl

theorem read_congr (h : ∀ i, off ≤ i → i < off + len → m' i = m i) :
    m'.read off len = m.read off len := by
  refine List.map_congr_left fun i hi => ?_
  have hi := List.mem_range.mp hi
  exact h (off + i) (by omega) (by omega)

theorem read_write (m : Memory) (off : Nat) (bs : List UInt8) :
    (m.write off bs).read off bs.length = bs := by
  refine List.ext_getElem (length_read _ _ _) fun i hi hi' => ?_
  rw [getElem_read, write, if_pos (by omega), Nat.add_sub_cancel_left,
    List.getD_eq_getElem?_getD, List.getElem?_eq_getElem hi', Option.getD_some]

theorem take_read {k : Nat} (h : k ≤ len) : (m.read off len).take k = m.read off k := by
  rw [read, ← List.map_take, List.take_range, Nat.min_eq_left h]
  rfl

theorem drop_read (k : Nat) : (m.read off len).drop k = m.read (off + k) (len - k) := by
  refine List.ext_getElem (by simp [length_read]) fun i hi hi' => ?_
  rw [List.getElem_drop, getElem_read, getElem_read, Nat.add_assoc]

/-! ## Frames -/

/-- Nothing below `off` has changed. -/
def Frame (off : Nat) (m m' : Memory) : Prop := ∀ i < off, m' i = m i

theorem Frame.refl (off : Nat) (m : Memory) : Frame off m m := fun _ _ => rfl

theorem Frame.trans (h : Frame off m m') (h' : Frame off m' m'') : Frame off m m'' :=
  fun i hi => (h' i hi).trans (h i hi)

theorem Frame.mono (h : Frame off' m m') (hle : off ≤ off') : Frame off m m' :=
  fun i hi => h i (Nat.lt_of_lt_of_le hi hle)

theorem frame_write (m : Memory) (off : Nat) (bs : List UInt8) : Frame off m (m.write off bs) :=
  fun _ hi => write_outside (.inl hi)

theorem Frame.read (h : Frame off' m m') (hle : off + len ≤ off') :
    m'.read off len = m.read off len :=
  read_congr fun i _ hi => h i (by omega)

/-! ## Several writes -/

/-- Writes one after the other, each with its address. -/
def writes : List (Nat × List UInt8) → Memory → Memory
  | [], m => m
  | w :: ws, m => writes ws (m.write w.1 w.2)

variable {w : Nat × List UInt8} {ws ws' : List (Nat × List UInt8)}

theorem writes_append : m.writes (ws ++ ws') = (m.writes ws).writes ws' := by
  induction ws generalizing m with
  | nil => rfl
  | cons w ws ih => exact ih

/-- The write is not to any of the `len` bytes from `off` on. -/
def Apart (off len : Nat) (w : Nat × List UInt8) : Prop :=
  w.1 + w.2.length ≤ off ∨ off + len ≤ w.1

variable {a : Nat}

theorem apart_above (h : off + len ≤ a) : Apart off len (a, bs) := .inr h

theorem apart_below {α : Type} (P : Packed α) {x : α} (h : a + P.size ≤ off) :
    Apart off len (a, P.write x) := by
  refine .inl ?_
  rw [P.length_write]
  exact h

theorem read_write_apart (h : Apart off len (a, bs)) :
    (m.write a bs).read off len = m.read off len := by
  refine read_congr fun i hlo hhi => write_outside ?_
  rcases h with h | h
  · exact .inr (Nat.le_trans h hlo)
  · exact .inl (Nat.lt_of_lt_of_le hhi h)

theorem read_writes_apart (h : ∀ w ∈ ws, Apart off len w) :
    (m.writes ws).read off len = m.read off len := by
  induction ws generalizing m with
  | nil => rfl
  | cons w ws ih =>
    rw [writes, ih fun w' hw' => h w' (List.mem_cons_of_mem w hw'),
      read_write_apart (h w List.mem_cons_self)]

theorem writes_apart {i : Nat} (h : ∀ w ∈ ws, Apart i 1 w) : m.writes ws i = m i := by
  rw [← headD_read (m.writes ws) i, read_writes_apart h, headD_read]

theorem writes_below (h : ∀ w ∈ ws, off ≤ w.1) : Frame off m (m.writes ws) :=
  fun _ hi => writes_apart fun w hw => .inr (Nat.le_trans hi (h w hw))

/-- The same writes, where the memory was the same. -/
theorem writes_congr {i : Nat} (h : m i = m' i) : m.writes ws i = m'.writes ws i := by
  induction ws generalizing m m' with
  | nil => exact h
  | cons w ws ih =>
    refine ih ?_
    unfold write
    split
    · rfl
    · exact h

/-- Of a write that begins `k` bytes before, its bytes from the `k`-th on are read. -/
theorem read_write_over (k : Nat) : (m.write off bs).read (off + k) len
      = (bs.drop k).take len ++ (m.read (off + k) len).drop (bs.length - k) := by
  refine List.ext_getElem ?_ fun i hi hi' => ?_
  · simp only [length_read, List.length_append, List.length_take, List.length_drop]
    omega
  · rw [length_read] at hi
    rw [getElem_read, List.getElem_append]
    simp only [List.length_take, List.length_drop, List.getElem_take, List.getElem_drop,
      getElem_read]
    split
    · next hin =>
      have hlt : k + i < bs.length := by omega
      rw [write, if_pos (by omega), List.getD_eq_getElem?_getD,
        show off + k + i - off = k + i by omega, List.getElem?_eq_getElem hlt, Option.getD_some]
    · next hout =>
      rw [write_outside (.inr (by omega))]
      congr 1
      omega

/-- An array that is written as far as `bs` goes. -/
theorem read_write_here (h : bs.length ≤ len) :
    (m.write off bs).read off len = bs ++ (m.read off len).drop bs.length := by
  have hov : (m.write off bs).read (off + 0) len
      = (bs.drop 0).take len ++ (m.read (off + 0) len).drop (bs.length - 0) := read_write_over 0
  rw [Nat.add_zero, List.drop_zero, Nat.sub_zero, List.take_of_length_le h] at hov
  exact hov

/-- It changes nothing just if it has the bytes that are there. -/
theorem read_write_over_iff (k : Nat) : (m.write off bs).read (off + k) len = m.read (off + k) len ↔
      (bs.drop k).take len = (m.read (off + k) len).take (bs.length - k) := by
  have hsp := List.take_append_drop (bs.length - k) (m.read (off + k) len)
  rw [read_write_over]
  conv_lhs => rhs; rw [← hsp]
  exact List.append_left_inj _

/-! ## Objects -/

variable {α β : Type}

/-- The object at `off`. -/
def load (P : Packed α) (off : Nat) (m : Memory) : α := P.read (m.read off P.size)

theorem load_pair (P : Packed α) (Q : Packed β) (off : Nat) (m : Memory) :
    m.load (P.pair Q) off = (m.load P off, m.load Q (off + P.size)) := by
  change (P.read ((m.read off (P.size + Q.size)).take P.size),
    Q.read ((m.read off (P.size + Q.size)).drop P.size)) = _
  rw [take_read (Nat.le_add_right _ _), drop_read, Nat.add_sub_cancel_left]
  rfl

theorem load_map (P : Packed α) (e : β ≃ α) (off : Nat) (m : Memory) :
    m.load (P.map e) off = e.symm (m.load P off) := rfl

theorem load_write (P : Packed α) (off : Nat) (a : α) (m : Memory) :
    (m.write off (P.write a)).load P off = a := by
  have hre := read_write m off (P.write a)
  rw [P.length_write] at hre
  rw [load, hre, P.read_write]

variable {P : Packed α}

theorem load_congr (h : m'.read off P.size = m.read off P.size) :
    m'.load P off = m.load P off := congrArg P.read h

theorem load_write_apart (h : Apart off P.size (a, bs)) :
    (m.write a bs).load P off = m.load P off := load_congr (read_write_apart h)

theorem load_write_below (P : Packed α) (Q : Packed β) {b : β} (h : a + Q.size ≤ off) :
    (m.write a (Q.write b)).load P off = m.load P off := load_write_apart (apart_below Q h)

theorem load_write_byte_below (P : Packed α) {b : UInt8} (h : a + 1 ≤ off) :
    (m.write a [b]).load P off = m.load P off := load_write_below P Packed.byte h

theorem load_write_beyond (P : Packed α) (h : off + P.size ≤ a) :
    (m.write a bs).load P off = m.load P off := load_write_apart (apart_above h)

theorem load_writes_apart (h : ∀ w ∈ ws, Apart off P.size w) :
    (m.writes ws).load P off = m.load P off := load_congr (read_writes_apart h)

theorem Frame.load (h : Frame off' m m') (hle : off + P.size ≤ off') :
    m'.load P off = m.load P off := load_congr (h.read hle)

theorem load_eq_iff : m'.load P off = m.load P off ↔ m'.read off P.size = m.read off P.size := by
  refine ⟨fun h => ?_, load_congr⟩
  rw [← P.write_read _ (length_read m' off P.size), ← P.write_read _ (length_read m off P.size)]
  exact congrArg P.write h

theorem write_load (P : Packed α) (off : Nat) (m : Memory) :
    P.write (m.load P off) = m.read off P.size := P.write_read _ (length_read _ _ _)

theorem read_of_load_zero (h : m.load P off = P.zero) :
    m.read off P.size = List.replicate P.size 0 := by
  rw [← write_load, h, Packed.zero, P.write_read _ List.length_replicate]

/-- An object behind a write that may reach into it. -/
theorem load_write_over_iff (P : Packed α) (k : Nat) :
    (m.write off bs).load P (off + k) = m.load P (off + k) ↔
      (bs.drop k).take P.size = (P.write (m.load P (off + k))).take (bs.length - k) := by
  rw [load_eq_iff, read_write_over_iff, write_load]

theorem load_write_array {n : Nat} (h : m.load (Packed.array n) off = (Packed.array n).zero) :
    (m.write off bs).load (Packed.array n) off = (Packed.array n).read (bs.take n) := by
  have hze : m.read off n = List.replicate n 0 := read_of_load_zero h
  have hov : (m.write off bs).read (off + 0) n
      = (bs.drop 0).take n ++ (m.read (off + 0) n).drop (bs.length - 0) := read_write_over 0
  rw [Nat.add_zero, List.drop_zero, Nat.sub_zero, hze, List.drop_replicate] at hov
  change (Packed.array n).read ((m.write off bs).read off n) = _
  rw [hov, Packed.read_array_append_zeros]

theorem read_zeros (off len : Nat) : read (fun _ => 0) off len = List.replicate len 0 := by
  rw [read, List.map_const', List.length_range]

theorem load_zeros (P : Packed α) (off : Nat) : load P off (fun _ => 0) = P.zero := by
  rw [load, read_zeros, Packed.zero]

end Memory

end GradidoNode.Lib
