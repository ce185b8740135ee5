/-
# `GradidoNode.Lib.Packed` — objects as bytes in memory

A packed object is its fields, one behind the other, without padding.  `Packed α` is
such a layout of the values of `α`: a size, the bytes of a value, and the value that
given bytes are.  Both directions are inverse to each other, so the values of `α` are
*exactly* the byte strings of the given size: any bytes are a value, and a value is
determined by its bytes (`read_eq_iff`).

Layouts are built from bytes, byte arrays and little-endian integers by `pair` and
`map`.

`read_shift_iff` is about an object read one byte too far: everything one byte ahead
of its place, and a zero at the end.  It is the object itself only if that is all zero.
-/
import Mathlib.Algebra.Group.Nat.Defs
import Mathlib.Data.List.Basic
import Mathlib.Logic.Equiv.Defs

namespace GradidoNode.Lib

/-- A layout of the values of `α` in memory. -/
structure Packed (α : Type) where
  size : Nat
  write : α → List UInt8
  read : List UInt8 → α
  length_write : ∀ a, (write a).length = size
  read_write : ∀ a, read (write a) = a
  write_read : ∀ bs, bs.length = size → write (read bs) = bs

namespace Packed

variable {α β : Type}

/-- The only bytes that are read as `a` are those of `a`. -/
theorem read_eq_iff (P : Packed α) {bs : List UInt8} {a : α} (h : bs.length = P.size) :
    P.read bs = a ↔ bs = P.write a := by
  constructor
  · intro hre
    rw [← hre, P.write_read bs h]
  · intro hbs
    rw [hbs, P.read_write]

/-! ## Layouts -/

def byte : Packed UInt8 where
  size := 1
  write b := [b]
  read bs := bs.headD 0
  length_write _ := rfl
  read_write _ := rfl
  write_read bs h := by
    obtain ⟨b, rfl⟩ := List.length_eq_one_iff.mp h
    rfl

/-- An array of `n` bytes. -/
def array (n : Nat) : Packed (Vector UInt8 n) where
  size := n
  write v := v.toList
  read bs := Vector.ofFn fun i : Fin n => bs.getD i 0
  length_write v := v.length_toList
  read_write v := by
    ext i hi
    simp
  write_read bs h := by
    refine List.ext_getElem (by simp [h]) ?_
    intro i hi hi'
    simp [hi']

theorem toList_read_array {n : Nat} {bs : List UInt8} (h : bs.length = n) :
    ((array n).read bs).toList = bs :=
  (array n).write_read bs h

theorem getElem_read_array {n : Nat} (bs : List UInt8) {i : Nat} (hi : i < n) :
    ((array n).read bs)[i] = bs.getD i 0 := by
  simp only [array, Vector.getElem_ofFn]

theorem getD_read_array {n : Nat} (bs : List UInt8) (i : Nat) :
    ((array n).read bs).toList.getD i 0 = if i < n then bs.getD i 0 else 0 := by
  rw [List.getD_eq_getElem?_getD]
  split
  · rename_i hi
    rw [List.getElem?_eq_getElem (by simpa using hi), Vector.getElem_toList, getElem_read_array]
    rfl
  · rename_i hi
    rw [List.getElem?_eq_none (by simpa using hi)]
    rfl

/-- An array at the beginning of a larger one. -/
theorem read_array_inside {n m : Nat} (h : n ≤ m) (v : Vector UInt8 n) :
    (array n).read ((array m).read v.toList).toList = v := by
  refine Vector.ext fun i hi => ?_
  rw [getElem_read_array, getD_read_array, if_pos (Nat.lt_of_lt_of_le hi h),
    List.getD_eq_getElem?_getD, List.getElem?_eq_getElem (by simpa using hi), Vector.getElem_toList]
  rfl

theorem read_array_zeros (n m : Nat) :
    (array n).read (List.replicate m 0) = Vector.replicate n 0 := by
  refine Vector.ext fun i hi => ?_
  rw [getElem_read_array, Vector.getElem_replicate, List.getD_eq_getElem?_getD,
    List.getElem?_replicate]
  split <;> rfl

/-- Zeros behind the bytes are there anyway. -/
theorem read_array_append_zeros (n k : Nat) (bs : List UInt8) :
    (array n).read (bs ++ List.replicate k 0) = (array n).read bs := by
  refine Vector.ext fun i hi => ?_
  rw [getElem_read_array, getElem_read_array, List.getD_eq_getElem?_getD,
    List.getD_eq_getElem?_getD, List.getElem?_append]
  split
  · rfl
  · next hout =>
    rw [List.getElem?_eq_none (Nat.not_lt.mp hout), List.getElem?_replicate]
    split <;> rfl

/-- One object behind the other. -/
def pair (P : Packed α) (Q : Packed β) : Packed (α × β) where
  size := P.size + Q.size
  write a := P.write a.1 ++ Q.write a.2
  read bs := (P.read (bs.take P.size), Q.read (bs.drop P.size))
  length_write a := by rw [List.length_append, P.length_write, Q.length_write]
  read_write a := by
    rw [List.take_left' (P.length_write a.1), List.drop_left' (P.length_write a.1), P.read_write,
      Q.read_write]
  write_read bs h := by
    rw [P.write_read _ (by rw [List.length_take, h]; omega),
      Q.write_read _ (by rw [List.length_drop, h]; omega), List.take_append_drop]

/-- The same bytes for other values. -/
def map (P : Packed α) (e : β ≃ α) : Packed β where
  size := P.size
  write b := P.write (e b)
  read bs := e.symm (P.read bs)
  length_write b := P.length_write (e b)
  read_write b := by rw [P.read_write, e.symm_apply_apply]
  write_read bs h := by rw [e.apply_symm_apply, P.write_read bs h]

/-! ## Little-endian integers -/

/-- The `n` bytes of `x`, the lowest first. -/
def bytesOf : Nat → Nat → List UInt8
  | 0, _ => []
  | n + 1, x => UInt8.ofNat x :: bytesOf n (x / 256)

/-- The number with the given bytes. -/
def valueOf : List UInt8 → Nat
  | [] => 0
  | b :: bs => b.toNat + 256 * valueOf bs

theorem length_bytesOf (n x : Nat) : (bytesOf n x).length = n := by
  induction n generalizing x with
  | zero => rfl
  | succ n ih => rw [bytesOf, List.length_cons, ih]

theorem valueOf_lt (bs : List UInt8) : valueOf bs < 256 ^ bs.length := by
  induction bs with
  | nil => exact Nat.one_pos
  | cons b bs ih =>
    have hb := b.toNat_lt
    rw [valueOf, List.length_cons, Nat.pow_succ]
    omega

theorem valueOf_bytesOf {n x : Nat} (h : x < 256 ^ n) : valueOf (bytesOf n x) = x := by
  induction n generalizing x with
  | zero =>
    rw [Nat.pow_zero] at h
    rw [bytesOf, valueOf]
    omega
  | succ n ih =>
    rw [Nat.pow_succ] at h
    rw [bytesOf, valueOf, ih (Nat.div_lt_of_lt_mul (by omega)), UInt8.toNat_ofNat']
    omega

theorem bytesOf_valueOf (bs : List UInt8) : bytesOf bs.length (valueOf bs) = bs := by
  induction bs with
  | nil => rfl
  | cons b bs ih =>
    have hb := b.toNat_lt
    have hhe : UInt8.ofNat (b.toNat + 256 * valueOf bs) = b := by
      apply UInt8.toNat_inj.mp
      rw [UInt8.toNat_ofNat']
      omega
    have hta : (b.toNat + 256 * valueOf bs) / 256 = valueOf bs := by omega
    rw [valueOf, List.length_cons, bytesOf, hhe, hta, ih]

/-- An integer type with the numbers of `n` bytes. -/
def integer (n : Nat) (toNat : α → Nat) (ofNat : Nat → α) (hlt : ∀ a, toNat a < 256 ^ n)
    (hof : ∀ a, ofNat (toNat a) = a) (hto : ∀ x < 256 ^ n, toNat (ofNat x) = x) : Packed α where
  size := n
  write a := bytesOf n (toNat a)
  read bs := ofNat (valueOf bs)
  length_write a := length_bytesOf n _
  read_write a := by rw [valueOf_bytesOf (hlt a), hof]
  write_read bs h := by
    have hbs := valueOf_lt bs
    rw [h] at hbs
    rw [hto _ hbs, ← h, bytesOf_valueOf]

def uint32 : Packed UInt32 :=
  integer 4 UInt32.toNat UInt32.ofNat (fun x => x.toNat_lt) (fun _ => UInt32.ofNat_toNat)
    fun _ hx => UInt32.toNat_ofNat_of_lt' hx

def uint64 : Packed UInt64 :=
  integer 8 UInt64.toNat UInt64.ofNat (fun x => x.toNat_lt) (fun _ => UInt64.ofNat_toNat)
    fun _ hx => UInt64.toNat_ofNat_of_lt' hx

def int32 : Packed Int32 :=
  uint32.map ⟨Int32.toUInt32, Int32.ofUInt32, fun _ => rfl, fun _ => rfl⟩

def int64 : Packed Int64 :=
  uint64.map ⟨Int64.toUInt64, Int64.ofUInt64, fun _ => rfl, fun _ => rfl⟩

/-! ## Objects of zeros, and objects read one byte too far -/

/-- The object all of whose bytes are zero. -/
def zero (P : Packed α) : α := P.read (List.replicate P.size 0)

/-- A list that is its own tail with a `b` behind it has nothing but `b`. -/
theorem append_singleton_eq_cons {b : UInt8} :
    ∀ {l : List UInt8} {a : UInt8}, l ++ [b] = a :: l ↔ a :: l = List.replicate (l.length + 1) b := by
  intro l
  induction l with
  | nil =>
    intro a
    constructor
    · intro h
      exact h.symm
    · intro h
      exact h.symm
  | cons c l ih =>
    intro a
    rw [List.cons_append, List.cons.injEq, ih]
    simp only [List.eq_replicate_iff, List.length_cons, true_and, List.forall_mem_cons]
    constructor
    · rintro ⟨rfl, rfl, h⟩
      exact ⟨rfl, rfl, h⟩
    · rintro ⟨rfl, rfl, h⟩
      exact ⟨rfl, rfl, h⟩

theorem read_shift_iff (P : Packed α) (hpos : 0 < P.size) (a : α) :
    P.read ((P.write a).tail ++ [0]) = a ↔ a = P.zero := by
  have hlen := P.length_write a
  cases hw : P.write a with
  | nil =>
    rw [hw, List.length_nil] at hlen
    omega
  | cons b bs =>
    rw [hw, List.length_cons] at hlen
    have hsh : ((b :: bs).tail ++ [0]).length = P.size := by
      rw [List.tail_cons, List.length_append, List.length_singleton, hlen]
    have hze : a = P.zero ↔ P.write a = List.replicate P.size 0 := by
      rw [zero, eq_comm, P.read_eq_iff List.length_replicate, eq_comm]
    rw [P.read_eq_iff hsh, hze, hw, List.tail_cons, append_singleton_eq_cons, hlen]

end Packed

end GradidoNode.Lib
