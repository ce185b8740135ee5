/-
# `GradidoNode.Lib.Places` — how many actors are at a place

Actors are numbered, and a list says where each of them is.  One of them moves by
`List.set`.  What a move does to the number of those at a place is stated as a balance,
with the actor that left on one side and the one that came on the other, so that nothing
is subtracted.

Items go through the hands of the actors: `Balanced l f inn out` says that of each item,
as many as came to a place (`inn`) have gone from it (`out`) or are there now.  It is kept
by an actor that comes with an item, one that leaves with it, and one that passes.
-/
import Mathlib.Data.List.Basic

namespace GradidoNode.Lib

variable {α : Type} {l : List α} {i : Nat} {p : α}

/-- An actor moves from `p` to `q`. -/
theorem countP_move (h : l[i]? = some p) (f : α → Bool) (q : α) :
    (l.set i q).countP f + (f p).toNat = l.countP f + (f q).toNat := by
  obtain ⟨hi, rfl⟩ := List.getElem?_eq_some_iff.mp h
  have hpos : (f l[i]).toNat ≤ l.countP f := by
    cases hf : f l[i] with
    | false => exact Nat.zero_le _
    | true => exact List.countP_pos_iff.mpr ⟨l[i], List.getElem_mem hi, hf⟩
  have hif : ∀ b : Bool, (if b = true then 1 else 0) = b.toNat := by decide
  rw [List.countP_set hi, hif, hif]
  omega

theorem count_snoc (l : List Nat) (u t : Nat) :
    (l ++ [u]).count t = l.count t + (u == t).toNat := by
  rw [List.count_append, List.count_singleton]
  cases u == t <;> rfl

/-- Of each item `t`, what came is what has gone and what is at the place `f t`. -/
def Balanced (l : List α) (f : Nat → α → Bool) (inn out : List Nat) : Prop :=
  ∀ t, inn.count t = l.countP (f t) + out.count t

namespace Balanced

variable {f : Nat → α → Bool} {inn out : List Nat} {q : α} {t : Nat}
  (h : Balanced l f inn out)
include h

theorem comes (hp : l[i]? = some p) (hfr : ∀ u, f u p = false)
    (hto : ∀ u, f u q = (t == u)) : Balanced (l.set i q) f (inn ++ [t]) out := by
  intro u
  have hcount := h u
  have hmo := countP_move hp (f u) q
  rw [hfr, hto] at hmo
  rw [count_snoc]
  simp only [Bool.toNat_false] at hmo
  omega

theorem leaves (hp : l[i]? = some p) (hfr : ∀ u, f u p = (t == u))
    (hto : ∀ u, f u q = false) : Balanced (l.set i q) f inn (out ++ [t]) := by
  intro u
  have hcount := h u
  have hmo := countP_move hp (f u) q
  rw [hfr, hto] at hmo
  rw [count_snoc]
  simp only [Bool.toNat_false] at hmo
  omega

theorem passes (hp : l[i]? = some p) (hfr : ∀ u, f u p = false)
    (hto : ∀ u, f u q = false) : Balanced (l.set i q) f inn out := by
  intro u
  have hmo := countP_move hp (f u) q
  rw [hfr, hto] at hmo
  rw [h u, show (l.set i q).countP (f u) = l.countP (f u) from hmo]

theorem count_le (t : Nat) : out.count t ≤ inn.count t := by
  rw [h t]
  exact Nat.le_add_left _ _

theorem subset : out ⊆ inn := by
  intro t ht
  exact List.count_pos_iff.mp (Nat.lt_of_lt_of_le (List.count_pos_iff.mpr ht) (h.count_le t))

theorem came (hp : p ∈ l) (hf : f t p = true) : t ∈ inn := by
  have hpos : 0 < l.countP (f t) := List.countP_pos_iff.mpr ⟨p, hp, hf⟩
  rw [← List.count_pos_iff, h t]
  exact Nat.lt_of_lt_of_le hpos (Nat.le_add_right _ _)

theorem all_gone (hno : ∀ p ∈ l, ∀ t, f t p = false) : inn ⊆ out := by
  intro t ht
  have hcount := h t
  have hze : l.countP (f t) = 0 := by
    rw [List.countP_eq_zero]
    intro p hp
    rw [hno p hp t]
    exact Bool.false_ne_true
  rw [hze, Nat.zero_add] at hcount
  rw [← List.count_pos_iff, ← hcount]
  exact List.count_pos_iff.mpr ht

end Balanced

end GradidoNode.Lib
