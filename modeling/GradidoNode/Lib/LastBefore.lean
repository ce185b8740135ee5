/-
# `GradidoNode.Lib.LastBefore` — the last marked position of a list

A list grows at its end, and some of its elements are marked.  `LastBefore p l n m`: of the
positions below `n` that hold a marked element, `m` is the last.

There is at most one (`LastBefore.unique`), and growth does not change it
(`lastBefore_append`).  At the end of the list it stays while nothing marked is appended
(`LastBefore.append`), and is the position of the marked element that is (`lastBefore_marked`).
-/
import Mathlib.Data.List.Basic

namespace GradidoNode.Lib

variable {α : Type*}

/-- The last position below `n` with an element that `p` marks. -/
structure LastBefore (p : α → Bool) (l : List α) (n m : Nat) : Prop where
  lt : m < n
  marked : ∃ a, l[m]? = some a ∧ p a = true
  after : ∀ k a, m < k → k < n → l[k]? = some a → p a = false

variable {p : α → Bool} {l l' : List α} {n m k : Nat} {a : α}

theorem LastBefore.le (h : LastBefore p l n m) (hk : k < n) (ha : l[k]? = some a)
    (hp : p a = true) : k ≤ m := by
  by_contra hlt
  rw [h.after k a (Nat.lt_of_not_le hlt) hk ha] at hp
  cases hp

theorem LastBefore.unique (h : LastBefore p l n m) (h' : LastBefore p l n k) : m = k := by
  obtain ⟨a, ha, hpa⟩ := h.marked
  obtain ⟨b, hb, hpb⟩ := h'.marked
  exact Nat.le_antisymm (h'.le h.lt ha hpa) (h.le h'.lt hb hpb)

/-- What is appended does not matter to the positions before it. -/
theorem lastBefore_append (hn : n ≤ l.length) :
    LastBefore p (l ++ l') n m ↔ LastBefore p l n m := by
  have hget : ∀ k, k < n → (l ++ l')[k]? = l[k]? := fun k hk =>
    List.getElem?_append_left (Nat.lt_of_lt_of_le hk hn)
  constructor
  · rintro ⟨hlt, ⟨a, ha, hp⟩, haf⟩
    rw [hget m hlt] at ha
    exact ⟨hlt, ⟨a, ha, hp⟩, fun k b hmk hkn hb => haf k b hmk hkn ((hget k hkn).trans hb)⟩
  · rintro ⟨hlt, ⟨a, ha, hp⟩, haf⟩
    rw [← hget m hlt] at ha
    exact ⟨hlt, ⟨a, ha, hp⟩, fun k b hmk hkn hb =>
      haf k b hmk hkn ((hget k hkn).symm.trans hb)⟩

theorem LastBefore.append (h : LastBefore p l l.length m) (hl' : ∀ a ∈ l', p a = false) :
    LastBefore p (l ++ l') (l ++ l').length m := by
  have hbe : LastBefore p (l ++ l') l.length m := (lastBefore_append (Nat.le_refl _)).mpr h
  refine ⟨?_, hbe.marked, fun k b hmk _ hb => ?_⟩
  · rw [List.length_append]
    exact Nat.lt_of_lt_of_le h.lt (Nat.le_add_right _ _)
  · by_cases hk : k < l.length
    · exact hbe.after k b hmk hk hb
    · rw [List.getElem?_append_right (Nat.le_of_not_lt hk)] at hb
      exact hl' b (List.mem_of_getElem? hb)

/-- A marked element is appended, and nothing marked behind it. -/
theorem lastBefore_marked (ha : p a = true) (hl' : ∀ b ∈ l', p b = false) :
    LastBefore p (l ++ a :: l') (l ++ a :: l').length l.length := by
  refine ⟨?_, ⟨a, ?_, ha⟩, fun k b hk _ hb => ?_⟩
  · rw [List.length_append, List.length_cons]
    omega
  · rw [List.getElem?_append_right (Nat.le_refl _), Nat.sub_self, List.getElem?_cons_zero]
  · obtain ⟨i, rfl⟩ : ∃ i, k = l.length + (i + 1) := ⟨k - l.length - 1, by omega⟩
    rw [List.getElem?_append_right (Nat.le_add_right _ _), Nat.add_sub_cancel_left,
      List.getElem?_cons_succ] at hb
    exact hl' b (List.mem_of_getElem? hb)

end GradidoNode.Lib
