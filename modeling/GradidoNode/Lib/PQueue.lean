/-
# `GradidoNode.Lib.PQueue` — priority queues

A `std::priority_queue` as the list of what it holds.  Its top is an element that
no other is above, in the order of the comparator: with `<` on numbers, the
*largest*.  Which of several equal elements is on top is not specified; here it is
the one pushed last.
-/
import Mathlib.Data.List.Perm.Basic

namespace GradidoNode.Lib.PQueue

variable {α : Type} (less : α → α → Bool)

def push (x : α) (q : List α) : List α := x :: q

/-- `top` and `pop`: the top, and what is left. -/
def pop : List α → Option (α × List α)
  | [] => none
  | x :: q =>
    match pop q with
    | none => some (x, [])
    | some (m, rest) => if less x m then some (m, x :: rest) else some (x, m :: rest)

variable {less} {q rest : List α} {m : α}

theorem pop_eq_none (h : pop less q = none) : q = [] := by
  cases q with
  | nil => rfl
  | cons x q =>
    simp only [pop] at h
    split at h
    · cases h
    · split at h <;> cases h

/-- What is popped was in the queue, and nothing else leaves it. -/
theorem pop_perm (h : pop less q = some (m, rest)) : q.Perm (m :: rest) := by
  induction q generalizing m rest with
  | nil => cases h
  | cons x q ih =>
    simp only [pop] at h
    cases hq : pop less q with
    | none =>
      rw [hq] at h
      cases h
      cases pop_eq_none hq
      exact .refl _
    | some p =>
      rw [hq] at h
      dsimp only at h
      split at h
      · cases h
        exact ((ih hq).cons x).trans (.swap _ _ _)
      · cases h
        exact (ih hq).cons x

/-- Where the comparator is a strict weak order on what the queue holds, nothing is
above the top. -/
theorem pop_max (hay : ∀ a ∈ q, ∀ b ∈ q, less a b = true → less b a = false)
    (htr : ∀ a ∈ q, ∀ b ∈ q, ∀ c ∈ q, less a b = false → less b c = false → less a c = false)
    (h : pop less q = some (m, rest)) : ∀ x ∈ q, less m x = false := by
  have hir : ∀ a ∈ q, less a a = false := by
    intro a ha
    cases haa : less a a with
    | false => rfl
    | true => exact haa.symm.trans (hay a ha a ha haa)
  induction q generalizing m rest with
  | nil => cases h
  | cons x q ih =>
    intro y hy
    simp only [pop] at h
    cases hq : pop less q with
    | none =>
      rw [hq] at h
      cases h
      cases pop_eq_none hq
      rw [List.mem_singleton.mp hy]
      exact hir x List.mem_cons_self
    | some p =>
      obtain ⟨m', rest'⟩ := p
      have hm' : m' ∈ q := (pop_perm hq).mem_iff.mpr List.mem_cons_self
      have hmax := ih (fun a ha b hb => hay a (.tail x ha) b (.tail x hb))
        (fun a ha b hb c hc => htr a (.tail x ha) b (.tail x hb) c (.tail x hc)) hq
        (fun a ha => hir a (.tail x ha))
      rw [hq] at h
      dsimp only at h
      split at h
      · rename_i hls
        cases h
        rcases List.mem_cons.mp hy with rfl | hy
        · exact hay y List.mem_cons_self m (.tail y hm') hls
        · exact hmax y hy
      · rename_i hls
        cases h
        rcases List.mem_cons.mp hy with rfl | hyq
        · exact hir y List.mem_cons_self
        · exact htr x List.mem_cons_self m' (.tail x hm') y (.tail x hyq)
            (Bool.eq_false_iff.mpr hls) (hmax y hyq)

/-- What was on top is on top again when it is put back. -/
theorem pop_push_pop (hor : rest ≠ [] → (∀ a ∈ q, ∀ b ∈ q, less a b = true → less b a = false) ∧
      ∀ a ∈ q, ∀ b ∈ q, ∀ c ∈ q, less a b = false → less b c = false → less a c = false)
    (h : pop less q = some (m, rest)) : ∃ rest', pop less (push m rest) = some (m, rest') := by
  rw [push, pop]
  cases hre : pop less rest with
  | none => exact ⟨[], rfl⟩
  | some p =>
    obtain ⟨m', rest'⟩ := p
    have hm' : m' ∈ rest := (pop_perm hre).mem_iff.mpr List.mem_cons_self
    obtain ⟨hay, htr⟩ := hor (List.ne_nil_of_mem hm')
    have hmax := pop_max hay htr h m' ((pop_perm h).mem_iff.mpr (List.mem_cons_of_mem _ hm'))
    dsimp only
    rw [if_neg (by rw [hmax]; decide)]
    exact ⟨_, rfl⟩

end GradidoNode.Lib.PQueue
