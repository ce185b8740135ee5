/-
# `GradidoNode.Lib.Mutex` — who holds which lock

Threads with a place each in their programs, and locks that name the thread they are
held by.  Which locks are held follows from the place: `Owned` says that the locks and
the places agree.  A step of a thread moves it to another place and takes one lock,
releases one, or does neither; the three lemmas say what is to be checked of the two
places.  That a lock is held by one thread only is `Owned.unique`.
-/
import Mathlib.Logic.Function.Basic

namespace GradidoNode.Lib.Mutex

open Function

variable {θ ℓ π : Type}

/-- A lock is held by a thread just if the thread is at a place where it is held. -/
def Owned (holds : π → List ℓ) (lock : ℓ → Option θ) (place : θ → π) : Prop :=
  ∀ l t, lock l = some t ↔ l ∈ holds (place t)

variable {holds : π → List ℓ} {lock : ℓ → Option θ} {place : θ → π} {t t' : θ} {l : ℓ} {p : π}

theorem Owned.unique (h : Owned holds lock place) (ht : l ∈ holds (place t))
    (ht' : l ∈ holds (place t')) : t = t' :=
  Option.some.inj (((h l t).mpr ht).symm.trans ((h l t').mpr ht'))

variable [DecidableEq θ]

theorem Owned.stay (h : Owned holds lock place) (hp : holds p = holds (place t)) :
    Owned holds lock (update place t p) := by
  intro l t'
  by_cases ht : t' = t
  · rw [ht, update_self, hp, h l t]
  · rw [update_of_ne ht, h l t']

variable [DecidableEq ℓ]

theorem Owned.take (h : Owned holds lock place) (hfr : lock l = none)
    (hp : holds p = l :: holds (place t)) :
    Owned holds (update lock l (some t)) (update place t p) := by
  intro l' t'
  by_cases hl : l' = l
  · rw [hl, update_self]
    by_cases ht : t' = t
    · rw [ht, update_self, hp]
      exact ⟨fun _ => List.mem_cons_self, fun _ => rfl⟩
    · rw [update_of_ne ht]
      refine ⟨fun hso => absurd (Option.some.inj hso).symm ht, fun hhe => ?_⟩
      rw [(h l t').mpr hhe] at hfr
      cases hfr
  · rw [update_of_ne hl]
    by_cases ht : t' = t
    · rw [ht, update_self, hp, h l' t, List.mem_cons]
      exact ⟨.inr, fun hhe => hhe.resolve_left hl⟩
    · rw [update_of_ne ht, h l' t']

theorem Owned.release (h : Owned holds lock place) (hp : holds (place t) = l :: holds p)
    (hl : l ∉ holds p) :
    Owned holds (update lock l none) (update place t p) := by
  intro l' t'
  by_cases hl' : l' = l
  · rw [hl', update_self]
    refine ⟨fun hso => (by cases hso), fun hhe => ?_⟩
    by_cases ht : t' = t
    · rw [ht, update_self] at hhe
      exact absurd hhe hl
    · rw [update_of_ne ht] at hhe
      exact absurd (h.unique hhe (by rw [hp]; exact List.mem_cons_self)) ht
  · rw [update_of_ne hl']
    by_cases ht : t' = t
    · rw [ht, update_self, h l' t, hp, List.mem_cons]
      exact ⟨fun hhe => hhe.resolve_left hl', .inr⟩
    · rw [update_of_ne ht, h l' t']

end GradidoNode.Lib.Mutex
