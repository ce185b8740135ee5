/-
# `GradidoNode.Lib.PMap` — maps as partial functions

A `std::map` as the partial function it stands for.  `insert` of a `std::map`
keeps the entry that is there (`insertNew`); assignment through an iterator is
`put`.  Two maps are equal when they answer every lookup alike, so there is no
order and no representation to reason about.  `Wrote` says which entries of a map are
new, and what is known of them.
-/
import Mathlib.Logic.Function.Basic

namespace GradidoNode.Lib

/-- A map from `κ` to `α`. -/
abbrev PMap (κ α : Type) := κ → Option α

namespace PMap

open Function

variable {κ α : Type} [DecidableEq κ]

def empty : PMap κ α := fun _ => none

/-- The entry at `k` set. -/
def put (m : PMap κ α) (k : κ) (v : α) : PMap κ α := update m k (some v)

/-- An entry at `k` made, unless there is one. -/
def insertNew (m : PMap κ α) (k : κ) (v : α) : PMap κ α :=
  match m k with
  | some _ => m
  | none => m.put k v

def erase (m : PMap κ α) (k : κ) : PMap κ α := update m k none

variable {m : PMap κ α} {k k' : κ} {v : α}

@[simp] theorem put_self : m.put k v k = some v := update_self ..

theorem put_of_ne (h : k' ≠ k) : m.put k v k' = m k' := update_of_ne h ..

theorem put_apply (k' : κ) : m.put k v k' = if k' = k then some v else m k' :=
  update_apply ..

@[simp] theorem erase_self : m.erase k k = none := update_self ..

theorem erase_of_ne (h : k' ≠ k) : m.erase k k' = m k' := update_of_ne h ..

theorem erase_apply (k' : κ) : m.erase k k' = if k' = k then none else m k' :=
  update_apply ..

theorem insertNew_of_none (h : m k = none) : m.insertNew k v = m.put k v := by
  simp only [insertNew, h]

theorem insertNew_of_some {w : α} (h : m k = some w) : m.insertNew k v = m := by
  simp only [insertNew, h]

/-- Two insertions at one key differ unless the key is there or the values are equal. -/
theorem insertNew_eq_insertNew_iff {w : α} :
    m.insertNew k v = m.insertNew k w ↔ (m k).isSome ∨ v = w := by
  cases h : m k with
  | some u => simp [insertNew_of_some h]
  | none =>
    rw [insertNew_of_none h, insertNew_of_none h]
    constructor
    · intro heq
      have hk := congrFun heq k
      rw [put_self, put_self] at hk
      exact .inr (Option.some.inj hk)
    · rintro (hk | rfl)
      · cases hk
      · rfl

/-- An insertion changes nothing just if the key is there. -/
theorem insertNew_eq_self_iff : m.insertNew k v = m ↔ (m k).isSome := by
  cases h : m k with
  | some u => simp [insertNew_of_some h]
  | none =>
    rw [insertNew_of_none h]
    constructor
    · intro heq
      have hk := congrFun heq k
      rw [put_self, h] at hk
      cases hk
    · intro hk
      cases hk

/-! ## What was written -/

section Wrote

variable {ks : List κ} {P : α → Prop} {m' : PMap κ α}

/-- The entries of `m'` at the keys `ks` satisfy `P`; all others were in `m`. -/
def Wrote (ks : List κ) (P : α → Prop) (m m' : PMap κ α) : Prop :=
  ∀ k v, m' k = some v → (k ∈ ks ∧ P v) ∨ (k ∉ ks ∧ m k = some v)

omit [DecidableEq κ] in
theorem Wrote.refl : Wrote [] P m m := fun _ _ hv => .inr ⟨List.not_mem_nil, hv⟩

theorem Wrote.put (h : Wrote ks P m m') (hv : P v) : Wrote (ks ++ [k]) P m (m'.put k v) := by
  intro k' w hw
  rw [put_apply] at hw
  split at hw
  · rename_i heq
    cases hw
    exact .inl ⟨List.mem_append_right _ (List.mem_singleton.mpr heq), hv⟩
  · rename_i hne
    refine (h k' w hw).imp (fun hin => ⟨List.mem_append_left _ hin.1, hin.2⟩) fun hout => ?_
    refine ⟨fun hmem => ?_, hout.2⟩
    rcases List.mem_append.mp hmem with hks | hk
    · exact hout.1 hks
    · exact hne (List.mem_singleton.mp hk)

theorem Wrote.erase (h : Wrote ks P m m') : Wrote ks P m (m'.erase k) := by
  intro k' w hw
  by_cases hk : k' = k
  · rw [hk, erase_self] at hw
    cases hw
  · rw [erase_of_ne hk] at hw
    exact h k' w hw

end Wrote

/-! ## A property of all entries -/

/-- Every value in the map satisfies `P`. -/
def All (P : α → Prop) (m : PMap κ α) : Prop := ∀ k v, m k = some v → P v

section All

variable {P Q : α → Prop}

omit [DecidableEq κ] in
theorem All.empty : All P (empty : PMap κ α) := by
  intro k v h
  cases h

omit [DecidableEq κ] in
theorem All.mono (h : All P m) (hPQ : ∀ v, P v → Q v) : All Q m := fun k v hv => hPQ v (h k v hv)

theorem All.put (h : All P m) (hv : P v) : All P (m.put k v) := by
  intro k' w hw
  rw [put_apply] at hw
  split at hw
  · cases hw
    exact hv
  · exact h k' w hw

theorem All.insertNew (h : All P m) (hv : P v) : All P (m.insertNew k v) := by
  cases hk : m k with
  | some w =>
    rw [insertNew_of_some hk]
    exact h
  | none =>
    rw [insertNew_of_none hk]
    exact h.put hv

theorem All.erase (h : All P m) : All P (m.erase k) := by
  intro k' w hw
  by_cases hk : k' = k
  · rw [hk, erase_self] at hw
    cases hw
  · rw [erase_of_ne hk] at hw
    exact h k' w hw

end All

/-! ## Two maps with related entries -/

variable {β : Type} {R : α → β → Prop} {m' : PMap κ β} {w : β}

/-- The same keys, and related entries. -/
def Related (R : α → β → Prop) (m : PMap κ α) (m' : PMap κ β) : Prop :=
  ∀ k, Option.Rel R (m k) (m' k)

omit [DecidableEq κ] in
theorem Related.empty : Related R (empty : PMap κ α) (PMap.empty : PMap κ β) := fun _ => .none

omit [DecidableEq κ] in
theorem Related.some_left (h : Related R m m') (hk : m' k = some w) :
    ∃ v, m k = some v ∧ R v w := by
  have hrel := h k
  rw [hk] at hrel
  cases hm : m k with
  | none => rw [hm] at hrel; cases hrel
  | some v => rw [hm] at hrel; cases hrel; exact ⟨v, rfl, ‹_›⟩

omit [DecidableEq κ] in
theorem Related.none_left (h : Related R m m') (hk : m' k = none) : m k = none := by
  have hrel := h k
  rw [hk] at hrel
  cases hm : m k with
  | none => rfl
  | some v => rw [hm] at hrel; cases hrel

theorem Related.put (h : Related R m m') (hvw : R v w) : Related R (m.put k v) (m'.put k w) := by
  intro k'
  rw [put_apply, put_apply]
  split
  · exact .some hvw
  · exact h k'

theorem Related.erase (h : Related R m m') : Related R (m.erase k) (m'.erase k) := by
  intro k'
  by_cases hk : k' = k
  · rw [hk, erase_self, erase_self]
    exact .none
  · rw [erase_of_ne hk, erase_of_ne hk]
    exact h k'

end PMap

end GradidoNode.Lib
