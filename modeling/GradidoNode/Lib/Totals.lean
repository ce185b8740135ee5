/-
# `GradidoNode.Lib.Totals` — totals over the entries of a map

`total f m S` adds up `f` over the entries a map has at the keys in `S`.  A map has
finitely many entries, but which they are is no part of a partial function; so a bound on
"the total" is stated for every finite set of keys.

* one entry written   `total_put_le`
* an entry erased     `total_erase_le`
* two entries written, the one growing by what the other loses: `sum_le_sum_of_pair`
-/
import GradidoNode.Lib.PMap
import Mathlib.Algebra.BigOperators.Group.Finset.Piecewise
import Mathlib.Algebra.Order.BigOperators.Group.Finset

namespace GradidoNode.Lib.PMap

variable {κ α : Type} [DecidableEq κ] {f : α → Nat} {m : PMap κ α} {k k' : κ} {v : α}

omit [DecidableEq κ] in
/-- The value of the entry at `k`, if there is one. -/
def valueAt (f : α → Nat) (m : PMap κ α) (k : κ) : Nat := (m k).elim 0 f

omit [DecidableEq κ] in
/-- The values of the entries at the keys in `S`. -/
def total (f : α → Nat) (m : PMap κ α) (S : Finset κ) : Nat := ∑ k ∈ S, valueAt f m k

omit [DecidableEq κ] in
theorem valueAt_of_some (h : m k = some v) : valueAt f m k = f v := by rw [valueAt, h]; rfl

@[simp] theorem valueAt_put_self : valueAt f (m.put k v) k = f v := valueAt_of_some put_self

theorem valueAt_put_of_ne (h : k' ≠ k) : valueAt f (m.put k v) k' = valueAt f m k' := by
  rw [valueAt, put_of_ne h, valueAt]

omit [DecidableEq κ] in
theorem valueAt_le_total {S : Finset κ} (hk : k ∈ S) : valueAt f m k ≤ total f m S :=
  Finset.single_le_sum (fun _ _ => Nat.zero_le _) hk

omit [DecidableEq κ] in
theorem total_mono {S S' : Finset κ} (h : S ⊆ S') : total f m S ≤ total f m S' :=
  Finset.sum_le_sum_of_subset h

theorem total_put_le {inc : Nat} (h : f v ≤ valueAt f m k + inc) (S : Finset κ) :
    total f (m.put k v) S ≤ total f m S + inc := by
  have hpo : ∀ u ∈ S, valueAt f (m.put k v) u ≤ valueAt f m u + if u = k then inc else 0 := by
    intro u _
    by_cases hu : u = k
    · rw [hu, valueAt_put_self, if_pos rfl]
      exact h
    · rw [valueAt_put_of_ne hu, if_neg hu]
      exact Nat.le_refl _
  calc total f (m.put k v) S
      ≤ ∑ u ∈ S, (valueAt f m u + if u = k then inc else 0) := Finset.sum_le_sum hpo
    _ = total f m S + ∑ u ∈ S, (if u = k then inc else 0) := Finset.sum_add_distrib
    _ ≤ total f m S + inc := by
        refine Nat.add_le_add_left ?_ _
        rw [Finset.sum_ite_eq']
        split
        · exact Nat.le_refl _
        · exact Nat.zero_le _

theorem total_erase_le (S : Finset κ) : total f (m.erase k) S ≤ total f m S := by
  refine Finset.sum_le_sum fun u _ => ?_
  by_cases hu : u = k
  · rw [hu, valueAt, erase_self]
    exact Nat.zero_le _
  · rw [valueAt, erase_of_ne hu, valueAt]

/-- Two sums that differ at two keys only, and there not upwards. -/
theorem sum_le_sum_of_pair {g h : κ → Nat} {S : Finset κ} (hk : k ∈ S) (hk' : k' ∈ S)
    (hne : k ≠ k') (hre : ∀ u, u ≠ k → u ≠ k' → g u ≤ h u)
    (hpa : g k + g k' ≤ h k + h k') : ∑ u ∈ S, g u ≤ ∑ u ∈ S, h u := by
  have hmem : k' ∈ S.erase k := Finset.mem_erase.mpr ⟨hne.symm, hk'⟩
  have hot : ∑ u ∈ (S.erase k).erase k', g u ≤ ∑ u ∈ (S.erase k).erase k', h u := by
    refine Finset.sum_le_sum fun u hu => ?_
    obtain ⟨hu', hu⟩ := Finset.mem_erase.mp hu
    exact hre u (Finset.mem_erase.mp hu).1 hu'
  rw [← Finset.add_sum_erase S g hk, ← Finset.add_sum_erase S h hk,
    ← Finset.add_sum_erase _ g hmem, ← Finset.add_sum_erase _ h hmem]
  omega

end GradidoNode.Lib.PMap
