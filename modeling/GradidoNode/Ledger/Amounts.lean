/-
# `GradidoNode.Ledger.Amounts` — the arithmetic of `GradidoValue`

A value is two machine words, and stands for a number of millionths.  While the decimal
parts are below a million (`Normalised`), `<` is the order of the numbers, `+` is exact as
long as the sum has a representation, and `-` throws just if the difference has none.

    v + w    exact    v.millionths + w.millionths < 2^64 * 10^6
             loses 2^64 gradidos otherwise, without notice
    v - w    exact    w ≤ v
             throws   otherwise

Two words stand for at most one normalised value each, so what is exact is also undone
exactly: `(v + w) - w = v` and `(v - w) + w = v`.
-/
import GradidoNode.Ledger.Transaction

namespace GradidoNode

namespace GradidoValue

/-- The decimal part is less than one gradido. -/
def Normalised (v : GradidoValue) : Prop := v.decimalAmount < GRADIDO_VALUE_DECIMAL_AMOUNT_BASE

instance (v : GradidoValue) : Decidable v.Normalised :=
  inferInstanceAs (Decidable (v.decimalAmount < GRADIDO_VALUE_DECIMAL_AMOUNT_BASE))

variable {v w r : GradidoValue}

theorem Normalised.toNat_lt (h : v.Normalised) : v.decimalAmount.toNat < 1000000 :=
  UInt32.lt_iff_toNat_lt.mp h

theorem normalised_of_toNat_lt (h : v.decimalAmount.toNat < 1000000) : v.Normalised :=
  UInt32.lt_iff_toNat_lt.mpr h

theorem Normalised.millionths_lt (h : v.Normalised) :
    v.millionths < 18446744073709551616 * 1000000 := by
  have hdec := h.toNat_lt
  have ham := v.amount.toNat_lt
  unfold millionths
  omega

/-- A number of millionths has one normalised representation. -/
theorem eq_of_millionths_eq (hv : v.Normalised) (hw : w.Normalised)
    (h : v.millionths = w.millionths) : v = w := by
  have hdv := hv.toNat_lt
  have hdw := hw.toNat_lt
  unfold millionths at h
  have ham : v.amount = w.amount := UInt64.toNat_inj.mp (by omega)
  have hdec : v.decimalAmount = w.decimalAmount := UInt32.toNat_inj.mp (by omega)
  cases v
  cases w
  cases ham
  cases hdec
  rfl

/-! ## Order -/

theorem less_iff (hv : v.Normalised) (hw : w.Normalised) :
    v.less w = true ↔ v.millionths < w.millionths := by
  have hdv := hv.toNat_lt
  have hdw := hw.toNat_lt
  rw [less, Bool.or_eq_true, Bool.and_eq_true, decide_eq_true_iff, decide_eq_true_iff,
    beq_iff_eq, UInt64.lt_iff_toNat_lt, UInt32.lt_iff_toNat_lt, ← UInt64.toNat_inj, millionths,
    millionths]
  omega

/-! ## Sums -/

/-- What the two words of a sum are, with the carry. -/
theorem toNat_add (v w : GradidoValue) :
    let decimal := (v.decimalAmount.toNat + w.decimalAmount.toNat) % 4294967296
    let amount := (v.amount.toNat + w.amount.toNat) % 18446744073709551616
    if 1000000 ≤ decimal then
      (v.add w).amount.toNat = (amount + 1) % 18446744073709551616 ∧
        (v.add w).decimalAmount.toNat = decimal - 1000000
    else (v.add w).amount.toNat = amount ∧ (v.add w).decimalAmount.toNat = decimal := by
  have hdec : (v.decimalAmount + w.decimalAmount).toNat
      = (v.decimalAmount.toNat + w.decimalAmount.toNat) % 4294967296 := UInt32.toNat_add ..
  have ham : (v.amount + w.amount).toNat
      = (v.amount.toNat + w.amount.toNat) % 18446744073709551616 := UInt64.toNat_add ..
  rw [← hdec, ← ham]
  by_cases hca : GRADIDO_VALUE_DECIMAL_AMOUNT_BASE ≤ v.decimalAmount + w.decimalAmount
  · have hca' : 1000000 ≤ (v.decimalAmount + w.decimalAmount).toNat := UInt32.le_iff_toNat_le.mp hca
    rw [if_pos hca', add]
    simp only [hca, if_true]
    exact ⟨UInt64.toNat_add .., UInt32.toNat_sub_of_le _ _ hca⟩
  · have hca' : ¬ 1000000 ≤ (v.decimalAmount + w.decimalAmount).toNat :=
      fun h => hca (UInt32.le_iff_toNat_le.mpr h)
    rw [if_neg hca', add]
    simp only [hca, if_false, and_self]

/-- A sum that has a representation is exact, if the decimal parts do not overflow. -/
theorem millionths_add (hdec : v.decimalAmount.toNat + w.decimalAmount.toNat < 4294967296)
    (hsum : v.millionths + w.millionths < 18446744073709551616 * 1000000) :
    (v.add w).millionths = v.millionths + w.millionths := by
  have hpa := toNat_add v w
  dsimp only at hpa
  rw [Nat.mod_eq_of_lt hdec] at hpa
  unfold millionths at hsum ⊢
  rw [Nat.mod_eq_of_lt (a := v.amount.toNat + w.amount.toNat) (by omega)] at hpa
  split at hpa
  · rw [hpa.1, hpa.2, Nat.mod_eq_of_lt (by omega)]
    omega
  · rw [hpa.1, hpa.2]
    omega

/-- In a sum that is exact the decimal parts did not overflow. -/
theorem decimal_lt_of_millionths_add (h : (v.add w).millionths = v.millionths + w.millionths) :
    v.decimalAmount.toNat + w.decimalAmount.toNat < 4294967296 := by
  have hpa := toNat_add v w
  dsimp only at hpa
  unfold millionths at h
  split at hpa
  · rw [hpa.1, hpa.2] at h
    omega
  · rw [hpa.1, hpa.2] at h
    omega

theorem normalised_add (hv : v.Normalised) (hw : w.Normalised) : (v.add w).Normalised := by
  have hdv := hv.toNat_lt
  have hdw := hw.toNat_lt
  have hpa := toNat_add v w
  dsimp only at hpa
  apply normalised_of_toNat_lt
  split at hpa
  · rw [hpa.2]
    omega
  · rw [hpa.2]
    omega

theorem millionths_add_of_normalised (hv : v.Normalised) (hw : w.Normalised)
    (hsum : v.millionths + w.millionths < 18446744073709551616 * 1000000) :
    (v.add w).millionths = v.millionths + w.millionths := by
  have hdv := hv.toNat_lt
  have hdw := hw.toNat_lt
  exact millionths_add (by omega) hsum

/-! ## Differences -/

theorem sub_eq_none_iff : v.sub w = none ↔ v.less w = true := by
  rw [sub]
  split
  · next hls => exact ⟨fun _ => hls, fun _ => rfl⟩
  · next hls =>
    refine ⟨fun h => ?_, fun h => absurd h hls⟩
    split at h <;> cases h

/-- What the two words of a difference are, with the borrow. -/
theorem toNat_sub (hw : w.Normalised) (h : v.sub w = some r) : w.amount.toNat ≤ v.amount.toNat ∧
    if w.decimalAmount.toNat ≤ v.decimalAmount.toNat then
      r.amount.toNat = v.amount.toNat - w.amount.toNat ∧
        r.decimalAmount.toNat = v.decimalAmount.toNat - w.decimalAmount.toNat
    else r.amount.toNat + 1 = v.amount.toNat - w.amount.toNat ∧
      r.decimalAmount.toNat = 1000000 - (w.decimalAmount.toNat - v.decimalAmount.toNat) := by
  have hw' := hw.toNat_lt
  unfold sub at h
  split at h
  · cases h
  · next hls =>
    simp only [less, Bool.or_eq_true, decide_eq_true_eq, Bool.and_eq_true, beq_iff_eq,
      not_or, not_and, UInt64.lt_iff_toNat_lt, UInt32.lt_iff_toNat_lt] at hls
    have hle : w.amount ≤ v.amount := UInt64.le_iff_toNat_le.mpr (Nat.not_lt.mp hls.1)
    have ham : (v.amount - w.amount).toNat = v.amount.toNat - w.amount.toNat :=
      UInt64.toNat_sub_of_le _ _ hle
    refine ⟨UInt64.le_iff_toNat_le.mp hle, ?_⟩
    split at h
    · next hdec =>
      cases h
      rw [if_pos (UInt32.le_iff_toNat_le.mp hdec)]
      exact ⟨ham, UInt32.toNat_sub_of_le _ _ hdec⟩
    · next hdec =>
      cases h
      have hdec' : ¬ w.decimalAmount.toNat ≤ v.decimalAmount.toNat :=
        fun h => hdec (UInt32.le_iff_toNat_le.mpr h)
      have hbo : v.decimalAmount ≤ w.decimalAmount := UInt32.le_iff_toNat_le.mpr (by omega)
      -- a smaller decimal part is possible only with a larger amount
      have hne : v.amount.toNat ≠ w.amount.toNat := by
        intro heq
        exact hls.2 (UInt64.toNat_inj.mp heq) (by omega)
      have hone : (1 : UInt64) ≤ v.amount - w.amount := by
        rw [UInt64.le_iff_toNat_le, ham]
        show 1 ≤ _
        omega
      have hre : w.decimalAmount - v.decimalAmount ≤ GRADIDO_VALUE_DECIMAL_AMOUNT_BASE := by
        rw [UInt32.le_iff_toNat_le, UInt32.toNat_sub_of_le _ _ hbo]
        show _ ≤ 1000000
        omega
      have hba : GRADIDO_VALUE_DECIMAL_AMOUNT_BASE.toNat = 1000000 := rfl
      have hone' : (1 : UInt64).toNat = 1 := rfl
      rw [if_neg hdec', UInt64.toNat_sub_of_le _ _ hone, UInt32.toNat_sub_of_le _ _ hre,
        UInt32.toNat_sub_of_le _ _ hbo, ham, hba, hone']
      omega

/-- A normalised amount is subtracted exactly. -/
theorem millionths_sub {v w r : GradidoValue} (hw : w.Normalised) (h : v.sub w = some r) :
    r.millionths + w.millionths = v.millionths := by
  have hw' := hw.toNat_lt
  obtain ⟨hle, hpa⟩ := toNat_sub hw h
  unfold millionths
  split at hpa
  · omega
  · omega

theorem normalised_sub (hv : v.Normalised) (hw : w.Normalised) (h : v.sub w = some r) :
    r.Normalised := by
  have hv' := hv.toNat_lt
  obtain ⟨-, hpa⟩ := toNat_sub hw h
  apply normalised_of_toNat_lt
  split at hpa
  · omega
  · omega

/-! ## The laws -/

theorem add_sub_cancel (hv : v.Normalised) (hw : w.Normalised)
    (hsum : v.millionths + w.millionths < 18446744073709551616 * 1000000) :
    (v.add w).sub w = some v := by
  have hec := millionths_add_of_normalised hv hw hsum
  have hadd := normalised_add hv hw
  cases hsub : (v.add w).sub w with
  | none =>
    rw [sub_eq_none_iff, less_iff hadd hw, hec] at hsub
    omega
  | some r =>
    have heq := millionths_sub hw hsub
    rw [eq_of_millionths_eq (normalised_sub hadd hw hsub) hv (by omega)]

theorem sub_add_cancel (hv : v.Normalised) (hw : w.Normalised) (h : v.sub w = some r) :
    r.add w = v := by
  have hr := normalised_sub hv hw h
  have heq := millionths_sub hw h
  have hlt := hv.millionths_lt
  refine eq_of_millionths_eq (normalised_add hr hw) hv ?_
  rw [millionths_add_of_normalised hr hw (by omega), heq]

/-- **`GradidoValue` is exact.**  For normalised values: the order, sums that have a
representation, differences that do not throw, and the two laws of cancellation. -/
theorem gradidoValue_exact (v w : GradidoValue) (hv : v.Normalised) (hw : w.Normalised) :
    (v.less w = true ↔ v.millionths < w.millionths) ∧
    (v.add w).Normalised ∧
    (v.millionths + w.millionths < 2 ^ 64 * 1000000 →
      (v.add w).millionths = v.millionths + w.millionths ∧ (v.add w).sub w = some v) ∧
    (v.sub w = none ↔ v.less w = true) ∧
    ∀ r, v.sub w = some r →
      r.Normalised ∧ r.millionths = v.millionths - w.millionths ∧ r.add w = v := by
  refine ⟨less_iff hv hw, normalised_add hv hw, fun hsum => ?_, sub_eq_none_iff, fun r hr => ?_⟩
  · exact ⟨millionths_add_of_normalised hv hw hsum, add_sub_cancel hv hw hsum⟩
  · have heq := millionths_sub hw hr
    exact ⟨normalised_sub hv hw hr, by omega, sub_add_cancel hv hw hr⟩

/-- 1.5 gradidos and 0.7 gradidos. -/
theorem gradidoValue_exact_carry : (⟨1, 500000⟩ : GradidoValue).add ⟨0, 700000⟩ = ⟨2, 200000⟩ ∧
      (⟨2, 200000⟩ : GradidoValue).sub ⟨0, 700000⟩ = some ⟨1, 500000⟩ :=
  ⟨rfl, ((gradidoValue_exact ⟨1, 500000⟩ ⟨0, 700000⟩ (by decide) (by decide)).2.2.1 (by decide)).2⟩

end GradidoValue

end GradidoNode
