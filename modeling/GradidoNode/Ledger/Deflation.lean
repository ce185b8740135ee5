/-
# `GradidoNode.Ledger.Deflation` — `calc_deflation` over the whole range of amounts

`calc_deflation` hands the `uint64_t` of a balance to `calculateDecay` as a `long long`, and
takes what comes back as a `uint64_t` again.  Below 2^63 gradidos nothing is lost: the
balance does not grow, and at equal times it stays.

From 2^63 gradidos on the `long long` is negative.  Decay brings it nearer to zero, and that
is a larger `uint64_t`: a balance of `2^64 - x` becomes `2^64 - x'` with an `x'` less than
`x`, or nothing when `x'` is zero (`deflation_le_iff`).

`operator<` compares gradidos first, so a decimal part that is out of range (a million, or
a negative number as a `uint32_t`) plays no part in the comparison.
-/
import GradidoNode.Ledger.Amounts
import GradidoNode.Math.GradidoMath
import Mathlib.Algebra.Order.Ring.Pow

namespace GradidoNode

open GradidoMath

/-! ## Conversions -/

theorem toInt_toInt64_of_le {x : UInt64} (h : 9223372036854775808 ≤ x.toNat) :
    x.toInt64.toInt = x.toNat - 18446744073709551616 := by
  show x.toBitVec.toInt = _
  rw [BitVec.toInt_eq_toNat_cond, if_neg]
  · rfl
  · show ¬ 2 * x.toNat < _
    omega

theorem toNat_toUInt64_of_neg {x : Int64} (h : x.toInt < 0) :
    (x.toUInt64.toNat : Int) = x.toInt + 18446744073709551616 := by
  have h' : x.toBitVec.toInt < 0 := h
  show (x.toBitVec.toNat : Int) = x.toBitVec.toInt + _
  rw [BitVec.toInt_eq_toNat_cond x.toBitVec] at h' ⊢
  split
  · next hlt =>
    rw [if_pos hlt] at h'
    omega
  · show (x.toBitVec.toNat : Int) = x.toBitVec.toNat - 18446744073709551616 + 18446744073709551616
    omega

namespace HederaTimestamp

/-- The `unsigned long` that `calculateDecay` is called with. -/
def duration (t0 t1 : HederaTimestamp) : UInt64 := (t1.sub t0).seconds.toUInt64

theorem duration_self (t : HederaTimestamp) : duration t t = 0 := by
  rw [duration, sub, if_pos (Int32.le_refl _)]
  rw [Int64.sub_self]
  rfl

end HederaTimestamp

open HederaTimestamp

/-- A balance as `calculateDecay` is given it. -/
def GradidoValue.withDecimal (v : GradidoValue) : GradidoWithDecimal :=
  ⟨v.amount.toInt64, v.decimalAmount.toUInt64.toInt64⟩

/-- An amount as `calc_deflation` takes it back. -/
def GradidoValue.ofWithDecimal (g : GradidoWithDecimal) : GradidoValue :=
  ⟨g.gradido.toUInt64, g.decimal.toUInt64.toUInt32⟩

/-- The balance after `d` of it is left. -/
def deflated (d : ℚ) (v : GradidoValue) : GradidoValue :=
  .ofWithDecimal (calculateDecayForDuration d v.withDecimal)

variable {d f : ℚ} {v : GradidoValue}

theorem calcDeflation_eq (hv : v ≠ GradidoValue.zero) (t0 t1 : HederaTimestamp) :
    calcDeflation (calculateDecay f) t0 t1 v = deflated (f ^ (duration t0 t1).toNat) v := by
  have hne : ¬ (v.amount = 0 ∧ v.decimalAmount = 0) := by
    rintro ⟨ham, hde⟩
    cases v
    cases ham
    cases hde
    exact hv rfl
  rw [calcDeflation, if_neg hne]
  rfl

theorem toInt_decimal (v : GradidoValue) : v.withDecimal.decimal.toInt = v.decimalAmount.toNat := by
  have hlt := v.decimalAmount.toNat_lt
  have heq : v.decimalAmount.toUInt64.toNat = v.decimalAmount.toNat := UInt32.toNat_toUInt64 _
  rw [GradidoValue.withDecimal, toInt_toInt64 (by omega), heq]

theorem normalised_withDecimal (hv : v.Normalised) : Normalised v.withDecimal := by
  have hlt := hv.toNat_lt
  rw [Normalised, toInt_decimal]
  omega

/-! ## Below 2^63 gradidos -/

section Lower

variable (hlow : v.amount.toNat < 9223372036854775808) (hv : v.Normalised)

include hlow

theorem toInt_gradido : v.withDecimal.gradido.toInt = v.amount.toNat := toInt_toInt64 hlow

theorem gradido_nonneg : 0 ≤ v.withDecimal.gradido.toInt := by
  rw [toInt_gradido hlow]
  exact Int.natCast_nonneg _

theorem value_withDecimal : value v.withDecimal * 1000000 = v.millionths := by
  rw [value, toInt_gradido hlow, toInt_decimal, GradidoValue.millionths]
  push_cast
  ring

include hv

variable (hd : 0 ≤ d) (hd' : d ≤ 1)

include hd hd'

/-- The words of the result are the two parts. -/
theorem toNat_deflated :
    ((deflated d v).amount.toNat : ℤ) = (calculateDecayForDuration d v.withDecimal).gradido.toInt ∧
      ((deflated d v).decimalAmount.toNat : ℤ)
        = (calculateDecayForDuration d v.withDecimal).decimal.toInt := by
  have hgradido := gradido_nonneg hlow
  obtain ⟨ham, hde⟩ := decay_parts hd hd' hgradido (normalised_withDecimal hv)
  have hwo : 0 ≤ d * value v.withDecimal :=
    mul_nonneg hd (value_nonneg hgradido (normalised_withDecimal hv))
  have hfl : 0 ≤ (calculateDecayForDuration d v.withDecimal).gradido.toInt := by
    rw [ham]
    exact Int.floor_nonneg.mpr hwo
  have hro := roundHalfEven_fract (d * value v.withDecimal)
  rw [← hde] at hro
  have hwr := toNat_toUInt64 hro.1
  refine ⟨toNat_toUInt64 hfl, ?_⟩
  show ((calculateDecayForDuration d v.withDecimal).decimal.toUInt64.toUInt32.toNat : ℤ) = _
  rw [UInt64.toNat_toUInt32, Nat.mod_eq_of_lt (by omega), hwr]

/-- The balance does not grow. -/
theorem millionths_deflated_le : (deflated d v).millionths ≤ v.millionths := by
  have hgradido := gradido_nonneg hlow
  obtain ⟨ham, hde⟩ := toNat_deflated hlow hv hd hd'
  have hle := decay_le hd hd' hgradido (normalised_withDecimal hv)
  have hca : ((deflated d v).millionths : ℚ) ≤ v.millionths := by
    rw [← value_withDecimal hlow, GradidoValue.millionths]
    push_cast
    rw [← Int.cast_natCast (deflated d v).amount.toNat, ham,
      ← Int.cast_natCast (deflated d v).decimalAmount.toNat, hde]
    rw [value] at hle
    linarith
  exact_mod_cast hca

end Lower

/-- Where the decimal part is out of range, the gradidos decide. -/
theorem less_eq_false_of_millionths_le {w : GradidoValue} (hv : v.Normalised)
    (h : w.millionths ≤ v.millionths) : v.less w = false := by
  have hdv := hv.toNat_lt
  rw [Bool.eq_false_iff, ne_eq, GradidoValue.less, Bool.or_eq_true, Bool.and_eq_true,
    decide_eq_true_iff, decide_eq_true_iff, beq_iff_eq, UInt64.lt_iff_toNat_lt,
    UInt32.lt_iff_toNat_lt, ← UInt64.toNat_inj]
  unfold GradidoValue.millionths at h
  omega

theorem deflated_one (hlow : v.amount.toNat < 9223372036854775808) (hv : v.Normalised) :
    deflated 1 v = v := by
  have hgradido := gradido_nonneg hlow
  have hdv := hv.toNat_lt
  obtain ⟨ham, hde⟩ := toNat_deflated hlow hv zero_le_one (le_refl 1)
  obtain ⟨hfl, hro⟩ := decay_parts zero_le_one (le_refl 1) hgradido (normalised_withDecimal hv)
  rw [one_mul] at hfl hro
  have hwo : value v.withDecimal = v.amount.toNat + (v.decimalAmount.toNat : ℚ) / 1000000 := by
    rw [value, toInt_gradido hlow, toInt_decimal]
    push_cast
    rfl
  have hca : (v.decimalAmount.toNat : ℚ) < 1000000 := by exact_mod_cast hdv
  have hfl' : ⌊value v.withDecimal⌋ = v.amount.toNat := by
    rw [Int.floor_eq_iff, hwo]
    push_cast
    constructor <;> linarith
  have hfr : Int.fract (value v.withDecimal) * 1000000 = ((v.decimalAmount.toNat : ℤ) : ℚ) := by
    rw [← Int.self_sub_floor, hfl', hwo]
    push_cast
    ring
  rw [hfr, Lib.roundHalfEven_intCast] at hro
  rw [hfl, hfl'] at ham
  rw [hro] at hde
  refine GradidoValue.eq_of_millionths_eq (GradidoValue.normalised_of_toNat_lt (by omega)) hv ?_
  unfold GradidoValue.millionths
  omega

/-! ## From 2^63 gradidos on -/

/-- What a balance lacks of 2^64 gradidos. -/
def lacking (v : GradidoValue) : ℚ :=
  18446744073709551616 - v.amount.toNat - v.decimalAmount.toNat / 1000000

section Upper

variable (hhigh : 9223372036854775808 ≤ v.amount.toNat) (hv : v.Normalised)

include hhigh

theorem toInt_gradido_upper :
    v.withDecimal.gradido.toInt = v.amount.toNat - 18446744073709551616 := toInt_toInt64_of_le hhigh

theorem gradido_neg : v.withDecimal.gradido.toInt < 0 := by
  have hlt := v.amount.toNat_lt
  rw [toInt_gradido_upper hhigh]
  omega

theorem value_withDecimal_upper : value v.withDecimal = -lacking v := by
  rw [value, toInt_gradido_upper hhigh, toInt_decimal, lacking]
  push_cast
  ring

include hv

theorem lacking_pos : 0 < lacking v := by
  have hva := value_neg (gradido_neg hhigh) (normalised_withDecimal hv)
  rw [value_withDecimal_upper hhigh] at hva
  exact neg_lt_zero.mp hva

variable (hd : 0 ≤ d) (hd' : d ≤ 1)

include hd hd'

/-- The result lacks the whole gradidos of what is left of the lack; it has all bits zero if
there are none. -/
theorem deflated_upper : ((⌊d * lacking v⌋ = 0 → (deflated d v).amount = 0) ∧ (0 < ⌊d * lacking v⌋ →
        ((deflated d v).amount.toNat : ℤ) = 18446744073709551616 - ⌊d * lacking v⌋)) ∧
    ((⌊d * lacking v⌋ : ℚ) = d * lacking v → (deflated d v).decimalAmount = 0) := by
  obtain ⟨hgradido, hde⟩ := decay_negative hd hd' (gradido_neg hhigh) (normalised_withDecimal hv)
  rw [value_withDecimal_upper hhigh, mul_neg, Int.ceil_neg] at hgradido hde
  refine ⟨⟨fun hze => ?_, fun hpos => ?_⟩, fun hwh => ?_⟩
  · rw [hze, neg_zero] at hgradido
    have hgradido' : (calculateDecayForDuration d v.withDecimal).gradido = 0 :=
      Int64.toInt_inj.mp hgradido
    show (calculateDecayForDuration d v.withDecimal).gradido.toUInt64 = 0
    rw [hgradido']
    rfl
  · show ((calculateDecayForDuration d v.withDecimal).gradido.toUInt64.toNat : ℤ) = _
    rw [toNat_toUInt64_of_neg (by omega), hgradido]
    omega
  · have hze : (calculateDecayForDuration d v.withDecimal).decimal = 0 := by
      apply hde
      rw [Int.cast_neg, hwh]
    show (calculateDecayForDuration d v.withDecimal).decimal.toUInt64.toUInt32 = 0
    rw [hze]
    rfl

/-- While some of the lack is left, the balance has grown, unless nothing has changed. -/
theorem upper_grows (hpos : 0 < ⌊d * lacking v⌋) (h : v.less (deflated d v) = false) :
    d = 1 ∧ v.decimalAmount = 0 := by
  have hla := lacking_pos hhigh hv
  have ham := (deflated_upper hhigh hv hd hd').1.2 hpos
  have hle : (deflated d v).amount.toNat ≤ v.amount.toNat := by
    by_contra hlt
    have hls : v.less (deflated d v) = true := by
      rw [GradidoValue.less, Bool.or_eq_true]
      exact .inl (decide_eq_true (UInt64.lt_iff_toNat_lt.mpr (Nat.not_le.mp hlt)))
    rw [h] at hls
    cases hls
  -- so the whole gradidos of what is left are at least the whole lack
  have hce : (18446744073709551616 : ℤ) - v.amount.toNat ≤ ⌊d * lacking v⌋ := by omega
  have hca : (18446744073709551616 : ℚ) - v.amount.toNat ≤ ⌊d * lacking v⌋ := by
    have hca' : ((18446744073709551616 - v.amount.toNat : ℤ) : ℚ) ≤ ⌊d * lacking v⌋ :=
      Int.cast_le.mpr hce
    rw [Int.cast_sub, Int.cast_natCast, Int.cast_ofNat] at hca'
    exact hca'
  have hfl := Int.floor_le (d * lacking v)
  have hlf : d * lacking v ≤ lacking v := mul_le_of_le_one_left hla.le hd'
  have hno : (0 : ℚ) ≤ (v.decimalAmount.toNat : ℚ) / 1000000 := by positivity
  have hlc : lacking v
      = 18446744073709551616 - v.amount.toNat - v.decimalAmount.toNat / 1000000 := by rw [lacking]
  constructor
  · have heq : d * lacking v = 1 * lacking v := by linarith
    exact mul_right_cancel₀ hla.ne' heq
  · have hze : (v.decimalAmount.toNat : ℚ) / 1000000 = 0 := by linarith
    have hze' : (v.decimalAmount.toNat : ℚ) = 0 := by linarith
    exact UInt32.toNat_inj.mp (by exact_mod_cast hze')

/-- Nothing but a decimal part is left, once less than a gradido is left of the lack. -/
theorem amount_deflated_eq_zero (hlt : d * lacking v < 1) : (deflated d v).amount = 0 := by
  have hno : 0 ≤ ⌊d * lacking v⌋ := Int.floor_nonneg.mpr (mul_nonneg hd (lacking_pos hhigh hv).le)
  have hlt' : ⌊d * lacking v⌋ < 1 := Int.floor_lt.mpr (by rw [Int.cast_one]; exact hlt)
  exact (deflated_upper hhigh hv hd hd').1.1 (by omega)

end Upper

/-- A whole number of gradidos stays, whatever the sign. -/
theorem deflated_one_upper (hhigh : 9223372036854775808 ≤ v.amount.toNat)
    (hze : v.decimalAmount = 0) : deflated 1 v = v := by
  have hv : v.Normalised := by
    rw [GradidoValue.Normalised, hze]
    decide
  have hlt := v.amount.toNat_lt
  have hla : 1 * lacking v = ((18446744073709551616 - v.amount.toNat : ℤ) : ℚ) := by
    rw [lacking, hze]
    push_cast
    simp
  obtain ⟨⟨-, ham⟩, hde⟩ := deflated_upper hhigh hv zero_le_one (le_refl 1)
  rw [hla, Int.floor_intCast] at ham hde
  have hde' := hde rfl
  refine GradidoValue.eq_of_millionths_eq ?_ hv ?_
  · rw [GradidoValue.Normalised, hde']
    decide
  · unfold GradidoValue.millionths
    rw [hde', hze]
    omega

/-- When a balance from 2^63 gradidos on does not grow. -/
theorem deflated_le_iff_upper (hhigh : 9223372036854775808 ≤ v.amount.toNat) (hv : v.Normalised)
    (hd : 0 ≤ d) (hd' : d ≤ 1) :
    v.less (deflated d v) = false ↔ (d = 1 ∧ v.decimalAmount = 0) ∨ d * lacking v < 1 := by
  constructor
  · intro hle
    by_cases hpos : 0 < ⌊d * lacking v⌋
    · exact .inl (upper_grows hhigh hv hd hd' hpos hle)
    · right
      have hlt := Int.floor_lt.mp (Int.lt_add_one_iff.mpr (Int.not_lt.mp hpos))
      rw [zero_add, Int.cast_one] at hlt
      exact hlt
  · rintro (⟨rfl, hde⟩ | hlt)
    · rw [deflated_one_upper hhigh hde]
      exact less_eq_false_of_millionths_le hv (Nat.le_refl _)
    · have hne : v.amount ≠ 0 := by
        intro h
        rw [h] at hhigh
        exact absurd hhigh (by decide)
      rw [GradidoValue.less, amount_deflated_eq_zero hhigh hv hd hd' hlt, Bool.or_eq_false_iff,
        Bool.and_eq_false_iff]
      exact ⟨decide_eq_false (UInt64.not_lt.mpr UInt64.zero_le), .inl (beq_eq_false_iff_ne.mpr hne)⟩

/-! ## The whole range -/

/-- **Deflation creates no money, below 2^63 gradidos.**  The decayed balance is at most the
balance, and at equal times it is the balance, just if the balance is below 2^63 gradidos, or
it is a whole number of them and no second has passed, or so much time has passed that less
than a gradido is left of what it lacks of 2^64. -/
theorem deflation_le_iff (f : ℚ) (hf : 0 < f) (hf' : f < 1) (v : GradidoValue)
    (hv : v.Normalised) (t0 t1 : HederaTimestamp) :
    (v.less (calcDeflation (calculateDecay f) t0 t1 v) = false ∧
      (t0 = t1 → calcDeflation (calculateDecay f) t0 t1 v = v)) ↔
    v.amount.toNat < 2 ^ 63 ∨ (v.decimalAmount = 0 ∧ duration t0 t1 = 0) ∨
      (t0 ≠ t1 ∧ f ^ (duration t0 t1).toNat * lacking v < 1) := by
  by_cases hze : v = GradidoValue.zero
  · -- nothing is left of nothing
    subst hze
    have hca : calcDeflation (calculateDecay f) t0 t1 GradidoValue.zero = GradidoValue.zero :=
      if_pos ⟨rfl, rfl⟩
    rw [hca]
    exact ⟨fun _ => .inl (by decide), fun _ => ⟨by decide, fun _ => rfl⟩⟩
  rw [calcDeflation_eq hze]
  have hd : 0 ≤ f ^ (duration t0 t1).toNat := pow_nonneg hf.le _
  have hd' : f ^ (duration t0 t1).toNat ≤ 1 := pow_le_one₀ hf.le hf'.le
  have hse : t0 = t1 → f ^ (duration t0 t1).toNat = 1 := by
    rintro rfl
    rw [duration_self]
    exact pow_zero f
  by_cases hlow : v.amount.toNat < 9223372036854775808
  · refine ⟨fun _ => .inl hlow, fun _ => ⟨?_, fun heq => ?_⟩⟩
    · exact less_eq_false_of_millionths_le hv (millionths_deflated_le hlow hv hd hd')
    · rw [hse heq]
      exact deflated_one hlow hv
  have hhigh : 9223372036854775808 ≤ v.amount.toNat := Nat.not_lt.mp hlow
  rw [deflated_le_iff_upper hhigh hv hd hd']
  constructor
  · rintro ⟨⟨hone, hde⟩ | hlt, heq⟩
    · refine .inr (.inl ⟨hde, ?_⟩)
      by_contra hne
      have hne' : (duration t0 t1).toNat ≠ 0 := fun h => hne (UInt64.toNat_inj.mp h)
      exact absurd hone (pow_lt_one₀ hf.le hf' hne').ne
    · refine .inr (.inr ⟨fun htm => ?_, hlt⟩)
      have ham := amount_deflated_eq_zero hhigh hv hd hd' hlt
      rw [heq htm] at ham
      rw [ham] at hhigh
      exact absurd hhigh (by decide)
  · rintro (hlow' | ⟨hde, hdu⟩ | ⟨htm, hlt⟩)
    · exact absurd hlow' hlow
    · have hone : f ^ (duration t0 t1).toNat = 1 := by
        rw [hdu]
        exact pow_zero f
      refine ⟨.inl ⟨hone, hde⟩, fun _ => ?_⟩
      rw [hone]
      exact deflated_one_upper hhigh hde
    · exact ⟨.inr hlt, fun h => absurd h htm⟩

/-- Three gradidos, of which half is left after a second. -/
theorem deflation_le_three : (⟨3, 0⟩ : GradidoValue).less
        (calcDeflation (calculateDecay (1 / 2)) ⟨0, 0⟩ ⟨1, 0⟩ ⟨3, 0⟩) = false ∧
      calcDeflation (calculateDecay (1 / 2)) ⟨0, 0⟩ ⟨1, 0⟩ ⟨3, 0⟩ = ⟨1, 500000⟩ :=
  ⟨((deflation_le_iff (1 / 2) (by norm_num) (by norm_num) ⟨3, 0⟩ (by decide) ⟨0, 0⟩ ⟨1, 0⟩).mpr
    (.inl (by decide))).1, by decide +kernel⟩

/-- 2^63 gradidos, of which half is left after a second, are 2^64 - 2^62 then. -/
theorem deflation_creates_money :
    calcDeflation (calculateDecay (1 / 2)) ⟨0, 0⟩ ⟨1, 0⟩ ⟨9223372036854775808, 0⟩
        = ⟨13835058055282163712, 0⟩ ∧
      (⟨9223372036854775808, 0⟩ : GradidoValue).less
        (calcDeflation (calculateDecay (1 / 2)) ⟨0, 0⟩ ⟨1, 0⟩ ⟨9223372036854775808, 0⟩) = true := by
  have h : calcDeflation (calculateDecay (1 / 2)) ⟨0, 0⟩ ⟨1, 0⟩ ⟨9223372036854775808, 0⟩
      = ⟨13835058055282163712, 0⟩ := by decide +kernel
  refine ⟨h, ?_⟩
  rw [h]
  decide

end GradidoNode
