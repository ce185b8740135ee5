/-
# `GradidoNode.Math.GradidoMath` — the decay of an amount

`gradidomath.c`, with the operations of mpfr and mpz as exact operations on rational
numbers; what rounds is what the source asks to round:

    mpfr_get_z(_, _, MPFR_RNDZ)    toward zero                  (`truncate`)
    mpfr_get_si(_, MPFR_RNDN)      to nearest, ties to even     (`roundHalfEven`)

An amount is multiplied by the factor, cut into gradidos and a fraction of a gradido, and
the fraction is then rounded to millionths.  The two are not put together again: a
fraction of 999999.5 millionths or more is rounded up to a whole gradido that stays among
the millionths.  All else is as it should be (`decay_close`, `decay_le`), so this is just
when the result is not normalised (`decay_normalised_iff`).

The factor of a second is a parameter; `calculateDecayFactor` computes it from logarithms.
-/
import GradidoNode.Ledger.Transaction
import GradidoNode.Lib.Rounding
import Mathlib.Data.Rat.Floor

namespace GradidoNode

open Lib

namespace GradidoMath

/-- `GRADIDO_DECIMAL_CONVERSION_FACTOR`. -/
def GRADIDO_DECIMAL_CONVERSION_FACTOR : ℤ := 1000000

/-- `mpz_get_si`: of a number that is no `long` the low bits, with its sign. -/
def mpzGetSi (z : ℤ) : Int64 :=
  if 0 ≤ z then .ofInt (z % 9223372036854775808)
  else .ofInt (-1 - (-z - 1) % 9223372036854775808)

/-- `mpfr_get_si` with MPFR_RNDN: of a number that is no `long` the nearest one. -/
def mpfrGetSi (x : ℚ) : Int64 :=
  .ofInt (max (-9223372036854775808) (min 9223372036854775807 (roundHalfEven x)))

def calculateDecayFactorForDuration (decayFactor : ℚ) (seconds : UInt64) : ℚ :=
  decayFactor ^ seconds.toNat

/-- `calculateDecayFast`: what it leaves in `gradido_cent` and `gradido_decimal`. -/
def calculateDecayFast (decayForDuration gradidoDecimal : ℚ) (gradidoCent : ℤ) : ℤ × ℚ :=
  let temp := (gradidoDecimal + gradidoCent) * decayForDuration
  let gradidoCent := truncate temp
  (gradidoCent, temp - gradidoCent)

def calculateDecayForDuration (decayForDuration : ℚ) (input : GradidoWithDecimal) :
    GradidoWithDecimal :=
  let gradidoDecimal : ℚ := input.decimal.toInt / GRADIDO_DECIMAL_CONVERSION_FACTOR
  let (gddCent, gradidoDecimal) :=
    calculateDecayFast decayForDuration gradidoDecimal input.gradido.toInt
  ⟨mpzGetSi gddCent, mpfrGetSi (gradidoDecimal * GRADIDO_DECIMAL_CONVERSION_FACTOR)⟩

def calculateDecay (decayFactor : ℚ) : DecayFunction := fun input seconds =>
  calculateDecayForDuration (calculateDecayFactorForDuration decayFactor seconds) input

/-! ## Conversions that lose nothing -/

theorem toInt_mpzGetSi {z : ℤ} (hlow : -9223372036854775808 ≤ z) (hhigh : z < 9223372036854775808) :
    (mpzGetSi z).toInt = z := by
  unfold mpzGetSi
  split
  · rw [Int.emod_eq_of_lt (by omega) hhigh, Int64.toInt_ofInt_of_le (by omega) (by omega)]
  · rw [Int.emod_eq_of_lt (by omega) (by omega), Int64.toInt_ofInt_of_le (by omega) (by omega)]
    omega

theorem toInt_mpfrGetSi {x : ℚ} (hlow : -9223372036854775808 ≤ roundHalfEven x)
    (hhigh : roundHalfEven x < 9223372036854775808) : (mpfrGetSi x).toInt = roundHalfEven x := by
  have hcl : max (-9223372036854775808) (min 9223372036854775807 (roundHalfEven x))
      = roundHalfEven x := by omega
  rw [mpfrGetSi, hcl, Int64.toInt_ofInt_of_le (by omega) (by omega)]

/-! ## What an amount is worth -/

/-- In gradidos. -/
def value (g : GradidoWithDecimal) : ℚ := g.gradido.toInt + g.decimal.toInt / 1000000

/-- The decimal part is less than a gradido. -/
def Normalised (g : GradidoWithDecimal) : Prop :=
  0 ≤ g.decimal.toInt ∧ g.decimal.toInt < 1000000

theorem decay_eq (d : ℚ) (input : GradidoWithDecimal) :
    calculateDecayForDuration d input = ⟨mpzGetSi (truncate (d * value input)),
      mpfrGetSi ((d * value input - truncate (d * value input)) * 1000000)⟩ := by
  have hfa : ((GRADIDO_DECIMAL_CONVERSION_FACTOR : ℤ) : ℚ) = 1000000 := Int.cast_ofNat 1000000
  have hte : ((input.decimal.toInt : ℚ) / 1000000 + (input.gradido.toInt : ℤ)) * d
      = d * value input := by
    rw [mul_comm, add_comm]
    rfl
  simp only [calculateDecayForDuration, calculateDecayFast]
  rw [hfa, hte]

/-! ## An amount that is not negative -/

section Decay

variable {d : ℚ} {input : GradidoWithDecimal}

theorem value_nonneg (hgradido : 0 ≤ input.gradido.toInt) (hinput : Normalised input) :
    0 ≤ value input := by
  have hg : (0 : ℚ) ≤ input.gradido.toInt := by exact_mod_cast hgradido
  have hd : (0 : ℚ) ≤ input.decimal.toInt := by exact_mod_cast hinput.1
  exact add_nonneg hg (div_nonneg hd (by norm_num))

theorem value_lt (hinput : Normalised input) : value input < input.gradido.toInt + 1 := by
  have hd : (input.decimal.toInt : ℚ) < 1000000 := by exact_mod_cast hinput.2
  have hlt : (input.decimal.toInt : ℚ) / 1000000 < 1 := (div_lt_one (by norm_num)).mpr hd
  exact add_lt_add_right hlt _

/-- The fraction, in millionths, is rounded within the fraction of a gradido, its upper end
included. -/
theorem roundHalfEven_fract (x : ℚ) : 0 ≤ roundHalfEven (Int.fract x * 1000000) ∧
    roundHalfEven (Int.fract x * 1000000) ≤ 1000000 := by
  have hno := Int.fract_nonneg x
  have hlt := Int.fract_lt_one x
  constructor
  · apply le_roundHalfEven
    push_cast
    linarith
  · apply roundHalfEven_le
    push_cast
    linarith

theorem decay_parts (hd : 0 ≤ d) (hd' : d ≤ 1) (hgradido : 0 ≤ input.gradido.toInt)
    (hinput : Normalised input) :
    (calculateDecayForDuration d input).gradido.toInt = ⌊d * value input⌋ ∧
      (calculateDecayForDuration d input).decimal.toInt
        = roundHalfEven (Int.fract (d * value input) * 1000000) := by
  have hva := value_nonneg hgradido hinput
  have hno : 0 ≤ d * value input := mul_nonneg hd hva
  -- the gradidos are not more than there were
  have hfl : ⌊d * value input⌋ ≤ input.gradido.toInt := by
    have hle : d * value input ≤ value input := mul_le_of_le_one_left hva hd'
    have hlt : d * value input < (input.gradido.toInt + 1 : ℤ) := by
      push_cast
      exact hle.trans_lt (value_lt hinput)
    have := Int.floor_lt.mpr hlt
    omega
  have hfl' : 0 ≤ ⌊d * value input⌋ := Int.floor_nonneg.mpr hno
  have hlong := input.gradido.toInt_lt
  obtain ⟨hlow, hhigh⟩ := roundHalfEven_fract (d * value input)
  rw [decay_eq, truncate_of_nonneg hno, Int.self_sub_floor]
  exact ⟨toInt_mpzGetSi (by omega) (by omega), toInt_mpfrGetSi (by omega) (by omega)⟩

variable (hd : 0 ≤ d) (hd' : d ≤ 1) (hgradido : 0 ≤ input.gradido.toInt)
  (hinput : Normalised input)

include hd hd' hgradido hinput

/-- The result is worth the decayed amount, up to half a millionth. -/
theorem decay_close :
    |value (calculateDecayForDuration d input) - d * value input| ≤ 1 / 2 * (1 / 1000000) := by
  obtain ⟨hgradido', hde'⟩ := decay_parts hd hd' hgradido hinput
  have hro := abs_le.mp (abs_sub_roundHalfEven_le (Int.fract (d * value input) * 1000000))
  have hsp := Int.floor_add_fract (d * value input)
  rw [value, hgradido', hde', abs_le]
  constructor <;> linarith

theorem decay_le : value (calculateDecayForDuration d input) ≤ value input := by
  obtain ⟨hgradido', hde'⟩ := decay_parts hd hd' hgradido hinput
  have hle : d * value input ≤ value input :=
    mul_le_of_le_one_left (value_nonneg hgradido hinput) hd'
  have hsp := Int.floor_add_fract (d * value input)
  -- the millionths left of the amount are an integer, which rounding does not cross
  have hfr : Int.fract (d * value input) * 1000000
      ≤ ((input.gradido.toInt - ⌊d * value input⌋) * 1000000 + input.decimal.toInt : ℤ) := by
    have hva : value input * 1000000 = input.gradido.toInt * 1000000 + input.decimal.toInt := by
      rw [value, add_mul, div_mul_cancel₀ _ (by norm_num)]
    push_cast
    linarith
  have hro : (roundHalfEven (Int.fract (d * value input) * 1000000) : ℚ)
      ≤ ((input.gradido.toInt - ⌊d * value input⌋) * 1000000 + input.decimal.toInt : ℤ) :=
    Int.cast_le.mpr (roundHalfEven_le hfr)
  push_cast at hro
  rw [value, value, hgradido', hde']
  linarith

/-- The millionths of the result are less than a gradido just if those of the decayed amount
are less than 999999.5. -/
theorem decay_decimal_iff : Normalised (calculateDecayForDuration d input) ↔
    Int.fract (d * value input) * 1000000 < 999999 + 1 / 2 := by
  obtain ⟨-, hde'⟩ := decay_parts hd hd' hgradido hinput
  have hlt := roundHalfEven_lt_iff (x := Int.fract (d * value input) * 1000000) (n := 1000000)
    ⟨500000, rfl⟩
  have hha : ((1000000 : ℤ) : ℚ) - 1 / 2 = 999999 + 1 / 2 := by norm_num
  rw [Normalised, hde', ← hha, ← hlt]
  exact ⟨fun h => h.2, fun h => ⟨(roundHalfEven_fract _).1, h⟩⟩

end Decay

/-- **Decay, normalised and close.**  For an amount that is not negative, the decayed amount
is normalised, worth what it should be up to half a millionth, and not more than before, just
if the fraction of a gradido is less than 999999.5 millionths before it is rounded. -/
theorem decay_normalised_iff (d : ℚ) (hd : 0 < d) (hd' : d ≤ 1) (input : GradidoWithDecimal)
    (hgradido : 0 ≤ input.gradido.toInt) (hinput : Normalised input) :
    (Normalised (calculateDecayForDuration d input) ∧
      |value (calculateDecayForDuration d input) - d * value input| ≤ 1 / 2 * (1 / 1000000) ∧
      value (calculateDecayForDuration d input) ≤ value input) ↔
    Int.fract (d * value input) * 1000000 < 999999 + 1 / 2 := by
  rw [← decay_decimal_iff hd.le hd' hgradido hinput]
  exact ⟨fun h => h.1, fun h =>
    ⟨h, decay_close hd.le hd' hgradido hinput, decay_le hd.le hd' hgradido hinput⟩⟩

/-- Half of three gradidos. -/
theorem decay_normalised_half : Normalised (calculateDecayForDuration (1 / 2) ⟨3, 0⟩) ∧
      value (calculateDecayForDuration (1 / 2) ⟨3, 0⟩) ≤ value ⟨3, 0⟩ := by
  have h := (decay_normalised_iff (1 / 2) (by norm_num) (by norm_num) ⟨3, 0⟩ (by decide)
    ⟨by decide, by decide⟩).mpr (by decide +kernel)
  exact ⟨h.1, h.2.2⟩

/-- A gradido less 0.3 millionths: no gradidos and a million millionths. -/
theorem decay_carry_lost : (calculateDecayForDuration (9999997 / 10000000) ⟨1, 0⟩).gradido = 0 ∧
      (calculateDecayForDuration (9999997 / 10000000) ⟨1, 0⟩).decimal = 1000000 ∧
      ¬ Normalised (calculateDecayForDuration (9999997 / 10000000) ⟨1, 0⟩) := by
  have hde : (calculateDecayForDuration (9999997 / 10000000) ⟨1, 0⟩).decimal = 1000000 := by
    decide +kernel
  refine ⟨by decide +kernel, hde, fun h => ?_⟩
  rw [Normalised, hde] at h
  exact absurd h.2 (by decide)

/-! ## A negative amount -/

section Negative

variable {d : ℚ} {input : GradidoWithDecimal} (hd : 0 ≤ d) (hd' : d ≤ 1)
  (hgradido : input.gradido.toInt < 0) (hinput : Normalised input)

include hgradido hinput in
theorem value_neg : value input < 0 := by
  have hlt := value_lt hinput
  have hle : (input.gradido.toInt : ℚ) + 1 ≤ 0 := by
    have hle' : input.gradido.toInt + 1 ≤ 0 := hgradido
    exact_mod_cast hle'
  exact hlt.trans_le hle

include hd hd' hgradido hinput

/-- A negative amount is cut off towards zero, so it is not less than it was; a whole number
of gradidos leaves no millionths. -/
theorem decay_negative : (calculateDecayForDuration d input).gradido.toInt = ⌈d * value input⌉ ∧
      ((⌈d * value input⌉ : ℚ) = d * value input →
        (calculateDecayForDuration d input).decimal = 0) := by
  have hva := value_neg hgradido hinput
  have hno : d * value input ≤ 0 := mul_nonpos_of_nonneg_of_nonpos hd hva.le
  have hlow : input.gradido.toInt ≤ ⌈d * value input⌉ := by
    have hde : (0 : ℚ) ≤ input.decimal.toInt / 1000000 :=
      div_nonneg (by exact_mod_cast hinput.1) (by norm_num)
    have hle : value input ≤ d * value input := by
      have := mul_le_mul_of_nonpos_right hd' hva.le
      linarith
    have hca : (input.gradido.toInt : ℚ) ≤ ⌈d * value input⌉ := by
      have hce := Int.le_ceil (d * value input)
      rw [value] at hle hce ⊢
      linarith
    exact_mod_cast hca
  have hhigh : ⌈d * value input⌉ ≤ 0 := Int.ceil_le.mpr (by rw [Int.cast_zero]; exact hno)
  have hlong := input.gradido.le_toInt
  rw [decay_eq, truncate_of_nonpos hno]
  refine ⟨toInt_mpzGetSi (by omega) (by omega), fun hwh => ?_⟩
  have hze : (d * value input - ⌈d * value input⌉) * 1000000 = ((0 : ℤ) : ℚ) := by
    rw [hwh, sub_self, zero_mul, Int.cast_zero]
  rw [hze, mpfrGetSi, roundHalfEven_intCast]
  rfl

end Negative

end GradidoMath

end GradidoNode
