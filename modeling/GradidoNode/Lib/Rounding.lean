/-
# `GradidoNode.Lib.Rounding` — a number rounded to an integer

Two roundings, over any ordered field with a floor:

    truncate        toward zero
    roundHalfEven   to the nearest integer, from halfway to the even one

Rounding to the nearest stays within a half and does not cross an integer.  Where the
number was cut off at an integer `n`, what is rounded is smaller than `n`, but it may be
rounded up to `n`: for an even `n` this happens from `n - 1/2` on
(`roundHalfEven_lt_iff`).
-/
import Mathlib.Algebra.Order.Floor.Ring
import Mathlib.Algebra.Ring.Int.Parity
import Mathlib.Tactic.Linarith

namespace GradidoNode.Lib

variable {K : Type*} [Field K] [LinearOrder K] [IsStrictOrderedRing K] [FloorRing K] {x : K} {n : ℤ}

/-! ## Toward zero -/

def truncate (x : K) : ℤ := if 0 ≤ x then ⌊x⌋ else ⌈x⌉

omit [IsStrictOrderedRing K] in
theorem truncate_of_nonneg (h : 0 ≤ x) : truncate x = ⌊x⌋ := if_pos h

theorem truncate_of_nonpos (h : x ≤ 0) : truncate x = ⌈x⌉ := by
  unfold truncate
  split
  · next hno =>
    obtain rfl : x = 0 := le_antisymm h hno
    rw [Int.floor_zero, Int.ceil_zero]
  · rfl

/-! ## To the nearest -/

def roundHalfEven (x : K) : ℤ :=
  if Int.fract x < 1 / 2 then ⌊x⌋
  else if 1 / 2 < Int.fract x then ⌊x⌋ + 1
  else if Even ⌊x⌋ then ⌊x⌋ else ⌊x⌋ + 1

omit [IsStrictOrderedRing K] in
/-- The three ways to round: down, up, and from halfway. -/
theorem roundHalfEven_cases (x : K) : (roundHalfEven x = ⌊x⌋ ∧ Int.fract x < 1 / 2) ∨
      (roundHalfEven x = ⌊x⌋ + 1 ∧ 1 / 2 < Int.fract x) ∨
      (Int.fract x = 1 / 2 ∧ Even (roundHalfEven x) ∧
        (roundHalfEven x = ⌊x⌋ ∨ roundHalfEven x = ⌊x⌋ + 1)) := by
  unfold roundHalfEven
  split
  · next hlow => exact .inl ⟨rfl, hlow⟩
  · next hlow =>
    split
    · next hhigh => exact .inr (.inl ⟨rfl, hhigh⟩)
    · next hhigh =>
      refine .inr (.inr ⟨le_antisymm (not_lt.mp hhigh) (not_lt.mp hlow), ?_⟩)
      split
      · next hev => exact ⟨hev, .inl rfl⟩
      · next hodd => exact ⟨Int.even_add_one.mpr hodd, .inr rfl⟩

@[simp] theorem roundHalfEven_intCast (n : ℤ) : roundHalfEven (n : K) = n := by
  have hlow : Int.fract (n : K) < 1 / 2 := by
    rw [Int.fract_intCast]
    exact one_half_pos
  rw [roundHalfEven, if_pos hlow, Int.floor_intCast]

theorem abs_sub_roundHalfEven_le (x : K) : |x - roundHalfEven x| ≤ 1 / 2 := by
  have hx := Int.floor_add_fract x
  have hno := Int.fract_nonneg x
  have hlt := Int.fract_lt_one x
  rw [abs_le]
  rcases roundHalfEven_cases x with ⟨hro, hlow⟩ | ⟨hro, hhigh⟩ | ⟨hha, -, hro | hro⟩
  · rw [hro]
    constructor <;> linarith
  · rw [hro, Int.cast_add, Int.cast_one]
    constructor <;> linarith
  · rw [hro]
    constructor <;> linarith
  · rw [hro, Int.cast_add, Int.cast_one]
    constructor <;> linarith

/-- No integer is crossed upwards. -/
theorem roundHalfEven_le (h : x ≤ n) : roundHalfEven x ≤ n := by
  have hcl := (abs_le.mp (abs_sub_roundHalfEven_le x)).1
  have hlt : (roundHalfEven x : K) < n + 1 := by linarith
  have hlt' : roundHalfEven x < n + 1 := by exact_mod_cast hlt
  omega

/-- No integer is crossed downwards. -/
theorem le_roundHalfEven (h : n ≤ x) : n ≤ roundHalfEven x := by
  have hcl := (abs_le.mp (abs_sub_roundHalfEven_le x)).2
  have hlt : (n : K) - 1 < roundHalfEven x := by linarith
  have hlt' : n - 1 < roundHalfEven x := by exact_mod_cast hlt
  omega

/-- An even integer is reached from half below it on. -/
theorem roundHalfEven_lt_iff (hn : Even n) : roundHalfEven x < n ↔ x < n - 1 / 2 := by
  have hcl := abs_le.mp (abs_sub_roundHalfEven_le x)
  constructor
  · intro hlt
    have hle : (roundHalfEven x : K) ≤ n - 1 := by
      have hle' : roundHalfEven x ≤ n - 1 := by omega
      exact_mod_cast hle'
    by_contra hge
    -- then `x` is halfway, and is rounded to an even integer next to an even one
    have hro : roundHalfEven x = n - 1 := by
      have hca : (roundHalfEven x : K) = (n - 1 : ℤ) := by
        rw [Int.cast_sub, Int.cast_one]
        linarith
      exact_mod_cast hca
    have hfl : ⌊x⌋ = n - 1 := by
      rw [Int.floor_eq_iff, Int.cast_sub, Int.cast_one]
      constructor <;> linarith
    have hfr : Int.fract x = 1 / 2 := by
      have hsp := Int.floor_add_fract x
      rw [hfl, Int.cast_sub, Int.cast_one] at hsp
      linarith
    rcases roundHalfEven_cases x with ⟨-, hlow⟩ | ⟨-, hhigh⟩ | ⟨-, hev, -⟩
    · exact absurd hfr hlow.ne
    · exact absurd hfr hhigh.ne'
    · rw [hro] at hev
      exact absurd (hev.add_one) (by rw [sub_add_cancel]; exact Int.not_odd_iff_even.mpr hn)
  · intro hlt
    have hro : (roundHalfEven x : K) < n := by linarith
    exact_mod_cast hro

end GradidoNode.Lib
