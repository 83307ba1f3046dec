import Mathlib.Algebra.Order.Floor.Ring
import Mathlib.Data.Int.Log
import Mathlib.Tactic.Linarith
import Mathlib.Tactic.Ring

/-!
# Rounding to significant digits

A number with `digits` significant digits in some base is a whole multiple of its
`quantum`, the power of the base that the last of them counts. `roundSig` rounds to
such a number by any rounding to the integers. By a nearest one it is off by half a
quantum at most, so by a share of the number that is the same for every number
(`abs_roundSig_sub_le`); what several roundings in a row do to a product or a quotient
is put together from that. The range of the exponent is unbounded.
-/

namespace RossBot.Lib

variable {K : Type*} [Field K] [LinearOrder K]

/-! ## Up to a factor -/

/-- `y` is `x` up to a factor between `low` and `high`. -/
structure WithinFactors (low high x y : K) : Prop where
  low : x * low ≤ y
  high : y ≤ x * high

namespace WithinFactors

variable [IsStrictOrderedRing K] {low high low' high' x y z c : K}

theorem mono (h : WithinFactors low high x y) (hx : 0 ≤ x) (hlow : low' ≤ low) (hhigh : high ≤ high') :
    WithinFactors low' high' x y :=
  ⟨(mul_le_mul_of_nonneg_left hlow hx).trans h.low,
    h.high.trans (mul_le_mul_of_nonneg_left hhigh hx)⟩

theorem trans (h : WithinFactors low high x y) (h' : WithinFactors low' high' y z) (hlow : 0 ≤ low')
    (hhigh : 0 ≤ high') : WithinFactors (low * low') (high * high') x z := by
  constructor
  · rw [← mul_assoc]
    exact (mul_le_mul_of_nonneg_right h.low hlow).trans h'.low
  · rw [← mul_assoc]
    exact h'.high.trans (mul_le_mul_of_nonneg_right h.high hhigh)

theorem mul_right (h : WithinFactors low high x y) (hc : 0 ≤ c) : WithinFactors low high (x * c) (y * c) := by
  constructor
  · rw [mul_right_comm]
    exact mul_le_mul_of_nonneg_right h.low hc
  · rw [mul_right_comm]
    exact mul_le_mul_of_nonneg_right h.high hc

theorem pos (h : WithinFactors low high x y) (hx : 0 < x) (hlow : 0 < low) : 0 < y :=
  (mul_pos hx hlow).trans_le h.low

/-- A quotient is off the other way. -/
theorem div_left (h : WithinFactors low high x y) (hx : 0 < x) (hlow : 0 < low) (hc : 0 ≤ c) :
    WithinFactors high⁻¹ low⁻¹ (c / x) (c / y) := by
  have hy : 0 < y := h.pos hx hlow
  constructor
  · rw [← div_eq_mul_inv, div_div]
    exact div_le_div_of_nonneg_left hc hy h.high
  · rw [← div_eq_mul_inv, div_div]
    exact div_le_div_of_nonneg_left hc (mul_pos hx hlow) h.low

end WithinFactors

/-! ## Significant digits -/

variable [FloorSemiring K]

/-- What the last of `digits` significant digits of `x` counts. -/
def quantum (base digits : ℕ) (x : K) : K := (base : K) ^ (Int.log base |x| + 1 - (digits : ℤ))

/-- `x` with `digits` significant digits. -/
def roundSig (round : K → ℤ) (base digits : ℕ) (x : K) : K :=
  (round (x / quantum base digits x) : K) * quantum base digits x

/-- A rounding to a nearest integer. -/
def Nearest (round : K → ℤ) : Prop := ∀ x, |(round x : K) - x| ≤ 1 / 2

/-- The share of a number that rounding it moves it by at most. -/
def halfUlp (K : Type*) [Field K] (base digits : ℕ) : K := (base : K) ^ (1 - (digits : ℤ)) / 2

variable [IsStrictOrderedRing K] {round : K → ℤ} {base digits : ℕ} {x : K}

theorem quantum_pos (hb : 1 < base) : 0 < quantum base digits x :=
  zpow_pos (Nat.cast_pos.mpr (Nat.zero_lt_of_lt hb)) _

/-- The first of the digits is not zero. -/
theorem quantum_le (hb : 1 < base) (hx : x ≠ 0) :
    quantum base digits x ≤ |x| * (base : K) ^ (1 - (digits : ℤ)) := by
  have hbase : (base : K) ≠ 0 := Nat.cast_ne_zero.mpr (Nat.ne_of_gt (Nat.zero_lt_of_lt hb))
  have hfirst : (base : K) ^ Int.log base |x| ≤ |x| :=
    Int.zpow_log_le_self hb (abs_pos.mpr hx)
  rw [quantum, add_sub_assoc, zpow_add₀ hbase]
  exact mul_le_mul_of_nonneg_right hfirst (zpow_nonneg (Nat.cast_nonneg base) _)

/-- **Rounding to significant digits moves a number by a fixed share of it at most.** -/
theorem abs_roundSig_sub_le (hround : Nearest round) (hb : 1 < base) (hx : x ≠ 0) :
    |roundSig round base digits x - x| ≤ |x| * halfUlp K base digits := by
  have hq : 0 < quantum base digits x := quantum_pos hb
  have hscaled : roundSig round base digits x - x
      = ((round (x / quantum base digits x) : K) - x / quantum base digits x)
        * quantum base digits x := by
    rw [roundSig, sub_mul, div_mul_cancel₀ _ hq.ne']
  rw [hscaled, abs_mul, abs_of_pos hq]
  calc |(round (x / quantum base digits x) : K) - x / quantum base digits x|
        * quantum base digits x
      ≤ 1 / 2 * quantum base digits x := mul_le_mul_of_nonneg_right (hround _) hq.le
    _ ≤ 1 / 2 * (|x| * (base : K) ^ (1 - (digits : ℤ))) :=
        mul_le_mul_of_nonneg_left (quantum_le hb hx) one_half_pos.le
    _ = |x| * halfUlp K base digits := by rw [halfUlp]; ring

/-- Nothing is rounded to nothing. -/
theorem roundSig_zero (hround : Nearest round) : roundSig round base digits (0 : K) = 0 := by
  have hzero : round (0 : K) = 0 := by
    have hnear := hround 0
    rw [sub_zero] at hnear
    by_contra hne
    have hone : (1 : K) ≤ |(round 0 : K)| := by exact_mod_cast Int.one_le_abs hne
    linarith
  rw [roundSig, zero_div, hzero, Int.cast_zero, zero_mul]

/-- A number that is not negative is rounded to what is within a share of it. -/
theorem within_roundSig (hround : Nearest round) (hb : 1 < base) (hx : 0 ≤ x) :
    WithinFactors (1 - halfUlp K base digits) (1 + halfUlp K base digits) x
      (roundSig round base digits x) := by
  have hmoved : |roundSig round base digits x - x| ≤ |x| * halfUlp K base digits := by
    rcases eq_or_ne x 0 with rfl | hne
    · rw [roundSig_zero hround, sub_self, abs_zero, zero_mul]
    · exact abs_roundSig_sub_le hround hb hne
  rw [abs_of_nonneg hx, abs_le] at hmoved
  exact ⟨by linarith [hmoved.1], by linarith [hmoved.2]⟩

end RossBot.Lib
