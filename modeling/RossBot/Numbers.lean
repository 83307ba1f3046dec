import RossBot.Lib.SigDigits
import RossBot.Money

/-!
# Decimals and floats

Where a quotient is compared or averaged, the digits it is rounded to matter: 28
decimal ones in the default context of `decimal`, 53 binary ones in a float, both to
nearest with ties to even. Infinities and the ends of the exponents' ranges are left
out.
-/

namespace RossBot

open Lib

theorem nearest_roundHalfEven : Nearest (roundHalfEven : ℚ → ℤ) := by
  intro x
  have hfloor := Int.floor_le x
  have hceil := Int.lt_floor_add_one x
  unfold roundHalfEven
  dsimp only
  rw [abs_le]
  split_ifs <;> push_cast <;> constructor <;> linarith

/-- The result of an operation on `Decimal`s: `getcontext().prec` is 28. -/
def decimal28 (x : ℚ) : ℚ := roundSig roundHalfEven 10 28 x

/-- The share of a result that its rounding moves it by at most. -/
def decimalUlp : ℚ := halfUlp ℚ 10 28

theorem within_decimal28 {x : ℚ} (hx : 0 ≤ x) :
    WithinFactors (1 - decimalUlp) (1 + decimalUlp) x (decimal28 x) :=
  within_roundSig nearest_roundHalfEven (by norm_num) hx

/-- `float(x)`, and the result of an operation on floats. -/
def binary64 (x : ℚ) : ℚ := roundSig roundHalfEven 2 53 x

/-- `round(x, digits)`, of a float: its exact value is rounded. -/
def roundFloat (x : ℚ) (digits : ℕ) : ℚ :=
  binary64 ((roundHalfEven (x * 10 ^ digits) : ℚ) / 10 ^ digits)

/-- What `sum` keeps of floats: the total, and what rounding it has left out so far. -/
structure FloatSum where
  total : ℚ
  lost : ℚ

/-- One more float. -/
def FloatSum.add (s : FloatSum) (x : ℚ) : FloatSum :=
  let total := binary64 (s.total + x)
  -- the smaller one is what digits are lost of
  let lost :=
    if |x| ≤ |s.total| then binary64 (binary64 (s.total - total) + x)
    else binary64 (binary64 (x - total) + s.total)
  ⟨total, binary64 (s.lost + lost)⟩

/-- `sum`, of a list of floats. -/
def floatSum : List ℚ → ℚ
  | [] => 0
  | x :: xs =>
      let s := xs.foldl FloatSum.add ⟨x, 0⟩
      if s.lost = 0 then s.total else binary64 (s.total + s.lost)

end RossBot
