import Mathlib.Algebra.Order.Floor.Ring
import Mathlib.Data.Rat.Floor
import Mathlib.Tactic.FieldSimp
import Mathlib.Tactic.Linarith
import Mathlib.Tactic.Ring

/-!
# Money

`core/money.py`. Prices and P&L are exact rationals; a field of type `Money` is
quantized to four decimals when the model that carries it is built, so such a
value cannot be off the grid. Arithmetic on prices is exact, and only the roundings
the code asks for are performed; the digits of a quotient are those of `Numbers`
where what is made of it depends on them.
-/

namespace RossBot

/-- `ROUND_HALF_UP`: to the nearest integer, ties away from zero. -/
def roundHalfUp (x : ℚ) : ℤ := if 0 ≤ x then ⌊x + 1 / 2⌋ else -⌊-x + 1 / 2⌋

/-- `ROUND_HALF_EVEN`: to the nearest integer, ties to the even one. -/
def roundHalfEven (x : ℚ) : ℤ :=
  let r := x - ⌊x⌋
  if r < 1 / 2 then ⌊x⌋
  else if 1 / 2 < r then ⌊x⌋ + 1
  else if ⌊x⌋ % 2 = 0 then ⌊x⌋ else ⌊x⌋ + 1

/-- `ROUND_DOWN`: towards zero. -/
def roundDown (x : ℚ) : ℤ := if 0 ≤ x then ⌊x⌋ else -⌊-x⌋

/-- `to_money`: quantize to `0.0001`, ties away from zero. -/
def toMoney (x : ℚ) : ℚ := (roundHalfUp (x * 10000) : ℚ) / 10000

/-- A multiple of `0.0001`. -/
def OnGrid (x : ℚ) : Prop := ∃ n : ℤ, x = (n : ℚ) / 10000

/-- A `Money` field: a decimal that has been quantized. -/
@[ext] structure Money where
  /-- The amount. -/
  val : ℚ
  /-- It has at most four decimals. -/
  onGrid : OnGrid val

/-- What validation of a `Money` field does to a decimal. -/
def Money.of (x : ℚ) : Money := ⟨toMoney x, ⟨_, rfl⟩⟩

/-- A price in cents. -/
def cents (c : ℤ) : Money := .of ((c : ℚ) / 100)

instance : DecidableEq Money := fun a b => decidable_of_iff (a.val = b.val) Money.ext_iff.symm

theorem roundHalfUp_intCast (n : ℤ) : roundHalfUp (n : ℚ) = n := by
  unfold roundHalfUp
  split
  · rw [Int.floor_eq_iff]
    constructor <;> linarith
  · have h : ⌊-(n : ℚ) + 1 / 2⌋ = -n := by
      rw [Int.floor_eq_iff]
      push_cast
      constructor <;> linarith
    rw [h]; omega

/-- Truncation does not enlarge what is not negative. -/
theorem roundDown_le {x : ℚ} (h : 0 ≤ x) : (roundDown x : ℚ) ≤ x := by
  rw [roundDown, if_pos h]
  exact Int.floor_le x

theorem roundDown_nonpos {x : ℚ} (h : x ≤ 0) : roundDown x ≤ 0 := by
  unfold roundDown
  split
  · exact Int.floor_nonpos h
  · exact neg_nonpos.mpr (Int.floor_nonneg.mpr (neg_nonneg.mpr h))

/-- Something is left of a truncated amount from one on. -/
theorem roundDown_pos {x : ℚ} : 0 < roundDown x ↔ 1 ≤ x := by
  unfold roundDown
  split
  · rw [Int.lt_iff_add_one_le, zero_add, Int.le_floor, Int.cast_one]
  · rename_i hneg
    have hfloor : 0 ≤ ⌊-x⌋ := Int.floor_nonneg.mpr (by linarith)
    exact iff_of_false (by omega) (by linarith)

theorem roundDown_neg {x : ℚ} : roundDown x < 0 ↔ x ≤ -1 := by
  unfold roundDown
  split
  · rename_i hpos
    have hfloor : 0 ≤ ⌊x⌋ := Int.floor_nonneg.mpr hpos
    exact iff_of_false (by omega) (by linarith)
  · rw [neg_lt_zero, Int.lt_iff_add_one_le, zero_add, Int.le_floor, Int.cast_one, le_neg]

theorem roundDown_mono {x y : ℚ} (h : x ≤ y) : roundDown x ≤ roundDown y := by
  unfold roundDown
  split_ifs with hx hy hy
  · exact Int.floor_le_floor h
  · exact absurd (le_trans hx h) hy
  · -- the lower one is cut to something that is not positive, the upper one to something that is
    have hlow : 0 ≤ ⌊-x⌋ := Int.floor_nonneg.mpr (by linarith)
    have hhigh : 0 ≤ ⌊y⌋ := Int.floor_nonneg.mpr hy
    omega
  · have hfloor : ⌊-y⌋ ≤ ⌊-x⌋ := Int.floor_le_floor (by linarith)
    omega

/-- Whole amounts are not truncated. -/
@[simp] theorem roundHalfEven_intCast (n : ℤ) : roundHalfEven (n : ℚ) = n := by
  unfold roundHalfEven
  rw [Int.floor_intCast, sub_self]
  exact if_pos (by norm_num)

/-- Rounding goes to one of the two nearest integers. -/
theorem floor_le_roundHalfEven (x : ℚ) : ⌊x⌋ ≤ roundHalfEven x := by
  unfold roundHalfEven
  dsimp only
  split_ifs <;> omega

theorem roundHalfEven_le_ceil (x : ℚ) : roundHalfEven x ≤ ⌈x⌉ := by
  have hfloor : ⌊x⌋ ≤ ⌈x⌉ := Int.floor_le_ceil x
  have hup : ¬ x - ⌊x⌋ < 1 / 2 → ⌊x⌋ + 1 ≤ ⌈x⌉ := by
    intro hhalf
    rw [Int.add_one_le_iff, Int.lt_ceil]
    linarith
  unfold roundHalfEven
  dsimp only
  split_ifs with hlow
  · exact hfloor
  · exact hup hlow
  · exact hfloor
  · exact hup hlow

@[simp] theorem roundDown_intCast (n : ℤ) : roundDown (n : ℚ) = n := by
  unfold roundDown
  split
  · exact Int.floor_intCast n
  · rw [← Int.cast_neg, Int.floor_intCast, neg_neg]

/-- Quantizing changes nothing on the grid. -/
theorem toMoney_of_onGrid {x : ℚ} (h : OnGrid x) : toMoney x = x := by
  obtain ⟨n, rfl⟩ := h
  have hn : (n : ℚ) / 10000 * 10000 = (n : ℚ) := by ring
  rw [toMoney, hn, roundHalfUp_intCast]

theorem roundHalfUp_mono {x y : ℚ} (h : x ≤ y) : roundHalfUp x ≤ roundHalfUp y := by
  unfold roundHalfUp
  split_ifs with hx hy hy
  · exact Int.floor_le_floor (by linarith)
  · exact absurd (le_trans hx h) hy
  · -- the lower one rounds to something that is not positive, the upper one to something that is
    have hlow : 0 ≤ ⌊-x + 1 / 2⌋ := Int.floor_nonneg.mpr (by linarith)
    have hhigh : 0 ≤ ⌊y + 1 / 2⌋ := Int.floor_nonneg.mpr (by linarith)
    omega
  · have hfloor : ⌊-y + 1 / 2⌋ ≤ ⌊-x + 1 / 2⌋ := Int.floor_le_floor (by linarith)
    omega

/-- Quantizing keeps the order. -/
theorem toMoney_mono {x y : ℚ} (h : x ≤ y) : toMoney x ≤ toMoney y := by
  unfold toMoney
  have hround : roundHalfUp (x * 10000) ≤ roundHalfUp (y * 10000) :=
    roundHalfUp_mono (by linarith)
  have hcast : (roundHalfUp (x * 10000) : ℚ) ≤ roundHalfUp (y * 10000) := by exact_mod_cast hround
  linarith

theorem OnGrid.add {x y : ℚ} (hx : OnGrid x) (hy : OnGrid y) : OnGrid (x + y) := by
  obtain ⟨m, rfl⟩ := hx
  obtain ⟨n, rfl⟩ := hy
  exact ⟨m + n, by push_cast; ring⟩

/-- Whole cents are on the grid. -/
theorem onGrid_cents (n : ℤ) : OnGrid ((n : ℚ) / 100) := ⟨n * 100, by push_cast; ring⟩

@[simp] theorem Money.val_of (x : ℚ) : (Money.of x).val = toMoney x := rfl

/-- Quantizing a quantized amount changes nothing. -/
@[simp] theorem Money.toMoney_val (m : Money) : toMoney m.val = m.val := toMoney_of_onGrid m.onGrid

/-- Validating a `Money` value again gives it back. -/
@[simp] theorem Money.of_val (m : Money) : Money.of m.val = m := Money.ext m.toMoney_val

end RossBot
