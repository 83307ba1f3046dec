import RossBot.Money

/-!
# Limit up, limit down

The bands of `core/compliance/ssr.py`. Below 0.75 a band is meant to be the lesser
of 75% of the price and 0.15; the code takes the greater, and from 0.15 down its
lower band is no price at all (`lower_nonpos_iff`).
-/

namespace RossBot

/-- `luld_band_pct`. -/
def luldBandPct (price : ℚ) (nearClose : Bool) : ℚ :=
  if price < 75 / 100 then 75
  else if price < 3 then
    let base := 20
    if nearClose then base * 2 else base
  else 5

/-- `luld_bands`: the lower and the upper. -/
def luldBands (price : ℚ) (nearClose : Bool) : ℚ × ℚ :=
  let pct := luldBandPct price nearClose
  let half := price * pct / 100
  let half := if price < 75 / 100 then max half (15 / 100) else half
  (price - half, price + half)

/-- The bands lie around the price, above zero, and as far from it as the lowest tier says. -/
structure LuldInForce (price : ℚ) (nearClose : Bool) : Prop where
  lower_pos : 0 < (luldBands price nearClose).1
  lower_lt : (luldBands price nearClose).1 < price
  lt_upper : price < (luldBands price nearClose).2
  lesser : price < 75 / 100 →
    price - (luldBands price nearClose).1 = min (price * 75 / 100) (15 / 100) ∧
      (luldBands price nearClose).2 - price = min (price * 75 / 100) (15 / 100)

/-- Below 0.75. -/
theorem luldBands_low {price : ℚ} (h : price < 75 / 100) (nearClose : Bool) :
    luldBands price nearClose =
      (price - max (price * 75 / 100) (15 / 100), price + max (price * 75 / 100) (15 / 100)) := by
  rw [luldBands, luldBandPct, if_pos h, if_pos h]

/-- From 0.75 on the half-width is a share of the price, less than the whole. -/
theorem luldBands_of_le {price : ℚ} (hpos : 0 < price) (h : 75 / 100 ≤ price) (nearClose : Bool) :
    ∃ half, 0 < half ∧ half < price ∧
      luldBands price nearClose = (price - half, price + half) := by
  have hpct : 0 < luldBandPct price nearClose ∧ luldBandPct price nearClose < 100 := by
    rw [luldBandPct, if_neg h.not_gt]
    cases nearClose <;> split <;> norm_num
  refine ⟨price * luldBandPct price nearClose / 100, ?_, ?_, ?_⟩
  · have hprod := mul_pos hpos hpct.1
    linarith
  · have hprod := mul_lt_mul_of_pos_left hpct.2 hpos
    linarith
  · rw [luldBands, if_neg h.not_gt]

/-- In the lowest tier the lower band is a price only above 0.15. -/
theorem lower_nonpos_iff {price : ℚ} (hpos : 0 < price) (h : price < 75 / 100)
    (nearClose : Bool) : (luldBands price nearClose).1 ≤ 0 ↔ price ≤ 15 / 100 := by
  rw [luldBands_low h]
  show price - max (price * 75 / 100) (15 / 100) ≤ 0 ↔ _
  rw [sub_nonpos, le_max_iff]
  constructor
  · rintro (hle | hle)
    · linarith
    · exact hle
  · exact Or.inr

/--
**The bands are right from 0.75 on, and at 0.20.** For a positive price, they lie
around it and above zero, with the lesser half-width below 0.75, if and only if the
price is at least 0.75 or exactly 0.20, where 75% of it is 0.15.
-/
theorem luldInForce_iff (price : ℚ) (hpos : 0 < price) (nearClose : Bool) :
    LuldInForce price nearClose ↔ 75 / 100 ≤ price ∨ price = 20 / 100 := by
  rcases lt_or_ge price (75 / 100) with hlow | hhigh
  · have hbands := luldBands_low hlow nearClose
    constructor
    · intro h
      have hwidth := (h.lesser hlow).1
      rw [hbands, sub_sub_cancel] at hwidth
      have heq : price * 75 / 100 = 15 / 100 := sup_eq_inf.mp hwidth
      refine Or.inr ?_
      linarith
    · rintro (hge | rfl)
      · exact absurd hge hlow.not_ge
      · constructor <;> rw [hbands] <;> norm_num
  · obtain ⟨half, hhalf, hless, hbands⟩ := luldBands_of_le hpos hhigh nearClose
    refine ⟨fun _ => Or.inl hhigh, fun _ => ?_⟩
    constructor <;> rw [hbands]
    · show 0 < price - half
      linarith
    · show price - half < price
      linarith
    · show price < price + half
      linarith
    · exact fun hlow => absurd hlow hhigh.not_gt

/-- Ten cents: the lower band is below zero. -/
theorem not_luldInForce_dime : 0 < (10 / 100 : ℚ) ∧ ¬ LuldInForce (10 / 100) false := by
  refine ⟨by norm_num, ?_⟩
  intro h
  exact absurd h.lower_pos (by decide +kernel)

theorem luldInForce_iff_five : LuldInForce 5 true ↔ 75 / 100 ≤ (5 : ℚ) ∨ (5 : ℚ) = 20 / 100 :=
  luldInForce_iff 5 (by norm_num) true

end RossBot
