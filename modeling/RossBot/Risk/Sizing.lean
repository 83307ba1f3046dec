import RossBot.Risk.PreTrade

/-!
# Position sizing

`core/risk/sizing.py`: `compute_size`, its caps and multipliers in the order the
source applies them.
-/

namespace RossBot

/-- `int((Decimal(raw) * mult).to_integral_value(ROUND_DOWN))`. -/
def scaleDown (raw : ℤ) (mult : ℚ) : ℤ := roundDown ((raw : ℚ) * mult)

/-- The icebreaker cap: `max(1, int(MAX_SIZE * ICEBREAKER_FRACTION))`. -/
def icebreakerCap (cfg : Config) : ℤ := max 1 (scaleDown cfg.maxSize cfg.icebreakerFraction)

/-- Step 1: the raw share count; `none` for a degenerate stop. -/
def rawSize (signal : EntrySignal) (state : RiskState) (cfg : Config) : Option ℤ :=
  match cfg.sizingMode with
  | .riskFormula =>
      if signal.riskPerShare ≤ 0 then none
      else some (roundDown (cfg.perTradeRiskDollars / signal.riskPerShare))
  | .flatBlock =>
      some (if cfg.cushionPnlThreshold ≤ state.realizedPnl then cfg.maxSize else cfg.starterCap)

/-- Step 2: the cushion and icebreaker caps. -/
def cushionCap (raw : ℤ) (state : RiskState) (cfg : Config) : ℤ :=
  if state.realizedPnl ≤ 0 then min raw (icebreakerCap cfg)
  else if state.realizedPnl < cfg.cushionPnlThreshold then min raw cfg.starterCap
  else raw

/-- Step 4: the day-of-week multiplier (`0` is Monday, `4` is Friday). -/
def dayOfWeekScale (raw : ℤ) (dayOfWeek : ℕ) (cfg : Config) : ℤ :=
  if dayOfWeek = 0 then scaleDown raw cfg.dowMondayMult
  else if dayOfWeek = 4 then scaleDown raw cfg.dowFridayMult
  else raw

/-- Step 5: the market-state cap or multiplier. -/
def marketStateScale (raw : ℤ) (marketState : MarketState) (cfg : Config) : ℤ :=
  match marketState with
  | .rehab => min raw cfg.marketStateRehabCap
  | .cold => scaleDown raw cfg.marketStateColdMult
  | .hot => raw

/-- Step 6: the liquidity cap; a cap that is not positive is ignored. -/
def liquidityCap (raw : ℤ) (cap : Option ℤ) : ℤ :=
  match cap with
  | none => raw
  | some c => if 0 < c then min raw c else raw

/-- `compute_size`. -/
def computeSize (signal : EntrySignal) (state : RiskState) (cfg : Config)
    (marketState : MarketState) (dayOfWeek : ℕ) (liquidityCapShares : Option ℤ) : ℤ :=
  match rawSize signal state cfg with
  | none => 0
  | some raw =>
      let raw := cushionCap raw state cfg
      let raw := scaleDown raw signal.convictionScore.val
      let raw := dayOfWeekScale raw dayOfWeek cfg
      let raw := marketStateScale raw marketState cfg
      let raw := liquidityCap raw liquidityCapShares
      max 0 (min raw cfg.maxSize)

/-! ## No later step enlarges a size -/

theorem scaleDown_le {raw : ℤ} {mult : ℚ} (h₀ : 0 ≤ mult) (h₁ : mult ≤ 1) :
    scaleDown raw mult ≤ max 0 raw := by
  rcases le_total raw 0 with hraw | hraw
  · -- nothing is made of nothing
    have hcast : (raw : ℚ) ≤ 0 := by exact_mod_cast hraw
    exact le_max_of_le_left (roundDown_nonpos (mul_nonpos_of_nonpos_of_nonneg hcast h₀))
  · refine le_max_of_le_right ?_
    have hcast : (0 : ℚ) ≤ raw := by exact_mod_cast hraw
    have hle : (scaleDown raw mult : ℚ) ≤ raw :=
      calc (scaleDown raw mult : ℚ) ≤ raw * mult := roundDown_le (mul_nonneg hcast h₀)
        _ ≤ raw := mul_le_of_le_one_right hcast h₁
    exact_mod_cast hle

/-- The multipliers of the configuration and the conviction are fractions. -/
structure Fractions (cfg : Config) (signal : EntrySignal) : Prop where
  monday : 0 ≤ cfg.dowMondayMult ∧ cfg.dowMondayMult ≤ 1
  friday : 0 ≤ cfg.dowFridayMult ∧ cfg.dowFridayMult ≤ 1
  cold : 0 ≤ cfg.marketStateColdMult ∧ cfg.marketStateColdMult ≤ 1
  conviction : 0 ≤ signal.convictionScore.val ∧ signal.convictionScore.val ≤ 1

section Caps

variable {cfg : Config} {signal : EntrySignal}

theorem dayOfWeekScale_le (h : Fractions cfg signal) (raw : ℤ) (dayOfWeek : ℕ) :
    dayOfWeekScale raw dayOfWeek cfg ≤ max 0 raw := by
  unfold dayOfWeekScale
  split_ifs
  · exact scaleDown_le h.monday.1 h.monday.2
  · exact scaleDown_le h.friday.1 h.friday.2
  · exact le_max_right 0 raw

theorem marketStateScale_le (h : Fractions cfg signal) (raw : ℤ) (marketState : MarketState) :
    marketStateScale raw marketState cfg ≤ max 0 raw := by
  cases marketState with
  | rehab => exact le_max_of_le_right (min_le_left ..)
  | cold => exact scaleDown_le h.cold.1 h.cold.2
  | hot => exact le_max_right 0 raw

theorem liquidityCap_le (raw : ℤ) (cap : Option ℤ) : liquidityCap raw cap ≤ raw := by
  unfold liquidityCap
  split
  · exact le_refl raw
  · split
    · exact min_le_left ..
    · exact le_refl raw

/-! Of nothing, nothing is made. -/

theorem scaleDown_zero (mult : ℚ) : scaleDown 0 mult = 0 := by
  rw [scaleDown, Int.cast_zero, zero_mul]
  exact roundDown_intCast 0

theorem dayOfWeekScale_zero (dayOfWeek : ℕ) : dayOfWeekScale 0 dayOfWeek cfg = 0 := by
  unfold dayOfWeekScale
  split_ifs
  · exact scaleDown_zero _
  · exact scaleDown_zero _
  · rfl

theorem marketStateScale_zero_le (marketState : MarketState) :
    marketStateScale 0 marketState cfg ≤ 0 := by
  cases marketState with
  | rehab => exact min_le_left ..
  | cold => exact (scaleDown_zero _).le
  | hot => exact le_refl 0

/-- What the multipliers make of nothing is not positive, and the last caps leave nothing of it. -/
theorem capped_zero (conviction : ℚ) (marketState : MarketState) (dayOfWeek : ℕ)
    (cap : Option ℤ) :
    max 0 (min (liquidityCap (marketStateScale (dayOfWeekScale (scaleDown 0 conviction) dayOfWeek
      cfg) marketState cfg) cap) cfg.maxSize) = 0 := by
  rw [scaleDown_zero, dayOfWeekScale_zero]
  exact max_eq_left ((min_le_left ..).trans
    ((liquidityCap_le ..).trans (marketStateScale_zero_le marketState)))

end Caps

/-- The share count after the cushion, conviction, day-of-week and market-state steps. -/
def sizedBeforeLiquidity (raw : ℤ) (signal : EntrySignal) (state : RiskState) (cfg : Config)
    (marketState : MarketState) (dayOfWeek : ℕ) : ℤ :=
  marketStateScale (dayOfWeekScale (scaleDown (cushionCap raw state cfg)
    signal.convictionScore.val) dayOfWeek cfg) marketState cfg

section Sizes

variable {signal : EntrySignal} {state : RiskState} {cfg : Config} {marketState : MarketState}
  {dayOfWeek : ℕ} {cap : Option ℤ}

theorem computeSize_of_rawSize {raw : ℤ} (h : rawSize signal state cfg = some raw) :
    computeSize signal state cfg marketState dayOfWeek cap
      = max 0 (min (liquidityCap (sizedBeforeLiquidity raw signal state cfg marketState dayOfWeek)
          cap) cfg.maxSize) := by
  unfold computeSize
  rw [h]
  rfl

variable (signal state cfg marketState dayOfWeek cap) in
theorem computeSize_nonneg : 0 ≤ computeSize signal state cfg marketState dayOfWeek cap := by
  unfold computeSize
  split
  · exact le_refl 0
  · exact le_max_left 0 _

/-- A size that is not zero came from a raw size. -/
theorem exists_rawSize (h : 0 < computeSize signal state cfg marketState dayOfWeek cap) :
    ∃ raw, rawSize signal state cfg = some raw := by
  unfold computeSize at h
  split at h
  · exact absurd h (lt_irrefl 0)
  · exact ⟨_, by assumption⟩

/-- The last two caps hold of what is left of a size. -/
theorem computeSize_le_last {raw : ℤ} (hraw : rawSize signal state cfg = some raw)
    (h : 0 < computeSize signal state cfg marketState dayOfWeek cap) :
    computeSize signal state cfg marketState dayOfWeek cap
        ≤ liquidityCap (sizedBeforeLiquidity raw signal state cfg marketState dayOfWeek) cap
      ∧ computeSize signal state cfg marketState dayOfWeek cap ≤ cfg.maxSize := by
  rw [computeSize_of_rawSize hraw] at h ⊢
  rcases lt_max_iff.mp h with h | h
  · exact absurd h (lt_irrefl 0)
  · rw [max_eq_right h.le]
    exact ⟨min_le_left .., min_le_right ..⟩

/-- **The cushion's caps survive every later step.** -/
theorem computeSize_le_cushion (hf : Fractions cfg signal) {raw : ℤ}
    (hraw : rawSize signal state cfg = some raw)
    (h : 0 < computeSize signal state cfg marketState dayOfWeek cap) :
    computeSize signal state cfg marketState dayOfWeek cap ≤ cushionCap raw state cfg := by
  have hle : computeSize signal state cfg marketState dayOfWeek cap
      ≤ max 0 (cushionCap raw state cfg) :=
    calc computeSize signal state cfg marketState dayOfWeek cap
        ≤ sizedBeforeLiquidity raw signal state cfg marketState dayOfWeek :=
          (computeSize_le_last hraw h).1.trans (liquidityCap_le ..)
      _ ≤ max 0 (dayOfWeekScale (scaleDown (cushionCap raw state cfg)
            signal.convictionScore.val) dayOfWeek cfg) := marketStateScale_le hf ..
      _ ≤ max 0 (max 0 (scaleDown (cushionCap raw state cfg) signal.convictionScore.val)) :=
          max_le_max_left 0 (dayOfWeekScale_le hf ..)
      _ ≤ max 0 (cushionCap raw state cfg) := by
          have hconv : scaleDown (cushionCap raw state cfg) signal.convictionScore.val
              ≤ max 0 (cushionCap raw state cfg) :=
            scaleDown_le hf.conviction.1 hf.conviction.2
          simp only [max_le_iff, le_max_left, hconv, and_self]
  rcases le_max_iff.mp hle with hz | hc
  · exact absurd h (not_lt.mpr hz)
  · exact hc

theorem cushionCap_le (raw : ℤ) : cushionCap raw state cfg ≤ raw := by
  unfold cushionCap
  split_ifs
  · exact min_le_left ..
  · exact min_le_left ..
  · exact le_refl raw

end Sizes

end RossBot
