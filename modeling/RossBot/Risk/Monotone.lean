import Mathlib.Data.Int.ConditionallyCompleteOrder
import RossBot.Risk.Approval

/-!
# What a size grows with

Every step of `compute_size` keeps the order of two counts as long as no
multiplier is negative, so a size grows with conviction, with the budget and with
a liquidity cap, and shrinks with the distance of the stop
(`computeSize_monotone`). The day's P&L is different: it selects which cap holds,
and nobody checks that the caps are in order (`neverUpWhileRed_iff`).
-/

namespace RossBot

/-- What the steps after the cushion make of a count. -/
def laterSteps (signal : EntrySignal) (cfg : Config) (marketState : MarketState) (dayOfWeek : ℕ)
    (cap : Option ℤ) (raw : ℤ) : ℤ :=
  max 0 (min (liquidityCap (marketStateScale (dayOfWeekScale
    (scaleDown raw signal.convictionScore.val) dayOfWeek cfg) marketState cfg) cap) cfg.maxSize)

/-- The multipliers of the configuration are not negative. -/
structure NonNegativeMults (cfg : Config) : Prop where
  monday : 0 ≤ cfg.dowMondayMult
  friday : 0 ≤ cfg.dowFridayMult
  cold : 0 ≤ cfg.marketStateColdMult

section Steps

variable {signal : EntrySignal} {state : RiskState} {cfg : Config} {marketState : MarketState}
  {dayOfWeek : ℕ} {cap : Option ℤ} {raw raw' : ℤ}

theorem computeSize_eq_laterSteps (h : rawSize signal state cfg = some raw) :
    computeSize signal state cfg marketState dayOfWeek cap =
      laterSteps signal cfg marketState dayOfWeek cap (cushionCap raw state cfg) := by
  rw [computeSize, h]
  rfl

theorem scaleDown_mono {mult : ℚ} (hmult : 0 ≤ mult) (h : raw ≤ raw') :
    scaleDown raw mult ≤ scaleDown raw' mult := by
  have hcast : (raw : ℚ) ≤ raw' := by exact_mod_cast h
  exact roundDown_mono (mul_le_mul_of_nonneg_right hcast hmult)

theorem dayOfWeekScale_mono (hm : NonNegativeMults cfg) (h : raw ≤ raw') :
    dayOfWeekScale raw dayOfWeek cfg ≤ dayOfWeekScale raw' dayOfWeek cfg := by
  unfold dayOfWeekScale
  split_ifs
  · exact scaleDown_mono hm.monday h
  · exact scaleDown_mono hm.friday h
  · exact h

theorem marketStateScale_mono (hm : NonNegativeMults cfg) (h : raw ≤ raw') :
    marketStateScale raw marketState cfg ≤ marketStateScale raw' marketState cfg := by
  cases marketState with
  | rehab => exact min_le_min_right _ h
  | cold => exact scaleDown_mono hm.cold h
  | hot => exact h

theorem liquidityCap_mono (h : raw ≤ raw') : liquidityCap raw cap ≤ liquidityCap raw' cap := by
  unfold liquidityCap
  split
  · exact h
  · split
    · exact min_le_min_right _ h
    · exact h

theorem cushionCap_mono (h : raw ≤ raw') :
    cushionCap raw state cfg ≤ cushionCap raw' state cfg := by
  unfold cushionCap
  split_ifs
  · exact min_le_min_right _ h
  · exact min_le_min_right _ h
  · exact h

/-- The steps after the conviction keep the order. -/
theorem steps_after_conviction_mono (hm : NonNegativeMults cfg) (h : raw ≤ raw') :
    max 0 (min (liquidityCap (marketStateScale (dayOfWeekScale raw dayOfWeek cfg) marketState
        cfg) cap) cfg.maxSize) ≤
      max 0 (min (liquidityCap (marketStateScale (dayOfWeekScale raw' dayOfWeek cfg) marketState
        cfg) cap) cfg.maxSize) :=
  max_le_max_left 0 (min_le_min_right _
    (liquidityCap_mono (marketStateScale_mono hm (dayOfWeekScale_mono hm h))))

theorem laterSteps_mono (hm : NonNegativeMults cfg) (hconv : 0 ≤ signal.convictionScore.val)
    (h : raw ≤ raw') : laterSteps signal cfg marketState dayOfWeek cap raw ≤
      laterSteps signal cfg marketState dayOfWeek cap raw' :=
  steps_after_conviction_mono hm (scaleDown_mono hconv h)

theorem laterSteps_nonneg : 0 ≤ laterSteps signal cfg marketState dayOfWeek cap raw :=
  le_max_left 0 _

/-- No step makes something of nothing. -/
theorem laterSteps_zero : laterSteps signal cfg marketState dayOfWeek cap 0 = 0 := capped_zero ..

/-- Of nothing, or less, nothing is made. -/
theorem laterSteps_of_nonpos (hm : NonNegativeMults cfg)
    (hconv : 0 ≤ signal.convictionScore.val) (h : raw ≤ 0) :
    laterSteps signal cfg marketState dayOfWeek cap raw = 0 :=
  le_antisymm ((laterSteps_mono hm hconv h).trans laterSteps_zero.le) laterSteps_nonneg

/-- The conviction: a count that is not positive comes to nothing whatever it is. -/
theorem laterSteps_mono_conviction (hm : NonNegativeMults cfg)
    (hconv : 0 ≤ signal.convictionScore.val) {conviction : Money}
    (h : signal.convictionScore.val ≤ conviction.val) :
    laterSteps signal cfg marketState dayOfWeek cap raw ≤
      laterSteps { signal with convictionScore := conviction } cfg marketState dayOfWeek cap
        raw := by
  rcases le_total raw 0 with hraw | hraw
  · rw [laterSteps_of_nonpos hm hconv hraw]
    exact laterSteps_nonneg
  · have hcast : (0 : ℚ) ≤ raw := by exact_mod_cast hraw
    exact steps_after_conviction_mono hm (roundDown_mono (mul_le_mul_of_nonneg_left h hcast))

/-- A positive cap that is higher cuts less off. -/
theorem liquidityCap_mono_cap {c c' : ℤ} (hc : 0 < c) (h : c ≤ c') :
    liquidityCap raw (some c) ≤ liquidityCap raw (some c') := by
  simp only [liquidityCap, if_pos hc, if_pos (hc.trans_le h)]
  exact min_le_min_left _ h

theorem computeSize_mono_conviction (hm : NonNegativeMults cfg)
    (hconv : 0 ≤ signal.convictionScore.val) {conviction : Money}
    (h : signal.convictionScore.val ≤ conviction.val) :
    computeSize signal state cfg marketState dayOfWeek cap ≤
      computeSize { signal with convictionScore := conviction } state cfg marketState dayOfWeek
        cap := by
  cases hraw : rawSize signal state cfg with
  | none =>
      rw [computeSize, hraw]
      exact computeSize_nonneg ..
  | some raw =>
      rw [computeSize_eq_laterSteps hraw, computeSize_eq_laterSteps
        (show rawSize { signal with convictionScore := conviction } state cfg = some raw from hraw)]
      exact laterSteps_mono_conviction hm hconv h

/-- A larger budget buys no less. -/
theorem computeSize_mono_dollars (hm : NonNegativeMults cfg)
    (hconv : 0 ≤ signal.convictionScore.val) {dollars : ℚ} (h : cfg.perTradeRiskDollars ≤ dollars) :
    computeSize signal state cfg marketState dayOfWeek cap ≤
      computeSize signal state { cfg with perTradeRiskDollars := dollars } marketState dayOfWeek
        cap := by
  -- without a raw size the code returns 0, which every size is above
  cases hraw : rawSize signal state cfg with
  | none =>
      rw [computeSize, hraw]
      exact computeSize_nonneg ..
  | some raw =>
      -- only the risk formula divides the dollars
      have hlarger : ∃ raw', rawSize signal state { cfg with perTradeRiskDollars := dollars }
          = some raw' ∧ raw ≤ raw' := by
        unfold rawSize at hraw ⊢
        cases hmode : cfg.sizingMode with
        | flatBlock =>
            rw [hmode] at hraw
            exact ⟨raw, hraw, le_refl raw⟩
        | riskFormula =>
            rw [hmode] at hraw
            dsimp only at hraw ⊢
            split at hraw
            · exact absurd hraw (by simp)
            · rename_i hdistance
              refine ⟨_, if_neg hdistance, ?_⟩
              rw [← Option.some.inj hraw]
              exact roundDown_mono (div_le_div_of_nonneg_right h (not_le.mp hdistance).le)
      -- the remaining steps keep the order
      obtain ⟨raw', hraw', hle⟩ := hlarger
      rw [computeSize_eq_laterSteps hraw, computeSize_eq_laterSteps hraw']
      exact laterSteps_mono hm hconv (cushionCap_mono hle)

/-- A positive liquidity cap that is higher allows no less. -/
theorem computeSize_mono_cap {c c' : ℤ} (hc : 0 < c) (h : c ≤ c') :
    computeSize signal state cfg marketState dayOfWeek (some c) ≤
      computeSize signal state cfg marketState dayOfWeek (some c') := by
  cases hraw : rawSize signal state cfg with
  | none =>
      rw [computeSize, hraw]
      exact computeSize_nonneg ..
  | some raw =>
      rw [computeSize_eq_laterSteps hraw, computeSize_eq_laterSteps hraw]
      exact max_le_max_left 0 (min_le_min_right _ (liquidityCap_mono_cap hc h))

/-- A stop further away buys no more. A negative budget buys nothing at any distance. -/
theorem computeSize_anti_distance (hm : NonNegativeMults cfg)
    (hconv : 0 ≤ signal.convictionScore.val) (hmode : cfg.sizingMode = .riskFormula)
    {entry stop : Money} (hdistance : 0 < signal.riskPerShare)
    (h : signal.riskPerShare ≤ entry.val - stop.val) :
    computeSize { signal with entryPrice := entry, stopPrice := stop } state cfg marketState
        dayOfWeek cap ≤ computeSize signal state cfg marketState dayOfWeek cap := by
  have hfar : 0 < entry.val - stop.val := hdistance.trans_le h
  have hraw : rawSize signal state cfg =
      some (roundDown (cfg.perTradeRiskDollars / signal.riskPerShare)) := by
    simp only [rawSize, hmode]
    exact if_neg (not_le.mpr hdistance)
  have hraw' : rawSize { signal with entryPrice := entry, stopPrice := stop } state cfg =
      some (roundDown (cfg.perTradeRiskDollars / (entry.val - stop.val))) := by
    simp only [rawSize, hmode]
    exact if_neg (not_le.mpr hfar)
  rw [computeSize_eq_laterSteps hraw, computeSize_eq_laterSteps hraw']
  show laterSteps signal cfg marketState dayOfWeek cap _ ≤ _
  rcases le_total cfg.perTradeRiskDollars 0 with hbudget | hbudget
  · -- with no budget both counts are zero or below
    have hnothing : cushionCap (roundDown (cfg.perTradeRiskDollars / (entry.val - stop.val)))
        state cfg ≤ 0 :=
      (cushionCap_le _).trans (roundDown_nonpos (div_nonpos_of_nonpos_of_nonneg hbudget hfar.le))
    rw [laterSteps_of_nonpos hm hconv hnothing]
    exact laterSteps_nonneg
  · -- a longer distance divides the same budget into fewer shares
    have hfewer : cfg.perTradeRiskDollars / (entry.val - stop.val) ≤
        cfg.perTradeRiskDollars / signal.riskPerShare :=
      div_le_div_of_nonneg_left hbudget hdistance h
    exact laterSteps_mono hm hconv (cushionCap_mono (roundDown_mono hfewer))

end Steps

/--
**What a size grows with.** With no negative multiplier, the conviction included:
a higher conviction, a larger budget and a higher positive liquidity cap never
make a size smaller, and under `risk_formula` neither does a closer stop.
-/
theorem computeSize_monotone (cfg : Config) (signal : EntrySignal) (state : RiskState)
    (marketState : MarketState) (dayOfWeek : ℕ) (hm : NonNegativeMults cfg)
    (hconv : 0 ≤ signal.convictionScore.val) :
    (∀ (cap : Option ℤ) (conviction : Money), signal.convictionScore.val ≤ conviction.val →
      computeSize signal state cfg marketState dayOfWeek cap ≤
        computeSize { signal with convictionScore := conviction } state cfg marketState dayOfWeek
          cap) ∧
    (∀ (cap : Option ℤ) (dollars : ℚ), cfg.perTradeRiskDollars ≤ dollars →
      computeSize signal state cfg marketState dayOfWeek cap ≤
        computeSize signal state { cfg with perTradeRiskDollars := dollars } marketState dayOfWeek
          cap) ∧
    (∀ c c' : ℤ, 0 < c → c ≤ c' →
      computeSize signal state cfg marketState dayOfWeek (some c) ≤
        computeSize signal state cfg marketState dayOfWeek (some c')) ∧
    (cfg.sizingMode = .riskFormula → ∀ (cap : Option ℤ) (entry stop : Money),
      0 < signal.riskPerShare → signal.riskPerShare ≤ entry.val - stop.val →
      computeSize { signal with entryPrice := entry, stopPrice := stop } state cfg marketState
          dayOfWeek cap ≤ computeSize signal state cfg marketState dayOfWeek cap) :=
  ⟨fun _ _ h => computeSize_mono_conviction hm hconv h,
    fun _ _ h => computeSize_mono_dollars hm hconv h,
    fun _ _ hc h => computeSize_mono_cap hc h,
    fun hmode _ _ _ hdistance h => computeSize_anti_distance hm hconv hmode hdistance h⟩

/-- A full conviction, a doubled budget, a cap of 600 after one of 500, a stop at 9.60. -/
theorem computeSize_monotone_first :
    computeSize { cleanSignal with convictionScore := cents 50 } .fresh Config.defaults .cold 4 none
        ≤ computeSize { cleanSignal with convictionScore := cents 100 } .fresh Config.defaults .cold
          4 none ∧
      computeSize cleanSignal .fresh Config.defaults .cold 4 none ≤
        computeSize cleanSignal .fresh { Config.defaults with perTradeRiskDollars := 2000 } .cold 4
          none ∧
      computeSize cleanSignal .fresh Config.defaults .cold 4 (some 500) ≤
        computeSize cleanSignal .fresh Config.defaults .cold 4 (some 600) ∧
      computeSize { cleanSignal with entryPrice := cents 1000, stopPrice := cents 960 } .fresh
          Config.defaults .cold 4 none ≤
        computeSize cleanSignal .fresh Config.defaults .cold 4 none := by
  have hm : NonNegativeMults Config.defaults :=
    ⟨by decide +kernel, by decide +kernel, by decide +kernel⟩
  obtain ⟨_, hdollars, hcap, hdistance⟩ :=
    computeSize_monotone Config.defaults cleanSignal .fresh .cold 4 hm (by decide +kernel)
  obtain ⟨hconviction, _⟩ :=
    computeSize_monotone Config.defaults { cleanSignal with convictionScore := cents 50 } .fresh
      .cold 4 hm (by decide +kernel)
  exact ⟨hconviction none (cents 100) (by decide +kernel), hdollars none 2000 (by decide +kernel),
    hcap 500 600 (by decide) (by decide),
    hdistance rfl none (cents 1000) (cents 960) (by decide +kernel) (by decide +kernel)⟩

/-! ## The day's P&L -/

section Stairs

variable {α β : Type*} [LinearOrder α] [Preorder β] {f : α → β} {a b c : β} {p q : α → Prop}

/-- A function with three values, `a` up to one cut, `b` up to a second and `c` beyond, is
monotone when they are in order. -/
theorem stairs_iff (hp : ∀ x y, x ≤ y → p y → p x) (hq : ∀ x y, x ≤ y → q y → q x)
    (ha : ∀ x, p x → f x = a) (hb : ∀ x, ¬ p x → q x → f x = b)
    (hc : ∀ x, ¬ p x → ¬ q x → f x = c) {low mid high : α} (hlow : p low)
    (hmid : ¬ p mid ∧ q mid) (hhigh : ¬ p high ∧ ¬ q high) :
    Monotone f ↔ [a, b, c].Pairwise (· ≤ ·) := by
  -- the three regions come in the order of the thresholds
  have hlm : low ≤ mid := le_of_not_ge fun h => hmid.1 (hp _ _ h hlow)
  have hmh : mid ≤ high := le_of_not_ge fun h => hhigh.2 (hq _ _ h hmid.2)
  simp only [List.pairwise_cons, List.mem_cons, List.not_mem_nil, or_false, forall_eq_or_imp,
    forall_eq, false_imp_iff, implies_true, List.Pairwise.nil, and_true]
  constructor
  · intro hf
    rw [← ha low hlow, ← hb mid hmid.1 hmid.2, ← hc high hhigh.1 hhigh.2]
    exact ⟨⟨hf hlm, hf (hlm.trans hmh)⟩, hf hmh⟩
  · -- the steps in order: `x` may lie in any region up to the one of `y`
    rintro ⟨⟨hab, hac⟩, hbc⟩ x y hxy
    by_cases hpy : p y
    · rw [ha y hpy, ha x (hp x y hxy hpy)]
    · by_cases hqy : q y
      · rw [hb y hpy hqy]
        by_cases hpx : p x
        · rwa [ha x hpx]
        · rw [hb x hpx (hq x y hxy hqy)]
      · rw [hc y hpy hqy]
        by_cases hpx : p x
        · rwa [ha x hpx]
        · by_cases hqx : q x
          · rwa [hb x hpx hqx]
          · rw [hc x hpx hqx]

end Stairs

/-- A lower P&L of the day never yields more shares than a higher one. -/
def NeverUpWhileRed (cfg : Config) (signal : EntrySignal) (marketState : MarketState)
    (dayOfWeek : ℕ) (cap : Option ℤ) : Prop :=
  ∀ state : RiskState, Monotone fun pnl : ℚ =>
    computeSize signal { state with realizedPnl := pnl } cfg marketState dayOfWeek cap

/-- The counts the cushion step can leave, from the lowest P&L of the day to the highest. -/
def cushionStairs (signal : EntrySignal) (cfg : Config) : List ℤ :=
  match cfg.sizingMode with
  | .riskFormula =>
      if signal.riskPerShare ≤ 0 then []
      else
        let raw := roundDown (cfg.perTradeRiskDollars / signal.riskPerShare)
        if 0 < cfg.cushionPnlThreshold then
          [min raw (icebreakerCap cfg), min raw cfg.starterCap, raw]
        else [min raw (icebreakerCap cfg), raw]
  | .flatBlock =>
      if 0 < cfg.cushionPnlThreshold then
        [min cfg.starterCap (icebreakerCap cfg), cfg.starterCap, cfg.maxSize]
      else
        [min cfg.starterCap (icebreakerCap cfg), min cfg.maxSize (icebreakerCap cfg), cfg.maxSize]

/-- The later steps bring the counts of the cushion step to sizes that are in order. -/
def StairsInOrder (cfg : Config) (signal : EntrySignal) (marketState : MarketState)
    (dayOfWeek : ℕ) (cap : Option ℤ) : Prop :=
  ((cushionStairs signal cfg).map (laterSteps signal cfg marketState dayOfWeek cap)).Pairwise
    (· ≤ ·)

section Red

variable {cfg : Config} {signal : EntrySignal} {marketState : MarketState} {dayOfWeek : ℕ}
  {cap : Option ℤ} {raw : ℤ}

/-- A positive threshold: one value up to zero, one up to the threshold and one beyond. -/
theorem monotone_cushion_iff {f : ℚ → ℤ} {a b c : ℤ} {threshold : ℚ} (hpos : 0 < threshold)
    (ha : ∀ pnl, pnl ≤ 0 → f pnl = a) (hb : ∀ pnl, ¬ pnl ≤ 0 → pnl < threshold → f pnl = b)
    (hc : ∀ pnl, ¬ pnl ≤ 0 → ¬ pnl < threshold → f pnl = c) :
    Monotone f ↔ [a, b, c].Pairwise (· ≤ ·) :=
  stairs_iff (p := (· ≤ 0)) (q := (· < threshold)) (fun _ _ => le_trans)
    (fun _ _ => lt_of_le_of_lt) ha hb hc (le_refl 0)
    ⟨not_le.mpr (half_pos hpos), half_lt_self hpos⟩ ⟨not_le.mpr hpos, lt_irrefl _⟩

/-- `risk_formula`: the same raw count on every day, and three caps. -/
theorem monotone_riskFormula (hraw : ∀ state, rawSize signal state cfg = some raw)
    (state : RiskState) : (Monotone fun pnl : ℚ =>
      computeSize signal { state with realizedPnl := pnl } cfg marketState dayOfWeek cap) ↔
    ((if 0 < cfg.cushionPnlThreshold then
        [min raw (icebreakerCap cfg), min raw cfg.starterCap, raw]
      else [min raw (icebreakerCap cfg), raw]).map
        (laterSteps signal cfg marketState dayOfWeek cap)).Pairwise (· ≤ ·) := by
  simp only [computeSize_eq_laterSteps (hraw _), cushionCap]
  split
  · rename_i hpos
    refine monotone_cushion_iff hpos (fun pnl h => ?_) (fun pnl h h' => ?_) (fun pnl h h' => ?_)
    · rw [if_pos h]
    · rw [if_neg h, if_pos h']
    · rw [if_neg h, if_neg h']
  · rename_i hneg
    -- the starter cap never holds: the icebreaker's up to zero, none beyond
    refine (stairs_iff (p := (· < 0)) (q := (· ≤ 0))
      (a := laterSteps signal cfg marketState dayOfWeek cap (min raw (icebreakerCap cfg)))
      (b := laterSteps signal cfg marketState dayOfWeek cap (min raw (icebreakerCap cfg)))
      (c := laterSteps signal cfg marketState dayOfWeek cap raw) (fun _ _ => lt_of_le_of_lt)
      (fun _ _ => le_trans) (fun pnl h => ?_) (fun pnl h h' => ?_) (fun pnl h h' => ?_)
      (neg_one_lt_zero) ⟨lt_irrefl _, le_refl 0⟩
      ⟨not_lt.mpr zero_le_one, not_le.mpr zero_lt_one⟩).trans ?_
    · rw [if_pos h.le]
    · rw [if_pos h']
    · rw [if_neg h', if_neg (not_lt.mpr ((not_lt.mp hneg).trans (not_lt.mp h)))]
    · simp

/-- `flat_block`: the raw count changes at the threshold, too. -/
theorem monotone_flatBlock (hmode : cfg.sizingMode = .flatBlock) (state : RiskState) :
    (Monotone fun pnl : ℚ =>
      computeSize signal { state with realizedPnl := pnl } cfg marketState dayOfWeek cap) ↔
    ((if 0 < cfg.cushionPnlThreshold then
        [min cfg.starterCap (icebreakerCap cfg), cfg.starterCap, cfg.maxSize]
      else
        [min cfg.starterCap (icebreakerCap cfg), min cfg.maxSize (icebreakerCap cfg),
          cfg.maxSize]).map (laterSteps signal cfg marketState dayOfWeek cap)).Pairwise
      (· ≤ ·) := by
  -- the raw size itself depends on the P&L here: the full block from the threshold on
  have hraw (s : RiskState) : rawSize signal s cfg =
      some (if cfg.cushionPnlThreshold ≤ s.realizedPnl then cfg.maxSize else cfg.starterCap) := by
    rw [rawSize, hmode]
  simp only [computeSize_eq_laterSteps (hraw _), cushionCap]
  split
  · -- a positive threshold: red, then the cushion, then the full block
    rename_i hpos
    refine monotone_cushion_iff hpos (fun pnl h => ?_) (fun pnl h h' => ?_) (fun pnl h h' => ?_)
    · rw [if_pos h, if_neg (not_le.mpr (lt_of_le_of_lt h hpos))]
    · rw [if_neg h, if_pos h', if_neg (not_le.mpr h'), min_self]
    · rw [if_neg h, if_neg h', if_pos (not_lt.mp h')]
  · -- a threshold at or below zero: the full block comes while the day is still red
    rename_i hneg
    have hle : cfg.cushionPnlThreshold ≤ 0 := not_lt.mp hneg
    refine stairs_iff (p := (· < cfg.cushionPnlThreshold)) (q := (· ≤ 0))
      (fun _ _ => lt_of_le_of_lt) (fun _ _ => le_trans) (fun pnl h => ?_) (fun pnl h h' => ?_)
      (fun pnl h h' => ?_) (sub_one_lt _) ⟨not_lt.mpr hle, le_refl 0⟩
      ⟨not_lt.mpr (hle.trans zero_le_one), not_le.mpr zero_lt_one⟩
    · rw [if_pos (h.le.trans hle), if_neg (not_le.mpr h)]
    · rw [if_pos h', if_pos (not_lt.mp h)]
    · rw [if_neg h', if_neg h, if_pos (not_lt.mp h)]

/-- A degenerate stop sizes nothing at any P&L. -/
theorem monotone_degenerate (hraw : ∀ state, rawSize signal state cfg = none)
    (state : RiskState) : Monotone fun pnl : ℚ =>
      computeSize signal { state with realizedPnl := pnl } cfg marketState dayOfWeek cap := by
  intro pnl pnl' _
  simp only [computeSize, hraw, le_refl]

end Red

/-- Of one signal: the two or three counts of the cushion step, after the later steps. -/
theorem neverUp_iff_stairs (cfg : Config) (signal : EntrySignal) (marketState : MarketState)
    (dayOfWeek : ℕ) (cap : Option ℤ) :
    NeverUpWhileRed cfg signal marketState dayOfWeek cap ↔
      StairsInOrder cfg signal marketState dayOfWeek cap := by
  have hstate : Nonempty RiskState := ⟨.fresh⟩
  unfold NeverUpWhileRed StairsInOrder cushionStairs
  cases hmode : cfg.sizingMode with
  | flatBlock =>
      simp only [monotone_flatBlock hmode]
      exact forall_const RiskState
  | riskFormula =>
      by_cases hdistance : signal.riskPerShare ≤ 0
      · -- a stop at or above the entry has no size at all
        have hraw (state : RiskState) : rawSize signal state cfg = none := by
          simp only [rawSize, hmode, if_pos hdistance]
        rw [if_pos hdistance]
        exact iff_of_true (monotone_degenerate hraw) List.Pairwise.nil
      · -- otherwise the formula's size does not read the P&L, and the cushion alone does
        have hraw (state : RiskState) : rawSize signal state cfg =
            some (roundDown (cfg.perTradeRiskDollars / signal.riskPerShare)) := by
          simp only [rawSize, hmode, if_neg hdistance]
        simp only [monotone_riskFormula hraw, if_neg hdistance]
        exact forall_const RiskState

/-! ### Of a configuration -/

/-- Caps and multipliers as an operator sets them. -/
structure OrdinaryCaps (cfg : Config) : Prop where
  /-- The multipliers are not negative. -/
  mults : NonNegativeMults cfg
  /-- Some shares may be bought at all. -/
  size : 1 ≤ cfg.maxSize
  /-- The count before the cushion is not negative. -/
  starter : 0 ≤ cfg.starterCap
  /-- It is no larger than the largest size. -/
  starter_le : cfg.starterCap ≤ cfg.maxSize
  /-- The icebreaker is a part of `MAX_SIZE`. -/
  fraction : cfg.icebreakerFraction ≤ 1

/--
The red cap is the smaller one: under `risk_formula` with a threshold to reach, the
icebreaker is at most `STARTER_CAP`, or the budget buys no more than `STARTER_CAP`
shares even with the stop a hundredth of a cent away.
-/
def CapsInOrder (cfg : Config) : Prop :=
  cfg.sizingMode = .riskFormula → 0 < cfg.cushionPnlThreshold →
    min (icebreakerCap cfg) (roundDown (10000 * cfg.perTradeRiskDollars)) ≤ cfg.starterCap

/-- Two prices apart are at least `0.0001` apart. -/
theorem riskPerShare_ge {signal : EntrySignal} (h : 0 < signal.riskPerShare) :
    1 / 10000 ≤ signal.riskPerShare := by
  obtain ⟨n, hn⟩ := signal.entryPrice.onGrid
  obtain ⟨m, hm⟩ := signal.stopPrice.onGrid
  have hdistance : signal.riskPerShare = ((n - m : ℤ) : ℚ) / 10000 := by
    rw [EntrySignal.riskPerShare, hn, hm]
    push_cast
    ring
  rw [hdistance] at h ⊢
  have hpos : 0 < n - m := by
    rw [← Int.cast_pos (R := ℚ)]
    linarith
  have hone : (1 : ℚ) ≤ ((n - m : ℤ) : ℚ) := by exact_mod_cast hpos
  linarith

/-- What the budget buys is at most what it buys at the closest stop there is. -/
theorem raw_le_closest (cfg : Config) {signal : EntrySignal} (h : 0 < signal.riskPerShare) :
    roundDown (cfg.perTradeRiskDollars / signal.riskPerShare) ≤
      max 0 (roundDown (10000 * cfg.perTradeRiskDollars)) := by
  rcases le_total cfg.perTradeRiskDollars 0 with hbudget | hbudget
  · exact le_max_of_le_left (roundDown_nonpos (div_nonpos_of_nonpos_of_nonneg hbudget h.le))
  · refine le_max_of_le_right (roundDown_mono ?_)
    have hfar := riskPerShare_ge h
    rw [div_le_iff₀ h]
    nlinarith

/-- The counts of the cushion step are in order when the caps are. -/
theorem cushionStairs_pairwise {cfg : Config} (hord : OrdinaryCaps cfg) (hcaps : CapsInOrder cfg)
    (signal : EntrySignal) : (cushionStairs signal cfg).Pairwise (· ≤ ·) := by
  have hthree {a b c : ℤ} (h : a ≤ b) (h' : b ≤ c) : [a, b, c].Pairwise (· ≤ ·) := by
    simp [h, h', h.trans h']
  unfold cushionStairs
  cases hmode : cfg.sizingMode with
  | riskFormula =>
      dsimp only
      split_ifs with hdistance hpos
      · exact List.Pairwise.nil
      · -- what is bought while red fits under the icebreaker and within the budget
        have hclosest := raw_le_closest cfg (not_le.mp hdistance)
        have hice := hcaps hmode hpos
        refine hthree (le_min (min_le_left ..) ?_) (min_le_left ..)
        rcases min_le_iff.mp hice with h | h
        · exact (min_le_right ..).trans h
        · exact (min_le_left ..).trans (hclosest.trans (max_le hord.starter h))
      · exact List.pairwise_pair.mpr (min_le_left ..)
  | flatBlock =>
      dsimp only
      split_ifs with hpos
      · exact hthree (min_le_left ..) hord.starter_le
      · exact hthree (min_le_min_right _ hord.starter_le) (min_le_left ..)

/-- Caps in order: no signal is sized up while red. -/
theorem neverUp_of_caps {cfg : Config} (hord : OrdinaryCaps cfg) (hcaps : CapsInOrder cfg)
    {signal : EntrySignal} (hconv : 0 ≤ signal.convictionScore.val) (marketState : MarketState)
    (dayOfWeek : ℕ) (cap : Option ℤ) :
    NeverUpWhileRed cfg signal marketState dayOfWeek cap := by
  rw [neverUp_iff_stairs, StairsInOrder]
  exact (cushionStairs_pairwise hord hcaps signal).map _
    fun _ _ h => laterSteps_mono hord.mults hconv h

/-- In at 1.0001, out at 1.00: the closest stop there is, at full conviction. -/
def closestSignal : EntrySignal :=
  { cleanSignal with entryPrice := ⟨10001 / 10000, 10001, rfl⟩, stopPrice := cents 100 }

theorem riskPerShare_closest : closestSignal.riskPerShare = 1 / 10000 := by decide +kernel

/-- The icebreaker is at most `MAX_SIZE`. -/
theorem icebreakerCap_le {cfg : Config} (hord : OrdinaryCaps cfg) :
    icebreakerCap cfg ≤ cfg.maxSize := by
  have hsize : (1 : ℚ) ≤ cfg.maxSize := by exact_mod_cast hord.size
  have hpart : (cfg.maxSize : ℚ) * cfg.icebreakerFraction ≤ cfg.maxSize := by
    nlinarith [hord.fraction]
  refine max_le hord.size ?_
  calc scaleDown cfg.maxSize cfg.icebreakerFraction
      ≤ roundDown (cfg.maxSize : ℚ) := roundDown_mono hpart
    _ = cfg.maxSize := roundDown_intCast _

/-- At full conviction in a HOT market, midweek, a count is only clamped. -/
theorem laterSteps_plain (cfg : Config) (raw : ℤ) :
    laterSteps closestSignal cfg .hot 2 none raw = max 0 (min raw cfg.maxSize) := by
  have hone : closestSignal.convictionScore.val = 1 := by decide +kernel
  simp only [laterSteps, liquidityCap, marketStateScale, dayOfWeekScale, scaleDown, hone, mul_one,
    roundDown_intCast]
  rfl

/-- Caps out of order size the closest stop up while red. -/
theorem caps_of_neverUp {cfg : Config} (hord : OrdinaryCaps cfg)
    (h : NeverUpWhileRed cfg closestSignal .hot 2 none) : CapsInOrder cfg := by
  intro hmode hpos
  by_contra hcaps
  obtain ⟨hice, hraw⟩ := lt_min_iff.mp (not_le.mp hcaps)
  have hbudget : cfg.perTradeRiskDollars / closestSignal.riskPerShare =
      10000 * cfg.perTradeRiskDollars := by
    rw [riskPerShare_closest]
    ring
  have hdistance : ¬ closestSignal.riskPerShare ≤ 0 := by decide +kernel
  rw [neverUp_iff_stairs, StairsInOrder, cushionStairs, hmode] at h
  simp only [if_neg hdistance, if_pos hpos, hbudget, List.map_cons, laterSteps_plain] at h
  -- red: more than `STARTER_CAP`; green, below the threshold: no more
  have hstairs := (List.pairwise_cons.mp h).1 _ (List.mem_cons_self ..)
  have hfits := icebreakerCap_le hord
  have hstarter := hord.starter
  omega

/--
**When sizes never shrink as the day's P&L grows.** Of one signal: exactly when the
two or three counts the cushion step can leave come to sizes that are in order. Of a
configuration with ordinary caps: for every signal, exactly when the red cap is the
smaller one.
-/
theorem neverUpWhileRed_iff (cfg : Config) :
    (∀ signal marketState dayOfWeek cap, NeverUpWhileRed cfg signal marketState dayOfWeek cap ↔
      StairsInOrder cfg signal marketState dayOfWeek cap) ∧
    (OrdinaryCaps cfg → ((∀ signal : EntrySignal, 0 ≤ signal.convictionScore.val →
        ∀ marketState dayOfWeek cap, NeverUpWhileRed cfg signal marketState dayOfWeek cap) ↔
      CapsInOrder cfg)) := by
  refine ⟨neverUp_iff_stairs cfg, fun hord => ⟨fun h => ?_, fun hcaps => ?_⟩⟩
  · exact caps_of_neverUp hord (h closestSignal (by decide +kernel) .hot 2 none)
  · intro signal hconv marketState dayOfWeek cap
    exact neverUp_of_caps hord hcaps hconv marketState dayOfWeek cap

/-- The shipped caps are in order: 2500 shares while red, 5000 below the threshold. -/
theorem neverUpWhileRed_iff_defaults : ∀ signal : EntrySignal, 0 ≤ signal.convictionScore.val →
    ∀ marketState dayOfWeek cap,
      NeverUpWhileRed Config.defaults signal marketState dayOfWeek cap := by
  have hm : NonNegativeMults Config.defaults :=
    ⟨by decide +kernel, by decide +kernel, by decide +kernel⟩
  have hord : OrdinaryCaps Config.defaults :=
    ⟨hm, by decide, by decide, by decide, by decide +kernel⟩
  have hcaps : CapsInOrder Config.defaults := fun _ _ => by decide +kernel
  exact ((neverUpWhileRed_iff Config.defaults).2 hord).mpr hcaps

/-- A quarter of `MAX_SIZE` is more than `STARTER_CAP`. -/
def largeCeiling : Config := { Config.defaults with maxSize := 40000 }

/-- In at 10.00, out at 9.95: the budget buys 20000 shares. -/
def tightSignal : EntrySignal := { cleanSignal with stopPrice := cents 995 }

/-- The state of a day whose P&L so far is `pnl`. -/
def dayAt (pnl : ℚ) : RiskState := { RiskState.fresh with realizedPnl := pnl }

/-- Flat on the day, 10000 shares; a dollar up, 5000. -/
theorem smaller_when_green :
    computeSize tightSignal (dayAt 0) largeCeiling .hot 2 none = 10000 ∧
      computeSize tightSignal (dayAt 1) largeCeiling .hot 2 none = 5000 ∧
      ¬ ∀ cfg signal marketState dayOfWeek cap,
        NeverUpWhileRed cfg signal marketState dayOfWeek cap := by
  have hflat : computeSize tightSignal (dayAt 0) largeCeiling .hot 2 none = 10000 := by
    decide +kernel
  have hgreen : computeSize tightSignal (dayAt 1) largeCeiling .hot 2 none = 5000 := by
    decide +kernel
  refine ⟨hflat, hgreen, fun h => ?_⟩
  have hle : computeSize tightSignal (dayAt 0) largeCeiling .hot 2 none ≤
      computeSize tightSignal (dayAt 1) largeCeiling .hot 2 none :=
    h largeCeiling tightSignal .hot 2 none .fresh (zero_le_one : (0 : ℚ) ≤ 1)
  rw [hflat, hgreen] at hle
  exact absurd hle (by decide)

end RossBot
