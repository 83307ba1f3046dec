import RossBot.Risk.Manager

/-!
# What an approval means

An approved trade passed every veto, and its size is within every cap: a cap
applied early survives the steps after it, because none of them enlarges a size.
The stop is below the entry although no veto looks at it: a stop at or above the
entry has a reward-to-risk ratio of zero. The monitors that halt the session look
at the same two limits as the vetoes (`monitors_agree`).
-/

namespace RossBot

open Lib

/-- The size of an approved trade is within every cap. -/
structure SizedWithin (cfg : Config) (s : RiskState) (signal : EntrySignal) (cap : Option ℤ)
    (shares : ℤ) : Prop where
  positive : 1 ≤ shares
  maxSize : shares ≤ cfg.maxSize
  icebreaker : s.realizedPnl ≤ 0 → shares ≤ max 1 ⌊(cfg.maxSize : ℚ) * cfg.icebreakerFraction⌋
  starter : 0 < s.realizedPnl → s.realizedPnl < cfg.cushionPnlThreshold → shares ≤ cfg.starterCap
  rehab : signal.marketState = .rehab → shares ≤ cfg.marketStateRehabCap
  liquidity : ∀ c, cap = some c → 0 < c → shares ≤ c
  /-- `risk_formula`: what the stop would lose is within the budget. -/
  budget : cfg.sizingMode = .riskFormula →
    (shares : ℚ) * (signal.entryPrice.val - signal.stopPrice.val) ≤ cfg.perTradeRiskDollars

/-- **What an approval means**: the vetoes that were passed, and the caps that hold. -/
structure SoundApproval (cfg : Config) (s : RiskState) (signal : EntrySignal)
    (timeOfDay equity : ℚ) (cap : Option ℤ) (catalystSkip : Bool) (shares : ℤ) : Prop where
  notHalted : s.halted = false
  e1Universe : signal.gate.e1Universe = true
  stopBelowEntry : signal.stopPrice.val < signal.entryPrice.val
  ratio : cfg.rrMin ≤ signal.rrRatio
  loss : -min (min (equity * cfg.maxDailyLossPct) cfg.avgWinDayPnl) cfg.brokerHardLockout
    < s.realizedPnl
  giveBack : 0 < s.peakPnl → (s.peakPnl - s.realizedPnl) / s.peakPnl < cfg.giveBackHard
  strikes : s.consecutiveLosses < cfg.threeStrikes
  trades : s.tradesToday < cfg.maxTradesPerDay
  catalyst : catalystSkip = false
  time : timeOfDay ≤ cfg.hardStopTime
  noAverageDown : ∀ e, s.openPositions.get? signal.symbol = some e → e ≤ signal.entryPrice.val
  size : SizedWithin cfg s signal cap shares

section Caps

variable {cfg : Config} {s : RiskState} {signal : EntrySignal} {marketState : MarketState}
  {dayOfWeek : ℕ} {cap : Option ℤ} {raw : ℤ}

theorem icebreakerCap_eq (cfg : Config) :
    icebreakerCap cfg = max 1 ⌊(cfg.maxSize : ℚ) * cfg.icebreakerFraction⌋ := by
  unfold icebreakerCap scaleDown
  rcases le_total 0 ((cfg.maxSize : ℚ) * cfg.icebreakerFraction) with h | h
  · rw [roundDown, if_pos h]
  · -- below zero both are less than the one share that is always allowed
    have hround := roundDown_nonpos h
    have hfloor : ⌊(cfg.maxSize : ℚ) * cfg.icebreakerFraction⌋ ≤ 0 := Int.floor_nonpos h
    omega

theorem cushionCap_le_icebreaker (h : s.realizedPnl ≤ 0) :
    cushionCap raw s cfg ≤ icebreakerCap cfg := by
  rw [cushionCap, if_pos h]
  exact min_le_right ..

theorem cushionCap_le_starter (h₀ : 0 < s.realizedPnl)
    (h : s.realizedPnl < cfg.cushionPnlThreshold) : cushionCap raw s cfg ≤ cfg.starterCap := by
  rw [cushionCap, if_neg (not_le.mpr h₀), if_pos h]
  exact min_le_right ..

/-- The raw count of `risk_formula` keeps to the budget, if it is not negative. -/
theorem rawSize_budget (hmode : cfg.sizingMode = .riskFormula)
    (h : rawSize signal s cfg = some raw) (hpos : 0 < raw) :
    0 < signal.riskPerShare ∧ (raw : ℚ) * signal.riskPerShare ≤ cfg.perTradeRiskDollars := by
  unfold rawSize at h
  rw [hmode] at h
  dsimp only at h
  split at h
  · exact absurd h (by simp)
  rename_i hrisk
  have hrisk : 0 < signal.riskPerShare := not_le.mp hrisk
  refine ⟨hrisk, ?_⟩
  have hraw : roundDown (cfg.perTradeRiskDollars / signal.riskPerShare) = raw := Option.some.inj h
  have hquot : 0 ≤ cfg.perTradeRiskDollars / signal.riskPerShare := by
    by_contra hneg
    have hle := roundDown_nonpos (not_le.mp hneg).le
    omega
  have hle : (raw : ℚ) ≤ cfg.perTradeRiskDollars / signal.riskPerShare :=
    hraw ▸ roundDown_le hquot
  exact (le_div_iff₀ hrisk).mp hle

/-- **Every cap holds of a size that is not zero.** -/
theorem sizedWithin_computeSize (hf : Fractions cfg signal)
    (h : 0 < computeSize signal s cfg signal.marketState dayOfWeek cap) :
    SizedWithin cfg s signal cap (computeSize signal s cfg signal.marketState dayOfWeek cap) := by
  obtain ⟨raw, hraw⟩ := exists_rawSize h
  obtain ⟨hlast, hmax⟩ := computeSize_le_last hraw h
  have hcushion := computeSize_le_cushion hf hraw h
  refine ⟨h, hmax, ?_, ?_, ?_, ?_, ?_⟩
  · intro hp
    rw [← icebreakerCap_eq]
    exact hcushion.trans (cushionCap_le_icebreaker hp)
  · intro h₀ hp
    exact hcushion.trans (cushionCap_le_starter h₀ hp)
  · intro hstate
    refine (hlast.trans (liquidityCap_le ..)).trans ?_
    rw [sizedBeforeLiquidity, hstate]
    exact min_le_right ..
  · intro c hc hpos
    refine hlast.trans ?_
    rw [hc, liquidityCap, if_pos hpos]
    exact min_le_right ..
  · intro hmode
    have hsize := hcushion.trans (cushionCap_le raw)
    obtain ⟨hrisk, hbudget⟩ := rawSize_budget hmode hraw (lt_of_lt_of_le h hsize)
    have hcast : (computeSize signal s cfg signal.marketState dayOfWeek cap : ℚ) ≤ raw := by
      exact_mod_cast hsize
    exact (mul_le_mul_of_nonneg_right hcast hrisk.le).trans hbudget

end Caps

/-- **Approvals are sound.** Whatever the signal, the day, the equity, the time, the liquidity cap
and the configuration, as long as the latter asks for a positive reward-to-risk ratio and its
multipliers are fractions: what is approved passed every veto, is stopped below its entry, and
is within every cap. -/
theorem approval_sound (cfg : Config) (s : RiskState) (signal : EntrySignal) (timeOfDay : ℚ)
    (dayOfWeek : ℕ) (equity : ℚ) (cap : Option ℤ) (catalystSkip : Bool) (hrr : 0 < cfg.rrMin)
    (hf : Fractions cfg signal)
    (h : (s.evaluate cfg signal timeOfDay dayOfWeek equity cap catalystSkip).approved = true) :
    SoundApproval cfg s signal timeOfDay equity cap catalystSkip
      (s.evaluate cfg signal timeOfDay dayOfWeek equity cap catalystSkip).shares := by
  obtain ⟨hgate, hshares, hpos⟩ := RiskState.evaluate_approved h
  rw [hshares] at hpos ⊢
  exact
    { notHalted := hgate.notHalted
      e1Universe := hgate.e1Universe
      stopBelowEntry := EntrySignal.stop_lt_entry (lt_of_lt_of_le hrr hgate.ratio)
      ratio := hgate.ratio
      loss := hgate.loss
      giveBack := fun hpeak => (giveBack_lt_iff _ _ hpeak).mpr (hgate.giveBack hpeak)
      strikes := hgate.strikes
      trades := hgate.trades
      catalyst := hgate.catalyst
      time := hgate.time
      noAverageDown := hgate.noAverageDown
      size := sizedWithin_computeSize hf hpos }

/-- A signal that passes the entry gate: in at 10.00, out at 9.80 or 10.40. -/
def cleanSignal : EntrySignal where
  symbol := "TEST"
  ts := openingBell
  pattern := .microPullback
  convictionScore := cents 100
  entryPrice := cents 1000
  stopPrice := cents 980
  targetPrice := cents 1040
  gate := ⟨true, true, true, true, true, true, true, true, none, .candleClose, cents 5, []⟩
  marketState := .hot
  vwap := none
  ema9 := none

/-- The first trade of a Tuesday: a quarter of the largest size. -/
theorem approval_sound_first :
    SoundApproval Config.defaults .fresh cleanSignal 36000 30000 (some 3000) false 2500 := by
  have hshares : (RiskState.fresh.evaluate Config.defaults cleanSignal 36000 1 30000 (some 3000)
    false).shares = 2500 := by decide +kernel
  rw [← hshares]
  exact approval_sound Config.defaults .fresh cleanSignal 36000 1 30000 (some 3000) false
    (by decide +kernel)
    ⟨by decide +kernel, by decide +kernel, by decide +kernel, by decide +kernel⟩
    (by decide +kernel)

/-! ## Monitors and vetoes -/

/--
**The monitors see what the gate vetoes**: the daily loss limit and the hard
give-back are reached for `check_daily_loss` and `check_give_back` exactly when
they are for `evaluate_pre_trade`.
-/
theorem monitors_agree (cfg : Config) (s : RiskState) (signal : EntrySignal)
    (timeOfDay equity : ℚ) (catalystSkip : Bool) (h : s.halted = false) :
    (.dailyLossLimit ∈ evaluatePreTrade signal s cfg timeOfDay equity catalystSkip ↔
      s.checkDailyLoss cfg equity = true) ∧
    (.giveBackHard ∈ evaluatePreTrade signal s cfg timeOfDay equity catalystSkip ↔
      s.checkGiveBack cfg = .halt) := by
  unfold evaluatePreTrade
  rw [if_neg (by simp [h])]
  constructor
  · simp only [List.mem_append, mem_vetoWhen, reduceCtorEq, and_false, or_false, false_or, and_true]
    rfl
  · simp only [List.mem_append, mem_vetoWhen, reduceCtorEq, and_false, or_false, false_or, and_true,
      Bool.and_eq_true, decide_eq_true_eq]
    rw [RiskState.checkGiveBack, evaluateGiveBack_eq_halt]

/-- Half of a peak of 1000 is gone. -/
def halfGone : RiskState := { RiskState.fresh with realizedPnl := 500, peakPnl := 1000 }

theorem monitors_agree_halfGone :
    (.dailyLossLimit ∈ evaluatePreTrade cleanSignal halfGone Config.defaults 36000 30000 false ↔
      halfGone.checkDailyLoss Config.defaults 30000 = true) ∧
    (.giveBackHard ∈ evaluatePreTrade cleanSignal halfGone Config.defaults 36000 30000 false ↔
      halfGone.checkGiveBack Config.defaults = .halt) :=
  monitors_agree Config.defaults halfGone cleanSignal 36000 30000 false rfl

end RossBot
