import RossBot.Lib.Dict
import RossBot.Strategy.Models

/-!
# Daily risk state, monitors and the pre-trade veto gate

`core/risk/models.py`, `core/risk/monitors.py` and `core/risk/pre_trade.py`.
-/

namespace RossBot

open Lib

/-- `VetoReason`. -/
inductive VetoReason where
  | noFivePillar
  | rrBelowMin
  | dailyLossLimit
  | giveBackHard
  | threeStrikes
  | averageDown
  | pdtLimit
  | skipCatalyst
  | hardStopTime
  | halted
  | sizingZero
  deriving DecidableEq, Repr

/-- `GiveBackLevel`. -/
inductive GiveBackLevel where
  | none
  | warn
  | halt
  deriving DecidableEq, Repr

/-- `TradeApproval`. -/
structure TradeApproval where
  approved : Bool
  shares : ℤ
  vetoes : List VetoReason

/-- Why the session was halted. -/
inductive HaltReason where
  | threeStrikes
  | external (reason : String)
  deriving DecidableEq, Repr

/-- `RiskState`. -/
structure RiskState where
  realizedPnl : ℚ
  peakPnl : ℚ
  consecutiveLosses : ℤ
  tradesToday : ℤ
  halted : Bool
  haltReason : Option HaltReason
  openPositions : Dict Symbol ℚ

/-- `RiskState()`. -/
def RiskState.fresh : RiskState where
  realizedPnl := 0
  peakPnl := 0
  consecutiveLosses := 0
  tradesToday := 0
  halted := false
  haltReason := none
  openPositions := ∅

/-! ## Monitors -/

/-- `is_mental_stop_breached`. -/
def isMentalStopBreached (currentPrice stopPrice : ℚ) : Bool := decide (currentPrice ≤ stopPrice)

/-- `evaluate_give_back`. -/
def evaluateGiveBack (realizedPnl peakPnl : ℚ) (cfg : Config) : GiveBackLevel :=
  if peakPnl ≤ 0 then .none
  else
    let fraction := (peakPnl - realizedPnl) / peakPnl
    if cfg.giveBackHard ≤ fraction then .halt
    else if cfg.giveBackWarn ≤ fraction then .warn
    else .none

/-- What is left of the peak, as a fraction of it. -/
theorem giveBack_lt_iff (realized : ℚ) {peak : ℚ} (hard : ℚ) (h : 0 < peak) :
    (peak - realized) / peak < hard ↔ peak * (1 - hard) < realized := by
  rw [div_lt_iff₀ h, mul_sub, mul_one]
  constructor <;> intro hlt <;> linarith

/-- The give-back monitor calls for a halt exactly when the veto's threshold is reached. -/
theorem evaluateGiveBack_eq_halt {realized peak : ℚ} {cfg : Config} :
    evaluateGiveBack realized peak cfg = .halt
      ↔ 0 < peak ∧ realized ≤ peak * (1 - cfg.giveBackHard) := by
  unfold evaluateGiveBack
  by_cases hpeak : peak ≤ 0
  · rw [if_pos hpeak]
    -- a day that was never green gives nothing back
    exact iff_of_false (by simp) fun h => absurd h.1 (not_lt.mpr hpeak)
  · rw [if_neg hpeak]
    have hpos : 0 < peak := not_le.mp hpeak
    have hiff := not_congr (giveBack_lt_iff realized cfg.giveBackHard hpos)
    rw [not_lt, not_lt] at hiff
    dsimp only
    split_ifs with hhard hwarn
    · exact iff_of_true rfl ⟨hpos, hiff.mp hhard⟩
    · exact iff_of_false (by simp) fun h => hhard (hiff.mpr h.2)
    · exact iff_of_false (by simp) fun h => hhard (hiff.mpr h.2)

/-- The U4 limit: `min(equity * MAX_DAILY_LOSS_PCT, AVG_WIN_DAY_PNL, BROKER_HARD_LOCKOUT)`. -/
def effectiveLossLimit (cfg : Config) (equity avgWinDay : ℚ) : ℚ :=
  min (min (equity * cfg.maxDailyLossPct) avgWinDay) cfg.brokerHardLockout

/-- `is_daily_loss_limit`. -/
def isDailyLossLimit (realizedPnl equity avgWinDay : ℚ) (cfg : Config) : Bool :=
  decide (realizedPnl ≤ -effectiveLossLimit cfg equity avgWinDay)

/-- `should_flatten_eod`. -/
def shouldFlattenEod (timeOfDay : ℚ) (cfg : Config) : Bool :=
  decide (cfg.eodFlattenTime ≤ timeOfDay)

/-! ## The gate -/

/-- A veto that is reported when its condition holds. -/
def vetoWhen (c : Bool) (v : VetoReason) : List VetoReason := if c then [v] else []

@[simp] theorem vetoWhen_eq_nil {c : Bool} {v : VetoReason} : vetoWhen c v = [] ↔ c = false := by
  cases c <;> simp [vetoWhen]

@[simp] theorem mem_vetoWhen {c : Bool} {v w : VetoReason} :
    w ∈ vetoWhen c v ↔ c = true ∧ w = v := by
  cases c <;> simp [vetoWhen]

/-- `evaluate_pre_trade`. -/
def evaluatePreTrade (signal : EntrySignal) (state : RiskState) (cfg : Config) (timeOfDay : ℚ)
    (equity : ℚ) (catalystSkip : Bool) : List VetoReason :=
  if state.halted then [.halted]
  else
    vetoWhen (!signal.gate.e1Universe) .noFivePillar
      ++ vetoWhen (decide (signal.rrRatio < cfg.rrMin)) .rrBelowMin
      ++ vetoWhen (decide (state.realizedPnl ≤ -effectiveLossLimit cfg equity cfg.avgWinDayPnl))
          .dailyLossLimit
      ++ vetoWhen (decide (0 < state.peakPnl)
          && decide (state.realizedPnl ≤ state.peakPnl * (1 - cfg.giveBackHard))) .giveBackHard
      ++ vetoWhen (decide (cfg.threeStrikes ≤ state.consecutiveLosses)) .threeStrikes
      ++ vetoWhen ((state.openPositions.get? signal.symbol).any fun e =>
          decide (signal.entryPrice.val < e)) .averageDown
      ++ vetoWhen (decide (cfg.maxTradesPerDay ≤ state.tradesToday)) .pdtLimit
      ++ vetoWhen catalystSkip .skipCatalyst
      ++ vetoWhen (decide (cfg.hardStopTime < timeOfDay)) .hardStopTime

/-- **What it takes to pass the gate.** -/
structure PassesGate (signal : EntrySignal) (state : RiskState) (cfg : Config) (timeOfDay : ℚ)
    (equity : ℚ) (catalystSkip : Bool) : Prop where
  notHalted : state.halted = false
  e1Universe : signal.gate.e1Universe = true
  ratio : cfg.rrMin ≤ signal.rrRatio
  loss : -effectiveLossLimit cfg equity cfg.avgWinDayPnl < state.realizedPnl
  giveBack : 0 < state.peakPnl → state.peakPnl * (1 - cfg.giveBackHard) < state.realizedPnl
  strikes : state.consecutiveLosses < cfg.threeStrikes
  /-- It adds to no position at a lower price. -/
  noAverageDown : ∀ e, state.openPositions.get? signal.symbol = some e → e ≤ signal.entryPrice.val
  trades : state.tradesToday < cfg.maxTradesPerDay
  catalyst : catalystSkip = false
  time : timeOfDay ≤ cfg.hardStopTime

/-- The gate reports nothing exactly when there is nothing to report. -/
theorem evaluatePreTrade_eq_nil {signal : EntrySignal} {state : RiskState} {cfg : Config}
    {timeOfDay equity : ℚ} {catalystSkip : Bool} :
    evaluatePreTrade signal state cfg timeOfDay equity catalystSkip = []
      ↔ PassesGate signal state cfg timeOfDay equity catalystSkip := by
  have hdown : ((state.openPositions.get? signal.symbol).any fun e =>
        decide (signal.entryPrice.val < e)) = false
      ↔ ∀ e, state.openPositions.get? signal.symbol = some e → e ≤ signal.entryPrice.val := by
    cases state.openPositions.get? signal.symbol with
    | none => simp
    | some e => simp
  unfold evaluatePreTrade
  constructor
  · intro h
    -- a halted session is vetoed alone
    split at h
    · exact absurd h (by simp)
    rename_i hh
    simp only [List.append_eq_nil_iff, vetoWhen_eq_nil, hdown, Bool.not_eq_false',
      Bool.and_eq_false_iff, decide_eq_false_iff_not, not_le, not_lt] at h
    obtain ⟨⟨⟨⟨⟨⟨⟨⟨hu, hr⟩, hl⟩, hg⟩, hs⟩, hd⟩, ht⟩, hc⟩, htime⟩ := h
    refine ⟨by simpa using hh, hu, hr, hl, fun hpeak => ?_, hs, hd, ht, hc, htime⟩
    -- the give-back is asked for only after a green peak
    rcases hg with hp | hg
    · exact absurd hpeak (not_lt.mpr hp)
    · exact hg
  · intro h
    rw [if_neg (by simp [h.notHalted])]
    simp only [List.append_eq_nil_iff, vetoWhen_eq_nil, hdown, Bool.not_eq_false',
      Bool.and_eq_false_iff, decide_eq_false_iff_not, not_le, not_lt]
    refine ⟨⟨⟨⟨⟨⟨⟨⟨h.e1Universe, h.ratio⟩, h.loss⟩, ?_⟩, h.strikes⟩, h.noAverageDown⟩, h.trades⟩,
      h.catalyst⟩, h.time⟩
    by_cases hpeak : 0 < state.peakPnl
    · exact Or.inr (h.giveBack hpeak)
    · exact Or.inl (not_lt.mp hpeak)

end RossBot
