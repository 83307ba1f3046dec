import RossBot.Risk.Sizing

/-!
# The risk manager

`core/risk/manager.py`. The manager is its `RiskState`; every method is a
function on it.
-/

namespace RossBot

open Lib

namespace RiskState

/-- `reset_session`: whatever the day was, a new one begins. -/
def resetSession (_ : RiskState) : RiskState := .fresh

/-- `record_open`. -/
def recordOpen (s : RiskState) (symbol : Symbol) (entryPrice : ℚ) : RiskState :=
  { s with
    openPositions := s.openPositions.set symbol entryPrice
    tradesToday := s.tradesToday + 1 }

/-- `record_close`. The halt is sticky and is only ever set here by three strikes. -/
def recordClose (cfg : Config) (s : RiskState) (symbol : Symbol) (pnl : ℚ) : RiskState :=
  let realized := s.realizedPnl + pnl
  let losses := if pnl < 0 then s.consecutiveLosses + 1 else 0
  let strikes := !s.halted && decide (cfg.threeStrikes ≤ losses)
  { s with
    openPositions := s.openPositions.erase symbol
    realizedPnl := realized
    peakPnl := if s.peakPnl < realized then realized else s.peakPnl
    consecutiveLosses := losses
    halted := if strikes then true else s.halted
    haltReason := if strikes then some .threeStrikes else s.haltReason }

/-- `evaluate`: the veto gate, then sizing. -/
def evaluate (cfg : Config) (s : RiskState) (signal : EntrySignal) (timeOfDay : ℚ)
    (dayOfWeek : ℕ) (equity : ℚ) (liquidityCapShares : Option ℤ) (catalystSkip : Bool) :
    TradeApproval :=
  match evaluatePreTrade signal s cfg timeOfDay equity catalystSkip with
  | [] =>
      let shares := computeSize signal s cfg signal.marketState dayOfWeek liquidityCapShares
      if shares = 0 then ⟨false, 0, [.sizingZero]⟩ else ⟨true, shares, []⟩
  | v :: vs => ⟨false, 0, v :: vs⟩

/-- `check_mental_stop`. -/
def checkMentalStop (currentPrice : ℚ) (position : PositionSnapshot) : Bool :=
  isMentalStopBreached currentPrice position.currentStop.val

/-- `check_give_back`. -/
def checkGiveBack (cfg : Config) (s : RiskState) : GiveBackLevel :=
  evaluateGiveBack s.realizedPnl s.peakPnl cfg

/-- `check_daily_loss`. -/
def checkDailyLoss (cfg : Config) (s : RiskState) (equity : ℚ) : Bool :=
  isDailyLossLimit s.realizedPnl equity cfg.avgWinDayPnl cfg

/-- `halt_session`. -/
def haltSession (s : RiskState) (reason : String) : RiskState :=
  { s with halted := true, haltReason := some (.external reason) }

@[simp] theorem openPositions_recordOpen (s : RiskState) (symbol : Symbol) (p : ℚ) :
    (s.recordOpen symbol p).openPositions = s.openPositions.set symbol p := rfl

@[simp] theorem openPositions_recordClose (cfg : Config) (s : RiskState) (symbol : Symbol)
    (pnl : ℚ) : (recordClose cfg s symbol pnl).openPositions = s.openPositions.erase symbol := rfl

@[simp] theorem realizedPnl_recordClose (cfg : Config) (s : RiskState) (symbol : Symbol)
    (pnl : ℚ) : (recordClose cfg s symbol pnl).realizedPnl = s.realizedPnl + pnl := rfl

theorem consecutiveLosses_recordClose (cfg : Config) (s : RiskState) (symbol : Symbol) (pnl : ℚ) :
    (recordClose cfg s symbol pnl).consecutiveLosses
      = if pnl < 0 then s.consecutiveLosses + 1 else 0 := rfl

/-- The peak is raised to the new total, if that is higher. -/
theorem peakPnl_recordClose (cfg : Config) (s : RiskState) (symbol : Symbol) (pnl : ℚ) :
    (recordClose cfg s symbol pnl).peakPnl = max s.peakPnl (s.realizedPnl + pnl) := by
  unfold recordClose
  dsimp only
  split_ifs with h
  · exact (max_eq_right h.le).symm
  · exact (max_eq_left (not_lt.mp h)).symm

/-- A halt stays, and a losing run of `THREE_STRIKES` is one. -/
theorem halted_recordClose {cfg : Config} {s : RiskState} {symbol : Symbol} {pnl : ℚ} :
    (recordClose cfg s symbol pnl).halted = true
      ↔ s.halted = true
        ∨ cfg.threeStrikes ≤ (recordClose cfg s symbol pnl).consecutiveLosses := by
  rw [consecutiveLosses_recordClose]
  unfold recordClose
  dsimp only
  cases hh : s.halted with
  | true => simp
  | false => simp

/-- An approval is a passed gate and a size that is not zero. -/
theorem evaluate_approved_iff {cfg : Config} {s : RiskState} {signal : EntrySignal}
    {timeOfDay : ℚ} {dayOfWeek : ℕ} {equity : ℚ} {cap : Option ℤ} {skip : Bool} :
    (evaluate cfg s signal timeOfDay dayOfWeek equity cap skip).approved = true
      ↔ PassesGate signal s cfg timeOfDay equity skip
        ∧ computeSize signal s cfg signal.marketState dayOfWeek cap ≠ 0 := by
  rw [← evaluatePreTrade_eq_nil]
  unfold evaluate
  cases evaluatePreTrade signal s cfg timeOfDay equity skip with
  | cons v vs => simp
  | nil =>
      dsimp only
      split
      · rename_i hz
        simp [hz]
      · rename_i hz
        simp [hz]

/-- While the session is halted, nothing is approved. -/
theorem evaluate_halted {cfg : Config} {s : RiskState} (h : s.halted = true)
    (signal : EntrySignal) (timeOfDay : ℚ) (dayOfWeek : ℕ) (equity : ℚ) (cap : Option ℤ)
    (skip : Bool) :
    evaluate cfg s signal timeOfDay dayOfWeek equity cap skip = ⟨false, 0, [.halted]⟩ := by
  unfold evaluate evaluatePreTrade
  rw [if_pos h]

/-- An approval carries the size that was computed, which is positive. -/
theorem evaluate_approved {cfg : Config} {s : RiskState} {signal : EntrySignal} {timeOfDay : ℚ}
    {dayOfWeek : ℕ} {equity : ℚ} {cap : Option ℤ} {skip : Bool}
    (h : (evaluate cfg s signal timeOfDay dayOfWeek equity cap skip).approved = true) :
    PassesGate signal s cfg timeOfDay equity skip
      ∧ (evaluate cfg s signal timeOfDay dayOfWeek equity cap skip).shares
          = computeSize signal s cfg signal.marketState dayOfWeek cap
      ∧ 0 < (evaluate cfg s signal timeOfDay dayOfWeek equity cap skip).shares := by
  obtain ⟨hgate, hsize⟩ := evaluate_approved_iff.mp h
  have hshares : (evaluate cfg s signal timeOfDay dayOfWeek equity cap skip).shares
      = computeSize signal s cfg signal.marketState dayOfWeek cap := by
    unfold evaluate
    rw [evaluatePreTrade_eq_nil.mpr hgate]
    dsimp only
    rw [if_neg hsize]
  refine ⟨hgate, hshares, ?_⟩
  rw [hshares]
  exact lt_of_le_of_ne (computeSize_nonneg ..) (Ne.symm hsize)

end RiskState

end RossBot
