import RossBot.Indicators

/-!
# Signals, gate results, positions

`core/strategy/models.py`. Every price field is `Money`, so building one of
these models quantizes what is put into it. Reason texts are constructors of an
inductive type that carries the numbers the text would print.
-/

namespace RossBot

/-- `PatternType`. -/
inductive PatternType where
  | microPullback
  | abcd
  | bullFlag
  | flatTop
  | gapAndGo
  | vwapBreak
  | haltResumption
  | redToGreen
  | reverseSplitSqueeze
  | none
  deriving DecidableEq, Repr

/-- `PATTERN_RANK`: lower is stronger. -/
def patternRank : PatternType → ℕ
  | .microPullback => 1
  | .abcd => 2
  | .bullFlag => 3
  | .flatTop => 3
  | .gapAndGo => 5
  | .vwapBreak => 6
  | .haltResumption => 7
  | .redToGreen => 10
  | .reverseSplitSqueeze => 11
  | .none => 99

/-- `ExitReason`, P1 to P8. -/
inductive ExitReason where
  | hardStop
  | timeStop
  | l2Reversal
  | toppingTail
  | scaleStrength
  | firstRedClose
  | vwapGuard
  | lostPopularity
  deriving DecidableEq, Repr

/-- `ScaleAction`. -/
inductive ScaleAction where
  | fullExit
  | partialScale
  deriving DecidableEq, Repr

/-- `PullbackContext`. -/
structure PullbackContext where
  pullbackCount : ℕ
  pullbackLow : Money
  surgeHigh : Money
  surgeStart : Money
  retraceRatio : ℚ

/-- The entries of `EntryGateResult.reasons`. -/
inductive GateReason where
  | fivePillarsFail
  | noPullbackOrSurge
  | pullbackCountExceeds (count : ℕ) (max : ℤ)
  | noCandleOverCandle
  | macdRedOrMissing
  | retraceTooDeep (ratio max : ℚ)
  | l2 (signal : L2Signal)
  | spreadOutsideBand (spread : ℚ)

/-- `EntryGateResult`. -/
structure EntryGateResult where
  passes : Bool
  e1Universe : Bool
  e2Pullback : Bool
  e3Crossing : Bool
  e4Macd : Bool
  e5Retrace : Bool
  e6L2 : Bool
  e7Spread : Bool
  pullbackCtx : Option PullbackContext
  entryTrigger : EntryTrigger
  spread : Money
  reasons : List GateReason

/-- `PatternMatch`. -/
structure PatternMatch where
  pattern : PatternType
  confidence : ℚ

/-- `EntrySignal`. -/
structure EntrySignal where
  symbol : Symbol
  ts : Time
  pattern : PatternType
  convictionScore : Money
  entryPrice : Money
  stopPrice : Money
  targetPrice : Money
  gate : EntryGateResult
  marketState : MarketState
  vwap : Option Money
  ema9 : Option Money

/-- `EntrySignal.risk_per_share`. -/
def EntrySignal.riskPerShare (s : EntrySignal) : ℚ := s.entryPrice.val - s.stopPrice.val

/-- `EntrySignal.rr_ratio`. -/
def EntrySignal.rrRatio (s : EntrySignal) : ℚ :=
  if s.riskPerShare ≤ 0 then 0
  else (s.targetPrice.val - s.entryPrice.val) / s.riskPerShare

/-- A signal with a positive reward-to-risk ratio has its stop below its entry. -/
theorem EntrySignal.stop_lt_entry {sig : EntrySignal} (h : 0 < sig.rrRatio) :
    sig.stopPrice.val < sig.entryPrice.val := by
  unfold EntrySignal.rrRatio at h
  split at h
  · exact absurd h (lt_irrefl 0)
  · rename_i hrisk
    unfold EntrySignal.riskPerShare at hrisk
    linarith

/-- `PositionSnapshot`. -/
structure PositionSnapshot where
  symbol : Symbol
  entryPrice : Money
  currentStop : Money
  targetPrice : Money
  shares : ℤ
  entryTs : Time
  highWatermark : Money

/-- `ExitSignal`. -/
structure ExitSignal where
  symbol : Symbol
  ts : Time
  reason : ExitReason
  action : ScaleAction
  scaleFraction : ℚ
  newStop : Option Money

/-- What `is_failed_pattern` reports. -/
inductive FailedReason where
  | toppingTailConfirmed
  | falseBreakoutFlush
  | candleUnderCandle
  | below9Ema
  | belowVwap
  | macdNegativeCross
  | retraceExceeds50Pct
  | lightVolumeBreakoutAfterSpike
  deriving DecidableEq, Repr

/-- `FailedPatternSignal`. -/
structure FailedPatternSignal where
  symbol : Symbol
  ts : Time
  reason : FailedReason

/-- `Signal`. -/
inductive Signal where
  | entry (s : EntrySignal)
  | exit (s : ExitSignal)
  | failedPattern (s : FailedPatternSignal)

end RossBot
