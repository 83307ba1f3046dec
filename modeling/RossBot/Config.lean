import RossBot.Money

/-!
# Configuration

`core/config.py`. `ConfigService` is read through typed getters only, so the
model is a record with one typed field for each key that the modelled functions
read, under the key's own name. `Config.defaults` holds the shipped `DEFAULTS`.
Times of day are seconds since midnight, Eastern Time.
-/

namespace RossBot

/-- `SizingMode`. -/
inductive SizingMode where
  | riskFormula
  | flatBlock
  deriving DecidableEq, Repr

/-- `EntryTrigger`. -/
inductive EntryTrigger where
  | candleClose
  | midCandle
  deriving DecidableEq, Repr

/-- `StopBasis`. -/
inductive StopBasis where
  | pullbackLow
  | prevCandleLow
  deriving DecidableEq, Repr

/-- `CapitalTier`. -/
inductive CapitalTier where
  | micro
  | starter
  | full
  deriving DecidableEq, Repr

/-- The configuration keys the live pipeline reads. -/
structure Config where
  -- risk
  rrMin : ℚ
  maxDailyLossPct : ℚ
  avgWinDayPnl : ℚ
  brokerHardLockout : ℚ
  giveBackWarn : ℚ
  giveBackHard : ℚ
  threeStrikes : ℤ
  maxTradesPerDay : ℤ
  hardStopTime : ℚ
  eodFlattenTime : ℚ
  -- sizing
  maxSize : ℤ
  icebreakerFraction : ℚ
  sizingMode : SizingMode
  perTradeRiskDollars : ℚ
  starterCap : ℤ
  cushionPnlThreshold : ℚ
  dowMondayMult : ℚ
  dowFridayMult : ℚ
  marketStateRehabCap : ℤ
  marketStateColdMult : ℚ
  -- entry gate
  retraceMax : ℚ
  spreadMin : ℚ
  spreadMax : ℚ
  pullbackMaxCandles : ℤ
  surgeMinCandles : ℤ
  entryTrigger : EntryTrigger
  flagConsolidationMax : ℚ
  stopBasis : StopBasis
  lightVolumeRatio : ℚ
  volumeSpikeLookback : ℤ
  -- exits
  firstScaleFraction : ℚ
  bailoutSeconds : ℤ
  bailoutMove : ℚ
  moveBeTrigger : ℚ
  attentionWatchRank : ℤ
  psychLevelStep : ℚ
  psychLevelTolerance : ℚ
  -- live session
  capitalRampTier : CapitalTier
  capitalRampMicroShares : ℤ
  capitalRampStarterShares : ℤ
  buyOffset : ℚ
  livePollMs : ℤ
  reconcileIntervalS : ℤ
  reconnectMaxAttempts : ℤ
  reconnectDelayS : ℤ
  feedStalenessSeconds : ℚ
  backstopEnabled : Bool
  backstopOffset : ℚ

/-- `DEFAULTS`. -/
def Config.defaults : Config where
  rrMin := 2
  maxDailyLossPct := 1 / 10
  avgWinDayPnl := 1000
  brokerHardLockout := 5000
  giveBackWarn := 1 / 4
  giveBackHard := 1 / 2
  threeStrikes := 3
  maxTradesPerDay := 1
  hardStopTime := 11 * 3600
  eodFlattenTime := 15 * 3600 + 55 * 60
  maxSize := 10000
  icebreakerFraction := 1 / 4
  sizingMode := .riskFormula
  perTradeRiskDollars := 1000
  starterCap := 5000
  cushionPnlThreshold := 1000
  dowMondayMult := 1 / 2
  dowFridayMult := 3 / 4
  marketStateRehabCap := 1000
  marketStateColdMult := 1 / 2
  retraceMax := 1 / 2
  spreadMin := 3 / 100
  spreadMax := 1 / 10
  pullbackMaxCandles := 3
  surgeMinCandles := 2
  entryTrigger := .candleClose
  flagConsolidationMax := 1 / 4
  stopBasis := .pullbackLow
  lightVolumeRatio := 3 / 10
  volumeSpikeLookback := 10
  firstScaleFraction := 1 / 2
  bailoutSeconds := 60
  bailoutMove := 1 / 10
  moveBeTrigger := 1 / 10
  attentionWatchRank := 10
  psychLevelStep := 1 / 2
  psychLevelTolerance := 3 / 100
  capitalRampTier := .micro
  capitalRampMicroShares := 100
  capitalRampStarterShares := 2000
  buyOffset := 5 / 100
  livePollMs := 100
  reconcileIntervalS := 30
  reconnectMaxAttempts := 3
  reconnectDelayS := 5
  feedStalenessSeconds := 5
  backstopEnabled := false
  backstopOffset := 1 / 2

end RossBot
