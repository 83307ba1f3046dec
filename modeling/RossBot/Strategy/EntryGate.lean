import RossBot.Strategy.Models

/-!
# The entry gate E1–E7

`core/strategy/entry_gate.py`. Python's `bars[-1]`, `bars[-2]`, … are the first,
second, … element of the reversed list.
-/

namespace RossBot

/-- `is_red_candle`. -/
def isRedCandle (b : BarTick) : Bool := decide (b.close.val < b.openPrice.val)

/-- `is_green_candle`. -/
def isGreenCandle (b : BarTick) : Bool := decide (b.openPrice.val < b.close.val)

/-- `min` of a non-empty sequence. -/
def minOf (x : ℚ) (xs : List ℚ) : ℚ := xs.foldl min x

/-- `max` of a non-empty sequence. -/
def maxOf (x : ℚ) (xs : List ℚ) : ℚ := xs.foldl max x

/-- The two scans of `find_pullback_context`, backwards from the bar before the
signal bar: the red bars (at most `pullbackMax`), then the green ones. -/
def pullbackAndSurge (bars : List BarTick) (pullbackMax : ℤ) : List BarTick × List BarTick :=
  let back := bars.reverse.tail
  let pullback := (back.take pullbackMax.toNat).takeWhile isRedCandle
  (pullback, (back.drop pullback.length).takeWhile isGreenCandle)

/-- `find_pullback_context`. The source's `max` of an empty surge is an error; it
needs `surgeMin ≤ 0`, and is `none` here. -/
def findPullbackContext (bars : List BarTick) (surgeMin pullbackMax : ℤ) :
    Option PullbackContext :=
  if (bars.length : ℤ) < surgeMin + pullbackMax + 1 then none
  else
    match pullbackAndSurge bars pullbackMax with
    | (p :: ps, s :: ss) =>
        if ((s :: ss).length : ℤ) < surgeMin then none
        else
          let pullbackLow := minOf p.low.val (ps.map (·.low.val))
          let surgeHigh := maxOf s.high.val (ss.map (·.high.val))
          let surgeStart := ((s :: ss).getLast (List.cons_ne_nil s ss)).low.val
          let move := surgeHigh - surgeStart
          if move ≤ 0 then none
          else some
            { pullbackCount := (p :: ps).length
              pullbackLow := .of pullbackLow
              surgeHigh := .of surgeHigh
              surgeStart := .of surgeStart
              retraceRatio := (surgeHigh - pullbackLow) / move }
    | _ => none

/-- `_e1_universe`. -/
def e1Universe (scan : ScanResult) : Bool := scan.tierBPass

/-- `_e2_pullback`. -/
def e2Pullback (ctx : Option PullbackContext) (maxPullbackCandles : ℤ) : Bool :=
  match ctx with
  | none => false
  | some c => decide (1 ≤ c.pullbackCount) && decide ((c.pullbackCount : ℤ) ≤ maxPullbackCandles)

/-- `_e3_crossing`. -/
def e3Crossing (bars : List BarTick) (trigger : EntryTrigger) : Bool :=
  match bars.reverse with
  | signal :: prior :: _ =>
      match trigger with
      | .midCandle => decide (prior.high.val < signal.high.val)
      | .candleClose => decide (prior.high.val < signal.close.val)
  | _ => false

/-- `_e4_macd`. -/
def e4Macd (point : Option MacdPoint) : Bool := macdPositive point

/-- `_e5_retrace`. -/
def e5Retrace (ctx : PullbackContext) (retraceMax : ℚ) : Bool :=
  decide (ctx.retraceRatio ≤ retraceMax)

/-- `_e6_l2`. -/
def e6L2 (s : L2Signal) : Bool := s = .support || s = .absorbBreak

/-- `_e7_spread`. -/
def e7Spread (spread spreadMin spreadMax : ℚ) : Bool :=
  decide (spreadMin ≤ spread) && decide (spread ≤ spreadMax)

/-- `evaluate_entry_gate`: mid-candle entries only when the market is HOT. -/
def effectiveTrigger (trigger : EntryTrigger) (state : MarketState) : EntryTrigger :=
  if trigger = .midCandle && state ≠ .hot then .candleClose else trigger

/-- `evaluate_entry_gate`. -/
def evaluateEntryGate (cfg : Config) (scan : ScanResult) (bars : List BarTick)
    (macdPoint : Option MacdPoint) (l2 : L2Signal) (spread : ℚ) (state : MarketState) :
    EntryGateResult :=
  let trigger := effectiveTrigger cfg.entryTrigger state
  let ctx := findPullbackContext bars cfg.surgeMinCandles cfg.pullbackMaxCandles
  let e1 := e1Universe scan
  let e2 := e2Pullback ctx cfg.pullbackMaxCandles
  let e3 := if 2 ≤ bars.length then e3Crossing bars trigger else false
  let e4 := e4Macd macdPoint
  let e5 := match ctx with
    | none => false
    | some c => e5Retrace c cfg.retraceMax
  let e6 := e6L2 l2
  let e7 := e7Spread spread cfg.spreadMin cfg.spreadMax
  let r1 := if e1 then [] else [GateReason.fivePillarsFail]
  let r2 := if e2 then [] else match ctx with
    | none => [GateReason.noPullbackOrSurge]
    | some c => [GateReason.pullbackCountExceeds c.pullbackCount cfg.pullbackMaxCandles]
  let r3 := if e3 then [] else [GateReason.noCandleOverCandle]
  let r4 := if e4 then [] else [GateReason.macdRedOrMissing]
  let r5 := match ctx with
    | none => []
    | some c => if e5 then [] else [GateReason.retraceTooDeep c.retraceRatio cfg.retraceMax]
  let r6 := if e6 then [] else [GateReason.l2 l2]
  let r7 := if e7 then [] else [GateReason.spreadOutsideBand spread]
  { passes := e1 && e2 && e3 && e4 && e5 && e6 && e7
    e1Universe := e1
    e2Pullback := e2
    e3Crossing := e3
    e4Macd := e4
    e5Retrace := e5
    e6L2 := e6
    e7Spread := e7
    pullbackCtx := ctx
    entryTrigger := trigger
    spread := .of spread
    reasons := r1 ++ r2 ++ r3 ++ r4 ++ r5 ++ r6 ++ r7 }

end RossBot
