import RossBot.Strategy.EntryGate

/-!
# Pattern recognisers

`core/strategy/patterns.py`. Volume averages are Python floats there; here they
are the exact quotients, and the float literals `0.8` and
`float(LIGHT_VOLUME_RATIO)` are the decimals they were written as.
-/

namespace RossBot

/-- `is_topping_candle`. -/
def isToppingCandle (b : BarTick) : Bool :=
  let body := |b.close.val - b.openPrice.val|
  let upperShadow := b.high.val - max b.openPrice.val b.close.val
  if upperShadow ≤ 5 / 1000 then false
  else if body = 0 then true
  else decide (body * 2 ≤ upperShadow)

/-- `[xs[i] for i in range(lo, hi) if i >= 0]`. -/
def pySlice {α : Type} (xs : List α) (lo hi : ℤ) : List α := (xs.take hi.toNat).drop lo.toNat

/-- `sum(vols) / max(1, len(vols)) if vols else 0.0`. -/
def avgVolume (vols : List ℕ) : ℚ :=
  if vols = [] then 0 else (vols.sum : ℚ) / (vols.length : ℚ)

/-- `is_micro_pullback`. -/
def isMicroPullback (bars : List BarTick) (ctx : PullbackContext) (ema9 : Option ℚ) :
    Option PatternMatch :=
  if bars.length < 4 then none
  else
    let n : ℤ := bars.length
    let pbStart := n - 2
    let pbEnd := n - 2 - ctx.pullbackCount
    let pbVols := (pySlice bars pbEnd (pbStart + 1)).map (·.volume)
    let surgeStartIdx := pbEnd - 1
    let surgeVols := ((pySlice bars (max 0 (surgeStartIdx - 4)) (surgeStartIdx + 1)).filter
      isGreenCandle).map (·.volume)
    let avgPb := avgVolume pbVols
    let avgSurge := avgVolume surgeVols
    let lightVolume := if 0 < avgSurge then decide (avgPb ≤ avgSurge * (8 / 10)) else true
    if !lightVolume then none
    else
      let confidence : ℚ := if ctx.retraceRatio ≤ 25 / 100 then 90 / 100 else 75 / 100
      let confidence := match ema9 with
        | none => confidence
        | some e =>
            if ctx.pullbackLow.val * (99 / 100) ≤ e ∧ e ≤ ctx.surgeHigh.val then
              min 1 (confidence + 5 / 100)
            else confidence
      some ⟨.microPullback, confidence⟩

/-- `_find_abcd_structure`: the high of the bounce and the low of the pullback
before it, scanning back from `prePTwoIdx`. -/
def findAbcdStructure (bars : List BarTick) (prePTwoIdx : ℤ) : Option (ℚ × ℚ) :=
  let back := (pySlice bars 0 (prePTwoIdx + 1)).reverse
  let bounce := back.takeWhile isGreenCandle
  match bounce, (back.drop bounce.length).takeWhile isRedCandle with
  | h :: hs, p :: ps =>
      some (maxOf h.high.val (hs.map (·.high.val)), minOf p.low.val (ps.map (·.low.val)))
  | _, _ => none

/-- `is_abcd`. -/
def isAbcd (bars : List BarTick) (ctx : PullbackContext) : Option PatternMatch :=
  let n : ℤ := bars.length
  if n < 8 then none
  else
    let prePTwoIdx := n - 2 - ctx.pullbackCount
    if prePTwoIdx < 3 then none
    else
      match findAbcdStructure bars prePTwoIdx, bars.getLast? with
      | some (bounceHigh, pullbackLow), some signal =>
          if ctx.pullbackLow.val < pullbackLow then none
          else if signal.high.val < bounceHigh * (95 / 100) then none
          else some ⟨.abcd, 85 / 100⟩
      | _, _ => none

/-- `is_bull_flag`. -/
def isBullFlag (bars : List BarTick) (ctx : PullbackContext) (ema9 : Option ℚ)
    (flagConsolidationMax : ℚ) : Option PatternMatch :=
  let n : ℤ := bars.length
  if n < 5 then none
  else if 3 < ctx.pullbackCount then none
  else if flagConsolidationMax < ctx.retraceRatio then none
  else
    let pbStart := n - 2
    let pbEnd := n - 2 - ctx.pullbackCount
    let flagVols := (pySlice bars (max 0 pbEnd) (pbStart + 1)).map (·.volume)
    let surgeVols := ((pySlice bars (max 0 (pbEnd - 5)) (max 0 pbEnd)).filter
      isGreenCandle).map (·.volume)
    let avgFlag := avgVolume flagVols
    let avgSurge := avgVolume surgeVols
    if 0 < avgSurge ∧ avgSurge < avgFlag then none
    else
      match bars.getLast? with
      | none => none
      | some signal =>
          let signalIncreasing := avgFlag = 0 ∨ avgFlag ≤ signal.volume
          let confidence : ℚ := if signalIncreasing then 80 / 100 else 65 / 100
          let confidence := match ema9 with
            | none => confidence
            | some e =>
                if ctx.pullbackLow.val ≤ e ∧ e ≤ ctx.surgeHigh.val then
                  min 1 (confidence + 5 / 100)
                else confidence
          some ⟨.bullFlag, confidence⟩

/-- `is_flat_top`. -/
def isFlatTop (bars : List BarTick) : Option PatternMatch :=
  if bars.length < 4 then none
  else
    match bars.reverse with
    | [] => none
    | signal :: prior =>
        match (prior.take (min 3 (bars.length - 2))).map (·.high.val) with
        | h₁ :: h₂ :: hs =>
            let hi := maxOf h₁ (h₂ :: hs)
            if 3 / 100 < hi - minOf h₁ (h₂ :: hs) then none
            else if signal.high.val ≤ hi then none
            else some ⟨.flatTop, 75 / 100⟩
        | _ => none

/-- `is_gap_and_go`. -/
def isGapAndGo (bars : List BarTick) (gapPct gapMinPct : ℚ) : Option PatternMatch :=
  match bars.reverse with
  | signal :: _ :: _ =>
      if gapPct < gapMinPct then none
      else if signal.close.val ≤ signal.openPrice.val then none
      else some ⟨.gapAndGo, 70 / 100⟩
  | _ => none

/-- `is_vwap_break`. -/
def isVwapBreak (bars : List BarTick) (vwap : Option ℚ) : Option PatternMatch :=
  match vwap, bars.reverse with
  | some v, signal :: prior :: _ =>
      if v < signal.close.val ∧ prior.close.val ≤ v then some ⟨.vwapBreak, 65 / 100⟩ else none
  | _, _ => none

/-- `is_halt_resumption`. -/
def isHaltResumption (bars : List BarTick) (isHaltedResume : Bool) : Option PatternMatch :=
  if !isHaltedResume then none
  else
    match bars.reverse with
    | signal :: _ :: _ =>
        if signal.close.val ≤ signal.openPrice.val then none else some ⟨.haltResumption, 60 / 100⟩
    | _ => none

/-- `is_red_to_green`. -/
def isRedToGreen (bars : List BarTick) (prevClose : Option ℚ) : Option PatternMatch :=
  match prevClose, bars.reverse with
  | some pc, signal :: prior :: _ =>
      if signal.close.val ≤ pc ∨ pc < prior.close.val then none
      else some ⟨.redToGreen, if prior.volume ≤ signal.volume then 55 / 100 else 45 / 100⟩
  | _, _ => none

/-- `is_reverse_split_squeeze`. -/
def isReverseSplitSqueeze (bars : List BarTick) (recentReverseSplit : Bool) :
    Option PatternMatch :=
  if !recentReverseSplit then none
  else
    match bars.reverse with
    | signal :: _ :: _ =>
        if signal.close.val ≤ signal.openPrice.val then none
        else some ⟨.reverseSplitSqueeze, 50 / 100⟩
    | _ => none

/-- `bars[-k:] if len(bars) >= k else bars`, for any integer `k`. -/
def volumeLookback (bars : List BarTick) (k : ℤ) : List BarTick :=
  if k ≤ (bars.length : ℤ) then
    if 0 < k then bars.drop (bars.length - k.toNat) else bars.drop (-k).toNat
  else bars

/-- The light-volume check that closes `is_failed_pattern`. -/
def lightVolumeAfterSpike (bars : List BarTick) (current : BarTick) (ratio : ℚ)
    (lookback : ℤ) : Bool :=
  if bars.length < 3 then false
  else
    match (volumeLookback bars lookback).dropLast.map (·.volume) with
    | [] => false
    | v :: vs =>
        let spike := vs.foldl max v
        decide (avgVolume (v :: vs) * 3 < spike) && decide ((current.volume : ℚ) < spike * ratio)

/-- `is_failed_pattern`: the first rule of the invalidation set that fires. -/
def isFailedPattern (bars : List BarTick) (vwap ema9 : Option ℚ) (macdPoint : Option MacdPoint)
    (retraceRatio lightVolumeRatio : ℚ) (volumeSpikeLookback : ℤ) : Option FailedReason :=
  match bars.reverse with
  | current :: previous :: _ =>
      let breach := current.high.val - previous.high.val
      if isToppingCandle previous && decide (current.low.val < previous.low.val) then
        some .toppingTailConfirmed
      else if 0 < breach ∧ breach ≤ 5 / 100 ∧ current.close.val < previous.close.val then
        some .falseBreakoutFlush
      else if current.close.val < previous.low.val then some .candleUnderCandle
      else if ema9.any fun e => decide (current.close.val < e) then some .below9Ema
      else if vwap.any fun v => decide (current.close.val < v) then some .belowVwap
      else if macdPoint.isSome && !macdPositive macdPoint then some .macdNegativeCross
      else if 50 / 100 < retraceRatio then some .retraceExceeds50Pct
      else if lightVolumeAfterSpike bars current lightVolumeRatio volumeSpikeLookback then
        some .lightVolumeBreakoutAfterSpike
      else none
  | _ => none

/-- `min(candidates, key=rank)`: the first of the strongest candidates. -/
def bestMatch : List PatternMatch → Option PatternMatch
  | [] => none
  | m :: ms =>
      match bestMatch ms with
      | none => some m
      | some b => if patternRank m.pattern ≤ patternRank b.pattern then some m else some b

/-- `recognize_pattern`, with its default `gap_min_pct = 4.0`. -/
def recognizePattern (bars : List BarTick) (ctx : PullbackContext) (vwap ema9 : Option ℚ)
    (isHaltedResume recentReverseSplit : Bool) (prevClose : Option ℚ)
    (gapPct flagConsolidationMax : ℚ) : PatternMatch :=
  let candidates := [isMicroPullback bars ctx ema9, isAbcd bars ctx,
    isBullFlag bars ctx ema9 flagConsolidationMax, isFlatTop bars, isGapAndGo bars gapPct 4,
    isVwapBreak bars vwap, isHaltResumption bars isHaltedResume, isRedToGreen bars prevClose,
    isReverseSplitSqueeze bars recentReverseSplit].filterMap id
  (bestMatch candidates).getD ⟨.none, 0⟩

end RossBot
