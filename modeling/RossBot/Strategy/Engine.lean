import RossBot.Strategy.Conviction
import RossBot.Strategy.ExitEngine

/-!
# The strategy engine

`core/strategy/engine.py`: one state per symbol, fed bar by bar. `_states` is a
`setdefault` map, so the model is total: a symbol that was never touched has the
default state.

What the rest of the development needs from `on_bar` is said once, in
`SymbolState.onBar_cases`: a bar that is not a 1-minute bar decides nothing; in a
position, the exit rules run and only a `FULL_EXIT` clears the position; out of
a position, at most one signal comes out and it opens nothing.
-/

namespace RossBot

/-- `SymbolState`. -/
structure SymbolState where
  barsOneMin : List BarTick
  barsTenSec : List BarTick
  macdState : MacdState
  ema9State : EmaState
  vwapState : VwapState
  position : Option PositionSnapshot
  intradayHigh : ℚ
  prevClose : Option ℚ
  gapPct : ℚ
  isHaltedResume : Bool
  marketRank : Option ℤ

/-- `SymbolState()`. -/
def SymbolState.default : SymbolState where
  barsOneMin := []
  barsTenSec := []
  macdState := .new
  ema9State := .new 9
  vwapState := .new
  position := none
  intradayHigh := 0
  prevClose := none
  gapPct := 0
  isHaltedResume := false
  marketRank := none

/-- Append to a sliding window of at most `n` bars (`append`, then `pop(0)`). -/
def pushWindow (n : ℕ) (bars : List BarTick) (b : BarTick) : List BarTick :=
  if n < (bars ++ [b]).length then (bars ++ [b]).tail else bars ++ [b]

/-- Raise the high-watermark of a position to the close of the bar. -/
def PositionSnapshot.mark (p : PositionSnapshot) (close : Money) : PositionSnapshot :=
  if p.highWatermark.val < close.val then { p with highWatermark := close } else p

@[simp] theorem PositionSnapshot.mark_symbol (p : PositionSnapshot) (c : Money) :
    (p.mark c).symbol = p.symbol := by
  unfold PositionSnapshot.mark; split <;> rfl

@[simp] theorem PositionSnapshot.mark_entryPrice (p : PositionSnapshot) (c : Money) :
    (p.mark c).entryPrice = p.entryPrice := by
  unfold PositionSnapshot.mark; split <;> rfl

@[simp] theorem PositionSnapshot.mark_currentStop (p : PositionSnapshot) (c : Money) :
    (p.mark c).currentStop = p.currentStop := by
  unfold PositionSnapshot.mark; split <;> rfl

@[simp] theorem PositionSnapshot.mark_entryTs (p : PositionSnapshot) (c : Money) :
    (p.mark c).entryTs = p.entryTs := by
  unfold PositionSnapshot.mark; split <;> rfl

/-- The indicator update that `on_bar` makes on every bar; the readings are the
MACD point, the 9-EMA and the VWAP. -/
def SymbolState.readBar (s : SymbolState) (bar : BarTick) :
    SymbolState × Option MacdPoint × Option ℚ × Option ℚ :=
  let m := s.macdState.update bar.close.val
  let e := s.ema9State.update bar.close.val
  let v := s.vwapState.update bar.high.val bar.low.val bar.close.val bar.volume
  ({ s with
      macdState := m.1
      ema9State := e.1
      vwapState := v.1
      intradayHigh := if s.intradayHigh < bar.high.val then bar.high.val else s.intradayHigh },
    m.2, e.2, v.2)

/-- The stop of a new entry, by `STOP_BASIS`. -/
def stopBasisPrice (cfg : Config) (bars : List BarTick) (ctx : PullbackContext) : Money :=
  match cfg.stopBasis, bars.reverse with
  | .prevCandleLow, _ :: prior :: _ => prior.low
  | _, _ => ctx.pullbackLow

/-- The entry signal that `on_bar` builds once the gate has passed. -/
def entrySignal (cfg : Config) (s : SymbolState) (bar : BarTick) (scan : ScanResult) (spread : ℚ)
    (state : MarketState) (gate : EntryGateResult) (ctx : PullbackContext)
    (ema9 vwap : Option ℚ) : EntrySignal :=
  let pattern := recognizePattern s.barsOneMin ctx vwap ema9 s.isHaltedResume
    scan.candidate.recentReverseSplit s.prevClose s.gapPct cfg.flagConsolidationMax
  let conviction := scoreConviction pattern.pattern
    (match scan.candidate.rvol with | none => 0 | some r => r.val) scan.candidate.floatShares
    scan.attention spread ctx.retraceRatio ema9 (some bar.close.val) vwap
  let stop := stopBasisPrice cfg s.barsOneMin ctx
  let risk := bar.close.val - stop.val
  let risk := if risk ≤ 0 then 1 / 100 else risk
  { symbol := bar.symbol
    ts := bar.ts
    pattern := pattern.pattern
    convictionScore := .of conviction
    entryPrice := bar.close
    stopPrice := stop
    targetPrice := .of (bar.close.val + 2 * risk)
    gate := gate
    marketState := state
    vwap := vwap.map .of
    ema9 := ema9.map .of }

/-- The out-of-position half of `on_bar`. -/
def SymbolState.entrySignals (cfg : Config) (s : SymbolState) (bar : BarTick) (scan : ScanResult)
    (l2 : L2Signal) (spread : ℚ) (state : MarketState) (macdPt : Option MacdPoint)
    (ema9 vwap : Option ℚ) : List Signal :=
  let gate := evaluateEntryGate cfg scan s.barsOneMin macdPt l2 spread state
  match gate.pullbackCtx with
  | none => []
  | some ctx =>
      if gate.passes then
        [.entry (entrySignal cfg s bar scan spread state gate ctx ema9 vwap)]
      else
        match isFailedPattern s.barsOneMin vwap ema9 macdPt ctx.retraceRatio
            cfg.lightVolumeRatio cfg.volumeSpikeLookback with
        | none => []
        | some reason => [.failedPattern ⟨bar.symbol, bar.ts, reason⟩]

/-- `StrategyEngine.on_bar`, on the state of the bar's symbol. -/
def SymbolState.onBar (cfg : Config) (s : SymbolState) (bar : BarTick) (scan : ScanResult)
    (l2 : L2Signal) (spread : ℚ) (state : MarketState) : SymbolState × List Signal :=
  match s.readBar bar with
  | (s, macdPt, ema9, vwap) =>
      if bar.timeframe = "1m" then
        let s := { s with barsOneMin := pushWindow 50 s.barsOneMin bar }
        match s.position with
        | some p =>
            let p := p.mark bar.close
            let s := { s with position := some p }
            match evaluateExit cfg p
                { currentBar := bar, prevBars := s.barsOneMin.dropLast,
                  currentPrice := bar.close.val, l2Signal := l2, vwap := vwap,
                  marketRank := s.marketRank, intradayHigh := s.intradayHigh } with
            | none => (s, [])
            | some sig =>
                if sig.action = .fullExit then ({ s with position := none }, [.exit sig])
                else (s, [.exit sig])
        | none => (s, s.entrySignals cfg bar scan l2 spread state macdPt ema9 vwap)
      else if bar.timeframe = "10s" then
        ({ s with barsTenSec := pushWindow 100 s.barsTenSec bar }, [])
      else (s, [])

/-- `StrategyEngine._states`. -/
abbrev StrategyEngine := Symbol → SymbolState

namespace StrategyEngine

/-- `StrategyEngine(config)`. -/
def new : StrategyEngine := fun _ => .default

/-- Overwrite the state of one symbol. -/
def setState (e : StrategyEngine) (symbol : Symbol) (s : SymbolState) : StrategyEngine :=
  fun sym => if sym = symbol then s else e sym

/-- `reset_session`, with the default `gap_pct`. -/
def resetSession (e : StrategyEngine) (symbol : Symbol) (prevClose : ℚ) : StrategyEngine :=
  e.setState symbol { SymbolState.default with prevClose := some prevClose }

/-- `open_position`. -/
def openPosition (e : StrategyEngine) (symbol : Symbol) (entryPrice stopPrice targetPrice : ℚ)
    (shares : ℤ) (ts : Time) : StrategyEngine :=
  e.setState symbol { e symbol with
    position := some
      { symbol := symbol, entryPrice := .of entryPrice, currentStop := .of stopPrice,
        targetPrice := .of targetPrice, shares := shares, entryTs := ts,
        highWatermark := .of entryPrice } }

/-- `close_position`. -/
def closePosition (e : StrategyEngine) (symbol : Symbol) : StrategyEngine :=
  e.setState symbol { e symbol with position := none }

/-- `update_stop`. -/
def updateStop (e : StrategyEngine) (symbol : Symbol) (newStop : ℚ) : StrategyEngine :=
  e.setState symbol { e symbol with
    position := (e symbol).position.map fun p => { p with currentStop := .of newStop } }

/-- `on_bar`. -/
def onBar (cfg : Config) (e : StrategyEngine) (bar : BarTick) (scan : ScanResult) (l2 : L2Signal)
    (spread : ℚ) (state : MarketState) : StrategyEngine × List Signal :=
  let r := (e bar.symbol).onBar cfg bar scan l2 spread state
  (e.setState bar.symbol r.1, r.2)

theorem setState_self (e : StrategyEngine) (symbol : Symbol) (s : SymbolState) :
    e.setState symbol s symbol = s := if_pos rfl

theorem setState_ne (e : StrategyEngine) {symbol sym : Symbol} (s : SymbolState)
    (h : sym ≠ symbol) : e.setState symbol s sym = e sym := if_neg h

/-- The position the engine holds for a symbol. -/
def position (e : StrategyEngine) (symbol : Symbol) : Option PositionSnapshot :=
  (e symbol).position

theorem position_setState (e : StrategyEngine) (symbol sym : Symbol) (s : SymbolState) :
    (e.setState symbol s).position sym = if sym = symbol then s.position else e.position sym := by
  unfold position setState
  split <;> rfl

theorem position_resetSession (e : StrategyEngine) (symbol sym : Symbol) (pc : ℚ) :
    (e.resetSession symbol pc).position sym = if sym = symbol then none else e.position sym := by
  rw [resetSession, position_setState]; rfl

theorem position_closePosition (e : StrategyEngine) (symbol sym : Symbol) :
    (e.closePosition symbol).position sym = if sym = symbol then none else e.position sym := by
  rw [closePosition, position_setState]

theorem position_openPosition (e : StrategyEngine) (symbol sym : Symbol)
    (entry stop target : ℚ) (shares : ℤ) (ts : Time) :
    (e.openPosition symbol entry stop target shares ts).position sym =
      if sym = symbol then
        some ⟨symbol, .of entry, .of stop, .of target, shares, ts, .of entry⟩
      else e.position sym := by
  rw [openPosition, position_setState]

end StrategyEngine

/-! ## What one bar can do -/

variable {cfg : Config} {bar : BarTick} {scan : ScanResult} {l2 : L2Signal} {spread : ℚ}
  {state : MarketState}

variable (cfg bar scan l2 spread state) in
/-- Out of a position, `on_bar` emits nothing, one entry for the bar's symbol, or a warning. -/
theorem SymbolState.entrySignals_cases (s : SymbolState) (macdPt : Option MacdPoint)
    (ema9 vwap : Option ℚ) :
    s.entrySignals cfg bar scan l2 spread state macdPt ema9 vwap = []
      ∨ (∃ sig : EntrySignal, sig.symbol = bar.symbol
          ∧ s.entrySignals cfg bar scan l2 spread state macdPt ema9 vwap = [.entry sig])
      ∨ ∃ f, s.entrySignals cfg bar scan l2 spread state macdPt ema9 vwap
          = [.failedPattern f] := by
  unfold SymbolState.entrySignals
  dsimp only
  split
  · exact Or.inl rfl
  · split
    · exact Or.inr (Or.inl ⟨_, rfl, rfl⟩)
    · split
      · exact Or.inl rfl
      · exact Or.inr (Or.inr ⟨_, rfl⟩)

variable (cfg bar scan l2 spread state) in
/-- **Everything one bar can do to a position, and the signals it emits for it.** -/
theorem SymbolState.onBar_cases (s : SymbolState) :
    -- the position is kept (its watermark may rise) and nothing is emitted
    ((s.onBar cfg bar scan l2 spread state).2 = []
      ∧ ((s.onBar cfg bar scan l2 spread state).1.position = s.position
        ∨ ∃ p, s.position = some p
          ∧ (s.onBar cfg bar scan l2 spread state).1.position = some (p.mark bar.close)))
    -- out of a position: an entry or a warning, and still no position
    ∨ (s.position = none ∧ (s.onBar cfg bar scan l2 spread state).1.position = none
      ∧ ((∃ sig : EntrySignal, sig.symbol = bar.symbol
          ∧ (s.onBar cfg bar scan l2 spread state).2 = [.entry sig])
        ∨ ∃ f, (s.onBar cfg bar scan l2 spread state).2 = [.failedPattern f]))
    -- in a position: a full exit clears it
    ∨ (∃ p sig, s.position = some p ∧ sig.symbol = p.symbol ∧ sig.action = .fullExit
      ∧ (s.onBar cfg bar scan l2 spread state).1.position = none
      ∧ (s.onBar cfg bar scan l2 spread state).2 = [.exit sig])
    -- in a position: a scale-out keeps it and asks for the breakeven stop
    ∨ (∃ p sig, s.position = some p ∧ sig.symbol = p.symbol ∧ sig.action = .partialScale
      ∧ sig.newStop = some p.entryPrice
      ∧ (s.onBar cfg bar scan l2 spread state).1.position = some (p.mark bar.close)
      ∧ (s.onBar cfg bar scan l2 spread state).2 = [.exit sig]) := by
  have hread : (s.readBar bar).1.position = s.position := rfl
  unfold SymbolState.onBar
  generalize s.readBar bar = r at hread
  obtain ⟨s', macdPt, ema9, vwap⟩ := r
  dsimp only at hread ⊢
  rw [← hread]
  by_cases h1 : bar.timeframe = "1m"
  · rw [if_pos h1]
    cases hp : s'.position with
    | some p =>
        dsimp only
        generalize hev : evaluateExit cfg (p.mark bar.close) _ = ev
        cases ev with
        | none => exact Or.inl ⟨rfl, Or.inr ⟨p, rfl, rfl⟩⟩
        | some sig =>
            rcases evaluateExit_cases hev with ⟨r, rfl⟩ | rfl
            · refine Or.inr (Or.inr (Or.inl ⟨p, _, rfl, ?_, rfl, rfl, rfl⟩))
              simp [fullExit]
            · refine Or.inr (Or.inr (Or.inr ⟨p, _, rfl, ?_, rfl, ?_, rfl, rfl⟩))
              · simp [scaleOut]
              · simp [scaleOut]
    | none =>
        dsimp only
        generalize hs : SymbolState.entrySignals cfg _ bar scan l2 spread state macdPt ema9 vwap
          = sigs
        have hcases := SymbolState.entrySignals_cases cfg bar scan l2 spread state
          { s' with barsOneMin := pushWindow 50 s'.barsOneMin bar } macdPt ema9 vwap
        rw [hp, hs] at hcases
        rcases hcases with h | ⟨sig, hsym, h⟩ | ⟨f, h⟩
        · exact Or.inl ⟨h, Or.inl rfl⟩
        · exact Or.inr (Or.inl ⟨rfl, rfl, Or.inl ⟨sig, hsym, h⟩⟩)
        · exact Or.inr (Or.inl ⟨rfl, rfl, Or.inr ⟨f, h⟩⟩)
  · rw [if_neg h1]
    split
    · exact Or.inl ⟨rfl, Or.inl rfl⟩
    · exact Or.inl ⟨rfl, Or.inl rfl⟩

/-- A bar opens no position in the engine. -/
theorem position_onBar_none {e : StrategyEngine} {s : Symbol} (cfg : Config) (bar : BarTick)
    (scan : ScanResult) (l2 : L2Signal) (spread : ℚ) (state : MarketState)
    (h : e.position s = none) : (e.onBar cfg bar scan l2 spread state).1.position s = none := by
  unfold StrategyEngine.onBar
  rw [StrategyEngine.position_setState]
  split
  · rename_i hsym
    subst hsym
    have hpos : (e bar.symbol).position = none := h
    rcases SymbolState.onBar_cases cfg bar scan l2 spread state (e bar.symbol) with
      ⟨-, hk | ⟨p, hp, -⟩⟩ | ⟨-, hn, -⟩ | ⟨p, -, hp, -⟩ | ⟨p, -, hp, -⟩
    · exact hk.trans hpos
    · exact absurd (hpos.symm.trans hp) (by simp)
    · exact hn
    · exact absurd (hpos.symm.trans hp) (by simp)
    · exact absurd (hpos.symm.trans hp) (by simp)
  · exact h

end RossBot
