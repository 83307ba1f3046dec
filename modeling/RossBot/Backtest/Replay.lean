import RossBot.Backtest.FillModel
import RossBot.Backtest.Models
import RossBot.Lib.Runs
import RossBot.Risk.Manager
import RossBot.Strategy.Engine

/-!
# The replay loop

`core/backtest/replay.py`. `replay` is a fold: `onEvent` is the body of its loop,
on the loop's own variables, and `flush` is what follows the loop. `current_day`
is the date of `sim_day`, which the source always sets together with it.

`log` is not part of the program: it records what happened, and no branch reads
it. Neither is anything else in `ReplayEvent`.
-/

namespace RossBot

open Lib

/-- `ReplayBar`. `utcOffset` belongs to `bar.ts`: the clock the timestamp is written in. -/
structure ReplayBar where
  bar : BarTick
  utcOffset : ℚ
  scanResult : ScanResult
  l2Signal : L2Signal
  spread : ℚ
  marketState : MarketState
  accountEquity : ℚ
  liquidityCapShares : Option ℤ
  catalystSkip : Bool

/-- `bar.ts`. -/
def ReplayBar.ts (e : ReplayBar) : Stamp := ⟨e.bar.ts, e.utcOffset⟩

/-- `bar.ts.date()`. -/
def ReplayBar.date (e : ReplayBar) : ℤ := e.ts.date

/-- The symbol of the bar. -/
def ReplayBar.symbol (e : ReplayBar) : Symbol := e.bar.symbol

/-- `_OpenPosition`. Stop and target come from an `EntrySignal` (or, for a moved stop, from an
`ExitSignal`), so they are `Money`; the entry price is the fill, and is not quantized. -/
structure OpenPosition where
  symbol : Symbol
  entryTs : Stamp
  entryPrice : ℚ
  stopPrice : Money
  targetPrice : Money
  shares : ℤ
  riskPerShare : ℚ
  entryFees : ℚ

/-- `high_watermark`: the entry price, and never raised. -/
def OpenPosition.highWatermark (p : OpenPosition) : ℚ := p.entryPrice

/-- `as_snapshot`. -/
def OpenPosition.asSnapshot (p : OpenPosition) : PositionSnapshot where
  symbol := p.symbol
  entryPrice := .of p.entryPrice
  currentStop := .of p.stopPrice.val
  targetPrice := .of p.targetPrice.val
  shares := p.shares
  entryTs := p.entryTs.instant
  highWatermark := .of p.highWatermark

/-- What a run of `replay` is given besides the events: the configuration, the seed, and what
the interpreter and its library supply (Eastern Time, the generator, `hash` on strings). -/
structure Backtest where
  cfg : Config
  seed : ℤ
  /-- `et_time`, in seconds since midnight. -/
  timeOfDay : Time → ℚ
  /-- `to_et(dt).weekday()`. -/
  dayOfWeek : Time → ℕ
  /-- `random.Random(seed).random()`. -/
  rng : ℤ → ℚ
  /-- `hash`, salted for each process. -/
  hash : Symbol → ℤ

/-- `seed ^ (hash(symbol) & 0xFFFF) ^ (int(ts.timestamp()) & 0xFFFF)`, given `hash(symbol)`. -/
def Backtest.mixSeed (env : Backtest) (hash : ℤ) (ts : Time) : ℤ :=
  Int.xor (Int.xor env.seed (Int.land hash 65535)) (Int.land (roundDown ts) 65535)

/-- The seed of the fill of an entry on a bar. -/
def Backtest.fillSeed (env : Backtest) (e : ReplayBar) : ℤ :=
  env.mixSeed (env.hash e.symbol) e.bar.ts

/-- What the log records. -/
inductive ReplayEvent where
  /-- The loop took up an event. -/
  | arrived (e : ReplayBar)
  /-- A `SimDay` was finalised; the state of the risk manager then. -/
  | finalised (day : SimDay) (risk : RiskState)
  /-- A `SimDay` was begun. -/
  | dayStarted (date : ℤ)
  /-- A bar was handed to the strategy engine; the state its symbol had there. -/
  | handed (e : ReplayBar) (state : SymbolState)
  /-- A position was opened; the size the risk manager had approved. -/
  | opened (e : ReplayBar) (pos : OpenPosition) (approved : ℤ)
  /-- A position was closed. -/
  | closed (e : ReplayBar) (pos : OpenPosition) (trade : TradeRecord)

/-- The variables of `replay`. -/
structure Replay where
  engine : StrategyEngine
  risk : RiskState
  days : List SimDay
  simDay : Option SimDay
  openPos : Option OpenPosition
  prevClose : Option Money
  log : List ReplayEvent

/-- The variables before the loop. -/
def Replay.start : Replay where
  engine := .new
  risk := .fresh
  days := []
  simDay := none
  openPos := none
  prevClose := none
  log := []

/-! ## Trade records -/

/-- `_veto_record`. -/
def vetoRecord (signal : EntrySignal) (e : ReplayBar) (vetoes : List VetoReason) :
    TradeRecord where
  symbol := signal.symbol
  entryTs := e.ts
  exitTs := e.ts
  entryPrice := signal.entryPrice.val
  exitPrice := signal.entryPrice.val
  shares := 0
  grossPnl := 0
  fees := 0
  netPnl := 0
  rMultiple := 0
  holdSeconds := 0
  exitReason := .vetoed
  riskPerShare := signal.riskPerShare
  vetoed := true
  vetoReasons := vetoes
  ruleViolation := false

/-- The record `_complete_trade` builds. -/
def tradeRecord (pos : OpenPosition) (e : ReplayBar) (exitPrice exitFees : ℚ)
    (exitReason : TradeExit) : TradeRecord :=
  let grossPnl := (exitPrice - pos.entryPrice) * (pos.shares : ℚ)
  let totalFees := pos.entryFees + exitFees
  let netPnl := grossPnl - totalFees
  { symbol := pos.symbol
    entryTs := pos.entryTs
    exitTs := e.ts
    entryPrice := pos.entryPrice
    exitPrice := exitPrice
    shares := pos.shares
    grossPnl := grossPnl
    fees := totalFees
    netPnl := netPnl
    rMultiple :=
      -- a position without risk, or without shares, has no R
      if 0 < pos.riskPerShare ∧ 0 < pos.shares then netPnl / (pos.riskPerShare * (pos.shares : ℚ))
      else 0
    holdSeconds := e.bar.ts - pos.entryTs.instant
    exitReason := exitReason
    riskPerShare := pos.riskPerShare
    vetoed := false
    vetoReasons := []
    ruleViolation := false }

namespace Replay

/-- `current_day`. -/
def currentDay (s : Replay) : Option ℤ := s.simDay.map (·.date)

/-- `_complete_trade`, and what each of its callers does with the record: it is appended to
`sim_day`, and `open_pos` is cleared. -/
def completeTrade (env : Backtest) (s : Replay) (pos : OpenPosition) (e : ReplayBar)
    (exitPrice exitFees : ℚ) (exitReason : TradeExit) : Replay :=
  let trade := tradeRecord pos e exitPrice exitFees exitReason
  { s with
    risk := s.risk.recordClose env.cfg pos.symbol trade.netPnl
    engine := s.engine.closePosition pos.symbol
    simDay := s.simDay.map (·.append trade)
    openPos := none
    log := s.log ++ [.closed e pos trade] }

/-- `_stop_exit`. -/
def stopExit (env : Backtest) (s : Replay) (pos : OpenPosition) (e : ReplayBar) : Replay :=
  let fill := exitFillStop pos.stopPrice.val e.bar.low.val pos.shares
  s.completeTrade env pos e fill.fillPrice fill.fees (.signal .hardStop)

/-- `_target_exit`. -/
def targetExit (env : Backtest) (s : Replay) (reason : ExitReason) (pos : OpenPosition)
    (e : ReplayBar) : Replay :=
  let fill := exitFillTarget e.bar.close.val pos.shares
  s.completeTrade env pos e fill.fillPrice fill.fees (.signal reason)

/-- `_eod_flatten`. -/
def eodFlatten (env : Backtest) (s : Replay) (pos : OpenPosition) (e : ReplayBar) : Replay :=
  let fill := exitFillTarget e.bar.close.val pos.shares
  s.completeTrade env pos e fill.fillPrice fill.fees .eodFlatten

/-! ## The body of the loop -/

/-- The `_eod_flatten` of a position that is still open, at a day boundary or after the loop. -/
def flattenResidual (env : Backtest) (s : Replay) (e : ReplayBar) : Replay :=
  -- without a day there is nothing to book the trade on
  match s.openPos, s.simDay with
  | some pos, some _ => s.eodFlatten env pos e
  | _, _ => s

/-- `_finalise_day(sim_day)`, then `result.days.append(sim_day)`. -/
def finaliseSimDay (s : Replay) : Replay :=
  match s.simDay with
  | none => s
  | some day =>
      { s with
        simDay := some (finaliseDay day)
        days := s.days ++ [finaliseDay day]
        log := s.log ++ [.finalised (finaliseDay day) s.risk] }

/-- The new `SimDay`, and both `reset_session` calls. -/
def startDay (s : Replay) (e : ReplayBar) : Replay :=
  { s with
    simDay := some (.new e.date)
    risk := .fresh
    engine := s.engine.resetSession e.symbol
      -- before the first day has closed there is no previous close, and the open stands in
      (match s.prevClose with
        | some c => c.val
        | none => e.bar.openPrice.val)
    log := s.log ++ [.dayStarted e.date] }

/-- The day boundary. -/
def rollover (env : Backtest) (s : Replay) (e : ReplayBar) : Replay :=
  if s.currentDay = some e.date then s
  else ((s.flattenResidual env e).finaliseSimDay).startDay e

/-- U3, then U13: the state after the exit, if one of them closed the position on this bar. -/
def exitCheck (env : Backtest) (s : Replay) (e : ReplayBar) : Option Replay :=
  match s.openPos with
  | none => none
  | some pos =>
      -- the flatten is looked at first, and the stop not at all then
      if shouldFlattenEod (env.timeOfDay e.bar.ts) env.cfg then some (s.eodFlatten env pos e)
      else if RiskState.checkMentalStop e.bar.low.val pos.asSnapshot then
        some (s.stopExit env pos e)
      else none

/-- `engine.on_bar`: the state after it and the signals. -/
def handBar (env : Backtest) (s : Replay) (e : ReplayBar) : Replay × List Signal :=
  let r := s.engine.onBar env.cfg e.bar e.scanResult e.l2Signal e.spread e.marketState
  ({ s with engine := r.1, log := s.log ++ [.handed e (s.engine e.symbol)] }, r.2)

/-- `risk_mgr.evaluate`. -/
def approval (env : Backtest) (s : Replay) (e : ReplayBar) (signal : EntrySignal) :
    TradeApproval :=
  s.risk.evaluate env.cfg signal (env.timeOfDay e.bar.ts) (env.dayOfWeek e.bar.ts)
    e.accountEquity e.liquidityCapShares e.catalystSkip

/-- A vetoed entry is recorded. -/
def veto (s : Replay) (e : ReplayBar) (signal : EntrySignal) (vetoes : List VetoReason) :
    Replay :=
  { s with simDay := s.simDay.map (·.append (vetoRecord signal e vetoes)) }

/-- The position an approved entry becomes. -/
def filledPosition (env : Backtest) (e : ReplayBar) (signal : EntrySignal) (shares : ℤ) :
    OpenPosition :=
  let fill := entryFill env.rng signal.entryPrice.val env.cfg.buyOffset shares
    (some (env.fillSeed e))
  { symbol := e.symbol
    entryTs := e.ts
    entryPrice := fill.fillPrice
    stopPrice := signal.stopPrice
    targetPrice := signal.targetPrice
    shares := fill.fillShares
    riskPerShare := signal.riskPerShare
    entryFees := fill.fees }

/-- An approved entry is filled and recorded everywhere. -/
def openPosition (env : Backtest) (s : Replay) (e : ReplayBar) (signal : EntrySignal)
    (shares : ℤ) : Replay :=
  let pos := filledPosition env e signal shares
  { s with
    risk := s.risk.recordOpen e.symbol pos.entryPrice
    engine := s.engine.openPosition e.symbol pos.entryPrice signal.stopPrice.val
      signal.targetPrice.val pos.shares e.bar.ts
    openPos := some pos
    log := s.log ++ [.opened e pos shares] }

/-- A scale-out moves the stop, if it names one that is not zero. -/
def scaleOut (s : Replay) (e : ReplayBar) (pos : OpenPosition) (newStop : Option Money) :
    Replay :=
  match newStop with
  | none => s
  | some stop =>
      -- `signal.new_stop` is false for a stop of zero too
      if stop.val = 0 then s
      else
        { s with
          openPos := some { pos with stopPrice := stop }
          engine := s.engine.updateStop e.symbol stop.val }

/-- The loop over the signals of a bar; an entry that is filled and a full exit break out. -/
def handleSignals (env : Backtest) (e : ReplayBar) : Replay → List Signal → Replay
  | s, [] => s
  | s, .entry signal :: rest =>
      match s.openPos with
      -- no second entry while one position is open
      | some _ => handleSignals env e s rest
      | none =>
          let approval := s.approval env e signal
          if approval.approved then s.openPosition env e signal approval.shares
          else handleSignals env e (s.veto e signal approval.vetoes) rest
  | s, .exit signal :: rest =>
      -- an exit after the position is closed is passed over
      match s.openPos with
      | none => handleSignals env e s rest
      | some pos =>
          match signal.action with
          | .fullExit => s.targetExit env signal.reason pos e
          | .partialScale => handleSignals env e (s.scaleOut e pos signal.newStop) rest
  | s, .failedPattern _ :: rest => handleSignals env e s rest

/-- One bar, once the day is right: the exit checks, or else the strategy. -/
def onBar (env : Backtest) (s : Replay) (e : ReplayBar) : Replay :=
  match s.exitCheck env e with
  | some exited => exited
  | none => handleSignals env e (s.handBar env e).1 (s.handBar env e).2

/-- The log takes note of the event. -/
def arrive (s : Replay) (e : ReplayBar) : Replay := { s with log := s.log ++ [.arrived e] }

/-- The body of the loop. -/
def onEvent (env : Backtest) (s : Replay) (e : ReplayBar) : Replay :=
  { ((s.arrive e).rollover env e).onBar env e with prevClose := some e.bar.close }

/-- What follows the loop, given the last event. -/
def flush (env : Backtest) (s : Replay) (last : Option ReplayBar) : Replay :=
  match last with
  | none => s.finaliseSimDay
  | some e => (s.flattenResidual env e).finaliseSimDay

end Replay

/-- The state when the loop is done. -/
def replayLoop (env : Backtest) (events : List ReplayBar) : Replay :=
  events.foldl (Replay.onEvent env) .start

/-- The moves of the loop. -/
def replayMoves (env : Backtest) (events : List ReplayBar) : List (Move Replay ReplayBar) :=
  trace (Replay.onEvent env) .start events

/-- The state at the end. -/
def replayEnd (env : Backtest) (events : List ReplayBar) : Replay :=
  (replayLoop env events).flush env events.getLast?

/-- `replay`. -/
def replay (env : Backtest) (events : List ReplayBar) : BacktestResult :=
  ⟨(replayEnd env events).days⟩

/-! ## A replayed day

The replays that single out one behaviour in the modules that follow begin alike: a quiet half
hour, a surge, a pullback, and the breakout that is bought. -/

/-- The shipped configuration and seed. New York is five hours behind; nothing is ever partly
filled. -/
def replayDay : Backtest where
  cfg := Config.defaults
  seed := 42
  timeOfDay := fun t => (t - 18000) - 86400 * ⌊(t - 18000) / 86400⌋
  dayOfWeek := fun t => ((⌊(t - 18000) / 86400⌋ + 3) % 7).toNat
  rng := fun _ => 1 / 2
  hash := fun _ => 0

/-- A one-minute bar of a prime symbol in a hot market, prices in cents, stamped in UTC. -/
def candle (symbol : Symbol) (ts : Time) (o h l c : ℤ) (volume : ℕ) : ReplayBar where
  bar := ⟨symbol, ts, "1m", cents o, cents h, cents l, cents c, volume⟩
  utcOffset := 0
  scanResult := ⟨⟨some (.of 20), some 4000000, false⟩, true, .prime⟩
  l2Signal := .support
  spread := 5 / 100
  marketState := .hot
  accountEquity := 50000
  liquidityCapShares := none
  catalystSkip := false

/-- Half an hour at ten dollars, up to 10.40, back to 10.30. -/
def quietHalfHour : List ReplayBar :=
  (List.range 30).map (fun i => candle "TEST" (openingBell + 60 * i) 1000 1000 1000 1000 1000)
  ++ [candle "TEST" (openingBell + 60 * 30) 1000 1020 1000 1020 3000,
    candle "TEST" (openingBell + 60 * 31) 1020 1040 1020 1040 3000,
    candle "TEST" (openingBell + 60 * 32) 1040 1040 1028 1030 1000]

/-- The breakout to 10.45 is bought at 10.51, with the stop at 10.28. -/
def breakoutBar : ReplayBar := candle "TEST" (openingBell + 60 * 33) 1030 1046 1030 1045 3000

end RossBot
