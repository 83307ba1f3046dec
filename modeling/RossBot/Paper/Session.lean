import RossBot.Live.Session

/-!
# The paper session and its three tasks

`core/backtest/paper_session.py`. `PaperSession.run` starts a bar loop, a
mental-stop loop and an EOD loop: no reconciliation, no watchdog, no ramp and no
backstop. One step of the model is again what a task does between two `await`s,
and a broker call is answered in one step and seen by the task in a later one.

The live session reads one clock, `now_utc()`. This one reads `datetime.now()`,
and hands it to code that takes aware datetimes only, so a datetime is modelled
here with its missing offset.
-/

namespace RossBot.Paper

open Lib

/-- What a session is run with: configuration, scan results, and the outside
facts that stay fixed for the day. -/
structure Env where
  cfg : Config
  /-- The symbols subscribed to. -/
  symbols : List Symbol
  /-- `scan_results.get(symbol)`. -/
  scanResults : Symbol → Option ScanResult
  /-- `(l2_signals or {}).get(symbol, L2Signal.UNKNOWN)`. -/
  l2Signals : Symbol → L2Signal
  marketState : MarketState
  /-- `account.equity` at the start. -/
  equity : ℚ
  /-- Seconds since midnight in New York. -/
  timeOfDay : Time → ℚ
  /-- `to_et(..).weekday()`. -/
  dayOfWeek : Time → ℕ
  /-- The machine's own offset from UTC. -/
  localOffset : Time → ℚ
  startTime : Time

/-! ## Datetimes -/

/-- `datetime`: what its clock shows and, when it is tz-aware, that clock's offset from UTC. -/
structure DateTime where
  wall : Time
  utcOffset : Option ℚ

/-- `datetime.now()`. -/
def DateTime.now (env : Env) (t : Time) : DateTime := ⟨t + env.localOffset t, none⟩

/-- `now_utc()`. -/
def DateTime.nowUtc (t : Time) : DateTime := ⟨t, some 0⟩

/-- `et_time`. The error is the `ValueError` of `to_et`. -/
def etTime (env : Env) (dt : DateTime) : Except String ℚ :=
  match dt.utcOffset with
  | none => .error "naive datetime is not allowed; all times must be tz-aware"
  | some offset => .ok (env.timeOfDay (dt.wall - offset))

/-- `RiskManager.should_flatten_eod`. -/
def riskShouldFlattenEod (env : Env) (nowEt : DateTime) : Except String Bool :=
  (etTime env nowEt).map fun t => shouldFlattenEod t env.cfg

/-! ## Suspended tasks -/

/-- `_LivePosition`. Nothing changes it once it is in `_open`. -/
structure LivePosition where
  symbol : Symbol
  entryTs : Time
  entryPrice : ℚ
  stopPrice : Money
  targetPrice : Money
  shares : ℤ
  riskPerShare : ℚ
  brokerOrderId : Option String

/-- The snapshot the mental-stop loop builds; its watermark is the entry price. -/
def LivePosition.snapshot (p : LivePosition) : PositionSnapshot where
  symbol := p.symbol
  entryPrice := .of p.entryPrice
  currentStop := .of p.stopPrice.val
  targetPrice := .of p.targetPrice.val
  shares := p.shares
  entryTs := p.entryTs
  highWatermark := .of p.entryPrice

/-- A BUY on its way, with what `_handle_entry` needs when the answer comes. -/
structure EntryOrder where
  signal : EntrySignal
  bar : BarTick
  shares : ℤ
  limit : ℚ

/-- A SELL on its way. -/
structure SellOrder where
  symbol : Symbol
  pos : LivePosition
  limit : ℚ

/-- Where `_bar_loop` is suspended. -/
inductive BarTask where
  | awaitBar
  | awaitQuote (bar : BarTick) (scan : ScanResult) (l2 : L2Signal)
  | awaitEntryAck (order : EntryOrder) (rest : List Signal) (call : Call OrderAck)
  | awaitExitAck (order : SellOrder) (bar : BarTick) (rest : List Signal) (call : Call OrderAck)
  | ended
  /-- An exception ended the task; nobody looks until the session is over. -/
  | raised

/-- Where `_mental_stop_loop` is suspended; `rest` is what is left of the iteration. -/
inductive StopTask where
  | sleeping (due : Time)
  | awaitQuote (symbol : Symbol) (pos : LivePosition) (rest : List (Symbol × LivePosition))
  | awaitSellAck (order : SellOrder) (rest : List (Symbol × LivePosition)) (call : Call OrderAck)
  | ended

/-- Where `_eod_flatten_loop` is suspended. -/
inductive EodTask where
  | sleeping (due : Time)
  | awaitFlatten (call : Call (List OrderAck))
  | ended
  | raised

/-! ## The state -/

/-- The session and its tasks. -/
structure World where
  /-- `_open`. -/
  opens : Dict Symbol LivePosition
  /-- `_engine`. -/
  engine : StrategyEngine
  /-- `_risk`. -/
  risk : RiskState
  /-- `_stop_event`. -/
  stopEvent : Bool
  barTask : BarTask
  stopTask : StopTask
  eodTask : EodTask
  /-- `run` has cancelled its tasks. -/
  cancelled : Bool
  clock : Time

namespace World

/-- The mental-stop loop goes back to sleep. -/
def stopLoop (w : World) : StopTask :=
  if w.stopEvent then .ended else .sleeping (w.clock + 500 / 1000)

/-- The EOD loop goes back to sleep. -/
def eodLoop (w : World) : EodTask :=
  if w.stopEvent then .ended else .sleeping (w.clock + 10)

/-! ## Closing positions -/

/-- `self._risk.record_close(symbol, Decimal("0")); self._engine.close_position(symbol)`. -/
def recordClose (env : Env) (w : World) (symbol : Symbol) : World :=
  { w with
    risk := RiskState.recordClose env.cfg w.risk symbol 0
    engine := w.engine.closePosition symbol }

/-- `del self._open[symbol]`; `none` is the `KeyError`. -/
def remove (w : World) (symbol : Symbol) : Option World :=
  if w.opens.contains symbol then some { w with opens := w.opens.erase symbol } else none

/-- Record every tracked position closed, then `self._open.clear()`. -/
def closeAll (env : Env) (w : World) : World :=
  { w.opens.keys.foldl (recordClose env) w with opens := ∅ }

/-! ## The bar loop -/

/-- The veto gate, sizing and limit price of `_handle_entry`; `none` when no order is sent. -/
def entryOrder (env : Env) (w : World) (sig : EntrySignal) (bar : BarTick) : Option EntryOrder :=
  let approval := w.risk.evaluate env.cfg sig (env.timeOfDay bar.ts) (env.dayOfWeek bar.ts)
    env.equity none false
  if !approval.approved then none
  else
    some
      { signal := sig, bar := bar, shares := approval.shares,
        limit := sig.entryPrice.val + env.cfg.buyOffset }

/-- `for sig in signals`, up to the first broker call. -/
def runSignals (env : Env) (bar : BarTick) : List Signal → World → World
  | [], w => { w with barTask := .awaitBar }
  | .entry sig :: rest, w =>
      if w.opens.contains bar.symbol then runSignals env bar rest w
      else
        match w.entryOrder env sig bar with
        | none => runSignals env bar rest w
        | some order => { w with barTask := .awaitEntryAck order rest .sent }
  | .exit sig :: rest, w =>
      if w.opens.contains bar.symbol then
        match sig.action with
        | .fullExit =>
            -- `_handle_exit`
            match w.opens.get? sig.symbol with
            | none => runSignals env bar rest w
            | some pos =>
                { w with
                  barTask := .awaitExitAck ⟨sig.symbol, pos, bar.close.val⟩ bar rest .sent }
        | .partialScale => runSignals env bar rest w
      else runSignals env bar rest w
  | .failedPattern _ :: rest, w => runSignals env bar rest w

/-- A bar comes out of the feed. -/
def takeBar (env : Env) (bar : BarTick) (w : World) : Option World :=
  match w.barTask with
  | .awaitBar =>
      if w.stopEvent then some { w with barTask := .ended }
      else
        match env.scanResults bar.symbol with
        | none => some w
        | some scan => some { w with barTask := .awaitQuote bar scan (env.l2Signals bar.symbol) }
  | _ => none

/-- The feed is exhausted, or raises. -/
def feedEnds (raises : Bool) (w : World) : Option World :=
  match w.barTask with
  | .awaitBar => some { w with barTask := if raises then .raised else .ended }
  | _ => none

/-- `get_quote` returns to the bar loop. -/
def barQuote (env : Env) (quote : Option QuoteTick) (w : World) : Option World :=
  match w.barTask with
  | .awaitQuote bar scan l2 =>
      match quote with
      | none => some { w with barTask := .raised }
      | some q =>
          let r := w.engine.onBar env.cfg bar scan l2 (q.ask.val - q.bid.val) env.marketState
          some (runSignals env bar r.2 { w with engine := r.1 })
  | _ => none

/-- An accepted entry: `record_open`, `open_position`, and the new `_LivePosition`. -/
def openPosition (w : World) (o : EntryOrder) (ack : OrderAck) : World :=
  let sym := o.signal.symbol
  { w with
    risk := w.risk.recordOpen sym o.limit
    engine := w.engine.openPosition sym o.limit o.signal.stopPrice.val o.signal.targetPrice.val
      o.shares o.bar.ts
    opens := w.opens.set sym
      { symbol := sym
        entryTs := o.bar.ts
        entryPrice := o.limit
        stopPrice := o.signal.stopPrice
        targetPrice := o.signal.targetPrice
        shares := o.shares
        riskPerShare := o.signal.riskPerShare
        brokerOrderId := ack.brokerOrderId } }

/-- The bar loop resumes with the broker's answer. -/
def barResume (env : Env) (w : World) : Option World :=
  match w.barTask with
  | .awaitEntryAck order rest (.answered reply) =>
      match reply with
      | none => some { w with barTask := .raised }
      | some ack =>
          if ack.accepted then some (runSignals env order.bar rest (w.openPosition order ack))
          else some (runSignals env order.bar rest w)
  | .awaitExitAck order bar rest (.answered reply) =>
      match reply with
      | none => some { w with barTask := .raised }
      | some ack =>
          if ack.accepted then
            let w := w.recordClose env order.symbol
            match w.remove order.symbol with
            | none => some { w with barTask := .raised }
            | some w => some (runSignals env bar rest w)
          else some (runSignals env bar rest w)
  | _ => none

/-! ## The mental-stop loop -/

/-- On to the next position of the iteration, or back to sleep. -/
def nextStop : List (Symbol × LivePosition) → World → World
  | [], w => { w with stopTask := w.stopLoop }
  | (symbol, pos) :: rest, w => { w with stopTask := .awaitQuote symbol pos rest }

/-- A poll iteration begins. -/
def stopWake (w : World) : Option World :=
  match w.stopTask with
  | .sleeping due => if w.clock < due then none else some (nextStop w.opens.items w)
  | _ => none

/-- The SELL of a position whose stop fires at this bid. -/
def stopOrder (symbol : Symbol) (pos : LivePosition) (bid : ℚ) : SellOrder :=
  ⟨symbol, pos, max (bid - mentalStopLatencySlip) (1 / 100)⟩

/-- `get_quote` returns to the stop loop; an exception skips the position. -/
def stopQuote (quote : Option QuoteTick) (w : World) : Option World :=
  match w.stopTask with
  | .awaitQuote symbol pos rest =>
      match quote with
      | none => some (nextStop rest w)
      | some q =>
          if RiskState.checkMentalStop q.bid.val pos.snapshot then
            some { w with stopTask := .awaitSellAck (stopOrder symbol pos q.bid.val) rest .sent }
          else some (nextStop rest w)
  | _ => none

/-- The stop loop resumes with the broker's answer. It does not look at it, unless the call
raised; that, and the `KeyError`, is caught. -/
def stopResume (env : Env) (w : World) : Option World :=
  match w.stopTask with
  | .awaitSellAck order rest (.answered reply) =>
      match reply with
      | none => some (nextStop rest w)
      | some _ =>
          let w := w.recordClose env order.symbol
          match w.remove order.symbol with
          | none => some (nextStop rest w)
          | some w => some (nextStop rest w)
  | _ => none

/-! ## The EOD loop -/

/-- The body of the EOD loop up to its broker call, at the time it reads. -/
def eodWakeAt (env : Env) (now : DateTime) (w : World) : World :=
  match riskShouldFlattenEod env now with
  | .error _ => { w with eodTask := .raised }
  | .ok flatten =>
      if flatten ∧ w.opens.items ≠ [] then { w with eodTask := .awaitFlatten .sent }
      else { w with eodTask := w.eodLoop }

/-- The EOD loop wakes. -/
def eodWake (env : Env) (w : World) : Option World :=
  match w.eodTask with
  | .sleeping due =>
      if w.clock < due then none else some (eodWakeAt env (.now env w.clock) w)
  | _ => none

/-- The flatten answer reaches the EOD loop. -/
def eodResume (env : Env) (w : World) : Option World :=
  match w.eodTask with
  | .awaitFlatten (.answered reply) =>
      match reply with
      | none => some { w with eodTask := .raised }
      | some _ => some { closeAll env w with stopEvent := true, eodTask := .ended }
  | _ => none

/-! ## The outside -/

/-- The broker answers the bar loop's order. -/
def barAnswer (reply : Option OrderAck) (w : World) : Option World :=
  match w.barTask with
  | .awaitEntryAck order rest .sent =>
      some { w with barTask := .awaitEntryAck order rest (.answered reply) }
  | .awaitExitAck order bar rest .sent =>
      some { w with barTask := .awaitExitAck order bar rest (.answered reply) }
  | _ => none

/-- The broker answers the stop loop's order. -/
def stopAnswer (reply : Option OrderAck) (w : World) : Option World :=
  match w.stopTask with
  | .awaitSellAck order rest .sent =>
      some { w with stopTask := .awaitSellAck order rest (.answered reply) }
  | _ => none

/-- The broker answers the flatten. -/
def eodAnswer (reply : Option (List OrderAck)) (w : World) : Option World :=
  match w.eodTask with
  | .awaitFlatten .sent => some { w with eodTask := .awaitFlatten (.answered reply) }
  | _ => none

/-- `run`, before the first task is suspended for the second time. -/
def init (env : Env) : World where
  opens := ∅
  engine := env.symbols.foldl (fun e s => e.resetSession s 0) .new
  risk := .fresh
  stopEvent := false
  barTask := .awaitBar
  stopTask := .sleeping (env.startTime + 500 / 1000)
  eodTask := .sleeping (env.startTime + 10)
  cancelled := false
  clock := env.startTime

end World

/-! ## One step -/

/-- What can happen next. -/
inductive Label where
  /-- Time passes. -/
  | tick (dt : ℚ)
  | takeBar (bar : BarTick)
  | feedEnds (raises : Bool)
  | barQuote (quote : Option QuoteTick)
  | barResume
  | stopWake
  | stopQuote (quote : Option QuoteTick)
  | stopResume
  | eodWake
  | eodResume
  /-- The broker answers a call. -/
  | barAnswer (reply : Option OrderAck)
  | stopAnswer (reply : Option OrderAck)
  | eodAnswer (reply : Option (List OrderAck))
  /-- `PaperSession.stop` is called from outside. -/
  | stop
  /-- `run` sees the stop event and cancels its tasks. -/
  | cancel

/-- A task takes its next segment, unless the tasks were cancelled. -/
def World.task (w : World) (f : World → Option World) : Option World :=
  if w.cancelled then none else f w

/-- One step of the session and its outside. -/
def World.step (env : Env) (w : World) : Label → Option World
  | .tick dt => if 0 ≤ dt then some { w with clock := w.clock + dt } else none
  | .takeBar bar => w.task (takeBar env bar)
  | .feedEnds raises => w.task (feedEnds raises)
  | .barQuote quote => w.task (barQuote env quote)
  | .barResume => w.task (barResume env)
  | .stopWake => w.task stopWake
  | .stopQuote quote => w.task (stopQuote quote)
  | .stopResume => w.task (stopResume env)
  | .eodWake => w.task (eodWake env)
  | .eodResume => w.task (eodResume env)
  | .barAnswer reply => w.barAnswer reply
  | .stopAnswer reply => w.stopAnswer reply
  | .eodAnswer reply => w.eodAnswer reply
  | .stop => some { w with stopEvent := true }
  | .cancel =>
      if w.stopEvent && !w.cancelled then some { w with cancelled := true } else none

/-- A run of the session: any interleaving of its tasks with any answers from outside. -/
abbrev PaperRun (env : Env) := Execution (World.step env) (World.init env)

end RossBot.Paper
