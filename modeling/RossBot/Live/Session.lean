import RossBot.Lib.Runs
import RossBot.Live.Models

/-!
# The live session and its five tasks

`core/live/session.py`. `LiveSession.run` starts five tasks on one event loop.
Between two `await`s a task runs alone, so one step of the model is one such
segment: a task resumes with whatever it was waiting for, runs to its next
`await`, and is suspended there. What it is suspended on is the task's value
below; the session's own fields, and the risk manager and strategy engine it
owns, are shared by all five.

A broker call is two steps. The broker *answers* it (and its own holdings change)
at some point after it was sent, and the task *resumes* with the answer at some
later point; other tasks can run before, between and after. A call that raises is
answered with `none`. Cancelling the tasks does not recall an order: a call that
was sent can still be answered.

`log` records what the session did, oldest first. No branch reads it; it is what
the properties of whole runs are stated about.
-/

namespace RossBot

open Lib

/-- What a session is run with: configuration, scan results, and the outside
facts that stay fixed for the day. -/
structure Env where
  cfg : Config
  /-- The symbols subscribed to. -/
  symbols : List Symbol
  /-- `scan_results.get(symbol)`. -/
  scanResults : Symbol → Option ScanResult
  /-- `(l2_signals or {}).get(symbol, L2Signal.UNKNOWN)`. -/
  l2Signals : Symbol → L2Signal
  marketState : MarketState
  /-- `account.equity` at the start. -/
  equity : ℚ
  /-- `isinstance(self._broker, AlpacaBrokerAdapter)`. -/
  brokerIsAlpaca : Bool
  /-- `et_time`: seconds since midnight in New York. -/
  timeOfDay : Time → ℚ
  /-- `to_et(..).weekday()`. -/
  dayOfWeek : Time → ℕ
  startTime : Time
  /-- What the broker holds when the session starts. -/
  startHoldings : Dict Symbol ℤ

/-! ## Suspended tasks -/

/-- A broker call: on its way, or answered (`none`: it raised) and not yet seen by the task. -/
inductive Call (α : Type) where
  | sent
  | answered (reply : Option α)

/-- A BUY on its way, with what `_handle_entry` needs when the answer comes. -/
structure EntryOrder where
  signal : EntrySignal
  bar : BarTick
  shares : ℤ
  limit : ℚ
  /-- The identity the position will have. -/
  ref : ℕ

/-- A SELL on its way. -/
structure SellOrder where
  symbol : Symbol
  pos : LivePosition
  limit : ℚ

/-- Where `_bar_loop` is suspended. -/
inductive BarTask where
  | awaitBar
  | awaitQuote (bar : BarTick) (scan : ScanResult) (l2 : L2Signal)
  | awaitEntryAck (order : EntryOrder) (rest : List Signal) (call : Call OrderAck)
  | awaitExitAck (order : SellOrder) (bar : BarTick) (rest : List Signal) (call : Call OrderAck)
  | ended

/-- Where `_mental_stop_loop` is suspended; `rest` is what is left of the iteration. -/
inductive StopTask where
  | sleeping (due : Time)
  | awaitQuote (symbol : Symbol) (pos : LivePosition) (rest : List (Symbol × LivePosition))
  | awaitSellAck (order : SellOrder) (rest : List (Symbol × LivePosition)) (call : Call OrderAck)
  | ended

/-- Where `_eod_flatten_loop` is suspended. -/
inductive EodTask where
  | sleeping (due : Time)
  | awaitFlatten (call : Call (List OrderAck))
  | ended

/-- Where `_reconcile_loop` is suspended. -/
inductive ReconcileTask where
  | sleeping (due : Time)
  | awaitPositions (call : Call (List PositionRow))
  | ended

/-- Where `_feed_watchdog_loop` (or the `_handle_disconnect` it called) is suspended. -/
inductive WatchdogTask where
  | sleeping (due : Time)
  | awaitFlatten (attempt : ℤ) (call : Call (List OrderAck))
  | delaying (attempt : ℤ) (due : Time)
  | ended

/-! ## The log -/

/-- The two loops that flatten. -/
inductive Flattener where
  | eod
  | watchdog
  deriving DecidableEq, Repr

/-- What the session does that its properties are about. -/
inductive Event where
  /-- The bar loop took a bar from the feed. -/
  | barArrived (bar : BarTick)
  /-- `StrategyEngine.on_bar` ran. -/
  | onBar (bar : BarTick) (signals : List Signal)
  /-- A BUY went to the broker. -/
  | buySubmitted (order : EntryOrder)
  /-- A BUY was accepted and its position is tracked. -/
  | opened (pos : LivePosition)
  /-- A SELL of a whole position went to the broker. -/
  | sellSubmitted (order : SellOrder)
  /-- The broker accepted a SELL of this position's shares. -/
  | sellAccepted (pos : LivePosition)
  /-- `cancel_all_flatten` was called. -/
  | flattenSubmitted (task : Flattener)
  /-- An accepted flatten sold what was left of a position. -/
  | flattenFilled (ref : ℕ) (qty : ℤ)
  /-- `RiskManager.record_close` was called for this position. -/
  | recordClose (pos : LivePosition)
  /-- The position left `_open`: the price it was closed at, and the risk state then. -/
  | closed (pos : LivePosition) (exit : ℚ) (after : RiskState)
  /-- A `PARTIAL_SCALE` signal with a new stop was emitted for a tracked position. -/
  | scaleSignal (pos : LivePosition) (newStop : Money)
  /-- A poll iteration of the mental-stop loop began with these positions tracked. -/
  | poll (tracked : List (Symbol × LivePosition))
  /-- The iteration reached a position (still tracked or not) and asked for its quote. -/
  | stopQuoted (pos : LivePosition) (quote : Option QuoteTick) (tracked : Bool)
  /-- The iteration ended. -/
  | pollDone
  /-- The watchdog set `_frozen`. -/
  | froze
  /-- The watchdog cleared `_frozen`. -/
  | unfroze
  /-- The broker took a position snapshot, or the call for it failed. -/
  | snapshot (ok : Bool)
  /-- The broker's holding of a symbol rose. -/
  | bought (symbol : Symbol)
  /-- The reconcile loop asked the broker for its positions. -/
  | snapshotRequested
  /-- A reconciliation against broker positions completed. -/
  | reconciled

/-- Shares of a position sold so far, by accepted orders and flattens. -/
def soldShares (ref : ℕ) : List Event → ℤ
  | [] => 0
  | .sellAccepted p :: es => (if p.ref = ref then p.shares else 0) + soldShares ref es
  | .flattenFilled r q :: es => (if r = ref then q else 0) + soldShares ref es
  | _ :: es => soldShares ref es

/-- The positions opened so far. -/
def openedPositions : List Event → List LivePosition :=
  List.filterMap fun
    | .opened p => some p
    | _ => none

/-! ## The state -/

/-- The session, its tasks, and the outside they see. -/
structure World where
  /-- `_open`. -/
  opens : Dict Symbol LivePosition
  /-- `_engine`. -/
  engine : StrategyEngine
  /-- `_risk`. -/
  risk : RiskState
  /-- `_stop_event`. -/
  stopEvent : Bool
  /-- `_frozen`. -/
  frozen : Bool
  /-- `_last_bar_ts`. -/
  lastBarTs : Option Time
  barTask : BarTask
  stopTask : StopTask
  eodTask : EodTask
  reconcileTask : ReconcileTask
  watchdogTask : WatchdogTask
  /-- `run` has cancelled its tasks. -/
  cancelled : Bool
  /-- `now_utc()`. -/
  clock : Time
  /-- Shares the broker holds. -/
  holdings : Dict Symbol ℤ
  /-- The next object identity. -/
  nextRef : ℕ
  log : List Event

namespace World

/-- `while not self._stop_event.is_set(): await asyncio.sleep(s)`, for each loop. -/
def stopLoop (env : Env) (w : World) : StopTask :=
  if w.stopEvent then .ended else .sleeping (w.clock + (env.cfg.livePollMs : ℚ) / 1000)

/-- The EOD loop goes back to sleep. -/
def eodLoop (w : World) : EodTask :=
  if w.stopEvent then .ended else .sleeping (w.clock + 10)

/-- The reconcile loop goes back to sleep. -/
def reconcileLoop (env : Env) (w : World) : ReconcileTask :=
  if w.stopEvent then .ended else .sleeping (w.clock + (env.cfg.reconcileIntervalS : ℚ))

/-- The watchdog goes back to sleep. -/
def watchdogLoop (env : Env) (w : World) : WatchdogTask :=
  if w.stopEvent then .ended
  else .sleeping (w.clock + max (env.cfg.feedStalenessSeconds / 2) 1)

/-! ## Closing positions -/

/-- `self._risk.record_close(symbol, Decimal("0")); self._engine.close_position(symbol)`. -/
def recordClose (env : Env) (w : World) (symbol : Symbol) (p : LivePosition) : World :=
  { w with
    risk := RiskState.recordClose env.cfg w.risk symbol 0
    engine := w.engine.closePosition symbol
    log := w.log ++ [.recordClose p] }

/-- `del self._open[symbol]`; `none` is the `KeyError`. -/
def remove (w : World) (symbol : Symbol) (exit : ℚ) : Option World :=
  match w.opens.get? symbol with
  | none => none
  | some p =>
      some { w with
        opens := w.opens.erase symbol
        log := w.log ++ [.closed p exit w.risk] }

/-- One pass of the flatten loops over `list(self._open.keys())`. -/
def closeOne (env : Env) (price : Symbol → ℚ) (w : World) (b : Symbol × LivePosition) : World :=
  let w := w.recordClose env b.1 b.2
  { w with log := w.log ++ [.closed b.2 (price b.1) w.risk] }

/-- Record every tracked position closed, then `self._open.clear()`. -/
def closeAll (env : Env) (price : Symbol → ℚ) (w : World) : World :=
  { w.opens.items.foldl (closeOne env price) w with opens := ∅ }

/-- One orphan of the reconcile loop. -/
def dropOrphan (env : Env) (price : Symbol → ℚ) (w : World) (b : Symbol × LivePosition) : World :=
  let w := w.recordClose env b.1 b.2
  { w with opens := w.opens.erase b.1, log := w.log ++ [.closed b.2 (price b.1) w.risk] }

/-- The body of `_reconcile_loop`: drop what the broker does not have; ghosts and
quantity mismatches are only logged. -/
def reconcileWith (env : Env) (price : Symbol → ℚ) (broker : Dict Symbol ℤ) (w : World) : World :=
  let result := reconcilePositions broker (w.opens.mapValues (·.shares))
  (w.opens.items.filter fun b => b.1 ∈ result.internalOnly).foldl (dropOrphan env price) w

/-! ## The bar loop -/

/-- The veto gate, sizing, ramp and limit price of `_handle_entry`; `none` when no order is sent. -/
def entryOrder (env : Env) (w : World) (sig : EntrySignal) (bar : BarTick) : Option EntryOrder :=
  let approval := w.risk.evaluate env.cfg sig (env.timeOfDay bar.ts) (env.dayOfWeek bar.ts)
    env.equity none false
  if !approval.approved then none
  else
    let capped := rampApply env.cfg approval.shares
    if capped ≤ 0 then none
    else some
      { signal := sig, bar := bar, shares := capped,
        limit := sig.entryPrice.val + env.cfg.buyOffset, ref := w.nextRef }


/-- `for sig in signals`, up to the first broker call. -/
def runSignals (env : Env) (bar : BarTick) : List Signal → World → World
  | [], w => { w with barTask := .awaitBar }
  | .entry sig :: rest, w =>
      -- `_handle_entry` is not reached while the symbol is tracked
      if w.opens.contains bar.symbol then runSignals env bar rest w
      else
        match w.entryOrder env sig bar with
        | none => runSignals env bar rest w
        | some order =>
            { w with
              barTask := .awaitEntryAck order rest .sent
              nextRef := w.nextRef + 1
              log := w.log ++ [.buySubmitted order] }
  | .exit sig :: rest, w =>
      match w.opens.get? bar.symbol with
      | none => runSignals env bar rest w
      | some tracked =>
          match sig.action with
          | .fullExit =>
              -- `_handle_exit`
              match w.opens.get? sig.symbol with
              | none => runSignals env bar rest w
              | some pos =>
                  let order : SellOrder := ⟨sig.symbol, pos, bar.close.val⟩
                  { w with
                    barTask := .awaitExitAck order bar rest .sent
                    log := w.log ++ [.sellSubmitted order] }
          | .partialScale =>
              -- no branch handles a scale-out: the signal is dropped
              match sig.newStop with
              | none => runSignals env bar rest w
              | some ns =>
                  runSignals env bar rest { w with log := w.log ++ [.scaleSignal tracked ns] }
  | .failedPattern _ :: rest, w => runSignals env bar rest w

/-- A bar comes out of the feed. -/
def takeBar (env : Env) (bar : BarTick) (w : World) : Option World :=
  match w.barTask with
  | .awaitBar =>
      if w.stopEvent then some { w with barTask := .ended }
      else
        let w := { w with lastBarTs := some w.clock, log := w.log ++ [.barArrived bar] }
        if w.frozen then some w
        else
          match env.scanResults bar.symbol with
          | none => some w
          | some scan =>
              some { w with barTask := .awaitQuote bar scan (env.l2Signals bar.symbol) }
  | _ => none

/-- The feed is exhausted, or raises. -/
def feedEnds (w : World) : Option World :=
  match w.barTask with
  | .awaitBar => some { w with barTask := .ended }
  | _ => none

/-- `get_quote` returns to the bar loop; an exception ends the task. -/
def barQuote (env : Env) (quote : Option QuoteTick) (w : World) : Option World :=
  match w.barTask with
  | .awaitQuote bar scan l2 =>
      match quote with
      | none => some { w with barTask := .ended }
      | some q =>
          let r := w.engine.onBar env.cfg bar scan l2 (q.ask.val - q.bid.val) env.marketState
          some (runSignals env bar r.2
            { w with engine := r.1, log := w.log ++ [.onBar bar r.2] })
  | _ => none

/-- An accepted entry: `record_open`, `open_position`, and the new `_LivePosition`. -/
def openPosition (w : World) (o : EntryOrder) (ack : OrderAck) : World :=
  let sym := o.signal.symbol
  let pos : LivePosition :=
    { ref := o.ref
      symbol := sym
      entryTs := o.bar.ts
      entryPrice := o.limit
      stopPrice := o.signal.stopPrice
      targetPrice := o.signal.targetPrice
      shares := o.shares
      riskPerShare := o.signal.riskPerShare
      brokerOrderId := ack.brokerOrderId
      highWatermark := o.limit }
  { w with
    risk := w.risk.recordOpen sym o.limit
    engine := w.engine.openPosition sym o.limit o.signal.stopPrice.val o.signal.targetPrice.val
      o.shares o.bar.ts
    opens := w.opens.set sym pos
    log := w.log ++ [.opened pos] }

/-- The bar loop resumes with the broker's answer. -/
def barResume (env : Env) (w : World) : Option World :=
  match w.barTask with
  | .awaitEntryAck order rest (.answered reply) =>
      match reply with
      | none => some { w with barTask := .ended }
      | some ack =>
          if ack.accepted then some (runSignals env order.bar rest (w.openPosition order ack))
          else some (runSignals env order.bar rest w)
  | .awaitExitAck order bar rest (.answered reply) =>
      match reply with
      | none => some { w with barTask := .ended }
      | some ack =>
          if ack.accepted then
            let w := w.recordClose env order.symbol order.pos
            match w.remove order.symbol order.limit with
            | none => some { w with barTask := .ended }  -- the `KeyError` is not caught
            | some w => some (runSignals env bar rest w)
          else some (runSignals env bar rest w)
  | _ => none

/-! ## The mental-stop loop -/

/-- On to the next position of the iteration, or back to sleep. -/
def nextStop (env : Env) : List (Symbol × LivePosition) → World → World
  | [], w => { w with stopTask := w.stopLoop env, log := w.log ++ [.pollDone] }
  | (symbol, pos) :: rest, w => { w with stopTask := .awaitQuote symbol pos rest }

/-- A poll iteration begins; while the session is frozen it ends at once. -/
def stopWake (env : Env) (w : World) : Option World :=
  match w.stopTask with
  | .sleeping due =>
      if w.clock < due then none
      else
        let w' := { w with log := w.log ++ [.poll w.opens.items] }
        if w.frozen then some (nextStop env [] w')
        else some (nextStop env w.opens.items w')
  | _ => none

/-- Whether this object is the one `_open` holds for the symbol. -/
def isTracked (w : World) (symbol : Symbol) (pos : LivePosition) : Bool :=
  (w.opens.get? symbol).any fun p => decide (p.ref = pos.ref)

/-- `if quote.bid > pos.high_watermark: pos.high_watermark = quote.bid`, seen through `_open`. -/
def markHigh (w : World) (symbol : Symbol) (pos : LivePosition) (bid : ℚ) : World :=
  match w.opens.get? symbol with
  | none => w
  | some p =>
      if p.ref = pos.ref ∧ pos.highWatermark < bid then
        { w with opens := w.opens.set symbol { p with highWatermark := bid } }
      else w

/-- The primary mental stop or the backstop fires at this bid. -/
def stopFires (env : Env) (pos : LivePosition) (bid : ℚ) : Bool :=
  RiskState.checkMentalStop bid pos.snapshot || backstopBreached env.cfg bid pos.entryPrice

/-- `get_quote` returns to the stop loop; an exception skips the position. -/
def stopQuote (env : Env) (quote : Option QuoteTick) (w : World) : Option World :=
  match w.stopTask with
  | .awaitQuote symbol pos rest =>
      let w := { w with log := w.log ++ [.stopQuoted pos quote (w.isTracked symbol pos)] }
      match quote with
      | none => some (nextStop env rest w)
      | some q =>
          let w := w.markHigh symbol pos q.bid.val
          if stopFires env pos q.bid.val then
            let order : SellOrder :=
              ⟨symbol, pos, max (q.bid.val - mentalStopLatencySlip) (1 / 100)⟩
            some { w with
              stopTask := .awaitSellAck order rest .sent
              log := w.log ++ [.sellSubmitted order] }
          else some (nextStop env rest w)
  | _ => none

/-- The stop loop resumes with the broker's answer; every exception is caught. -/
def stopResume (env : Env) (w : World) : Option World :=
  match w.stopTask with
  | .awaitSellAck order rest (.answered reply) =>
      match reply with
      | none => some (nextStop env rest w)
      | some ack =>
          if ack.accepted then
            let w := w.recordClose env order.symbol order.pos
            match w.remove order.symbol order.limit with
            | none => some (nextStop env rest w)
            | some w => some (nextStop env rest w)
          else some (nextStop env rest w)
  | _ => none

/-! ## The EOD loop -/

/-- The EOD loop wakes. -/
def eodWake (env : Env) (w : World) : Option World :=
  match w.eodTask with
  | .sleeping due =>
      if w.clock < due then none
      else if shouldFlattenEod (env.timeOfDay w.clock) env.cfg ∧ w.opens.items ≠ [] then
        some { w with
          eodTask := .awaitFlatten .sent
          log := w.log ++ [.flattenSubmitted .eod] }
      else some { w with eodTask := w.eodLoop }
  | _ => none

/-- The flatten answer reaches the EOD loop. Whatever it says, everything is
closed and the session stops; an exception ends the task. -/
def eodResume (env : Env) (price : Symbol → ℚ) (w : World) : Option World :=
  match w.eodTask with
  | .awaitFlatten (.answered reply) =>
      match reply with
      | none => some { w with eodTask := .ended }
      | some _ => some { closeAll env price w with stopEvent := true, eodTask := .ended }
  | _ => none

/-! ## The reconcile loop -/

/-- The reconcile loop wakes. Another adapter than Alpaca's is compared with
itself, without a call. -/
def reconcileWake (env : Env) (w : World) : Option World :=
  match w.reconcileTask with
  | .sleeping due =>
      if w.clock < due then none
      else if env.brokerIsAlpaca then
        some { w with
          reconcileTask := .awaitPositions .sent
          log := w.log ++ [.snapshotRequested] }
      else
        let w := reconcileWith env (fun _ => 0) (w.opens.mapValues (·.shares)) w
        some { w with reconcileTask := w.reconcileLoop env }
  | _ => none

/-- The position map reaches the reconcile loop. -/
def reconcileResume (env : Env) (price : Symbol → ℚ) (w : World) : Option World :=
  match w.reconcileTask with
  | .awaitPositions (.answered reply) =>
      let w := reconcileWith env price (getBrokerPositions reply) w
      some { w with
        reconcileTask := w.reconcileLoop env
        log := if reply.isSome then w.log ++ [.reconciled] else w.log }
  | _ => none

/-! ## The watchdog -/

/-- `_handle_disconnect` makes its next attempt, if any is left. -/
def tryFlatten (env : Env) (attempt : ℤ) (w : World) : World :=
  if attempt ≤ env.cfg.reconnectMaxAttempts then
    { w with
      watchdogTask := .awaitFlatten attempt .sent
      log := w.log ++ [.flattenSubmitted .watchdog] }
  else { w with watchdogTask := w.watchdogLoop env }

/-- The watchdog wakes, from its poll or from the delay between two attempts. -/
def watchdogWake (env : Env) (w : World) : Option World :=
  match w.watchdogTask with
  | .sleeping due =>
      if w.clock < due then none
      else
        match w.lastBarTs with
        | none => some { w with watchdogTask := w.watchdogLoop env }
        | some t =>
            if w.clock - t ≤ env.cfg.feedStalenessSeconds then
              if w.frozen then
                some { w with
                  frozen := false
                  watchdogTask := w.watchdogLoop env
                  log := w.log ++ [.unfroze] }
              else some { w with watchdogTask := w.watchdogLoop env }
            else
              let w := { w with frozen := true, log := w.log ++ [.froze] }
              if w.opens.items = [] then some { w with watchdogTask := w.watchdogLoop env }
              else some (tryFlatten env 1 w)
  | .delaying attempt due =>
      if w.clock < due then none else some (tryFlatten env (attempt + 1) w)
  | _ => none

/-- The flatten answer reaches `_handle_disconnect`: any non-empty list closes everything. -/
def watchdogResume (env : Env) (price : Symbol → ℚ) (w : World) : Option World :=
  match w.watchdogTask with
  | .awaitFlatten attempt (.answered reply) =>
      match reply with
      | none | some [] =>
          some { w with
            watchdogTask := .delaying attempt (w.clock + (env.cfg.reconnectDelayS : ℚ)) }
      | some (_ :: _) =>
          let w := closeAll env price w
          some { w with watchdogTask := w.watchdogLoop env }
  | _ => none

/-! ## The outside -/

/-- The broker's holding of a symbol. -/
def holding (w : World) (symbol : Symbol) : ℤ := (w.holdings.get? symbol).getD 0

/-- The holding of a symbol becomes `qty`. -/
def setHolding (w : World) (symbol : Symbol) (qty : ℤ) : World :=
  { w with
    holdings := w.holdings.set symbol qty
    log := if w.holding symbol < qty then w.log ++ [.bought symbol] else w.log }

/-- The broker answers the bar loop's order, having filled `filled` shares of it. -/
def barAnswer (reply : Option OrderAck) (filled : ℤ) (w : World) : Option World :=
  match w.barTask with
  | .awaitEntryAck order rest .sent =>
      if 0 ≤ filled ∧ filled ≤ order.shares then
        some { w.setHolding order.signal.symbol (w.holding order.signal.symbol + filled) with
          barTask := .awaitEntryAck order rest (.answered reply) }
      else none
  | .awaitExitAck order bar rest .sent =>
      if 0 ≤ filled ∧ filled ≤ order.pos.shares then
        let w := w.setHolding order.symbol (w.holding order.symbol - filled)
        some { w with
          barTask := .awaitExitAck order bar rest (.answered reply)
          log := if reply.any (·.accepted) then w.log ++ [.sellAccepted order.pos] else w.log }
      else none
  | _ => none

/-- The broker answers the stop loop's order. -/
def stopAnswer (reply : Option OrderAck) (filled : ℤ) (w : World) : Option World :=
  match w.stopTask with
  | .awaitSellAck order rest .sent =>
      if 0 ≤ filled ∧ filled ≤ order.pos.shares then
        let w := w.setHolding order.symbol (w.holding order.symbol - filled)
        some { w with
          stopTask := .awaitSellAck order rest (.answered reply)
          log := if reply.any (·.accepted) then w.log ++ [.sellAccepted order.pos] else w.log }
      else none
  | _ => none

/-- The BUY that has been accepted but is not tracked yet, as `(ref, symbol, shares)`. -/
def pendingEntry (w : World) : List (ℕ × Symbol × ℤ) :=
  match w.barTask with
  | .awaitEntryAck o _ (.answered (some ack)) =>
      if ack.accepted then [(o.ref, o.signal.symbol, o.shares)] else []
  | _ => []

/-- What a flatten that closes `closed` sells of every position bought so far. -/
def flattenFills (w : World) (closed : List Symbol) : List Event :=
  (((openedPositions w.log).map fun p => (p.ref, p.symbol, p.shares)) ++ w.pendingEntry).filterMap
    fun (ref, symbol, shares) =>
      if symbol ∈ closed ∧ soldShares ref w.log < shares then
        some (.flattenFilled ref (shares - soldShares ref w.log))
      else none

/-- The answer to `cancel_all_flatten` accepts something. -/
def flattenAccepted (reply : Option (List OrderAck)) : Bool :=
  reply.any fun acks => acks.any (·.accepted)

/-- The broker carries out a flatten: the holdings of `closed` go to zero. -/
def flattenHoldings (w : World) (closed : List Symbol) : World :=
  { w with
    holdings := closed.foldl (fun h s => h.set s 0) w.holdings
    log := w.log ++ w.flattenFills closed }

/-- The broker answers the EOD flatten; only an accepted one closes anything. -/
def eodAnswer (reply : Option (List OrderAck)) (closed : List Symbol) (w : World) :
    Option World :=
  match w.eodTask with
  | .awaitFlatten .sent =>
      if flattenAccepted reply || closed.isEmpty then
        some { w.flattenHoldings closed with eodTask := .awaitFlatten (.answered reply) }
      else none
  | _ => none

/-- The broker answers the watchdog's flatten. -/
def watchdogAnswer (reply : Option (List OrderAck)) (closed : List Symbol) (w : World) :
    Option World :=
  match w.watchdogTask with
  | .awaitFlatten attempt .sent =>
      if flattenAccepted reply || closed.isEmpty then
        some { w.flattenHoldings closed with watchdogTask := .awaitFlatten attempt (.answered reply) }
      else none
  | _ => none

/-- The rows of a true `get_all_positions`. -/
def positionRows (w : World) : List PositionRow :=
  (w.holdings.items.filter fun b => b.2 ≠ 0).map fun b => ⟨b.1, some (b.2 : ℚ)⟩

/-- The broker takes the position snapshot, or the call fails. -/
def reconcileAnswer (ok : Bool) (w : World) : Option World :=
  match w.reconcileTask with
  | .awaitPositions .sent =>
      some { w with
        reconcileTask := .awaitPositions (.answered (if ok then some w.positionRows else none))
        log := w.log ++ [.snapshot ok] }
  | _ => none

/-- `run`, before the first task is suspended for the second time. -/
def init (env : Env) : World where
  opens := ∅
  engine := env.symbols.foldl (fun e s => e.resetSession s 0) .new
  risk := .fresh
  stopEvent := false
  frozen := false
  lastBarTs := none
  barTask := .awaitBar
  stopTask := .sleeping (env.startTime + (env.cfg.livePollMs : ℚ) / 1000)
  eodTask := .sleeping (env.startTime + 10)
  reconcileTask := .sleeping (env.startTime + (env.cfg.reconcileIntervalS : ℚ))
  watchdogTask := .sleeping (env.startTime + max (env.cfg.feedStalenessSeconds / 2) 1)
  cancelled := false
  clock := env.startTime
  holdings := env.startHoldings
  nextRef := 0
  log := []

end World

/-! ## One step -/

/-- What can happen next. The `price` of a flatten or reconciliation is the price
at which the broker closed each position. -/
inductive Label where
  /-- Time passes. -/
  | tick (dt : ℚ)
  | takeBar (bar : BarTick)
  | feedEnds
  | barQuote (quote : Option QuoteTick)
  | barResume
  | stopWake
  | stopQuote (quote : Option QuoteTick)
  | stopResume
  | eodWake
  | eodResume (price : Symbol → ℚ)
  | reconcileWake
  | reconcileResume (price : Symbol → ℚ)
  | watchdogWake
  | watchdogResume (price : Symbol → ℚ)
  /-- The broker answers a call. -/
  | barAnswer (reply : Option OrderAck) (filled : ℤ)
  | stopAnswer (reply : Option OrderAck) (filled : ℤ)
  | eodAnswer (reply : Option (List OrderAck)) (closed : List Symbol)
  | reconcileAnswer (ok : Bool)
  | watchdogAnswer (reply : Option (List OrderAck)) (closed : List Symbol)
  /-- The broker's holding changes without the session (late fills, manual trades). -/
  | brokerMove (symbol : Symbol) (qty : ℤ)
  /-- `LiveSession.stop` is called from outside. -/
  | stop
  /-- `run` sees the stop event and cancels its tasks. -/
  | cancel

/-- A task takes its next segment, unless the tasks were cancelled. -/
def World.task (w : World) (f : World → Option World) : Option World :=
  if w.cancelled then none else f w

/-- One step of the session and its outside. -/
def World.step (env : Env) (w : World) : Label → Option World
  | .tick dt => if 0 ≤ dt then some { w with clock := w.clock + dt } else none
  | .takeBar bar => w.task (takeBar env bar)
  | .feedEnds => w.task feedEnds
  | .barQuote quote => w.task (barQuote env quote)
  | .barResume => w.task (barResume env)
  | .stopWake => w.task (stopWake env)
  | .stopQuote quote => w.task (stopQuote env quote)
  | .stopResume => w.task (stopResume env)
  | .eodWake => w.task (eodWake env)
  | .eodResume price => w.task (eodResume env price)
  | .reconcileWake => w.task (reconcileWake env)
  | .reconcileResume price => w.task (reconcileResume env price)
  | .watchdogWake => w.task (watchdogWake env)
  | .watchdogResume price => w.task (watchdogResume env price)
  | .barAnswer reply filled => w.barAnswer reply filled
  | .stopAnswer reply filled => w.stopAnswer reply filled
  | .eodAnswer reply closed => w.eodAnswer reply closed
  | .reconcileAnswer ok => w.reconcileAnswer ok
  | .watchdogAnswer reply closed => w.watchdogAnswer reply closed
  | .brokerMove symbol qty => some (w.setHolding symbol qty)
  | .stop => some { w with stopEvent := true }
  | .cancel =>
      if w.stopEvent && !w.cancelled then some { w with cancelled := true } else none

/-- A run of the session: any interleaving of its tasks with any answers from outside. -/
abbrev LiveRun (env : Env) := Execution (World.step env) (World.init env)

end RossBot
