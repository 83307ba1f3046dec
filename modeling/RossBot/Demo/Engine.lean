import RossBot.Demo.Models
import RossBot.Lib.Dict
import RossBot.Lib.Runs

/-!
# The demo engine and the dashboard

`core/demo/engine.py`, `core/demo/wiring.py` and the controls of
`api/services/state_service.py`. The engine's loop and the handlers of any number
of dashboard requests run on one event loop and share the engine's fields. As in
the live session, one step is what a task does between two suspensions; the step's
label says what it was waiting for. Where several `await`s in a row have nothing
between them, they are one suspension, and a task that only reports and returns
is done.

Positions are Python objects: a task that holds one still holds it when `positions`
no longer does. `positions` maps a symbol to an identity, `objects` an identity to
the object. What goes to the dashboard (signals, risk events, health) is left out;
sending it is a suspension like any other.

`log` records what was done; no branch reads it.
-/

namespace RossBot

open Lib

/-- What the engine is run with. -/
structure DemoEnv where
  cfg : DemoConfig
  /-- `connect` built both adapters. -/
  connected : Bool
  /-- `et_time`, in seconds since midnight. -/
  timeOfDay : Time → ℚ
  /-- `session_for` says pre-market, regular or after-hours. -/
  marketActive : Time → Bool
  startTime : Time

/-- `StateService`, as far as the engine's hooks read it. -/
structure StateService where
  isPaused : Bool
  /-- Whether the registered risk manager is halted; `none` when none is registered. -/
  riskManager : Option Bool

/-- `StateService.halted`. -/
def StateService.halted (svc : StateService) : Bool := svc.riskManager.getD false

/-- `session_overrides`, as far as trading reads them. -/
structure Overrides where
  autoTrade : Option Bool
  maxDailyLoss : Option ℚ

/-- An override of one of those keys. -/
inductive Override where
  | autoTrade (value : Bool)
  | maxDailyLoss (value : ℚ)

/-! ## Suspended tasks -/

/-- What `_submit_entry` needs when the broker's answer comes. -/
structure PendingEntry where
  symbol : Symbol
  shares : ℤ
  limitPrice : ℚ
  gate : GateResult

/-- A scale-out or a full exit on its way to the broker. -/
structure PendingExit where
  symbol : Symbol
  ref : ℕ
  price : ℚ
  now : Time

/-- Where the engine's loop is suspended. `now` is the time its iteration began. -/
inductive EngineTask where
  /-- Asleep, or reporting positions, risk and health. -/
  | idle
  | awaitScan (now : Time) (strategy : Bool)
  | scanReported (now : Time) (strategy : Bool)
  | awaitBars (now : Time) (symbol : Symbol) (rest : List Symbol)
  | awaitQuote (now : Time) (symbol : Symbol) (bars : List BarTick) (rest : List Symbol)
  /-- A veto, or the outcome of an order, is being reported. -/
  | entryReported (now : Time) (rest : List Symbol)
  /-- The signal of an approved entry is being broadcast. -/
  | awaitSignal (now : Time) (symbol : Symbol) (shares : ℤ) (ask : ℚ) (gate : GateResult)
      (rest : List Symbol)
  | awaitEntryAck (now : Time) (order : PendingEntry) (rest : List Symbol)
  | exitQuote (now : Time) (symbol : Symbol) (ref : ℕ) (rest : List (Symbol × ℕ))
  | awaitScaleAck (exit : PendingExit) (half : ℤ) (rest : List (Symbol × ℕ))
  | scaleReported (now : Time) (rest : List (Symbol × ℕ))
  | awaitExitAck (exit : PendingExit) (reason : DemoExit) (rest : List (Symbol × ℕ))
  | exitReported (now : Time) (rest : List (Symbol × ℕ))
  /-- In `_replay_step`, between two of its trades. -/
  | replaying (now : Time)
  | replayReported (now : Time)

/-- Where the handler of a request is suspended. -/
inductive OperatorTask where
  /-- There is no such handler, or it is done. -/
  | done
  | closeQuote (symbol : Symbol) (ref : Option ℕ) (now : Time)
  | closeAck (symbol : Symbol) (ref : Option ℕ) (price : ℚ) (now : Time)
  | scaleQuote (symbol : Symbol) (ref : ℕ) (now : Time)
  | scaleAck (exit : PendingExit) (half : ℤ)
  /-- `manual_order`; `stop` is the stop of the `manual_trade` it was called by. -/
  | orderAck (symbol : Symbol) (side : Side) (qty : ℤ) (limitPrice : ℚ) (now : Time)
      (stop : Option ℚ)
  /-- `manual_trade`, while the `manual_order` it called reports. -/
  | orderReported (symbol : Symbol) (accepted : Bool) (stop : ℚ)
  | flattenAck
  | killAck
  | awaitScan

/-- What the dashboard asks for. Symbols are as `upper().strip()` leaves them. -/
inductive Request where
  | closePosition (symbol : Symbol)
  | scaleOutPosition (symbol : Symbol)
  | moveStop (symbol : Symbol) (stopPrice : ℚ)
  | manualOrder (symbol : Symbol) (side : Side) (qty : ℤ) (limitPrice : ℚ)
  | manualTrade (symbol : Symbol) (entry stop : ℚ) (shares : ℤ)
  | flattenAll
  | haltDay (reason : String)
  | killSwitch
  | setOverride (override : Override)
  | pause
  | resume
  | triggerScan

/-- What the log records. -/
inductive DemoEvent where
  /-- The kill-switch or `halt_day` called `_halt`. -/
  | haltCalled (reason : DemoHaltReason)
  | orderSent (order : DemoOrder)
  /-- `flatten_symbol` was called. -/
  | flattenSent (symbol : Symbol)
  /-- `cancel_all_flatten` was called. -/
  | flattenAllSent
  /-- A BUY was accepted and its position is tracked. -/
  | opened (ref : ℕ) (pos : DemoPosition)
  /-- `_record_journal` was called, for this many shares of an object. -/
  | journaled (ref : Option ℕ) (shares : ℤ)
  /-- `DemoRisk.record_close` was called, with the P&L of this many shares of an object. -/
  | recordedClose (ref : Option ℕ) (shares : ℤ) (pnl : ℚ)
  /-- The kill-switch's flatten has cleared `positions`. -/
  | killFlattened
  /-- `del self.positions[symbol]` raised. -/
  | raised (symbol : Symbol)
  deriving DecidableEq

/-- The engine's fields, and the tasks that share them. -/
structure Desk where
  /-- `positions`. -/
  positions : Dict Symbol ℕ
  objects : ℕ → DemoPosition
  nextRef : ℕ
  /-- `risk`. -/
  risk : DemoRisk
  /-- `closed_trades`. -/
  closedTrades : List JournalRow
  /-- The `StateService` the hooks read. -/
  svc : StateService
  /-- `session_overrides`. -/
  overrides : Overrides
  /-- The symbols of `_last_scan_tier_b`. -/
  tierB : List Symbol
  engine : EngineTask
  tasks : ℕ → OperatorTask
  /-- `now_utc()`. -/
  clock : Time
  log : List DemoEvent

namespace Desk

/-! ## Small pieces -/

/-- `effective_auto_trade`. -/
def effectiveAutoTrade (env : DemoEnv) (s : Desk) : Bool :=
  s.overrides.autoTrade.getD env.cfg.autoTrade

/-- `effective_max_daily_loss`. -/
def effectiveMaxDailyLoss (env : DemoEnv) (s : Desk) : ℚ :=
  s.overrides.maxDailyLoss.getD env.cfg.maxDailyLoss

/-- A mutable object changes. -/
def setObject (s : Desk) (ref : ℕ) (pos : DemoPosition) : Desk :=
  { s with objects := Function.update s.objects ref pos }

/-- The handler of a request is suspended somewhere else. -/
def setTask (s : Desk) (i : ℕ) (t : OperatorTask) : Desk :=
  { s with tasks := Function.update s.tasks i t }

/-- Something is noted in the log. -/
def note (s : Desk) (e : DemoEvent) : Desk := { s with log := s.log ++ [e] }

/-- `_halt`. -/
def halt (s : Desk) (reason : DemoHaltReason) : Desk := { s with risk := s.risk.halt reason }

/-- `_record_journal`. -/
def recordJournal (s : Desk) (ref : Option ℕ) (pos : DemoPosition) (exitPrice : ℚ) (shares : ℤ)
    (realized : ℚ) (reason : DemoExit) (now : Time) : Desk :=
  { s with
    closedTrades := s.closedTrades ++ [journalRow pos exitPrice shares realized reason now]
    log := s.log ++ [.journaled ref shares] }

/-- `self.risk.record_close(realized)`. -/
def recordClose (s : Desk) (ref : Option ℕ) (shares : ℤ) (realized : ℚ) : Desk :=
  { s with
    risk := s.risk.recordClose realized
    log := s.log ++ [.recordedClose ref shares realized] }

/-- An accepted BUY becomes a tracked position. -/
def openPosition (s : Desk) (pos : DemoPosition) : Desk :=
  { s with
    positions := s.positions.set pos.symbol s.nextRef
    objects := Function.update s.objects s.nextRef pos
    nextRef := s.nextRef + 1
    risk := s.risk.countTrade
    log := s.log ++ [.opened s.nextRef pos] }

/-- `_within_entry_window`. -/
def withinEntryWindow (env : DemoEnv) (now : Time) : Bool :=
  decide (25200 ≤ env.timeOfDay now) && decide (env.timeOfDay now ≤ env.cfg.hardStopTime)

/-! ## Exits, as the loop and the operator share them -/

/-- `_scale_out`, up to the broker. -/
def sendScaleOut (s : Desk) (exit : PendingExit) : Desk :=
  s.note (.orderSent
    { clientOrderId := .scale exit.symbol (roundDown exit.now)
      symbol := exit.symbol
      side := .sell
      qty := max 1 ((s.objects exit.ref).shares / 2)
      limitPrice := quantize2 exit.price })

/-- `_scale_out`, once the broker has answered; the answer is not looked at. -/
def bookScaleOut (s : Desk) (exit : PendingExit) (half : ℤ) : Desk :=
  let pos := s.objects exit.ref
  let realized := (exit.price - pos.entryPrice) * (half : ℚ)
  let pos := { pos with shares := pos.shares - half, scaled := true }
  -- the breakeven stop is written after the journal row
  (((s.setObject exit.ref pos).recordJournal (some exit.ref) pos exit.price half realized
    .p5ScaleHalf exit.now).setObject exit.ref { pos with stopPrice := pos.entryPrice }).recordClose
    (some exit.ref) half realized

/-- What `_exit_full` and `close_position` do once the broker has answered, up to the `del`; the
answer is not looked at. -/
def bookExit (s : Desk) (exit : PendingExit) (reason : DemoExit) : Desk :=
  let pos := s.objects exit.ref
  let realized := (exit.price - pos.entryPrice) * (pos.shares : ℚ)
  (s.recordJournal (some exit.ref) pos exit.price pos.shares realized reason exit.now).recordClose
    (some exit.ref) pos.shares realized

/-- `del self.positions[symbol]`; `none` is the `KeyError`. -/
def forget (s : Desk) (symbol : Symbol) : Option Desk :=
  match s.positions.get? symbol with
  | none => none
  | some _ => some { s with positions := s.positions.erase symbol }

/-! ## The engine's loop -/

/-- `for sym, pos in list(self.positions.items())`: where the loop is suspended next. -/
def nextExit (now : Time) : List (Symbol × ℕ) → EngineTask
  | [] => .idle
  | (symbol, ref) :: rest => .exitQuote now symbol ref rest

/-- `_run_exits` begins. -/
def runExits (env : DemoEnv) (s : Desk) (now : Time) : EngineTask :=
  if env.connected then nextExit now s.positions.items else .idle

/-- `for entry in list(self._last_scan_tier_b)`: where the loop is suspended next. After the last
entry come the exits. -/
def nextEntry (env : DemoEnv) (s : Desk) (now : Time) : List Symbol → EngineTask
  | [] => s.runExits env now
  -- a symbol that is held is passed over without a call
  | symbol :: rest =>
      if s.positions.contains symbol then nextEntry env s now rest else .awaitBars now symbol rest

/-- The iteration after its scan. -/
def afterScan (env : DemoEnv) (s : Desk) (now : Time) (strategy : Bool) : EngineTask :=
  if strategy then s.nextEntry env now s.tierB else s.runExits env now

/-- There is data, and the market is active. -/
def livePath (env : DemoEnv) (s : Desk) : Bool := env.connected && env.marketActive s.clock

/-- An iteration begins on the live path; the tick count says whether it scans and trades. -/
def iterate (env : DemoEnv) (scan strategy : Bool) (s : Desk) : Option Desk :=
  match s.engine with
  | .idle =>
      if !livePath env s then none
      else if scan then some { s with engine := .awaitScan s.clock strategy }
      else some { s with engine := s.afterScan env s.clock strategy }
  | _ => none

/-- `_run_scan` has its tiers; `none`: it raised, and the iteration is over. -/
def scanned (tierB : Option (List Symbol)) (s : Desk) : Option Desk :=
  match s.engine with
  | .awaitScan now strategy =>
      match tierB with
      | none => some { s with engine := .idle }
      | some tierB => some { s with tierB := tierB, engine := .scanReported now strategy }
  | _ => none

/-- `get_bars` returns to `_run_strategy`; an exception ends the iteration. -/
def gotBars (env : DemoEnv) (bars : Option (List BarTick)) (s : Desk) : Option Desk :=
  match s.engine with
  | .awaitBars now symbol rest =>
      match bars with
      | none => some { s with engine := .idle }
      | some bars =>
          -- too few bars: the gate is not asked
          if bars.length < 6 then some { s with engine := s.nextEntry env now rest }
          else some { s with engine := .awaitQuote now symbol bars rest }
  | _ => none

/-- `_risk_gate`: the state it leaves, and the veto or the approved shares. -/
def riskGate (env : DemoEnv) (now : Time) (gate : GateResult) (s : Desk) :
    Desk × Except DemoVeto ℤ :=
  match s.risk.guard s.svc.halted s.svc.isPaused (withinEntryWindow env now)
      (s.effectiveMaxDailyLoss env) with
  | (risk, some veto) => ({ s with risk := risk }, .error veto)
  | (_, none) =>
      let riskPerShare := gate.entryPrice.getD 0 - gate.stopPrice.getD 0
      if riskPerShare ≤ 0 then (s, .error .invalidStop)
      else
        let shares := min (s.risk.budgetShares env.cfg.perTradeRisk riskPerShare)
          env.cfg.maxPositionSize
        if shares ≤ 0 then (s, .error .sizingZero) else (s, .ok shares)

/-- `get_quote` returns to `_run_strategy`; an exception skips the entry. -/
def gotEntryQuote (env : DemoEnv) (quote : Option QuoteTick) (s : Desk) : Option Desk :=
  match s.engine with
  | .awaitQuote now symbol bars rest =>
      match quote with
      | none => some { s with engine := s.nextEntry env now rest }
      | some quote =>
          let gate := GateResult.evaluateEntryGate bars (quote.ask.val - quote.bid.val) env.cfg.e6Enabled
          if !gate.passes then some { s with engine := s.nextEntry env now rest }
          else
            -- a veto is reported, and so has its own place to wait
            match riskGate env now gate s with
            | (s, .error _) => some { s with engine := .entryReported now rest }
            | (s, .ok shares) =>
                some { s with engine := .awaitSignal now symbol shares quote.ask.val gate rest }
  | _ => none

/-- The order of `_submit_entry`. -/
def entryOrder (now : Time) (p : PendingEntry) : DemoOrder where
  clientOrderId := .entry p.symbol (roundDown now)
  symbol := p.symbol
  side := .buy
  qty := p.shares
  limitPrice := p.limitPrice

/-- `x or y`, for an amount. -/
def orElse (x : Option ℚ) (y : ℚ) : ℚ :=
  match x with
  | none => y
  | some x => if x = 0 then y else x

/-- The position of an accepted automatic entry. -/
def entryPosition (now : Time) (p : PendingEntry) : DemoPosition where
  symbol := p.symbol
  shares := p.shares
  entryPrice := orElse p.gate.entryPrice p.limitPrice
  stopPrice := orElse p.gate.stopPrice (p.limitPrice - 20 / 100)
  entryTime := now
  scaled := false
  pattern := p.gate.pattern

/-- A broadcast of the engine is done, and the loop goes on. -/
def engineResume (env : DemoEnv) (s : Desk) : Option Desk :=
  match s.engine with
  | .scanReported now strategy => some { s with engine := s.afterScan env now strategy }
  | .entryReported now rest => some { s with engine := s.nextEntry env now rest }
  | .awaitSignal now symbol shares ask gate rest =>
      -- the gate was passed before the broadcast, and is not looked at again
      if s.effectiveAutoTrade env && env.connected && decide (0 < shares) then
        let order : PendingEntry := ⟨symbol, shares, quantize2 (ask + demoBuyOffset), gate⟩
        some { s.note (.orderSent (entryOrder now order)) with
          engine := .awaitEntryAck now order rest }
      else some { s with engine := s.nextEntry env now rest }
  | .scaleReported now rest => some { s with engine := nextExit now rest }
  | .exitReported now rest =>
      some { s with
        risk := s.risk.checkHalts (s.effectiveMaxDailyLoss env)
        engine := nextExit now rest }
  | .replayReported now =>
      let s : Desk := { s with risk := s.risk.checkHalts (s.effectiveMaxDailyLoss env) }
      -- a halt breaks the loop over the replayed positions
      if 3 ≤ s.risk.consecutiveLosses ∨ s.risk.realizedPnl ≤ -s.effectiveMaxDailyLoss env then
        some { s with engine := .idle }
      else some { s with engine := .replaying now }
  | _ => none

/-- `get_quote` returns to `_run_exits`; an exception skips the position. -/
def gotExitQuote (quote : Option QuoteTick) (s : Desk) : Option Desk :=
  match s.engine with
  | .exitQuote now symbol ref rest =>
      match quote with
      | none => some { s with engine := nextExit now rest }
      | some quote =>
          let exit : PendingExit := ⟨symbol, ref, quote.bid.val, now⟩
          match exitDecision (s.objects ref) quote.bid.val now with
          | .hold => some { s with engine := nextExit now rest }
          | .scale =>
              some { s.sendScaleOut exit with
                engine := .awaitScaleAck exit (max 1 ((s.objects ref).shares / 2)) rest }
          | .full reason =>
              some { s.note (.flattenSent symbol) with engine := .awaitExitAck exit reason rest }
  | _ => none

/-- The broker's answer reaches the engine's loop. -/
def engineAck (ack : OrderAck) (s : Desk) : Option Desk :=
  match s.engine with
  | .awaitEntryAck now order rest =>
      let s := if ack.accepted then s.openPosition (entryPosition now order) else s
      some { s with engine := .entryReported now rest }
  | .awaitScaleAck exit half rest =>
      some { s.bookScaleOut exit half with engine := .scaleReported exit.now rest }
  | .awaitExitAck exit reason rest =>
      let s := s.bookExit exit reason
      match s.forget exit.symbol with
      | none => some { s.note (.raised exit.symbol) with engine := .idle }  -- ends the iteration
      | some s => some { s with engine := .exitReported exit.now rest }
  | _ => none

/-! ## The replay branch -/

/-- An iteration begins outside market hours, or without data: `_replay_step` makes up tiers. -/
def replayStep (env : DemoEnv) (tierB : List Symbol) (s : Desk) : Option Desk :=
  match s.engine with
  | .idle =>
      if livePath env s || !env.cfg.demoReplayMode then none
      else some { s with tierB := tierB, engine := .replaying s.clock }
  | _ => none

/-- `_replay_step` closes a trade it has made up, from `hash` and the tick count. -/
def replayClose (pos : DemoPosition) (exitPrice : ℚ) (reason : DemoExit) (s : Desk) :
    Option Desk :=
  match s.engine with
  | .replaying now =>
      let realized := (exitPrice - pos.entryPrice) * (pos.shares : ℚ)
      let s := (s.recordJournal none pos exitPrice pos.shares realized reason now).recordClose none
        pos.shares realized
      some { s with risk := s.risk.countTrade, engine := .replayReported now }
  | _ => none

/-- `_replay_step` is done. -/
def replayDone (s : Desk) : Option Desk :=
  match s.engine with
  | .replaying _ => some { s with engine := .idle }
  | _ => none

/-! ## The operator's requests -/

/-- `_manual_guardrails`: the state it leaves, and the veto. -/
def manualGuardrails (env : DemoEnv) (s : Desk) : Desk × Option DemoVeto :=
  let r := s.risk.guard s.svc.halted s.svc.isPaused true (s.effectiveMaxDailyLoss env)
  ({ s with risk := r.1 }, r.2)

/-- `manual_order` sends its order. -/
def sendManual (i : ℕ) (symbol : Symbol) (side : Side) (qty : ℤ) (limitPrice : ℚ)
    (stop : Option ℚ) (s : Desk) : Desk :=
  (s.note (.orderSent
    { clientOrderId := .manual symbol (roundDown s.clock)
      symbol := symbol
      side := side
      qty := qty
      limitPrice := quantize2 limitPrice })).setTask i
    (.orderAck symbol side qty (quantize2 limitPrice) s.clock stop)

/-- `manual_order`, up to the broker. -/
def manualOrder (env : DemoEnv) (i : ℕ) (symbol : Symbol) (side : Side) (qty : ℤ)
    (limitPrice : ℚ) (stop : Option ℚ) (s : Desk) : Desk :=
  if !env.connected then s
  else if qty ≤ 0 then s
  else
    match side with
    | .sell => sendManual i symbol .sell qty limitPrice stop s
    | .buy =>
        match manualGuardrails env s with
        -- the share count is cut to the largest position allowed, and no window is looked at
        | (s, some _) => s
        | (s, none) => sendManual i symbol .buy (min qty env.cfg.maxPositionSize) limitPrice stop s

/-- `manual_trade`, up to the broker. -/
def manualTrade (env : DemoEnv) (i : ℕ) (symbol : Symbol) (entry stop : ℚ) (shares : ℤ)
    (s : Desk) : Desk :=
  if !env.connected then s
  else
    match manualGuardrails env s with
    | (s, some _) => s
    | (s, none) =>
        let riskPerShare := quantize2 entry - quantize2 stop
        if riskPerShare ≤ 0 then s
        else
          let sized := min (min (s.risk.budgetShares env.cfg.perTradeRisk riskPerShare)
            (max 0 shares)) env.cfg.maxPositionSize
          if sized ≤ 0 then s
          else manualOrder env i symbol .buy sized (quantize2 entry + demoBuyOffset)
            (some (quantize2 stop)) s

/-- A request arrives, and its handler runs to its first suspension. -/
def handle (env : DemoEnv) (i : ℕ) (r : Request) (s : Desk) : Desk :=
  match r with
  | .closePosition symbol =>
      if !env.connected then s
      else s.setTask i (.closeQuote symbol (s.positions.get? symbol) s.clock)
  | .scaleOutPosition symbol =>
      if !env.connected then s
      else
        match s.positions.get? symbol with
        | none => s
        | some ref =>
            if (s.objects ref).shares ≤ 1 then s
            else s.setTask i (.scaleQuote symbol ref s.clock)
  | .moveStop symbol stopPrice =>
      match s.positions.get? symbol with
      | none => s
      | some ref => s.setObject ref { s.objects ref with stopPrice := quantize2 stopPrice }
  | .manualOrder symbol side qty limitPrice => manualOrder env i symbol side qty limitPrice none s
  | .manualTrade symbol entry stop shares => manualTrade env i symbol entry stop shares s
  | .flattenAll =>
      if !env.connected then { s with positions := ∅ }
      else (s.note .flattenAllSent).setTask i .flattenAck
  | .haltDay reason => (s.halt (.haltDay reason)).note (.haltCalled (.haltDay reason))
  | .killSwitch =>
      let s := { s with svc := { s.svc with riskManager := s.svc.riskManager.map fun _ => true } }
      let s := (s.halt .manualKillSwitch).note (.haltCalled .manualKillSwitch)
      if env.connected then (s.note .flattenAllSent).setTask i .killAck
      else { s with positions := ∅ }.note .killFlattened
  | .setOverride (.autoTrade value) =>
      { s with overrides := { s.overrides with autoTrade := some value } }
  | .setOverride (.maxDailyLoss value) =>
      { s with overrides := { s.overrides with maxDailyLoss := some value } }
  | .pause => if s.svc.halted then s else { s with svc := { s.svc with isPaused := true } }
  | .resume => if s.svc.halted then s else { s with svc := { s.svc with isPaused := false } }
  | .triggerScan => if !env.connected then s else s.setTask i .awaitScan

/-- `get_quote` returns to a handler; on an exception the entry price is used. -/
def taskQuote (i : ℕ) (quote : Option QuoteTick) (s : Desk) : Option Desk :=
  match s.tasks i with
  | .closeQuote symbol ref now =>
      let fallback := match ref with
        | none => 0
        | some ref => (s.objects ref).entryPrice
      let price := (quote.map (·.bid.val)).getD fallback
      some ((s.note (.flattenSent symbol)).setTask i (.closeAck symbol ref price now))
  | .scaleQuote symbol ref now =>
      let price := (quote.map (·.bid.val)).getD (s.objects ref).entryPrice
      let exit : PendingExit := ⟨symbol, ref, price, now⟩
      some ((s.sendScaleOut exit).setTask i (.scaleAck exit (max 1 ((s.objects ref).shares / 2))))
  | _ => none

/-- The position of an accepted manual BUY. -/
def manualPosition (symbol : Symbol) (qty : ℤ) (limitPrice : ℚ) (now : Time) : DemoPosition where
  symbol := symbol
  shares := qty
  entryPrice := limitPrice
  stopPrice := limitPrice - 20 / 100
  entryTime := now
  scaled := false
  pattern := .manual

/-- The broker's answer to a single order reaches a handler. -/
def taskAck (i : ℕ) (ack : OrderAck) (s : Desk) : Option Desk :=
  match s.tasks i with
  | .closeAck symbol ref price now =>
      match ref with
      | none => some (s.setTask i .done)
      | some ref =>
          let s := s.bookExit ⟨symbol, ref, price, now⟩ .manualClose
          match s.forget symbol with
          | none => some ((s.note (.raised symbol)).setTask i .done)
          | some s => some (s.setTask i .done)
  | .scaleAck exit half => some ((s.bookScaleOut exit half).setTask i .done)
  | .orderAck symbol side qty limitPrice now stop =>
      let s := if ack.accepted && decide (side = .buy) then
          s.openPosition (manualPosition symbol qty limitPrice now)
        else s
      match stop with
      | none => some (s.setTask i .done)
      | some stop => some (s.setTask i (.orderReported symbol ack.accepted stop))
  | _ => none

/-- `cancel_all_flatten` returns to a handler; what it says is not looked at. -/
def taskFlattened (i : ℕ) (s : Desk) : Option Desk :=
  match s.tasks i with
  | .flattenAck => some ({ s with positions := ∅ }.setTask i .done)
  | .killAck => some (({ s with positions := ∅ }.note .killFlattened).setTask i .done)
  | _ => none

/-- `manual_trade` goes on after its order: the requested stop is set. -/
def taskResume (i : ℕ) (s : Desk) : Option Desk :=
  match s.tasks i with
  | .orderReported symbol accepted stop =>
      let s := match s.positions.get? symbol with
        | none => s
        | some ref =>
            if accepted then s.setObject ref { s.objects ref with stopPrice := stop } else s
      some (s.setTask i .done)
  | _ => none

/-- A triggered scan has its tiers, or raised. -/
def taskScanned (i : ℕ) (tierB : Option (List Symbol)) (s : Desk) : Option Desk :=
  match s.tasks i with
  | .awaitScan => some ({ s with tierB := tierB.getD s.tierB }.setTask i .done)
  | _ => none

/-- No object yet. -/
def noPosition : DemoPosition := ⟨"", 0, 0, 0, 0, false, .manual⟩

/-- The engine as `start_demo` launches it. -/
def init (env : DemoEnv) : Desk where
  positions := ∅
  objects := fun _ => noPosition
  nextRef := 0
  risk := .fresh
  closedTrades := []
  svc := ⟨false, none⟩
  overrides := ⟨none, none⟩
  tierB := []
  engine := .idle
  tasks := fun _ => .done
  clock := env.startTime
  log := []

end Desk

/-! ## One step -/

/-- What can happen next. -/
inductive DeskLabel where
  /-- Time passes. -/
  | tick (dt : ℚ)
  -- the engine's loop
  | iterate (scan strategy : Bool)
  | scanned (tierB : Option (List Symbol))
  | bars (bars : Option (List BarTick))
  | entryQuote (quote : Option QuoteTick)
  | exitQuote (quote : Option QuoteTick)
  | resume
  | ack (ack : OrderAck)
  | replayStep (tierB : List Symbol)
  | replayClose (pos : DemoPosition) (exitPrice : ℚ) (reason : DemoExit)
  | replayDone
  -- the dashboard; each handler has a number
  | request (i : ℕ) (r : Request)
  | taskQuote (i : ℕ) (quote : Option QuoteTick)
  | taskAck (i : ℕ) (ack : OrderAck)
  | taskFlattened (i : ℕ)
  | taskResume (i : ℕ)
  | taskScanned (i : ℕ) (tierB : Option (List Symbol))

/-- A request needs a number that is free. -/
def Desk.request (env : DemoEnv) (i : ℕ) (r : Request) (s : Desk) : Option Desk :=
  match s.tasks i with
  | .done => some (s.handle env i r)
  | _ => none

/-- One step of the engine and the dashboard. -/
def Desk.step (env : DemoEnv) (s : Desk) : DeskLabel → Option Desk
  | .tick dt => if 0 ≤ dt then some { s with clock := s.clock + dt } else none
  | .iterate scan strategy => s.iterate env scan strategy
  | .scanned tierB => s.scanned tierB
  | .bars bars => s.gotBars env bars
  | .entryQuote quote => s.gotEntryQuote env quote
  | .exitQuote quote => s.gotExitQuote quote
  | .resume => s.engineResume env
  | .ack ack => s.engineAck ack
  | .replayStep tierB => s.replayStep env tierB
  | .replayClose pos exitPrice reason => s.replayClose pos exitPrice reason
  | .replayDone => s.replayDone
  | .request i r => s.request env i r
  | .taskQuote i quote => s.taskQuote i quote
  | .taskAck i ack => s.taskAck i ack
  | .taskFlattened i => s.taskFlattened i
  | .taskResume i => s.taskResume i
  | .taskScanned i tierB => s.taskScanned i tierB

/-- A run: any interleaving of the engine's loop with any requests. -/
abbrev DeskRun (env : DemoEnv) := Execution (Desk.step env) (Desk.init env)

end RossBot
