import RossBot.Indicators
import RossBot.Numbers

/-!
# The demo engine's values

`core/demo/engine.py` and `core/demo/config.py`: positions, the day's risk
state, journal rows, orders, and the pure functions on them. The amounts in a
journal row are printed with two decimals.
-/

namespace RossBot

/-- `SPREAD_MIN`. -/
def demoSpreadMin : ℚ := 3 / 100

/-- `SPREAD_MAX`. -/
def demoSpreadMax : ℚ := 10 / 100

/-- `BUY_OFFSET`. -/
def demoBuyOffset : ℚ := 5 / 100

/-- `RETRACE_MAX`. -/
def demoRetraceMax : ℚ := 50 / 100

/-- `BAILOUT_SECONDS`. -/
def demoBailoutSeconds : ℚ := 60

/-- `BAILOUT_MOVE`. -/
def demoBailoutMove : ℚ := 10 / 100

/-- `SCALE_PROFIT_PCT`. -/
def demoScaleProfitPct : ℚ := 5 / 100

/-- `quantize(Decimal("0.01"))`, and the amount `_s` prints: two decimals, ties to even. -/
def quantize2 (x : ℚ) : ℚ := (roundHalfEven (x * 100) : ℚ) / 100

/-- An amount in whole cents. -/
def OnCents (x : ℚ) : Prop := ∃ n : ℤ, x = (n : ℚ) / 100

theorem OnCents.add {x y : ℚ} (hx : OnCents x) (hy : OnCents y) : OnCents (x + y) := by
  obtain ⟨m, rfl⟩ := hx
  obtain ⟨n, rfl⟩ := hy
  exact ⟨m + n, by push_cast; ring⟩

theorem OnCents.quantize2_eq {x : ℚ} (hx : OnCents x) : quantize2 x = x := by
  obtain ⟨n, rfl⟩ := hx
  rw [quantize2, div_mul_cancel₀ _ (by norm_num), roundHalfEven_intCast]

theorem onCents_quantize2 (x : ℚ) : OnCents (quantize2 x) := ⟨_, rfl⟩

/-- `DemoConfig`, as far as trading reads it. `hard_stop_time` is in seconds since midnight. -/
structure DemoConfig where
  autoTrade : Bool
  e6Enabled : Bool
  demoReplayMode : Bool
  maxDailyLoss : ℚ
  maxPositionSize : ℤ
  perTradeRisk : ℚ
  hardStopTime : ℚ

/-- `DemoConfig.from_env` in an empty environment. -/
def DemoConfig.defaults : DemoConfig where
  autoTrade := true
  e6Enabled := false
  demoReplayMode := true
  maxDailyLoss := 500
  maxPositionSize := 5000
  perTradeRisk := 1000
  hardStopTime := 39600

/-- The patterns a position is labelled with. -/
inductive DemoPattern where
  | microPullback
  | manual
  | gapAndGo
  | bullFlag
  | vwapBreak
  | haltResumption
  deriving DecidableEq, Repr

/-- `DemoPosition`. -/
structure DemoPosition where
  symbol : Symbol
  shares : ℤ
  entryPrice : ℚ
  stopPrice : ℚ
  entryTime : Time
  scaled : Bool
  pattern : DemoPattern
  deriving DecidableEq

/-- The reasons an exit is journaled with. -/
inductive DemoExit where
  | p1HardStop
  | p2TimeStop
  | p5ScaleHalf
  | manualClose
  | scaleStrength
  | firstRedClose
  | toppingTail
  deriving DecidableEq, Repr

/-- A row of `closed_trades`. -/
structure JournalRow where
  symbol : Symbol
  pattern : DemoPattern
  entryPrice : ℚ
  exitPrice : ℚ
  shares : ℤ
  pnl : ℚ
  rMultiple : Option ℚ
  exitReason : DemoExit
  entryTs : Time
  exitTs : Time
  deriving DecidableEq

/-- The row `_record_journal` appends. -/
def journalRow (pos : DemoPosition) (exitPrice : ℚ) (shares : ℤ) (realized : ℚ)
    (reason : DemoExit) (now : Time) : JournalRow :=
  let riskPs := pos.entryPrice - pos.stopPrice
  let perShare := exitPrice - pos.entryPrice
  { symbol := pos.symbol
    pattern := pos.pattern
    entryPrice := quantize2 pos.entryPrice
    exitPrice := quantize2 exitPrice
    shares := shares
    pnl := quantize2 realized
    rMultiple :=
      if 0 < riskPs then some (roundFloat (binary64 (decimal28 (perShare / riskPs))) 2) else none
    exitReason := reason
    entryTs := pos.entryTime
    exitTs := now }

/-! ## The day's risk -/

/-- The reasons `_halt` is called with. -/
inductive DemoHaltReason where
  | threeConsecutiveLosses
  | maxDailyLoss
  | manualKillSwitch
  | haltDay (reason : String)
  deriving DecidableEq, Repr

/-- `DemoRisk`. -/
structure DemoRisk where
  realizedPnl : ℚ
  peakPnl : ℚ
  consecutiveLosses : ℤ
  tradesToday : ℤ
  winsToday : ℤ
  lossesToday : ℤ
  halted : Bool
  haltReason : Option DemoHaltReason
  deriving DecidableEq

/-- `DemoRisk()`. -/
def DemoRisk.fresh : DemoRisk where
  realizedPnl := 0
  peakPnl := 0
  consecutiveLosses := 0
  tradesToday := 0
  winsToday := 0
  lossesToday := 0
  halted := false
  haltReason := none

/-- `DemoRisk.record_close`. -/
def DemoRisk.recordClose (r : DemoRisk) (pnl : ℚ) : DemoRisk :=
  let realized := r.realizedPnl + pnl
  let r := { r with realizedPnl := realized, peakPnl := max r.peakPnl realized }
  if 0 < pnl then { r with winsToday := r.winsToday + 1, consecutiveLosses := 0 }
  else { r with lossesToday := r.lossesToday + 1, consecutiveLosses := r.consecutiveLosses + 1 }

/-- `_halt`. -/
def DemoRisk.halt (r : DemoRisk) (reason : DemoHaltReason) : DemoRisk :=
  if r.halted then r else { r with halted := true, haltReason := some reason }

/-- `self.risk.trades_today += 1`. -/
def DemoRisk.countTrade (r : DemoRisk) : DemoRisk := { r with tradesToday := r.tradesToday + 1 }

/-- The halt checks that follow a full exit. -/
def DemoRisk.checkHalts (r : DemoRisk) (maxDailyLoss : ℚ) : DemoRisk :=
  let r := if 3 ≤ r.consecutiveLosses then r.halt .threeConsecutiveLosses else r
  if r.realizedPnl ≤ -maxDailyLoss then r.halt .maxDailyLoss else r

/-- Why a BUY is refused. -/
inductive DemoVeto where
  | sessionHalted
  | paused
  | outsideEntryWindow
  | threeStrikes
  | maxDailyLoss
  | invalidStop
  | sizingZero
  deriving DecidableEq, Repr

/-- The checks `_risk_gate` and `_manual_guardrails` share, around the entry window, which only
the first looks at: the risk state they leave (the last two halt it), and the veto. -/
def DemoRisk.guard (r : DemoRisk) (halted isPaused withinWindow : Bool) (maxDailyLoss : ℚ) :
    DemoRisk × Option DemoVeto :=
  if halted || r.halted then (r, some .sessionHalted)
  else if isPaused then (r, some .paused)
  else if !withinWindow then (r, some .outsideEntryWindow)
  -- the two loss rules halt for good, and refuse with it
  else if 3 ≤ r.consecutiveLosses then (r.halt .threeConsecutiveLosses, some .threeStrikes)
  else if r.realizedPnl ≤ -maxDailyLoss then (r.halt .maxDailyLoss, some .maxDailyLoss)
  else (r, none)

/-- The per-trade budget in shares, a quarter of it while the day is not green. `int` truncates. -/
def DemoRisk.budgetShares (r : DemoRisk) (perTradeRisk riskPerShare : ℚ) : ℤ :=
  let shares := ⌊perTradeRisk / riskPerShare⌋
  if r.realizedPnl ≤ 0 then roundDown ((shares : ℚ) * (1 / 4)) else shares

/-! ## Orders -/

/-- A `client_order_id`: its prefix, the symbol, and the second it was made in. -/
inductive DemoOrderId where
  /-- `demo-` -/
  | entry (symbol : Symbol) (second : ℤ)
  /-- `demo-scale-` -/
  | scale (symbol : Symbol) (second : ℤ)
  /-- `manual-` -/
  | manual (symbol : Symbol) (second : ℤ)
  deriving DecidableEq, Repr

/-- A limit order sent to the broker. -/
structure DemoOrder where
  clientOrderId : DemoOrderId
  symbol : Symbol
  side : Side
  qty : ℤ
  limitPrice : ℚ
  deriving DecidableEq

/-! ## The entry gate -/

/-- The flags of the entry gate. -/
structure GateFlags where
  e1Universe : Bool
  e2Pullback : Bool
  e3Breakout : Bool
  e4Macd : Bool
  e5Retrace : Bool
  e6L2Bypassed : Bool
  e7Spread : Bool
  deriving DecidableEq, Repr

/-- `_GateResult`; no flags means there were too few bars. -/
structure GateResult where
  passes : Bool
  flags : Option GateFlags
  entryPrice : Option ℚ
  stopPrice : Option ℚ
  targetPrice : Option ℚ
  pattern : DemoPattern

/-- `_GateResult(False, {"E0_insufficient_bars": False})`. -/
def GateResult.insufficientBars : GateResult := ⟨false, none, none, none, none, .microPullback⟩

/-- `_evaluate_entry_gate`. The last three bars are the pullback and the breakout; the surge is
`bars[-8:-3]`, or `bars[:-3]` when there are fewer than eight bars. -/
def GateResult.evaluateEntryGate (bars : List BarTick) (spread : ℚ) (e6Enabled : Bool) : GateResult :=
  match bars.reverse with
  | breakout :: second :: first :: older =>
      -- E0: the flags are not computed at all
      if bars.length < 6 then .insufficientBars
      else
        -- `bars[-8:-3]`, oldest first
        let surge := (older.take 5).reverse
        let e2 := decide (first.close.val < first.openPrice.val)
          && decide (second.close.val < second.openPrice.val)
        let e3 := decide (second.high.val < breakout.high.val)
        let e4 := macdPositive ((macd (bars.map (·.close.val))).getLast?.join)
        let surgeHigh := (surge.map (·.high.val)).foldl max (max first.high.val second.high.val)
        let surgeStart := match surge with
          | b :: _ => b.low.val
          | [] => first.low.val
        let pullbackLow := min first.low.val second.low.val
        let surgeRange := surgeHigh - surgeStart
        let e5 := decide (0 < surgeRange)
          && decide (surgeHigh - demoRetraceMax * surgeRange ≤ pullbackLow)
        let e6 := !e6Enabled
        let e7 := decide (demoSpreadMin ≤ spread) && decide (spread ≤ demoSpreadMax)
        let entry := breakout.close.val
        let risk := entry - pullbackLow
        { passes := e2 && e3 && e4 && e5 && e6 && e7
          flags := some ⟨true, e2, e3, e4, e5, e6, e7⟩
          entryPrice := some entry
          stopPrice := some pullbackLow
          -- two R above the entry
          targetPrice := some (if 0 < risk then entry + risk * 2 else entry)
          pattern := .microPullback }
  | _ => .insufficientBars

/-! ## The exit rules -/

/-- What `_run_exits` decides for a position. -/
inductive ExitDecision where
  | hold
  | full (reason : DemoExit)
  | scale
  deriving DecidableEq, Repr

/-- P1, then P2, then P5. -/
def exitDecision (pos : DemoPosition) (price : ℚ) (now : Time) : ExitDecision :=
  let unrealizedPs := price - pos.entryPrice
  let elapsed := now - pos.entryTime
  if price ≤ pos.stopPrice then .full .p1HardStop
  -- P2 and P5 look only at a position that has not been scaled
  else if demoBailoutSeconds ≤ elapsed ∧ unrealizedPs < demoBailoutMove ∧ pos.scaled = false then
    .full .p2TimeStop
  else if pos.scaled = false ∧ 0 < pos.entryPrice
      ∧ demoScaleProfitPct ≤ unrealizedPs / pos.entryPrice then .scale
  else .hold

/-! ## Lemmas -/

@[simp] theorem DemoRisk.halted_halt (r : DemoRisk) (reason : DemoHaltReason) :
    (r.halt reason).halted = true := by
  unfold DemoRisk.halt
  split
  · assumption
  · rfl

@[simp] theorem DemoRisk.halted_recordClose (r : DemoRisk) (pnl : ℚ) :
    (r.recordClose pnl).halted = r.halted := by
  unfold DemoRisk.recordClose
  dsimp only
  split <;> rfl

/-- **What passes the gates is not halted**, and nothing is changed by passing. -/
theorem DemoRisk.guard_none {r r' : DemoRisk} {halted paused window : Bool} {m : ℚ}
    (h : r.guard halted paused window m = (r', none)) :
    r' = r ∧ halted = false ∧ r.halted = false ∧ paused = false ∧ window = true := by
  unfold DemoRisk.guard at h
  split at h
  · exact absurd h (by simp)
  rename_i hh
  split at h
  · exact absurd h (by simp)
  rename_i hp
  split at h
  · exact absurd h (by simp)
  rename_i hw
  split at h
  · exact absurd h (by simp)
  split at h
  · exact absurd h (by simp)
  simp only [Bool.or_eq_true, not_or, Bool.not_eq_true, Bool.not_eq_false'] at hh hp hw
  exact ⟨(Prod.mk.inj h).1.symm, hh.1, hh.2, hp, hw⟩

end RossBot
