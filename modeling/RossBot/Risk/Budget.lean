import RossBot.Backtest.Steps
import RossBot.Demo.Trades
import RossBot.Live.Book
import RossBot.Risk.Approval
import RossBot.Strategy.Entries

/-!
# The budget of a trade

A position is sized by the price of its signal, and opened at the limit of its
order, `BUY_OFFSET` above that; the replay adds its slippage. What the stop would
lose is within the budget when it is counted from the signal's price
(`budget_at_signal_price`), not when it is counted from the price recorded.
-/

namespace RossBot

open Lib

/-- What so many shares lose on the way from a price to their stop. -/
def lossAtStop (price stop : ℚ) (shares : ℤ) : ℚ := (price - stop) * (shares : ℚ)

/-- Sized by `risk_formula`, with multipliers that are fractions. -/
structure RiskSized (cfg : Config) : Prop where
  mode : cfg.sizingMode = .riskFormula
  monday : 0 ≤ cfg.dowMondayMult ∧ cfg.dowMondayMult ≤ 1
  friday : 0 ≤ cfg.dowFridayMult ∧ cfg.dowFridayMult ≤ 1
  cold : 0 ≤ cfg.marketStateColdMult ∧ cfg.marketStateColdMult ≤ 1

/-! ## What is approved -/

/-- Fewer shares lose less. -/
theorem lossAtStop_mono {price stop : ℚ} {n m : ℤ} (h : stop ≤ price) (hn : n ≤ m) :
    lossAtStop price stop n ≤ lossAtStop price stop m := by
  have hcast : (n : ℚ) ≤ m := by exact_mod_cast hn
  exact mul_le_mul_of_nonneg_left hcast (sub_nonneg.mpr h)

section Approved

variable {cfg : Config} {s : RiskState} {sig : EntrySignal} {time equity : ℚ} {day : ℕ}
  {cap : Option ℤ} {skip : Bool}

/-- What is sized by its risk has a stop below its entry. -/
theorem stop_lt_entry_of_computeSize (hmode : cfg.sizingMode = .riskFormula)
    (h : 0 < computeSize sig s cfg sig.marketState day cap) :
    sig.stopPrice.val < sig.entryPrice.val := by
  obtain ⟨raw, hraw⟩ := exists_rawSize h
  unfold rawSize at hraw
  rw [hmode] at hraw
  dsimp only at hraw
  split at hraw
  · exact absurd hraw (by simp)
  · rename_i hrisk
    exact sub_pos.mp (not_le.mp hrisk)

/-- **An approved size keeps to the budget**, counted from the signal's price; so does any part of
it. -/
theorem RiskSized.approved (hcfg : RiskSized cfg)
    (hconviction : 0 ≤ sig.convictionScore.val ∧ sig.convictionScore.val ≤ 1)
    (h : (s.evaluate cfg sig time day equity cap skip).approved = true) {n : ℤ}
    (hn : n ≤ (s.evaluate cfg sig time day equity cap skip).shares) :
    lossAtStop sig.entryPrice.val sig.stopPrice.val n ≤ cfg.perTradeRiskDollars := by
  obtain ⟨-, hshares, hpos⟩ := RiskState.evaluate_approved h
  rw [hshares] at hpos hn
  have hbudget := (sizedWithin_computeSize ⟨hcfg.monday, hcfg.friday, hcfg.cold, hconviction⟩
    hpos).budget hcfg.mode
  have hstop := stop_lt_entry_of_computeSize hcfg.mode hpos
  calc lossAtStop sig.entryPrice.val sig.stopPrice.val n
      ≤ lossAtStop sig.entryPrice.val sig.stopPrice.val _ := lossAtStop_mono hstop.le hn
    _ ≤ cfg.perTradeRiskDollars := by rw [lossAtStop, mul_comm]; exact hbudget

end Approved

/-! ## The live session -/

/-- An order of `_handle_entry` loses no more at its stop than the budget, counted from the price of
its signal. -/
def EntryOrder.Budgeted (cfg : Config) (o : EntryOrder) : Prop :=
  lossAtStop (o.limit - cfg.buyOffset) o.signal.stopPrice.val o.shares ≤ cfg.perTradeRiskDollars

/-- Nor does the position it becomes. -/
def LivePosition.Budgeted (cfg : Config) (p : LivePosition) : Prop :=
  lossAtStop (p.entryPrice - cfg.buyOffset) p.stopPrice.val p.shares ≤ cfg.perTradeRiskDollars

namespace World

variable {env : Env} {w w' : World} {o : EntryOrder} {rest : List Signal} {call : Call OrderAck}

theorem entryOrder_budgeted (hcfg : RiskSized env.cfg) {sig : EntrySignal} {bar : BarTick}
    (hconviction : 0 ≤ sig.convictionScore.val ∧ sig.convictionScore.val ≤ 1)
    (h : w.entryOrder env sig bar = some o) : o.Budgeted env.cfg := by
  unfold entryOrder at h
  dsimp only at h
  split at h
  · exact absurd h (by simp)
  · rename_i happroved
    split at h
    · exact absurd h (by simp)
    · rw [← Option.some.inj h, EntryOrder.Budgeted, add_sub_cancel_right]
      refine hcfg.approved hconviction (by simpa using happroved) ?_
      -- the ramp only ever takes shares away
      unfold rampApply
      split
      · exact min_le_left ..
      · exact min_le_left ..
      · exact le_rfl

/-- The order that a bar ends in is that of one of its signals. -/
theorem runSignals_order {bar : BarTick} {sigs : List Signal}
    (h : (runSignals env bar sigs w).barTask = .awaitEntryAck o rest call) :
    ∃ sig w₁, Signal.entry sig ∈ sigs ∧ entryOrder env w₁ sig bar = some o := by
  induction sigs generalizing w with
  | nil => exact absurd h (by simp [runSignals])
  | cons sig sigs ih =>
      have later : ∀ w₁, (runSignals env bar sigs w₁).barTask = .awaitEntryAck o rest call →
          ∃ sig' w₂, Signal.entry sig' ∈ sig :: sigs ∧ entryOrder env w₂ sig' bar = some o := by
        intro w₁ h₁
        obtain ⟨sig', w₂, hmem, ho⟩ := ih h₁
        exact ⟨sig', w₂, List.mem_cons_of_mem _ hmem, ho⟩
      cases sig with
      | entry sig =>
          rw [runSignals] at h
          split at h
          · exact later _ h
          · split at h
            · exact later _ h
            · rename_i order ho
              obtain ⟨rfl, -, -⟩ := BarTask.awaitEntryAck.inj h
              exact ⟨sig, w, List.mem_cons_self, ho⟩
      | exit sig =>
          rw [runSignals] at h
          split at h
          · exact later _ h
          · split at h
            · split at h
              · exact later _ h
              · exact absurd h (by simp)
            · split at h <;> exact later _ h
      | failedPattern f => rw [runSignals] at h; exact later _ h

/-- **An order in flight keeps to the budget**, whatever step is taken. -/
theorem orderBudgeted_step (hcfg : RiskSized env.cfg) {l : Label} (hr : Reached env w)
    (hs : step env w l = some w')
    (h : ∀ o rest call, w.barTask = .awaitEntryAck o rest call → o.Budgeted env.cfg)
    (hb : w'.barTask = .awaitEntryAck o rest call) : o.Budgeted env.cfg := by
  by_cases hw : .nextRef ∈ l.writes
  · cases l with
    | barQuote quote =>
        have hq := (task_some hs).2
        unfold barQuote at hq
        split at hq
        · rename_i bar scan l2 _
          split at hq
          · rw [← Option.some.inj hq] at hb
            exact absurd hb (by simp)
          · rw [← Option.some.inj hq] at hb
            obtain ⟨sig, w₁, hmem, ho⟩ := runSignals_order hb
            obtain ⟨ctx, hmade⟩ := SymbolState.entry_mem_onBar hmem
            exact entryOrder_budgeted hcfg hmade.conviction ho
        · exact absurd hq (by simp)
    | barResume =>
        cases barResume_cases (noRest_reached hr) (task_some hs).2 <;> exact absurd hb (by simp)
    | _ => exact absurd hw (by simp [Label.writes])
  · -- no order is made
    rcases entry_step hr hs hb with ⟨call', hb', -⟩ | ⟨-, -, -, -, -, hn⟩
    · exact h o rest call' hb'
    · have hsame : w'.nextRef = w.nextRef := (hr.footprint hs).same .nextRef hw
      omega

/-- The order in flight and the positions opened so far keep to the budget. -/
structure Budgeted (env : Env) (w : World) : Prop where
  order : ∀ o rest call, w.barTask = .awaitEntryAck o rest call → o.Budgeted env.cfg
  opened : ∀ p ∈ openedPositions w.log, p.Budgeted env.cfg

theorem Budgeted.step (hcfg : RiskSized env.cfg) {l : Label} (hr : Reached env w)
    (h : Budgeted env w) (hs : step env w l = some w') : Budgeted env w' := by
  refine ⟨fun o rest call hb => orderBudgeted_step hcfg hr hs h.order hb, ?_⟩
  intro p hp
  rcases (step_book hr hs).opened_or with ⟨hsame, -⟩ | ⟨o, ack, hb, -, -, -, -, hopened⟩
  · exact h.opened p (hsame ▸ hp)
  · rw [hopened] at hp
    rcases List.mem_append.mp hp with hp | hp
    · exact h.opened p hp
    · rw [List.mem_singleton.mp hp]
      exact h.order o [] _ hb

/-- **In every run of the session.** -/
theorem budgeted_opened (hcfg : RiskSized env.cfg) (x : LiveRun env) :
    ∀ p ∈ openedPositions x.final.log, p.Budgeted env.cfg := by
  have hstart : Budgeted env (init env) := by
    refine ⟨fun o rest call hb => absurd hb (by simp [init]), ?_⟩
    intro p hp
    exact absurd hp (by simp [init, openedPositions])
  exact ((x.reachable x.visits_final).invariant hstart
    fun _ _ _ hr h hs => h.step hcfg hr hs).opened

end World

/-! ## The replay -/

/-- A position of the replay, bought above the price of its signal by the offset and the slippage,
loses no more than the budget when it is counted from that price. -/
def OpenPosition.Budgeted (cfg : Config) (p : OpenPosition) : Prop :=
  ∃ price, p.entryPrice = price + cfg.buyOffset + (slipCents price : ℚ) / 100
    ∧ lossAtStop price p.stopPrice.val p.shares ≤ cfg.perTradeRiskDollars

namespace Replay

variable {env : Backtest} {s s' : Replay} {e : ReplayBar}

/-- Every position opened so far keeps to the budget. -/
def Budgeted (env : Backtest) (s : Replay) : Prop :=
  ∀ e pos n, ReplayEvent.opened e pos n ∈ s.log → pos.Budgeted env.cfg

/-- A partial fill is a part of what was asked for. -/
theorem entryFill_shares_le (rng : ℤ → ℚ) (ask offset : ℚ) (seed : Option ℤ) {n : ℤ}
    (h : 0 < n) : (entryFill rng ask offset n seed).fillShares ≤ n := by
  unfold entryFill
  dsimp only
  split
  · omega
  · exact le_rfl

theorem filledPosition_budgeted (hcfg : RiskSized env.cfg) {sig : EntrySignal}
    (hconviction : 0 ≤ sig.convictionScore.val ∧ sig.convictionScore.val ≤ 1)
    (h : (s.approval env e sig).approved = true) :
    (filledPosition env e sig (s.approval env e sig).shares).Budgeted env.cfg := by
  have hpos : 0 < (s.approval env e sig).shares := by
    obtain ⟨-, hshares, hpos⟩ := RiskState.evaluate_approved h
    exact hpos
  have hfill := entryFill_shares_le env.rng sig.entryPrice.val env.cfg.buyOffset
    (some (env.fillSeed e)) hpos
  exact ⟨sig.entryPrice.val, rfl, hcfg.approved hconviction h hfill⟩

theorem Budgeted.congr (h : s.Budgeted env) (hlog : s'.log = s.log) : s'.Budgeted env := by
  unfold Budgeted
  rw [hlog]
  exact h

theorem Budgeted.snoc (h : s.Budgeted env) {x : ReplayEvent} (hlog : s'.log = s.log ++ [x])
    (hx : ∀ e pos n, x = .opened e pos n → pos.Budgeted env.cfg) : s'.Budgeted env := by
  intro e pos n hmem
  rw [hlog, List.mem_append, List.mem_singleton] at hmem
  rcases hmem with hmem | hmem
  · exact h e pos n hmem
  · exact hx e pos n hmem.symm

theorem Budgeted.completeTrade (h : s.Budgeted env) {pos : OpenPosition} {x f : ℚ}
    {r : TradeExit} : (s.completeTrade env pos e x f r).Budgeted env :=
  h.snoc (completeTrade_log ..) (by simp)

theorem Budgeted.scaleOut (h : s.Budgeted env) {pos : OpenPosition} {stop : Option Money} :
    (s.scaleOut e pos stop).Budgeted env := by
  unfold Replay.scaleOut
  split
  · exact h
  · split
    · exact h
    · exact h.congr rfl

/-- One signal after the other. -/
theorem Budgeted.handleSignals (h : s.Budgeted env) (hcfg : RiskSized env.cfg)
    {sigs : List Signal} (hsigs : ∀ sig, Signal.entry sig ∈ sigs →
      0 ≤ sig.convictionScore.val ∧ sig.convictionScore.val ≤ 1) :
    (handleSignals env e s sigs).Budgeted env := by
  induction sigs generalizing s with
  | nil => rw [handleSignals_nil]; exact h
  | cons sig sigs ih =>
      have later : ∀ t : Replay, t.Budgeted env → (Replay.handleSignals env e t sigs).Budgeted env :=
        fun t ht => ih ht fun sig' hmem => hsigs sig' (List.mem_cons_of_mem _ hmem)
      cases sig with
      | entry sig =>
          rw [Replay.handleSignals]
          split
          · exact later s h
          · dsimp only
            split
            · rename_i happroved
              refine h.snoc rfl fun e' pos n hopened => ?_
              obtain ⟨-, rfl, -⟩ := ReplayEvent.opened.inj hopened
              exact filledPosition_budgeted hcfg (hsigs sig List.mem_cons_self) happroved
            · exact later _ (h.congr rfl)
      | exit sig =>
          rw [Replay.handleSignals]
          split
          · exact later s h
          · split
            · exact h.completeTrade
            · exact later _ h.scaleOut
      | failedPattern f => rw [Replay.handleSignals]; exact later s h

theorem Budgeted.onBar (h : s.Budgeted env) (hcfg : RiskSized env.cfg) :
    (s.onBar env e).Budgeted env := by
  unfold Replay.onBar exitCheck
  split
  · rename_i exited hexited
    split at hexited
    · exact absurd hexited (by simp)
    · split at hexited
      · rw [← Option.some.inj hexited]; exact h.completeTrade
      · split at hexited
        · rw [← Option.some.inj hexited]; exact h.completeTrade
        · exact absurd hexited (by simp)
  · refine Budgeted.handleSignals (h.snoc rfl (by simp)) hcfg fun sig hmem => ?_
    obtain ⟨ctx, hmade⟩ := SymbolState.entry_mem_onBar hmem
    exact hmade.conviction

theorem Budgeted.flattenResidual (h : s.Budgeted env) : (s.flattenResidual env e).Budgeted env := by
  unfold Replay.flattenResidual
  split
  · exact h.completeTrade
  · exact h

theorem Budgeted.finaliseSimDay (h : s.Budgeted env) : s.finaliseSimDay.Budgeted env := by
  unfold Replay.finaliseSimDay
  split
  · exact h
  · exact h.snoc rfl (by simp)

theorem Budgeted.onEvent (h : s.Budgeted env) (hcfg : RiskSized env.cfg) :
    (s.onEvent env e).Budgeted env := by
  have harrive : (s.arrive e).Budgeted env := h.snoc rfl (by simp)
  have hrollover : ((s.arrive e).rollover env e).Budgeted env := by
    unfold Replay.rollover
    split
    · exact harrive
    · exact harrive.flattenResidual.finaliseSimDay.snoc rfl (by simp)
  exact (hrollover.onBar hcfg).congr rfl

/-- **In every replay.** -/
theorem budgeted_end (hcfg : RiskSized env.cfg) (events : List ReplayBar) :
    (replayEnd env events).Budgeted env := by
  have hstart : start.Budgeted env := by
    intro e pos n hmem
    exact absurd hmem (by simp [start])
  have hloop : (replayLoop env events).Budgeted env :=
    foldl_invariant hstart (fun _ _ h => h.onEvent hcfg) events
  unfold replayEnd flush
  split
  · exact hloop.finaliseSimDay
  · exact hloop.flattenResidual.finaliseSimDay

end Replay

/-! ## The dashboard -/

/-- A trade loses no more at the stop that was asked for than the budget, counted from the price
that was asked for. -/
def Trade.Budgeted (cfg : DemoConfig) (t : Trade) : Prop :=
  lossAtStop (t.opened.entryPrice - demoBuyOffset) t.stop t.opened.shares ≤ cfg.perTradeRisk

/-- A size of the dashboard keeps to the budget; a quarter of it does so the more. -/
theorem DemoRisk.budgetShares_le {r : DemoRisk} {budget entry stop : ℚ} (hstop : stop < entry)
    (h : 0 < r.budgetShares budget (entry - stop)) :
    lossAtStop entry stop (r.budgetShares budget (entry - stop)) ≤ budget := by
  -- the stop is below the entry, so the division rounds down to the budget
  have hrisk : 0 < entry - stop := sub_pos.mpr hstop
  have hfloor : lossAtStop entry stop ⌊budget / (entry - stop)⌋ ≤ budget := by
    rw [lossAtStop, mul_comm]
    exact (le_div_iff₀ hrisk).mp (Int.floor_le _)
  refine le_trans (lossAtStop_mono hstop.le ?_) hfloor
  -- the cushion takes a quarter, rounded down, of that many shares
  unfold budgetShares at h ⊢
  dsimp only at h ⊢
  split
  · rename_i hcushion
    rw [if_pos hcushion] at h
    have hone := roundDown_pos.mp h
    have hle : (roundDown ((⌊budget / (entry - stop)⌋ : ℚ) * (1 / 4)) : ℚ)
        ≤ (⌊budget / (entry - stop)⌋ : ℚ) * (1 / 4) := roundDown_le (by linarith)
    have hcast : (roundDown ((⌊budget / (entry - stop)⌋ : ℚ) * (1 / 4)) : ℚ)
        ≤ (⌊budget / (entry - stop)⌋ : ℚ) := by linarith
    exact_mod_cast hcast
  · exact le_rfl

/-- So does the order of a trade. -/
theorem tradesAs_budgeted (env : DemoEnv) : TradesAs env fun qty limitPrice stop =>
    lossAtStop (limitPrice - demoBuyOffset) stop qty ≤ env.cfg.perTradeRisk := by
  intro r entry stop qty hstop hpos hqty
  rw [add_sub_cancel_right]
  exact (lossAtStop_mono hstop.le hqty).trans
    (DemoRisk.budgetShares_le hstop (hpos.trans_le hqty))

/-- **In every run of the dashboard.** -/
theorem Desk.budgeted_trades {env : DemoEnv} (x : DeskRun env) :
    ∀ t ∈ tradesOf x.moves, t.Budgeted env.cfg := Desk.trades_as (tradesAs_budgeted env) x.run

/-! ## What was sized and what was bought -/

theorem riskSized_defaults : RiskSized Config.defaults := by
  refine ⟨rfl, ?_, ?_, ?_⟩ <;> decide +kernel

/-- A dollar is made on a first position, then a trade at 10.00 with its stop at 9.80 is asked
for. -/
def tradeInProfit : List DeskLabel :=
  [.request 0 (.manualOrder "TEST" .buy 100 10), .taskAck 0 orderTaken,
    .request 1 (.closePosition "TEST"), .taskQuote 1 (some ⟨cents 1001, cents 1006⟩),
    .taskAck 1 orderTaken, .request 2 (.manualTrade "NEXT" 10 (98 / 10) 5000),
    .taskAck 2 orderTaken]

/-- The trading day once the ramp is done, with a hundredfold volume. -/
def fullDay : Env :=
  { tradingDay with
    cfg := { Config.defaults with capitalRampTier := .full }
    scanResults := fun s =>
      if s = "TEST" then some ⟨⟨some (.of 100), some 4000000, false⟩, true, .prime⟩ else none }

/-- Two green minutes to 11.10, one back to 10.68, and a breakout: 11.12 with a stop at 10.68. -/
def widePullback : List Label :=
  (List.range 30).flatMap (fun i =>
    [.takeBar (minuteBar i 1000 1000 1000 1000 1000), .barQuote (bidAsk 998 1003)])
  ++ [.takeBar (minuteBar 30 1000 1050 1000 1050 3000), .barQuote (bidAsk 1048 1053),
    .takeBar (minuteBar 31 1050 1110 1050 1110 3000), .barQuote (bidAsk 1108 1113),
    .takeBar (minuteBar 32 1110 1110 1068 1075 1000), .barQuote (bidAsk 1073 1078),
    .takeBar (minuteBar 33 1075 1114 1075 1112 3000)]
  ++ [.barQuote (bidAsk 1109 1114), .barAnswer acceptedAck 2226, .barResume]

/-- The same minutes, replayed. -/
def widePullbackReplayed : List ReplayBar :=
  let minute (i : ℕ) (o h l c : ℤ) (volume : ℕ) : ReplayBar :=
    { candle "TEST" (openingBell + 60 * i) o h l c volume with
      scanResult := ⟨⟨some (.of 100), some 4000000, false⟩, true, .prime⟩ }
  (List.range 30).map (minute · 1000 1000 1000 1000 1000)
  ++ [minute 30 1000 1050 1000 1050 3000, minute 31 1050 1110 1050 1110 3000,
    minute 32 1110 1110 1068 1075 1000, minute 33 1075 1114 1075 1112 3000]

/-- What the stop of an opened position would lose. -/
def ReplayEvent.lossAtStop : ReplayEvent → Option ℚ
  | .opened _ pos _ => some (RossBot.lossAtStop pos.entryPrice pos.stopPrice.val pos.shares)
  | _ => none

end RossBot
