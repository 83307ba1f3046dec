import RossBot.Live.Freeze
import RossBot.Live.Ledger
import RossBot.Risk.Budget
import RossBot.Scanner.TwoTier
import RossBot.Strategy.Charts

/-!
# What the live session buys

Every BUY of a run, whatever the tasks do to each other: it is for a symbol that
passed the scan, on a 1-minute bar whose MACD is warm, before the hard stop, and while
fewer positions have been opened than a day may have. Its size is what the ramp leaves
of an approved one; and as the risk manager hears of no gain, that size is cut by the
ice-breaker on every trade of the day, not only on the first.

The engine reads the charts of the log (`Fed`), so the bars alone call for every BUY.
-/

namespace RossBot

open Lib

/-- A reward ratio that asks for something, and multipliers between 0 and 1. -/
structure SoundConfig (cfg : Config) : Prop where
  ratio : 0 < cfg.rrMin
  monday : 0 ≤ cfg.dowMondayMult ∧ cfg.dowMondayMult ≤ 1
  friday : 0 ≤ cfg.dowFridayMult ∧ cfg.dowFridayMult ≤ 1
  cold : 0 ≤ cfg.marketStateColdMult ∧ cfg.marketStateColdMult ≤ 1

/-- The bars of a symbol that went through the strategy engine. -/
def barsOf (symbol : Symbol) (log : List Event) : List BarTick :=
  (judgedBars log).filter fun b => b.symbol = symbol

/-- What `run` is told. -/
def Env.briefing (env : Env) : Briefing where
  cfg := env.cfg
  symbols := env.symbols
  scanResults := env.scanResults
  l2Signals := env.l2Signals
  marketState := env.marketState

/-- The BUYs sent so far. -/
def sentBuys : List Event → List EntryOrder :=
  List.filterMap fun
    | .buySubmitted o => some o
    | _ => none

theorem mem_sentBuys {log : List Event} {o : EntryOrder} :
    o ∈ sentBuys log ↔ .buySubmitted o ∈ log := by
  unfold sentBuys
  rw [List.mem_filterMap]
  constructor
  · rintro ⟨e, he, ho⟩
    cases e with
    | buySubmitted o' => rwa [← Option.some.inj ho]
    | _ => exact absurd ho (by simp)
  · intro h
    exact ⟨_, h, rfl⟩

/-- **What holds of a BUY when it is sent**, after the events `before`. -/
structure SoundBuy (env : Env) (before : List Event) (o : EntryOrder) : Prop where
  /-- Fewer positions have been opened than a day may have. -/
  trades : ((openedPositions before).length : ℤ) < env.cfg.maxTradesPerDay
  time : env.timeOfDay o.bar.ts ≤ env.cfg.hardStopTime
  /-- The symbol passed the five pillars when it was scanned. -/
  scanned : ∃ scan, env.scanResults o.bar.symbol = some scan ∧ scan.tierBPass = true
  minute : o.bar.timeframe = "1m"
  /-- The engine has seen enough bars of it, this one included. -/
  warm : 34 ≤ (barsOf o.bar.symbol before).length
  stop : o.signal.stopPrice.val < o.signal.entryPrice.val
  positive : 0 < o.shares
  /-- The capital ramp has nothing more to take away. -/
  ramp : rampApply env.cfg o.shares = o.shares
  icebreaker : o.shares ≤ max 1 ⌊(env.cfg.maxSize : ℚ) * env.cfg.icebreakerFraction⌋
  /-- The loss at the stop, counted from the price of the signal; the limit is `BUY_OFFSET` above. -/
  budget : env.cfg.sizingMode = .riskFormula →
    lossAtStop o.signal.entryPrice.val o.signal.stopPrice.val o.shares
      ≤ env.cfg.perTradeRiskDollars

/-! ## The ramp -/

theorem rampApply_le (cfg : Config) (n : ℤ) : rampApply cfg n ≤ n := by
  unfold rampApply
  split
  · exact min_le_left ..
  · exact min_le_left ..
  · exact le_rfl

/-- What the ramp leaves it leaves again. -/
theorem rampApply_rampApply (cfg : Config) (n : ℤ) :
    rampApply cfg (rampApply cfg n) = rampApply cfg n := by
  unfold rampApply
  split
  · exact min_eq_left (min_le_right ..)
  · exact min_eq_left (min_le_right ..)
  · rfl

namespace World

variable {env : Env} {w w' : World}

/-! ## How many are opened -/

theorem tradesToday_retireAll (price : Symbol → ℚ) (bs : List (Symbol × LivePosition)) :
    (retireAll env price w bs).risk.tradesToday = w.risk.tradesToday := by
  induction bs generalizing w with
  | nil => rfl
  | cons b bs ih =>
      have hcons : retireAll env price w (b :: bs)
          = retireAll env price (dropOrphan env price w b) bs := rfl
      rw [hcons, ih, dropOrphan_eq]
      rfl

/-- A step counts a trade exactly when it opens a position. -/
theorem BookStep.trades (h : BookStep env w w') :
    (w'.risk.tradesToday : ℤ) - (openedPositions w'.log).length
      = w.risk.tradesToday - (openedPositions w.log).length := by
  cases h with
  | aside ha => rw [ha.risk, ha.openedPositions]
  | judged _ _ hj =>
      cases hj <;> rw [openedPositions_append_of_none (by simp)]
  -- one position more, in the log and in the counter
  | opened _ _ _ ha =>
      rw [ha.risk, ha.openedPositions, openPosition_log, openedPositions_append]
      simp [openPosition, RiskState.recordOpen, openedPositions]
  | @sold o p _ ha =>
      -- a close records no opening
      have hlog : openedPositions (w.retire env o.symbol o.pos p o.limit).log
          = openedPositions w.log := by
        rw [retire, openedPositions_append_of_none (by simp)]
      rw [ha.risk, ha.openedPositions, hlog]
      rfl
  | @soldTwice o _ ha =>
      have hlog : openedPositions (w.recordClose env o.symbol o.pos).log
          = openedPositions w.log := by
        rw [recordClose, openedPositions_append_of_none (by simp)]
      rw [ha.risk, ha.openedPositions, hlog]
      rfl
  | remarked _ ha => rw [ha.risk, ha.openedPositions]
  | @dropped price bs _ _ ha =>
      -- nor does a position that is dropped
      have hlog : openedPositions (retireAll env price w bs).log = openedPositions w.log := by
        obtain ⟨o, e, r, es, h, hes⟩ := retireAll_footprint env w price bs
        rw [h, openedPositions_append_of_none]
        intro e he p hp
        rcases hes e he with ⟨q, hq⟩ | ⟨q, x, r, hq⟩
        · exact absurd (hp.symm.trans hq) (by simp)
        · exact absurd (hp.symm.trans hq) (by simp)
      rw [ha.risk, ha.openedPositions, hlog, tradesToday_retireAll]

/-- **The count the risk manager keeps, and the room that an entry in flight has.** -/
structure Counted (env : Env) (w : World) : Prop where
  trades : w.risk.tradesToday = (openedPositions w.log).length
  entry : ∀ {o rest call}, w.barTask = .awaitEntryAck o rest call →
    ((openedPositions w.log).length : ℤ) < env.cfg.maxTradesPerDay
  le : ((openedPositions w.log).length : ℤ) ≤ max 0 env.cfg.maxTradesPerDay
  /-- An entry in flight was sent. -/
  sent : ∀ {o rest call}, w.barTask = .awaitEntryAck o rest call → o ∈ sentBuys w.log
  /-- A position is what a BUY that was sent became. -/
  bought : ∀ p ∈ openedPositions w.log, ∃ o ∈ sentBuys w.log, ∃ ack : OrderAck,
    ack.accepted = true ∧ p = entryPosition o ack

theorem counted_init : Counted env (init env) :=
  ⟨rfl, fun h => absurd h (by simp [init]), by simp [init, openedPositions],
    fun h => absurd h (by simp [init]), fun p hp => absurd hp (by simp [init, openedPositions])⟩

/-- An order in flight is in the log. -/
theorem sent_step {l : Label} (hr : Reached env w) (hs : step env w l = some w')
    (h : ∀ o rest call, w.barTask = .awaitEntryAck o rest call → o ∈ sentBuys w.log)
    {o : EntryOrder} {rest : List Signal} {call : Call OrderAck}
    (hb : w'.barTask = .awaitEntryAck o rest call) : o ∈ sentBuys w'.log := by
  obtain ⟨es, hlog, -⟩ := (hr.footprint hs).log
  by_cases hw : .nextRef ∈ l.writes
  · cases l with
    | barQuote quote =>
        obtain ⟨bar, -, -, -, ⟨-, rfl⟩ | ⟨-, hj⟩⟩ := barQuote_cases (task_some hs).2
        · exact absurd hb (by simp)
        · cases hj with
          | quiet | lost | scale | sell => exact absurd hb (by simp)
          | buy =>
              obtain ⟨rfl, -, -⟩ := BarTask.awaitEntryAck.inj hb
              exact mem_sentBuys.mpr (by simp)
    | _ => exact absurd hw (by simp [Label.writes])
  · -- no order is made
    rcases entry_step hr hs hb with ⟨call', hb', -⟩ | ⟨-, -, -, -, -, hn⟩
    · rw [mem_sentBuys, hlog]
      exact List.mem_append_left _ (mem_sentBuys.mp (h o rest call' hb'))
    · have hsame : w'.nextRef = w.nextRef := (hr.footprint hs).same .nextRef hw
      omega

/--
**Preserved by every step.**

The risk manager counts in the step that tracks a position, and the gate of the BUY in
flight was passed with room for one more. Nothing else opens one meanwhile, as the bar
loop is the one that would.
-/
theorem counted_step {l : Label} (hr : Reached env w) (h : Counted env w)
    (hs : step env w l = some w') : Counted env w' := by
  have hb := step_book hr hs
  have htrades : (w'.risk.tradesToday : ℤ) = (openedPositions w'.log).length := by
    have := hb.trades
    have := h.trades
    omega
  have hgrown : ∀ o, o ∈ sentBuys w.log → o ∈ sentBuys w'.log := by
    intro o ho
    obtain ⟨es, hlog, -⟩ := (hr.footprint hs).log
    rw [mem_sentBuys, hlog]
    exact List.mem_append_left _ (mem_sentBuys.mp ho)
  refine ⟨htrades, ?_, ?_, fun ho => sent_step hr hs (fun _ _ _ => h.sent) ho, ?_⟩
  · intro o rest call ho
    -- the book is as it was, or a position was opened
    rcases hb.opened_or with ⟨hsame, -⟩ | ⟨-, -, -, -, hw', -, -, -⟩
    · rw [hsame]
      rcases entry_step hr hs ho with ⟨call', ho', -⟩ | ⟨bar, sig, -, -, heo, -⟩
      · exact h.entry ho'
      · obtain ⟨-, -, -, -, -, hgate⟩ := entryOrder_some heo
        rw [← h.trades]
        exact hgate.trades
    · exact absurd (ho.symm.trans hw') (by simp)
  · rcases hb.opened_or with ⟨hsame, -⟩ | ⟨o, ack, ho, -, -, -, -, hmore⟩
    · rw [hsame]
      exact h.le
    · -- the order had passed the gate, so there was room for one more
      have := h.entry ho
      rw [hmore, List.length_append, List.length_singleton]
      push_cast
      omega
  · intro p hp
    rcases hb.opened_or with ⟨hsame, -⟩ | ⟨o, ack, ho, hack, -, -, -, hmore⟩
    · obtain ⟨o, ho, hsome⟩ := h.bought p (hsame ▸ hp)
      exact ⟨o, hgrown o ho, hsome⟩
    · rw [hmore] at hp
      -- opened before, or just now: the order was among those sent
      rcases List.mem_append.mp hp with hp | hp
      · obtain ⟨o, ho, hsome⟩ := h.bought p hp
        exact ⟨o, hgrown o ho, hsome⟩
      · exact ⟨o, hgrown o (h.sent ho), ack, hack, List.mem_singleton.mp hp⟩

theorem counted_reached (h : Reached env w) : Counted env w :=
  h.invariant counted_init fun _ _ _ hr hi hs => counted_step hr hi hs

/-! ## What the engine has seen -/

/-- No bar was judged. -/
theorem judgedBars_append_of_none {es fs : List Event} (h : ∀ e ∈ fs, ∀ b s, e ≠ .onBar b s) :
    judgedBars (es ++ fs) = judgedBars es := by
  have hnil : judgedBars fs = [] := by
    unfold judgedBars
    rw [List.filterMap_eq_nil_iff]
    intro e he
    cases e with
    | onBar b s => exact absurd rfl (h _ he b s)
    | _ => rfl
  have happend : judgedBars (es ++ fs) = judgedBars es ++ judgedBars fs := List.filterMap_append
  rw [happend, hnil, List.append_nil]

theorem reads_retireAll {charts : Symbol → List BarTick} (price : Symbol → ℚ)
    (bs : List (Symbol × LivePosition)) (h : env.briefing.Reads w.engine charts) :
    env.briefing.Reads (retireAll env price w bs).engine charts := by
  induction bs generalizing w with
  | nil => exact h
  | cons b bs ih =>
      have hcons : retireAll env price w (b :: bs)
          = retireAll env price (dropOrphan env price w b) bs := rfl
      rw [hcons, dropOrphan_eq]
      exact ih (h.setPosition b.1 none)

/-- What a judged bar leaves in the log. -/
theorem Judged.onBar_mem {bar : BarTick} (h : Judged env w bar w') :
    ∃ sigs es, w'.log = w.log ++ .onBar bar sigs :: es := by
  cases h with
  | quiet | lost | scale | buy | sell => exact ⟨_, _, rfl⟩

/-- A step that judges no bar adds to no chart, and the engine reads them as before. -/
theorem reads_of_quiet {l : Label} {charts : Symbol → List BarTick} (hr : Reached env w)
    (hs : step env w l = some w') (hl : ∀ b s, l.emits (.onBar b s) = false)
    (h : env.briefing.Reads w.engine charts) :
    judgedBars w'.log = judgedBars w.log ∧ env.briefing.Reads w'.engine charts := by
  obtain ⟨es, hlog, hes⟩ := (hr.footprint hs).log
  refine ⟨?_, ?_⟩
  · rw [hlog, judgedBars_append_of_none]
    intro e he b s heq
    rw [heq] at he
    exact absurd (hes _ he) (by simp [hl])
  · -- the engine is told of openings and closings, and its charts stay
    cases step_book hr hs with
    | aside ha => rwa [ha.engine]
    | @judged bar _ _ _ _ hj =>
        obtain ⟨sigs, fs, hfs⟩ := hj.onBar_mem
        exact absurd (hr.emits hs hfs List.mem_cons_self) (by simp [hl])
    | opened _ _ _ ha => rw [ha.engine]; exact h.setPosition _ _
    | sold _ ha => rw [ha.engine]; exact h.setPosition _ _
    | soldTwice _ ha => rw [ha.engine]; exact h.setPosition _ _
    | remarked _ ha => rwa [ha.engine]
    | dropped _ _ ha => rw [ha.engine]; exact reads_retireAll _ _ h

/-- What the loop over the signals of a bar adds to the log: a BUY is for one of them. -/
theorem runSignals_log (env : Env) (bar : BarTick) (sigs : List Signal) (w : World) :
    (runSignals env bar sigs w).engine = w.engine
      ∧ ∃ es, (runSignals env bar sigs w).log = w.log ++ es
        ∧ (∀ e ∈ es, ∀ b s, e ≠ .onBar b s)
        ∧ ∀ o, .buySubmitted o ∈ es → ∃ sig, .entry sig ∈ sigs
          ∧ w.entryOrder env sig bar = some o := by
  induction sigs generalizing w with
  | nil => exact ⟨rfl, [], by simp [runSignals], by simp, by simp⟩
  | cons sig sigs ih =>
      -- the loop goes on in a world that differs in its log
      have later : ∀ w₁ fs, w₁.engine = w.engine → w₁.log = w.log ++ fs →
          (∀ e ∈ fs, (∀ b s, e ≠ .onBar b s) ∧ ∀ o, e ≠ .buySubmitted o) →
          (∀ sig, w₁.entryOrder env sig bar = w.entryOrder env sig bar) →
          (runSignals env bar sigs w₁).engine = w.engine
            ∧ ∃ es, (runSignals env bar sigs w₁).log = w.log ++ es
              ∧ (∀ e ∈ es, ∀ b s, e ≠ .onBar b s)
              ∧ ∀ o, .buySubmitted o ∈ es → ∃ sig', .entry sig' ∈ sig :: sigs
                ∧ w.entryOrder env sig' bar = some o := by
        intro w₁ fs heng hlog hfs horder
        obtain ⟨h1, es, h2, h3, h4⟩ := ih w₁
        refine ⟨h1.trans heng, fs ++ es, by rw [h2, hlog, List.append_assoc], ?_, ?_⟩
        · intro e he
          rcases List.mem_append.mp he with he | he
          · exact (hfs e he).1
          · exact h3 e he
        · intro o ho
          rcases List.mem_append.mp ho with ho | ho
          · exact absurd rfl ((hfs _ ho).2 o)
          · obtain ⟨sig', hmem, hsome⟩ := h4 o ho
            exact ⟨sig', List.mem_cons_of_mem _ hmem, horder sig' ▸ hsome⟩
      have same := later w [] rfl (by simp) (by simp) fun _ => rfl
      cases sig with
      | entry sig =>
          rw [runSignals]
          split
          · exact same
          · split
            · exact same
            · rename_i order ho
              refine ⟨rfl, [.buySubmitted order], rfl, by simp, ?_⟩
              intro o hmem
              obtain rfl := Event.buySubmitted.inj (List.mem_singleton.mp hmem)
              exact ⟨sig, List.mem_cons_self, ho⟩
      | exit sig =>
          rw [runSignals]
          split
          · exact same
          · split
            · split
              · exact same
              · exact ⟨rfl, [_], rfl, by simp, by simp⟩
            · split
              · exact same
              · exact later _ [_] rfl rfl (by simp) fun _ => rfl
      | failedPattern f => rw [runSignals]; exact same

/-- Where a bar goes: its quote fails, or the engine judges it and its signals are run. -/
theorem barQuote_judges {quote : Option QuoteTick} (h : barQuote env quote w = some w') :
    ∃ bar scan l2, w.barTask = .awaitQuote bar scan l2
      ∧ (w' = { w with barTask := .ended }
        ∨ ∃ spread, w' = runSignals env bar
            (w.engine.onBar env.cfg bar scan l2 spread env.marketState).2
            { w with
              engine := (w.engine.onBar env.cfg bar scan l2 spread env.marketState).1
              log := w.log ++ [.onBar bar
                (w.engine.onBar env.cfg bar scan l2 spread env.marketState).2] }) := by
  unfold barQuote at h
  split at h
  · rename_i bar scan l2 hb
    refine ⟨bar, scan, l2, hb, ?_⟩
    split at h
    · exact Or.inl (Option.some.inj h).symm
    · exact Or.inr ⟨_, (Option.some.inj h).symm⟩
  · exact absurd h (by simp)

/-- **The engine reads the charts of the log**, and a bar that waits for its quote is of a symbol
that was scanned. -/
structure Fed (env : Env) (w : World) : Prop where
  quote : ∀ {bar scan l2}, w.barTask = .awaitQuote bar scan l2 →
    env.scanResults bar.symbol = some scan ∧ l2 = env.l2Signals bar.symbol
  reads : env.briefing.Reads w.engine fun s => barsOf s w.log

theorem fed_init : Fed env (init env) := by
  refine ⟨fun h => absurd h (by simp [init]), ?_⟩
  have hstart : (init env).engine = env.briefing.refed [] := (Briefing.refed_nil env.briefing).symm
  rw [hstart]
  exact .start

/-- A judged bar is the last of its symbol's chart. -/
theorem barsOf_judged (log : List Event) {bar : BarTick} {sigs : List Signal} {fs : List Event}
    (hfs : ∀ e ∈ fs, ∀ b s, e ≠ .onBar b s) (s : Symbol) :
    barsOf s ((log ++ [.onBar bar sigs]) ++ fs)
      = barsOf s log ++ if bar.symbol = s then [bar] else [] := by
  have hone : judgedBars (log ++ [.onBar bar sigs]) = judgedBars log ++ [bar] := by
    rw [judgedBars, List.filterMap_append]
    rfl
  rw [barsOf, judgedBars_append_of_none hfs, hone, List.filter_append, ← barsOf]
  split
  · rename_i hs
    rw [List.filter_cons_of_pos (by simpa using hs), List.filter_nil]
  · rename_i hs
    rw [List.filter_cons_of_neg (by simpa using hs), List.filter_nil]

/--
**Preserved by every step.**

The engine's state changes in two ways: a bar is judged, and stands on the chart of its
symbol from then on; or a position is opened or closed, which what is read off the
charts does not depend on. Only a scanned symbol's bar begins to wait for a quote.
-/
theorem fed_step {l : Label} (hr : Reached env w) (h : Fed env w)
    (hs : step env w l = some w') : Fed env w' := by
  refine ⟨?_, ?_⟩
  · intro bar scan l2 hb
    -- the bar loop waits for the quote of a bar that was scanned
    by_cases hw : .barTask ∈ l.writes
    · cases l with
      | takeBar bar' =>
          obtain ⟨hb0, ⟨-, rfl⟩ | ⟨-, -, rfl⟩ | ⟨scan', -, -, hscan, rfl⟩⟩ :=
            takeBar_cases (task_some hs).2
          · exact absurd hb (by simp)
          · exact absurd (hb0.symm.trans hb) (by simp)
          · obtain ⟨rfl, rfl, rfl⟩ := BarTask.awaitQuote.inj hb
            exact ⟨hscan, rfl⟩
      | feedEnds =>
          obtain ⟨-, rfl⟩ := feedEnds_cases (task_some hs).2
          exact absurd hb (by simp)
      | barQuote quote =>
          obtain ⟨_, -, -, -, ⟨-, rfl⟩ | ⟨-, hj⟩⟩ := barQuote_cases (task_some hs).2
          · exact absurd hb (by simp)
          · cases hj <;> exact absurd hb (by simp)
      | barResume =>
          cases barResume_cases (noRest_reached hr) (task_some hs).2 <;> exact absurd hb (by simp)
      | barAnswer reply filled =>
          obtain ⟨o, rest, -, -, -, rfl⟩ | ⟨o, bar', rest, -, -, -, rfl⟩ := barAnswer_cases hs
          · exact absurd hb (by simp)
          · exact absurd hb (by simp)
      | _ => simp [Label.writes] at hw
    · have hsame : w'.barTask = w.barTask := (hr.footprint hs).same .barTask hw
      exact h.quote (hsame ▸ hb)
  · -- a bar goes on its own symbol's chart, and on no other
    by_cases hl : ∀ b s, l.emits (.onBar b s) = false
    · obtain ⟨hjudged, hreads⟩ := reads_of_quiet hr hs hl h.reads
      unfold barsOf
      rwa [hjudged]
    · cases l with
      | barQuote quote =>
          obtain ⟨bar, scan, l2, hb, rfl | ⟨spread, rfl⟩⟩ := barQuote_judges (task_some hs).2
          · exact h.reads
          · obtain ⟨hscan, rfl⟩ := h.quote hb
            obtain ⟨heng, es, hlog, hes, -⟩ := runSignals_log env bar
              (env.briefing.judge w.engine bar scan spread).2
              { w with
                engine := (env.briefing.judge w.engine bar scan spread).1
                log := w.log ++ [.onBar bar (env.briefing.judge w.engine bar scan spread).2] }
            have hcharts := @barsOf_judged w.log bar
              (env.briefing.judge w.engine bar scan spread).2 es hes
            refine Eq.mpr (congrArg (fun e => env.briefing.Reads e _) heng) ?_
            refine h.reads.judge hscan ?_ fun s hs => ?_
            · exact (congrArg (barsOf bar.symbol) hlog).trans ((hcharts _).trans (by simp))
            · exact (congrArg (barsOf s) hlog).trans ((hcharts _).trans (by simp [Ne.symm hs]))
      | _ => exact absurd (fun _ _ => rfl) hl

theorem fed_reached (h : Reached env w) : Fed env w :=
  h.invariant fed_init fun _ _ _ hr hi hs => fed_step hr hi hs

/-! ## Every BUY -/

/-- An order is the ramp's part of a positive size that passed the gate. -/
theorem entryOrder_sized {sig : EntrySignal} {bar : BarTick} {o : EntryOrder}
    (h : w.entryOrder env sig bar = some o) :
    ∃ size, o.shares = rampApply env.cfg size ∧ 0 < size
      ∧ size = computeSize sig w.risk env.cfg sig.marketState (env.dayOfWeek bar.ts) none := by
  unfold entryOrder at h
  dsimp only at h
  split at h
  · exact absurd h (by simp)
  · rename_i happ
    split at h
    · exact absurd h (by simp)
    · obtain ⟨-, hshares, hpos⟩ := RiskState.evaluate_approved (by simpa using happ)
      refine ⟨_, ?_, hpos, hshares⟩
      rw [← Option.some.inj h]

/-- **An order that is made of an entry signal**, in this state and with these events before it: a
bar has been judged, and its signals are gone through. -/
inductive Decided (env : Env) (w : World) : List Event → EntryOrder → Prop where
  | mk {bar : BarTick} {scan : ScanResult} {spread : ℚ} {sig : EntrySignal} {o : EntryOrder}
      {fs : List Event} : env.scanResults bar.symbol = some scan →
      .entry sig ∈ (env.briefing.judge w.engine bar scan spread).2 →
      w.entryOrder env sig bar = some o → (∀ e ∈ fs, ∀ b s, e ≠ .onBar b s) →
      (∀ e ∈ fs, ∀ p, e ≠ .opened p) →
      Decided env w
        ((w.log ++ [.onBar bar (env.briefing.judge w.engine bar scan spread).2]) ++ fs) o

theorem buys_step {P : List Event → EntryOrder → Prop}
    (hP : ∀ w before o, Reached env w → Decided env w before o → P before o) {l : Label}
    (hr : Reached env w)
    (h : EachAt (fun before e => ∀ o, e = .buySubmitted o → P before o) w.log)
    (hs : step env w l = some w') :
    EachAt (fun before e => ∀ o, e = .buySubmitted o → P before o) w'.log := by
  obtain ⟨es, hlog, hes⟩ := (hr.footprint hs).log
  by_cases hl : ∀ o, l.emits (.buySubmitted o) = false
  · rw [hlog]
    refine h.extend fun e he b o heq => ?_
    rw [heq] at he
    exact absurd (hes _ he) (by simp [hl])
  · cases l with
    | barQuote quote =>
        obtain ⟨bar, scan, l2, hb, rfl | ⟨spread, rfl⟩⟩ := barQuote_judges (task_some hs).2
        · exact h
        · obtain ⟨hscan, rfl⟩ := (fed_reached hr).quote hb
          obtain ⟨-, fs, hfs, hquiet, hbuy⟩ := runSignals_log env bar
            (env.briefing.judge w.engine bar scan spread).2
            { w with
              engine := (env.briefing.judge w.engine bar scan spread).1
              log := w.log ++ [.onBar bar (env.briefing.judge w.engine bar scan spread).2] }
          refine Eq.mpr (congrArg _ hfs) ?_
          rw [eachAt_append]
          refine ⟨h.extend (by simp), ?_⟩
          rintro before e after hsplit o rfl
          have hmem : ∀ e ∈ before, e ∈ fs := by
            intro e he
            rw [hsplit]
            exact List.mem_append_left _ he
          obtain ⟨sig, hsig, ho⟩ := hbuy o (by rw [hsplit]; simp)
          refine hP w _ o hr (.mk hscan hsig ho (fun e he => hquiet e (hmem e he)) ?_)
          rintro e he p rfl
          -- judging a bar opens nothing
          have hemit := hr.emits hs (hfs.trans (List.append_assoc w.log [_] fs))
            (List.mem_append_right _ (hmem _ he))
          exact absurd hemit (by simp [Label.emits])
    | _ => exact absurd (fun _ => rfl) hl

/-- **What holds of an order when it is decided holds of every BUY.** -/
theorem buys_reached {P : List Event → EntryOrder → Prop}
    (hP : ∀ w before o, Reached env w → Decided env w before o → P before o)
    (hr : Reached env w) :
    EachAt (fun before e => ∀ o, e = .buySubmitted o → P before o) w.log :=
  hr.invariant (I := fun w : World =>
    EachAt (fun before e => ∀ o, e = .buySubmitted o → P before o) w.log)
    eachAt_nil fun _ _ _ hr hi hs => buys_step hP hr hi hs

/-- **An order is decided by the chart.** -/
theorem Decided.called {before : List Event} {o : EntryOrder} (hr : Reached env w)
    (h : Decided env w before o) : ∃ chart, barsOf o.bar.symbol before = chart ++ [o.bar]
      ∧ env.briefing.CallsFor chart o.bar o.signal := by
  obtain ⟨hscan, hsig, ho, hjudged, -⟩ := h
  obtain ⟨rfl, rfl, -⟩ := entryOrder_some ho
  refine ⟨barsOf o.bar.symbol w.log, ?_, (fed_reached hr).reads.callsFor hscan hsig⟩
  rw [barsOf_judged w.log hjudged, if_pos rfl]

theorem Decided.charted {before : List Event} {o : EntryOrder} (hr : Reached env w)
    (h : Decided env w before o) : ∃ chart, barsOf o.bar.symbol before = chart ++ [o.bar]
      ∧ env.briefing.ChartedEntry chart o.bar o.signal := by
  obtain ⟨chart, hchart, hcalls⟩ := h.called hr
  refine ⟨chart, hchart, hcalls.charted fun c hc => ?_⟩
  have hmem : c ∈ barsOf o.bar.symbol before := hchart ▸ List.mem_append_left _ hc
  simpa using (List.mem_filter.mp hmem).2

/--
**An order that is decided is a sound one.** The chart answers for the symbol and its
bars, the gate of the risk manager for the time and the ratio, `compute_size` for the
icebreaker and the budget; the ramp comes last and only takes away.
-/
theorem Decided.sound (hcfg : SoundConfig env.cfg) {before : List Event} {o : EntryOrder}
    (hr : Reached env w) (h : Decided env w before o) : SoundBuy env before o := by
  -- before the case split, which forgets that the bar was judged
  obtain ⟨chart, hchart, hentry⟩ := h.charted hr
  obtain ⟨hscan, hsig, ho, hjudged, hopened⟩ := h
  have hledger := zeroLedger_reached hr
  obtain ⟨rfl, rfl, -, -, hpos, hgate⟩ := entryOrder_some ho
  -- `size` is what was approved, `o.shares` what the ramp left of it
  obtain ⟨size, hshares, hsize, hcompute⟩ := entryOrder_sized ho
  have hwithin := sizedWithin_computeSize
    ⟨hcfg.monday, hcfg.friday, hcfg.cold, hentry.conviction⟩ (hcompute ▸ hsize)
  rw [← hcompute] at hwithin
  have hle : o.shares ≤ size := hshares ▸ rampApply_le env.cfg size
  -- a reward worth its risk has a risk
  have hstop : o.signal.stopPrice.val < o.signal.entryPrice.val :=
    EntrySignal.stop_lt_entry (lt_of_lt_of_le hcfg.ratio hgate.ratio)
  refine
    { trades := ?_
      time := hgate.time
      scanned := hentry.scanned
      minute := hentry.minute
      warm := ?_
      stop := hstop
      positive := hpos
      ramp := by rw [hshares, rampApply_rampApply]
      icebreaker := hle.trans (hwithin.icebreaker hledger.pnl.le)
      budget := fun hmode => ?_ }
  · -- nothing was opened while the bar was judged, and the risk manager counts the rest
    rw [openedPositions_append_of_none hopened, openedPositions_append_of_none (by simp),
      ← (counted_reached hr).trades]
    exact hgate.trades
  · rw [hchart, List.length_append, List.length_singleton]
    exact hentry.warm
  · have hbudget := hwithin.budget hmode
    calc lossAtStop o.signal.entryPrice.val o.signal.stopPrice.val o.shares
        ≤ lossAtStop o.signal.entryPrice.val o.signal.stopPrice.val size :=
          lossAtStop_mono hstop.le hle
      _ ≤ env.cfg.perTradeRiskDollars := by rw [lossAtStop, mul_comm]; exact hbudget

theorem soundBuys_reached (hcfg : SoundConfig env.cfg) (hr : Reached env w) :
    EachAt (fun before e => ∀ o, e = .buySubmitted o → SoundBuy env before o) w.log :=
  buys_reached (fun _ _ _ hr h => h.sound hcfg hr) hr

/-- Whatever the configuration, the scan of a bought symbol let it through. -/
theorem scannedBuys_reached (hr : Reached env w) :
    EachAt (fun _ e => ∀ o, e = .buySubmitted o →
      ∃ scan, env.scanResults o.bar.symbol = some scan ∧ scan.tierBPass = true) w.log :=
  buys_reached (fun _ _ _ hr h => (h.charted hr).elim fun _ hchart => hchart.2.scanned) hr

end World

/-- **Every BUY is a sound one**, in every interleaving of the session's tasks with the broker and
the feed. -/
theorem buys_sound {env : Env} (hcfg : SoundConfig env.cfg) (x : LiveRun env) :
    EachAt (fun before e => ∀ o, e = .buySubmitted o → SoundBuy env before o) x.final.log :=
  World.soundBuys_reached hcfg (x.reachable x.visits_final)

/-- The breakout of the trading day is bought. -/
def breakoutBought : LiveRun tradingDay := play (beforeBreakout ++ breakout 100)

theorem soundConfig_defaults : SoundConfig Config.defaults :=
  ⟨by decide +kernel, by decide +kernel, by decide +kernel, by decide +kernel⟩

/-- It is the day's one BUY, and a sound one. -/
theorem buys_sound_breakout : (sentBuys breakoutBought.final.log).map (·.shares) = [100]
    ∧ EachAt (fun before e => ∀ o, e = .buySubmitted o → SoundBuy tradingDay before o)
      breakoutBought.final.log :=
  ⟨by decide +kernel, buys_sound soundConfig_defaults breakoutBought⟩

/-- **A day has its number of trades.** In every state of every run, the risk manager has counted
the positions that were opened; there are at most `MAX_TRADES_PER_DAY` of them, each what an accepted
BUY of the session became. -/
theorem opened_le_maxTrades {env : Env} (x : LiveRun env) (w : World) (h : x.Visits w) :
    w.risk.tradesToday = (openedPositions w.log).length
      ∧ ((openedPositions w.log).length : ℤ) ≤ max 0 env.cfg.maxTradesPerDay
      ∧ ∀ p ∈ openedPositions w.log, ∃ o ∈ sentBuys w.log, ∃ ack : OrderAck,
        ack.accepted = true ∧ p = World.entryPosition o ack := by
  have hc := World.counted_reached (x.reachable h)
  exact ⟨hc.trades, hc.le, hc.bought⟩

theorem opened_le_maxTrades_breakout :
    ((openedPositions breakoutBought.final.log).length : ℤ)
      ≤ max 0 tradingDay.cfg.maxTradesPerDay :=
  (opened_le_maxTrades breakoutBought _ breakoutBought.visits_final).2.1

/-! ## With the scanner -/

open Scanner in
/-- **Only the five pillars are bought.** When the session is run with the results of a scan, every
BUY of every run is for a symbol whose candidate passed the five pillars. -/
theorem buys_fivePillars {env : Env} (s : TwoTierScanner)
    (cs : List Scanner.ScanCandidate)
    (hscan : ∀ symbol scan, env.scanResults symbol = some scan →
      ∃ r ∈ s.scan cs, r.candidate.symbol = symbol ∧ scan = r.forStrategy)
    (x : LiveRun env) :
    ∀ o ∈ sentBuys x.final.log, ∃ c ∈ cs, c.symbol = o.bar.symbol ∧ s.FivePillars c := by
  intro o ho
  obtain ⟨before, after, hsplit⟩ := List.append_of_mem (mem_sentBuys.mp ho)
  have hevery := World.scannedBuys_reached (x.reachable x.visits_final)
  obtain ⟨scan, hresult, hpass⟩ := hevery before _ after hsplit o rfl
  obtain ⟨r, hr, hsym, rfl⟩ := hscan _ scan hresult
  rw [TwoTierScanner.scan, mem_ranked] at hr
  obtain ⟨c, hc, rfl⟩ := List.mem_map.mp hr
  exact ⟨c, hc, hsym, TwoTierScanner.tierBPass_iff.mp hpass⟩

/-- The candidate of the trading day's symbol. -/
def dayCandidate : Scanner.ScanCandidate where
  symbol := "TEST"
  price := cents 1000
  changePct := cents 1500
  gapPct := cents 0
  rvol := some (.of 20)
  rvolConfidence := .high
  floatShares := some 4000000
  floatConfidence := .medium
  catalyst := .verified
  marketRank := some 1
  recentReverseSplit := false

theorem buys_fivePillars_breakout : ∃ o ∈ sentBuys breakoutBought.final.log,
    ∃ c ∈ [dayCandidate], c.symbol = o.bar.symbol
      ∧ Scanner.TwoTierScanner.defaults.FivePillars c := by
  have hone : (sentBuys breakoutBought.final.log).length = 1 := by decide +kernel
  obtain ⟨o, ho⟩ := List.exists_mem_of_length_pos (hone ▸ Nat.one_pos)
  refine ⟨o, ho, buys_fivePillars .defaults [dayCandidate] ?_ breakoutBought o ho⟩
  intro symbol scan hresult
  refine ⟨Scanner.TwoTierScanner.defaults.evaluate dayCandidate, List.mem_cons_self, ?_⟩
  have hif : (if symbol = "TEST" then
      some (⟨⟨some (.of 20), some 4000000, false⟩, true, .prime⟩ : ScanResult) else none)
      = some scan := hresult
  split at hif
  · rename_i hsym
    refine ⟨hsym.symm, (Option.some.inj hif).symm.trans ?_⟩
    have hpass : (Scanner.TwoTierScanner.defaults.evaluate dayCandidate).tierBPass = true := by
      decide +kernel
    rw [Scanner.ScanResult.forStrategy, hpass]
    rfl
  · exact absurd hif (by simp)

end RossBot
