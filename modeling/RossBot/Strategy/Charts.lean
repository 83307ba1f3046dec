import RossBot.Backtest.Sessions
import RossBot.Strategy.Warmup

/-!
# Charts

A session resets its symbols before it starts and never again, and what it does about
positions leaves the rest of the engine alone. So what the engine knows of a symbol is
what a fresh engine knows that was handed the symbol's bars (`Briefing.Reads`), and an
entry it signals is one that the chart calls for (`Briefing.CallsFor`): whoever kept the
bars can have it again.
-/

namespace RossBot

open Lib

/-- What a session is told before it starts, and does not change while it runs. -/
structure Briefing where
  cfg : Config
  symbols : List Symbol
  scanResults : Symbol → Option ScanResult
  l2Signals : Symbol → L2Signal
  marketState : MarketState

namespace Briefing

variable {b : Briefing}

/-- `on_bar`, with what the session was told. -/
def judge (b : Briefing) (e : StrategyEngine) (bar : BarTick) (scan : ScanResult) (spread : ℚ) :
    StrategyEngine × List Signal :=
  e.onBar b.cfg bar scan (b.l2Signals bar.symbol) spread b.marketState

/-- The calls of a session that opens nothing: its resets, and the bars of the symbols that were
scanned. What the quotes were is left open; it is not kept by the engine. -/
def calls (b : Briefing) (bars : List BarTick) : List StrategyCall :=
  b.symbols.map (fun s => .resetSession s 0 0)
    ++ bars.filterMap fun bar => (b.scanResults bar.symbol).map fun scan =>
      .onBar bar scan (b.l2Signals bar.symbol) 0 b.marketState

/-- A fresh engine that is handed these bars. -/
def refed (b : Briefing) (bars : List BarTick) : StrategyEngine := engineAfter b.cfg (b.calls bars)

/-- **The chart calls for the entry**: a fresh engine that is handed the bars before signals it on
this one, at some spread. -/
def CallsFor (b : Briefing) (chart : List BarTick) (bar : BarTick) (sig : EntrySignal) : Prop :=
  ∃ scan spread, b.scanResults bar.symbol = some scan
    ∧ .entry sig ∈ (b.judge (b.refed chart) bar scan spread).2

/-- The engine knows of each symbol what its chart says, whatever position it holds. -/
def Reads (b : Briefing) (e : StrategyEngine) (charts : Symbol → List BarTick) : Prop :=
  ∀ s, SameSession (e s) (b.refed (charts s) s)

/-! ## A fresh engine -/

theorem refed_nil (b : Briefing) :
    b.refed [] = b.symbols.foldl (fun e s => e.resetSession s 0) .new := by
  rw [refed, calls, List.filterMap_nil, List.append_nil, engineAfter, List.foldl_map]
  rfl

theorem refed_snoc (b : Briefing) (bars : List BarTick) {bar : BarTick} {scan : ScanResult}
    (hscan : b.scanResults bar.symbol = some scan) :
    b.refed (bars ++ [bar]) = (b.judge (b.refed bars) bar scan 0).1 := by
  have hcalls : b.calls (bars ++ [bar])
      = b.calls bars ++ [.onBar bar scan (b.l2Signals bar.symbol) 0 b.marketState] := by
    rw [calls, calls, List.filterMap_append, List.append_assoc]
    simp [hscan]
  rw [refed, hcalls, engineAfter, foldl_snoc]
  rfl

/-- Who never opens a position never has one. -/
theorem flat_engineAfter {cfg : Config} {calls : List StrategyCall}
    (h : ∀ sym entry stop target n ts, .openPosition sym entry stop target n ts ∉ calls)
    (s : Symbol) : (engineAfter cfg calls).position s = none := by
  induction calls using List.reverseRecOn with
  | nil => rfl
  | append_singleton calls c ih =>
      have hbefore := ih fun sym entry stop target n ts hc =>
        h sym entry stop target n ts (List.mem_append_left _ hc)
      rw [engineAfter, foldl_snoc]
      change ((engineAfter cfg calls).answer cfg c).position s = none
      cases c with
      -- the one call that would give a position is excluded
      | openPosition sym entry stop target n ts =>
          exact absurd (List.mem_append_right _ (List.mem_singleton.mpr rfl))
            (h sym entry stop target n ts)
      | onBar bar scan l2 spread state => exact position_onBar_none _ _ _ _ _ _ hbefore
      -- the symbol's own position is dropped, another's left as it was
      | resetSession sym | closePosition sym =>
          refine (StrategyEngine.position_setState ..).trans ?_
          split
          · rfl
          · exact hbefore
      -- a stop is moved only where there is a position
      | updateStop sym =>
          refine (StrategyEngine.position_setState ..).trans ?_
          split
          · rename_i hsym
            subst hsym
            exact Option.map_eq_none_iff.mpr hbefore
          · exact hbefore
      | setHaltedResume sym | setMarketRank sym =>
          refine (StrategyEngine.position_setState ..).trans ?_
          split
          · rename_i hsym
            subst hsym
            exact hbefore
          · exact hbefore

theorem refed_flat (b : Briefing) (bars : List BarTick) (s : Symbol) :
    (b.refed bars).position s = none := by
  refine flat_engineAfter ?_ s
  intro sym entry stop target n ts h
  rcases List.mem_append.mp h with h | h
  · obtain ⟨_, -, h⟩ := List.mem_map.mp h
    exact absurd h (by simp)
  · obtain ⟨bar, -, h⟩ := List.mem_filterMap.mp h
    obtain ⟨_, -, h⟩ := Option.map_eq_some_iff.mp h
    exact absurd h (by simp)

/-- There is at most one signal a bar. -/
theorem length_judge_le (b : Briefing) (e : StrategyEngine) (bar : BarTick) (scan : ScanResult)
    (spread : ℚ) : (b.judge e bar scan spread).2.length ≤ 1 := by
  have hcases := SymbolState.onBar_cases b.cfg bar scan (b.l2Signals bar.symbol) spread
    b.marketState (e bar.symbol)
  change ((e bar.symbol).onBar b.cfg bar scan (b.l2Signals bar.symbol) spread
    b.marketState).2.length ≤ 1
  rcases hcases with ⟨h, -⟩ | ⟨-, -, ⟨_, -, h⟩ | ⟨_, h⟩⟩ | ⟨_, _, -, -, -, -, h⟩
    | ⟨_, _, -, -, -, -, -, h⟩
  · rw [h]
    exact Nat.zero_le 1
  all_goals
    rw [h]
    exact Nat.le_refl 1

/-! ## What the engine of a session knows -/

/-- Out of a position, two states that differ in nothing else are the same. -/
theorem sameSession_eq {a c : SymbolState} (h : SameSession a c) (ha : a.position = none)
    (hc : c.position = none) : a = c := by
  have hwhole : ∀ s : SymbolState, s.position = none →
      s = { s.session with prevClose := s.prevClose } := by
    intro s hs
    unfold SymbolState.session
    rw [← hs]
  rw [hwhole a ha, hwhole c hc, h.1, h.2]

theorem Reads.start : b.Reads (b.refed []) fun _ => [] := fun _ => .refl _

/-- What is done about a position changes nothing of it. -/
theorem Reads.setPosition {e : StrategyEngine} {charts : Symbol → List BarTick}
    (h : b.Reads e charts) (sym : Symbol) (p : Option PositionSnapshot) :
    b.Reads (e.setState sym { e sym with position := p }) charts :=
  fun s => (Replay.sameSession_setState (.position _ _) s).trans (h s)

/-- A judged bar goes onto the chart of its symbol. -/
theorem Reads.judge {e : StrategyEngine} {charts charts' : Symbol → List BarTick} {bar : BarTick}
    {scan : ScanResult} {spread : ℚ} (h : b.Reads e charts)
    (hscan : b.scanResults bar.symbol = some scan)
    (hbar : charts' bar.symbol = charts bar.symbol ++ [bar])
    (hother : ∀ s, s ≠ bar.symbol → charts' s = charts s) :
    b.Reads (b.judge e bar scan spread).1 charts' := by
  intro s
  by_cases hs : s = bar.symbol
  · -- the bar's own symbol: one more bar on its chart
    subst hs
    rw [hbar, refed_snoc b _ hscan]
    unfold Briefing.judge StrategyEngine.onBar
    dsimp only
    rw [StrategyEngine.setState_self, StrategyEngine.setState_self]
    have hold := h bar.symbol
    refine ⟨?_, ?_⟩
    · rw [(SymbolState.session_onBar ..).1, (SymbolState.session_onBar ..).1, hold.1]
    · rw [(SymbolState.session_onBar ..).2, (SymbolState.session_onBar ..).2, hold.2]
  · -- another symbol's state is not touched by the bar
    unfold Briefing.judge StrategyEngine.onBar
    dsimp only
    rw [hother s hs, StrategyEngine.setState_ne _ _ hs]
    exact h s

/-- **An entry the session's engine signals is one its chart calls for.** -/
theorem Reads.callsFor {e : StrategyEngine} {charts : Symbol → List BarTick} {bar : BarTick}
    {scan : ScanResult} {spread : ℚ} {sig : EntrySignal} (h : b.Reads e charts)
    (hscan : b.scanResults bar.symbol = some scan)
    (hsig : .entry sig ∈ (b.judge e bar scan spread).2) :
    b.CallsFor (charts bar.symbol) bar sig := by
  obtain ⟨-, hflat⟩ := SymbolState.flat_of_entry_mem hsig
  have hsame : e bar.symbol = b.refed (charts bar.symbol) bar.symbol :=
    sameSession_eq (h bar.symbol) hflat (refed_flat ..)
  refine ⟨scan, spread, hscan, ?_⟩
  unfold Briefing.judge StrategyEngine.onBar at hsig ⊢
  rwa [← hsame]

/-! ## What a chart that calls for an entry looks like -/

section CallsFor

variable {chart : List BarTick} {bar : BarTick} {sig : EntrySignal}

/-- The bars of one scanned symbol are the bars of its session. -/
theorem sessionBars_calls {scan : ScanResult} (hscan : b.scanResults bar.symbol = some scan)
    (hchart : ∀ c ∈ chart, c.symbol = bar.symbol) :
    sessionBars bar.symbol (b.calls chart) = chart := by
  induction chart using List.reverseRecOn with
  | nil =>
      -- without a bar the calls are session starts alone
      rw [calls, List.filterMap_nil, List.append_nil, sessionBars, List.foldl_map]
      refine foldl_invariant (I := fun bars => bars = []) rfl ?_ b.symbols
      intro bars s hbars
      rw [sessionStep, hbars, ite_self]
  | append_singleton chart c ih =>
      have hc : c.symbol = bar.symbol := hchart c (by simp)
      have hsnoc : b.calls (chart ++ [c])
          = b.calls chart ++ [.onBar c scan (b.l2Signals c.symbol) 0 b.marketState] := by
        rw [calls, calls, List.filterMap_append, List.append_assoc]
        simp [hc, hscan]
      rw [hsnoc, sessionBars, foldl_snoc, ← sessionBars,
        ih fun d hd => hchart d (List.mem_append_left _ hd), sessionStep, if_pos hc]

/-- The bar is a 1-minute bar of a symbol that passed the scan, the MACD's thirty-fourth at least;
and unless the trigger is mid-candle, and the market hot, it closes above the high of the 1-minute
bar before. -/
structure ChartedEntry (b : Briefing) (chart : List BarTick) (bar : BarTick) (sig : EntrySignal) :
    Prop where
  minute : bar.timeframe = "1m"
  scanned : ∃ scan, b.scanResults bar.symbol = some scan ∧ scan.tierBPass = true
  warm : 34 ≤ chart.length + 1
  price : sig.entryPrice = bar.close
  conviction : 0 ≤ sig.convictionScore.val ∧ sig.convictionScore.val ≤ 1
  state : sig.marketState = b.marketState
  crossing : effectiveTrigger b.cfg.entryTrigger b.marketState = .candleClose →
    ∃ prior ∈ (minuteBars chart).getLast?, prior.high.val < bar.close.val

theorem CallsFor.charted (h : b.CallsFor chart bar sig)
    (hchart : ∀ c ∈ chart, c.symbol = bar.symbol) : ChartedEntry b chart bar sig := by
  obtain ⟨scan, spread, hscan, hsig⟩ := h
  obtain ⟨hminute, -⟩ := SymbolState.flat_of_entry_mem hsig
  obtain ⟨ctx, hmade⟩ := SymbolState.entry_mem_onBar hsig
  obtain ⟨he1, -, -, hmacd, -⟩ := evaluateEntryGate_passes hmade.passes
  have hbars := sessionBars_calls hscan hchart
  have hwarm := (macd_engineAfter b.cfg (b.calls chart) bar.symbol).le_of_positive hmacd
  rw [hbars] at hwarm
  refine ⟨hminute, ⟨scan, hscan, he1⟩, hwarm, hmade.entry_eq, hmade.conviction,
    SymbolState.entry_marketState hsig, ?_⟩
  intro htrigger
  obtain ⟨signal, prior, rest, hwindow, hcross⟩ := evaluateEntryGate_crossing hmade.passes
  rw [refed, windowWith_engineAfter, hbars, List.reverse_concat] at hwindow
  obtain ⟨rfl, hearlier⟩ := List.cons.inj hwindow
  refine ⟨prior, ?_, hcross htrigger⟩
  -- the bar before is the last of the chart's 1-minute bars
  have hhead : ((minuteBars chart).reverse.take 49).head? = some prior := by
    rw [← List.reverse_reverse ((minuteBars chart).reverse.take 49),
      ← List.rtake_eq_reverse_take_reverse, hearlier]
    rfl
  rw [List.head?_take, if_neg (by decide), List.head?_reverse] at hhead
  exact hhead

end CallsFor

end Briefing

end RossBot
