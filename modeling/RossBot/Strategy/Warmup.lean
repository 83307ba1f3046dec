import RossBot.Indicators.Seeding
import RossBot.Strategy.Entries

/-!
# What an entry waits for

The engine reads every bar of a symbol into its MACD, of whatever timeframe, and its
window holds the 1-minute ones. E4 wants a positive MACD, so there is no entry before
the thirty-fourth bar since the symbol was last reset; the pullback wants its surge
and its red candles in the window.
-/

namespace RossBot

open Lib

/-- The bar closes the MACD's warm-up, and the grammar of the pullback fits before it. -/
structure WarmedUp (cfg : Config) (calls : List StrategyCall) (bar : BarTick) : Prop where
  minute : bar.timeframe = "1m"
  flat : (engineAfter cfg calls).position bar.symbol = none
  macd : 34 ≤ (sessionBars bar.symbol calls).length + 1
  window : cfg.surgeMinCandles + cfg.pullbackMaxCandles
    ≤ (minuteBars (sessionBars bar.symbol calls)).length

/-- A bar goes into the MACD, whatever else it does. -/
theorem SymbolState.onBar_macd (cfg : Config) (s : SymbolState) (bar : BarTick)
    (scan : ScanResult) (l2 : L2Signal) (spread : ℚ) (state : MarketState) :
    (s.onBar cfg bar scan l2 spread state).1.macdState
      = (s.macdState.update bar.close.val).1 := by
  unfold SymbolState.onBar SymbolState.readBar
  dsimp only
  split
  · cases s.position with
    | none => rfl
    | some p =>
        dsimp only
        cases evaluateExit cfg (p.mark bar.close) _ with
        | none => rfl
        | some sig =>
            dsimp only
            split <;> rfl
  · split <;> rfl

/-- A state of one symbol with the MACD it had leaves every MACD as it was. -/
theorem StrategyEngine.macd_setState {e : StrategyEngine} {sym symbol : Symbol} {s : SymbolState}
    (h : s.macdState = (e sym).macdState) :
    (e.setState sym s symbol).macdState = (e symbol).macdState := by
  by_cases hsym : symbol = sym
  · subst hsym
    rw [setState_self, h]
  · rw [setState_ne _ _ hsym]

/-- **The MACD of a symbol has seen the bars of its session.** -/
theorem macd_engineAfter (cfg : Config) (calls : List StrategyCall) (symbol : Symbol) :
    (engineAfter cfg calls symbol).macdState.Seen (sessionBars symbol calls).length := by
  induction calls using List.reverseRecOn with
  | nil => exact MacdState.seen_new
  | append_singleton calls c ih =>
      rw [engineAfter, sessionBars, foldl_snoc, foldl_snoc]
      change ((engineAfter cfg calls).answer cfg c symbol).macdState.Seen
        (sessionStep symbol (sessionBars symbol calls) c).length
      cases c with
      | resetSession sym pc gap =>
          rw [sessionStep, StrategyEngine.answer]
          by_cases hsym : sym = symbol
          · subst hsym
            rw [if_pos rfl, StrategyEngine.setState_self]
            exact MacdState.seen_new
          · rw [if_neg hsym, StrategyEngine.setState_ne _ _ (Ne.symm hsym)]
            exact ih
      | onBar bar scan l2 spread state =>
          change ((engineAfter cfg calls).setState bar.symbol
            ((engineAfter cfg calls bar.symbol).onBar cfg bar scan l2 spread state).1
            symbol).macdState.Seen _
          rw [sessionStep]
          by_cases hsym : bar.symbol = symbol
          · subst hsym
            rw [if_pos rfl, StrategyEngine.setState_self, SymbolState.onBar_macd,
              List.length_append, List.length_singleton]
            exact (ih.update bar.close.val).1
          · rw [if_neg hsym, StrategyEngine.setState_ne _ _ (Ne.symm hsym)]
            exact ih
      | openPosition | closePosition | updateStop | setHaltedResume | setMarketRank =>
          -- none of these looks at the MACD
          refine Eq.mpr (congrArg (fun m : MacdState => m.Seen _) ?_) ih
          exact StrategyEngine.macd_setState rfl

/-- A pullback is found only in as many bars as its grammar takes. -/
theorem findPullbackContext_length {bars : List BarTick} {surgeMin pullbackMax : ℤ}
    {ctx : PullbackContext} (h : findPullbackContext bars surgeMin pullbackMax = some ctx) :
    surgeMin + pullbackMax + 1 ≤ bars.length := by
  unfold findPullbackContext at h
  split at h
  · exact absurd h (by simp)
  · rename_i hlen
    exact not_lt.mp hlen

/-- **No entry before the warm-up is over.** Whatever the callers did, and in whatever order: a bar
that ends in an entry signal is a 1-minute bar of a symbol without a position, and at least the
thirty-fourth bar of it, of any timeframe, since its session was last reset. -/
theorem entry_warmedUp (cfg : Config) (calls : List StrategyCall) (bar : BarTick)
    (scan : ScanResult) (l2 : L2Signal) (spread : ℚ) (state : MarketState) (sig : EntrySignal)
    (hsig : Signal.entry sig ∈ ((engineAfter cfg calls).onBar cfg bar scan l2 spread state).2) :
    WarmedUp cfg calls bar := by
  obtain ⟨hminute, hflat⟩ := SymbolState.flat_of_entry_mem hsig
  obtain ⟨ctx, hmade⟩ := SymbolState.entry_mem_onBar hsig
  obtain ⟨-, -, -, hmacd, -⟩ := evaluateEntryGate_passes hmade.passes
  have hwindow := findPullbackContext_length hmade.context
  refine ⟨hminute, hflat, (macd_engineAfter cfg calls bar.symbol).le_of_positive hmacd, ?_⟩
  rw [windowWith_engineAfter, List.length_append, List.length_singleton, length_rtake] at hwindow
  have hmin := Nat.min_le_right 49 (minuteBars (sessionBars bar.symbol calls)).length
  omega

/-- The breakout after thirty-three minutes is the first bar that can be an entry. -/
theorem entry_warmedUp_surgeCalls :
    WarmedUp Config.defaults surgeCalls (chartBar 33 1030 1046 1030 1045 3000) := by
  have hone : (((engineAfter Config.defaults surgeCalls).onBar Config.defaults
      (chartBar 33 1030 1046 1030 1045 3000) anyScan .support (5 / 100) .hot).2.filterMap
      Signal.asEntry).length = 1 := by decide +kernel
  obtain ⟨sig, hsig⟩ := List.exists_mem_of_length_pos (hone ▸ Nat.one_pos)
  exact entry_warmedUp _ _ _ _ _ _ _ sig (mem_of_mem_asEntry hsig)

end RossBot
