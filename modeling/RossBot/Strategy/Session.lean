import Mathlib.Data.List.DropRight
import RossBot.Lib.Runs
import RossBot.Lib.Window
import RossBot.Strategy.Engine

/-!
# A session of the strategy engine

`StrategyEngine` is driven by its callers: they reset a symbol, feed bars, record
fills and move stops, in any order. A list of such calls is the history, and what
the claims call the bars of the session are read off it (`sessionBars`), not off
the engine's state.

The one thing the engine keeps of the bars themselves is the window of the last
fifty 1-minute ones (`window_engineAfter`).
-/

namespace RossBot

open Lib

/-! ## Calls -/

/-- What the callers of a `StrategyEngine` ask of it. -/
inductive StrategyCall where
  | resetSession (symbol : Symbol) (prevClose gapPct : ℚ)
  | openPosition (symbol : Symbol) (entryPrice stopPrice targetPrice : ℚ) (shares : ℤ) (ts : Time)
  | closePosition (symbol : Symbol)
  | updateStop (symbol : Symbol) (newStop : ℚ)
  | setHaltedResume (symbol : Symbol) (value : Bool)
  | setMarketRank (symbol : Symbol) (rank : Option ℤ)
  | onBar (bar : BarTick) (scan : ScanResult) (l2 : L2Signal) (spread : ℚ) (state : MarketState)

namespace StrategyEngine

/-- `set_halted_resume`. -/
def setHaltedResume (e : StrategyEngine) (symbol : Symbol) (value : Bool) : StrategyEngine :=
  e.setState symbol { e symbol with isHaltedResume := value }

/-- `set_market_rank`. -/
def setMarketRank (e : StrategyEngine) (symbol : Symbol) (rank : Option ℤ) : StrategyEngine :=
  e.setState symbol { e symbol with marketRank := rank }

/-- What a call makes of the engine. -/
def answer (cfg : Config) (e : StrategyEngine) : StrategyCall → StrategyEngine
  | .resetSession symbol prevClose gapPct =>
      e.setState symbol { SymbolState.default with prevClose := some prevClose, gapPct := gapPct }
  | .openPosition symbol entry stop target shares ts =>
      e.openPosition symbol entry stop target shares ts
  | .closePosition symbol => e.closePosition symbol
  | .updateStop symbol newStop => e.updateStop symbol newStop
  | .setHaltedResume symbol value => e.setHaltedResume symbol value
  | .setMarketRank symbol rank => e.setMarketRank symbol rank
  | .onBar bar scan l2 spread state => (e.onBar cfg bar scan l2 spread state).1

end StrategyEngine

/-- The engine after some calls. -/
def engineAfter (cfg : Config) (calls : List StrategyCall) : StrategyEngine :=
  calls.foldl (StrategyEngine.answer cfg) .new

/-! ## The bars of the session -/

/-- What a call adds to the bars of the symbol's session. -/
def sessionStep (symbol : Symbol) (bars : List BarTick) : StrategyCall → List BarTick
  | .resetSession sym _ _ => if sym = symbol then [] else bars
  | .onBar bar _ _ _ _ => if bar.symbol = symbol then bars ++ [bar] else bars
  | _ => bars

/-- The bars of a symbol since its session began, oldest first. -/
def sessionBars (symbol : Symbol) (calls : List StrategyCall) : List BarTick :=
  calls.foldl (sessionStep symbol) []

/-- The 1-minute ones. -/
def minuteBars (bars : List BarTick) : List BarTick := bars.filter fun b => b.timeframe = "1m"

/-- A bar whose open and close lie between its low and its high. -/
structure BarTick.WellFormed (b : BarTick) : Prop where
  low_le_open : b.low.val ≤ b.openPrice.val
  low_le_close : b.low.val ≤ b.close.val
  open_le_high : b.openPrice.val ≤ b.high.val
  close_le_high : b.close.val ≤ b.high.val

instance (b : BarTick) : Decidable b.WellFormed :=
  decidable_of_iff (b.low.val ≤ b.openPrice.val ∧ b.low.val ≤ b.close.val
      ∧ b.openPrice.val ≤ b.high.val ∧ b.close.val ≤ b.high.val)
    ⟨fun h => ⟨h.1, h.2.1, h.2.2.1, h.2.2.2⟩, fun h => ⟨h.1, h.2, h.3, h.4⟩⟩

/-- A call brings no other bar than a well-formed one. -/
def StrategyCall.WellFormed : StrategyCall → Prop
  | .onBar bar _ _ _ _ => bar.WellFormed
  | _ => True

theorem sessionBars_wellFormed {symbol : Symbol} {calls : List StrategyCall}
    (h : ∀ c ∈ calls, c.WellFormed) : ∀ b ∈ sessionBars symbol calls, b.WellFormed := by
  induction calls using List.reverseRecOn with
  | nil => simp [sessionBars]
  | append_singleton calls c ih =>
      have hbefore := ih fun c' hc' => h c' (List.mem_append_left _ hc')
      have hc : c.WellFormed := h c (List.mem_append_right _ (List.mem_singleton.mpr rfl))
      rw [sessionBars, foldl_snoc]
      change ∀ b ∈ sessionStep symbol (sessionBars symbol calls) c, b.WellFormed
      cases c with
      | resetSession sym pc gap =>
          -- a session begins: its bars are forgotten
          simp only [sessionStep]
          split
          · simp
          · exact hbefore
      | onBar bar scan l2 spread state =>
          -- a bar of another symbol is not this session's
          simp only [sessionStep]
          split
          · intro b hb
            rcases List.mem_append.mp hb with hb | hb
            · exact hbefore b hb
            · rw [List.mem_singleton.mp hb]
              exact hc
          · exact hbefore
      | openPosition | closePosition | updateStop | setHaltedResume | setMarketRank =>
          exact hbefore

/-! ## The window -/

/-- Pushing onto the window keeps its last bars. -/
theorem pushWindow_rtake {n : ℕ} (bars : List BarTick) (b : BarTick) :
    pushWindow n (bars.rtake n) b = (bars ++ [b]).rtake n := rtake_push n bars b

/-- A bar enters the window exactly when it is a 1-minute bar. -/
theorem SymbolState.onBar_window (cfg : Config) (s : SymbolState) (bar : BarTick)
    (scan : ScanResult) (l2 : L2Signal) (spread : ℚ) (state : MarketState) :
    (s.onBar cfg bar scan l2 spread state).1.barsOneMin
      = if bar.timeframe = "1m" then pushWindow 50 s.barsOneMin bar else s.barsOneMin := by
  unfold SymbolState.onBar SymbolState.readBar
  dsimp only
  -- whatever is signalled, the window is written by `read_bar` alone
  by_cases hminute : bar.timeframe = "1m"
  · rw [if_pos hminute, if_pos hminute]
    cases s.position with
    | none => rfl
    | some p =>
        dsimp only
        cases evaluateExit cfg (p.mark bar.close) _ with
        | none => rfl
        | some sig =>
            dsimp only
            split <;> rfl
  · rw [if_neg hminute, if_neg hminute]
    split <;> rfl

/-- A state of one symbol with the window it had leaves every window as it was. -/
theorem StrategyEngine.window_setState {e : StrategyEngine} {sym symbol : Symbol} {s : SymbolState}
    (h : s.barsOneMin = (e sym).barsOneMin) :
    (e.setState sym s symbol).barsOneMin = (e symbol).barsOneMin := by
  by_cases hsym : symbol = sym
  · subst hsym
    rw [setState_self, h]
  · rw [setState_ne _ _ hsym]

/-- **The engine keeps the last fifty 1-minute bars of the session.** -/
theorem window_engineAfter (cfg : Config) (calls : List StrategyCall) (symbol : Symbol) :
    (engineAfter cfg calls symbol).barsOneMin
      = (minuteBars (sessionBars symbol calls)).rtake 50 := by
  induction calls using List.reverseRecOn with
  | nil => rfl
  | append_singleton calls c ih =>
      rw [engineAfter, sessionBars, foldl_snoc, foldl_snoc]
      change ((engineAfter cfg calls).answer cfg c symbol).barsOneMin
        = (minuteBars (sessionStep symbol (sessionBars symbol calls) c)).rtake 50
      cases c with
      | resetSession sym pc gap =>
          -- a new session empties the window with the bars
          by_cases hsym : sym = symbol
          · subst hsym
            simp [StrategyEngine.answer, sessionStep, StrategyEngine.setState, minuteBars,
              SymbolState.default]
          · rw [sessionStep, if_neg hsym, StrategyEngine.answer,
              StrategyEngine.setState_ne _ _ (Ne.symm hsym), ih]
      | onBar bar scan l2 spread state =>
          change ((engineAfter cfg calls).setState bar.symbol
            ((engineAfter cfg calls bar.symbol).onBar cfg bar scan l2 spread state).1
            symbol).barsOneMin = _
          by_cases hsym : bar.symbol = symbol
          · -- a minute bar is pushed, and one of another timeframe is not
            subst hsym
            rw [sessionStep, if_pos rfl, StrategyEngine.setState_self, SymbolState.onBar_window, ih,
              minuteBars, minuteBars, List.filter_append]
            by_cases hminute : bar.timeframe = "1m"
            · rw [if_pos hminute, pushWindow_rtake]
              simp [hminute]
            · rw [if_neg hminute]
              simp [hminute]
          · rw [sessionStep, if_neg hsym, StrategyEngine.setState_ne _ _ (Ne.symm hsym), ih]
      | openPosition | closePosition | updateStop | setHaltedResume | setMarketRank =>
          change _ = (minuteBars (sessionBars symbol calls)).rtake 50
          rw [← ih]
          exact StrategyEngine.window_setState rfl

/-! ## The signals of a bar -/

section Signals

variable {cfg : Config} {s : SymbolState} {bar : BarTick} {scan : ScanResult} {l2 : L2Signal}
  {spread : ℚ} {state : MarketState}

/-- Only a 1-minute bar is judged. -/
theorem SymbolState.signals_of_other (hother : bar.timeframe ≠ "1m") :
    (s.onBar cfg bar scan l2 spread state).2 = [] := by
  unfold SymbolState.onBar SymbolState.readBar
  dsimp only
  rw [if_neg hother]
  split <;> rfl

/-- Out of a position, it is judged for an entry. -/
theorem SymbolState.signals_of_flat (hminute : bar.timeframe = "1m") (hp : s.position = none) :
    (s.onBar cfg bar scan l2 spread state).2
      = { (s.readBar bar).1 with
          barsOneMin := pushWindow 50 s.barsOneMin bar }.entrySignals cfg bar scan l2 spread state
        (s.readBar bar).2.1 (s.readBar bar).2.2.1 (s.readBar bar).2.2.2 := by
  unfold SymbolState.onBar SymbolState.readBar
  dsimp only
  rw [if_pos hminute, hp]

end Signals

/-- What a symbol must look like to be traded. -/
def anyScan : ScanResult := ⟨⟨none, none, false⟩, true, .prime⟩

end RossBot
