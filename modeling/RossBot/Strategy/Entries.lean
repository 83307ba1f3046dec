import RossBot.Strategy.Pullback
import RossBot.Strategy.Session

/-!
# The entries the engine signals

An entry signal takes its prices from three places: the close of the breakout bar,
the low of the pullback or of the bar before, and twice their difference. They are
in order when the close is above that low. A breakout that must close above the
high of the bar before is always there; one that need only trade above it may
close below its own stop, and the risk is then rewritten to a cent.
-/

namespace RossBot

open Lib

/-! ## Entry signals of a bar -/

/-- The window once the bar is in it. -/
def SymbolState.windowWith (s : SymbolState) (bar : BarTick) : List BarTick :=
  pushWindow 50 s.barsOneMin bar

/-- What the engine asks the gate with a 1-minute bar. -/
def SymbolState.gateOn (cfg : Config) (s : SymbolState) (bar : BarTick) (scan : ScanResult)
    (l2 : L2Signal) (spread : ℚ) (state : MarketState) : EntryGateResult :=
  evaluateEntryGate cfg scan (s.windowWith bar) (s.macdState.update bar.close.val).2 l2 spread state

variable {cfg : Config} {s : SymbolState} {bar : BarTick} {scan : ScanResult} {l2 : L2Signal}
  {spread : ℚ} {state : MarketState} {sig : EntrySignal}

/-- What an entry signal is made of: the gate passed, the bar's close, the stop of `STOP_BASIS`, a
target at twice the risk, and a conviction in its range. -/
structure EntryMadeOf (cfg : Config) (s : SymbolState) (bar : BarTick) (gate : EntryGateResult)
    (ctx : PullbackContext) (sig : EntrySignal) : Prop where
  passes : gate.passes = true
  context : findPullbackContext (s.windowWith bar) cfg.surgeMinCandles cfg.pullbackMaxCandles
    = some ctx
  gate_eq : sig.gate = gate
  entry_eq : sig.entryPrice = bar.close
  stop_eq : sig.stopPrice = stopBasisPrice cfg (s.windowWith bar) ctx
  target_eq : sig.targetPrice = .of (bar.close.val
    + 2 * if bar.close.val - sig.stopPrice.val ≤ 0 then 1 / 100
      else bar.close.val - sig.stopPrice.val)
  conviction : 0 ≤ sig.convictionScore.val ∧ sig.convictionScore.val ≤ 1

/-- A conviction is a fraction: rounding to the grid keeps a score between two points of it. -/
theorem entrySignal_conviction (cfg : Config) (s : SymbolState) (bar : BarTick) (scan : ScanResult)
    (spread : ℚ) (state : MarketState) (gate : EntryGateResult) (ctx : PullbackContext)
    (ema9 vwap : Option ℚ) :
    0 ≤ (entrySignal cfg s bar scan spread state gate ctx ema9 vwap).convictionScore.val
      ∧ (entrySignal cfg s bar scan spread state gate ctx ema9 vwap).convictionScore.val ≤ 1 := by
  have hzero : toMoney 0 = 0 := toMoney_of_onGrid ⟨0, by norm_num⟩
  have hone : toMoney 1 = 1 := toMoney_of_onGrid ⟨10000, by norm_num⟩
  unfold entrySignal
  dsimp only
  rw [Money.val_of]
  obtain ⟨hlow, hhigh⟩ := scoreConviction_mem _ _ _ _ _ _ _ _ _
  refine ⟨?_, ?_⟩
  · exact hzero.symm.trans_le (toMoney_mono (le_trans (by norm_num) hlow))
  · exact (toMoney_mono hhigh).trans_eq hone

/-- Out of a position only, and on a 1-minute bar only, is an entry signalled. -/
theorem SymbolState.flat_of_entry_mem
    (h : Signal.entry sig ∈ (s.onBar cfg bar scan l2 spread state).2) :
    bar.timeframe = "1m" ∧ s.position = none := by
  refine ⟨?_, ?_⟩
  · by_contra hminute
    rw [signals_of_other hminute] at h
    exact absurd h (by simp)
  · rcases s.onBar_cases cfg bar scan l2 spread state with ⟨hsigs, -⟩ | ⟨hp, -⟩
      | ⟨_, _, -, -, -, -, hsigs⟩ | ⟨_, _, -, -, -, -, -, hsigs⟩
    · rw [hsigs] at h
      exact absurd h (by simp)
    · exact hp
    · rw [hsigs] at h
      exact absurd h (by simp)
    · rw [hsigs] at h
      exact absurd h (by simp)

theorem SymbolState.entry_mem_onBar
    (h : Signal.entry sig ∈ (s.onBar cfg bar scan l2 spread state).2) :
    ∃ ctx, EntryMadeOf cfg s bar (s.gateOn cfg bar scan l2 spread state) ctx sig := by
  obtain ⟨hminute, hp⟩ := flat_of_entry_mem h
  rw [signals_of_flat hminute hp] at h
  unfold SymbolState.entrySignals at h
  dsimp only at h
  split at h
  · exact absurd h (by simp)
  · rename_i ctx hctx
    split at h
    · rename_i hpasses
      rw [List.mem_singleton, Signal.entry.injEq] at h
      rw [h]
      exact ⟨ctx, hpasses, hctx, rfl, rfl, rfl, rfl, entrySignal_conviction ..⟩
    · split at h
      · exact absurd h (by simp)
      · exact absurd h (by simp)

/-- An entry carries the market's state it was judged in. -/
theorem SymbolState.entry_marketState
    (h : Signal.entry sig ∈ (s.onBar cfg bar scan l2 spread state).2) :
    sig.marketState = state := by
  obtain ⟨hminute, hp⟩ := flat_of_entry_mem h
  rw [signals_of_flat hminute hp] at h
  unfold SymbolState.entrySignals at h
  dsimp only at h
  split at h
  · exact absurd h (by simp)
  · split at h
    · rw [List.mem_singleton, Signal.entry.injEq] at h
      rw [h]
      rfl
    · split at h
      · exact absurd h (by simp)
      · exact absurd h (by simp)

/-! ## The order of the prices -/

/-- The signal passed E1 to E7, its stop is below its entry and its target above, at twice the
distance. -/
structure EntrySound (sig : EntrySignal) : Prop where
  e1 : sig.gate.e1Universe = true
  e2 : sig.gate.e2Pullback = true
  e3 : sig.gate.e3Crossing = true
  e4 : sig.gate.e4Macd = true
  e5 : sig.gate.e5Retrace = true
  e6 : sig.gate.e6L2 = true
  e7 : sig.gate.e7Spread = true
  stop_lt_entry : sig.stopPrice.val < sig.entryPrice.val
  entry_lt_target : sig.entryPrice.val < sig.targetPrice.val
  twice : sig.rrRatio = 2

/-- The bar closes above the low that `STOP_BASIS` takes for the stop: that of the bar before, or
that of the pullback. -/
def ClosesAboveStop (cfg : Config) (window : List BarTick) (bar : BarTick) : Prop :=
  match cfg.stopBasis with
  | .prevCandleLow => ∀ prior ∈ window.dropLast.getLast?, prior.low.val < bar.close.val
  | .pullbackLow =>
      ∀ ctx ∈ findPullbackContext window cfg.surgeMinCandles cfg.pullbackMaxCandles,
        ctx.pullbackLow.val < bar.close.val

/-- A gate that passes has passed each of its conditions. -/
theorem evaluateEntryGate_passes {bars : List BarTick} {macdPoint : Option MacdPoint}
    (h : (evaluateEntryGate cfg scan bars macdPoint l2 spread state).passes = true) :
    let gate := evaluateEntryGate cfg scan bars macdPoint l2 spread state
    gate.e1Universe = true ∧ gate.e2Pullback = true ∧ gate.e3Crossing = true ∧ gate.e4Macd = true
      ∧ gate.e5Retrace = true ∧ gate.e6L2 = true ∧ gate.e7Spread = true := by
  intro gate
  have hall : gate.passes = (gate.e1Universe && gate.e2Pullback && gate.e3Crossing && gate.e4Macd
    && gate.e5Retrace && gate.e6L2 && gate.e7Spread) := rfl
  have hpasses := hall.symm.trans h
  simp only [Bool.and_eq_true, and_assoc] at hpasses
  exact hpasses

/-- A target at twice the risk is on the grid of the prices. -/
theorem toMoney_twice_risk (close stop : Money) :
    toMoney (close.val + 2 * (close.val - stop.val)) = close.val + 2 * (close.val - stop.val) := by
  obtain ⟨m, hm⟩ := close.onGrid
  obtain ⟨n, hn⟩ := stop.onGrid
  refine toMoney_of_onGrid ⟨3 * m - 2 * n, ?_⟩
  rw [hm, hn]
  push_cast
  ring

/-- An entry signal is sound exactly when the bar closed above its stop. -/
theorem EntryMadeOf.sound_iff {ctx : PullbackContext}
    (h : EntryMadeOf cfg s bar (s.gateOn cfg bar scan l2 spread state) ctx sig) :
    EntrySound sig ↔ sig.stopPrice.val < bar.close.val := by
  constructor
  · intro hsound
    have hlt := hsound.stop_lt_entry
    rwa [h.entry_eq] at hlt
  · intro hlt
    obtain ⟨h1, h2, h3, h4, h5, h6, h7⟩ := evaluateEntryGate_passes h.passes
    -- a target is set from the risk, two to one
    have hrisk : ¬ bar.close.val - sig.stopPrice.val ≤ 0 := by linarith
    have htarget : sig.targetPrice.val
        = bar.close.val + 2 * (bar.close.val - sig.stopPrice.val) := by
      rw [h.target_eq, if_neg hrisk, Money.val_of, toMoney_twice_risk]
    have hratio : sig.rrRatio = 2 := by
      unfold EntrySignal.rrRatio EntrySignal.riskPerShare
      rw [h.entry_eq, if_neg hrisk, htarget, div_eq_iff (by linarith)]
      ring
    refine ⟨?_, ?_, ?_, ?_, ?_, ?_, ?_, ?_, ?_, hratio⟩
    · rw [h.gate_eq]; exact h1
    · rw [h.gate_eq]; exact h2
    · rw [h.gate_eq]; exact h3
    · rw [h.gate_eq]; exact h4
    · rw [h.gate_eq]; exact h5
    · rw [h.gate_eq]; exact h6
    · rw [h.gate_eq]; exact h7
    · rw [h.entry_eq]
      exact hlt
    · rw [h.entry_eq, htarget]
      linarith

/-- The pullback includes the bar before the signal bar. -/
theorem pullbackLow_le_prior {bars : List BarTick} {surgeMin pullbackMax : ℤ}
    {ctx : PullbackContext} {signal prior : BarTick} {rest : List BarTick}
    (h : findPullbackContext bars surgeMin pullbackMax = some ctx)
    (hbars : bars.reverse = signal :: prior :: rest) : ctx.pullbackLow.val ≤ prior.low.val := by
  obtain ⟨-, p, ps, g, gs, hscans, -, -, rfl⟩ := findPullbackContext_eq_some_iff.mp h
  have hred : (bars.reverse.tail.take pullbackMax.toNat).takeWhile isRedCandle = p :: ps :=
    congrArg Prod.fst hscans
  have hprior : p = prior := by
    have hpre : p :: ps <+: prior :: rest := by
      rw [← hred, hbars, List.tail_cons]
      exact (List.takeWhile_prefix _).trans (List.take_prefix _ _)
    exact (List.cons_prefix_cons.mp hpre).1
  have hleast := isLeast_lows (List.reverse_reverse (p :: ps))
  have hle : minOf p.low.val (ps.map (·.low.val)) ≤ p.low.val :=
    hleast.2 ⟨p, List.mem_reverse.mpr List.mem_cons_self, rfl⟩
  rw [← hprior, contextOf, Money.val_of, toMoney_of_mem_lows hleast.1]
  exact hle

/-- A gate that passes saw the bar before, and a close above its high unless the trigger is
mid-candle. -/
theorem evaluateEntryGate_crossing {bars : List BarTick} {macdPoint : Option MacdPoint}
    (h : (evaluateEntryGate cfg scan bars macdPoint l2 spread state).passes = true) :
    ∃ signal prior rest, bars.reverse = signal :: prior :: rest
      ∧ (effectiveTrigger cfg.entryTrigger state = .candleClose →
          prior.high.val < signal.close.val) := by
  obtain ⟨-, -, h3, -⟩ := evaluateEntryGate_passes h
  have h3 : (if 2 ≤ bars.length then e3Crossing bars (effectiveTrigger cfg.entryTrigger state)
      else false) = true := h3
  split at h3
  · unfold e3Crossing at h3
    split at h3
    · rename_i signal prior rest hbars
      refine ⟨signal, prior, rest, hbars, ?_⟩
      intro htrigger
      rw [htrigger] at h3
      exact of_decide_eq_true h3
    · exact absurd h3 (by simp)
  · exact absurd h3 (by simp)

/-- The window of a bar ends with it, after the bars of the session. -/
theorem windowWith_engineAfter (cfg : Config) (calls : List StrategyCall) (bar : BarTick) :
    (engineAfter cfg calls bar.symbol).windowWith bar
      = (minuteBars (sessionBars bar.symbol calls)).rtake 49 ++ [bar] := by
  rw [SymbolState.windowWith, window_engineAfter, pushWindow_rtake, List.rtake_concat_succ]

/-- The bar closes above its stop, said of the stop of the signal. -/
theorem closesAboveStop_iff {window rest : List BarTick} {signal prior : BarTick}
    {ctx : PullbackContext} (hwindow : window.reverse = signal :: prior :: rest)
    (hctx : findPullbackContext window cfg.surgeMinCandles cfg.pullbackMaxCandles = some ctx) :
    ClosesAboveStop cfg window bar ↔ (stopBasisPrice cfg window ctx).val < bar.close.val := by
  have hlast : window.dropLast.getLast? = some prior := by
    rw [← List.head?_reverse, ← List.tail_reverse, hwindow]
    rfl
  unfold ClosesAboveStop stopBasisPrice
  cases cfg.stopBasis with
  | prevCandleLow => simp [hwindow, hlast]
  | pullbackLow => simp [hctx]

/-- Both stops are at most the low of the bar before. -/
theorem stopBasisPrice_le_prior {window rest : List BarTick} {signal prior : BarTick}
    {ctx : PullbackContext} (hwindow : window.reverse = signal :: prior :: rest)
    (hctx : findPullbackContext window cfg.surgeMinCandles cfg.pullbackMaxCandles = some ctx) :
    (stopBasisPrice cfg window ctx).val ≤ prior.low.val := by
  unfold stopBasisPrice
  cases cfg.stopBasis with
  | prevCandleLow => rw [hwindow]
  | pullbackLow => exact pullbackLow_le_prior hctx hwindow

/-- **An entry signal is sound exactly when it was triggered by a close, or the bar closed above
its stop.** -/
theorem entrySound_iff (cfg : Config) (calls : List StrategyCall) (bar : BarTick)
    (scan : ScanResult) (l2 : L2Signal) (spread : ℚ) (state : MarketState) (sig : EntrySignal)
    (hcalls : ∀ c ∈ calls, c.WellFormed)
    (hsig : Signal.entry sig ∈ ((engineAfter cfg calls).onBar cfg bar scan l2 spread state).2) :
    EntrySound sig ↔ (effectiveTrigger cfg.entryTrigger state = .candleClose
      ∨ ClosesAboveStop cfg ((minuteBars (sessionBars bar.symbol calls)).rtake 49 ++ [bar]) bar) := by
  obtain ⟨ctx, hmade⟩ := SymbolState.entry_mem_onBar hsig
  obtain ⟨signal, prior, rest, hwindow, hcrossing⟩ := evaluateEntryGate_crossing hmade.passes
  have hctx := hmade.context
  rw [hmade.sound_iff, hmade.stop_eq, ← windowWith_engineAfter cfg,
    closesAboveStop_iff hwindow hctx, or_iff_right_of_imp]
  intro htrigger
  have hbars : bar :: ((minuteBars (sessionBars bar.symbol calls)).rtake 49).reverse
      = signal :: prior :: rest := by
    rw [← hwindow, windowWith_engineAfter, List.reverse_concat]
  obtain ⟨rfl, hearlier⟩ := List.cons.inj hbars
  -- the bar before is the last of the window's, and a bar of the session
  have hprior : prior.WellFormed := by
    have hmem : prior ∈ ((minuteBars (sessionBars bar.symbol calls)).rtake 49).reverse := by
      rw [hearlier]
      exact List.mem_cons_self
    have hmem : prior ∈ minuteBars (sessionBars bar.symbol calls) :=
      List.mem_of_mem_drop (List.mem_reverse.mp hmem)
    exact sessionBars_wellFormed hcalls prior (List.mem_of_mem_filter hmem)
  calc (stopBasisPrice cfg ((engineAfter cfg calls bar.symbol).windowWith bar) ctx).val
      ≤ prior.low.val := stopBasisPrice_le_prior hwindow hctx
    _ ≤ prior.close.val := hprior.low_le_close
    _ ≤ prior.high.val := hprior.close_le_high
    _ < bar.close.val := hcrossing htrigger

/-- The entry a signal asks for. -/
def Signal.asEntry : Signal → Option EntrySignal
  | .entry sig => some sig
  | _ => none

theorem mem_of_mem_asEntry {signals : List Signal} (h : sig ∈ signals.filterMap Signal.asEntry) :
    Signal.entry sig ∈ signals := by
  obtain ⟨signal, hmem, hentry⟩ := List.mem_filterMap.mp h
  cases signal with
  | entry sig' => rwa [← Option.some.inj hentry]
  | exit | failedPattern => exact absurd hentry (by simp [Signal.asEntry])

/-- Half an hour at ten dollars, two green minutes to 10.40 and a red one to 10.30. -/
def surgeThenRed : List BarTick :=
  (List.range 30).map (fun i => chartBar i 1000 1000 1000 1000 1000)
    ++ [chartBar 30 1000 1020 1000 1020 3000, chartBar 31 1020 1040 1020 1040 3000,
      chartBar 32 1040 1040 1028 1030 1000]

/-- The engine is fed these minutes. -/
def surgeCalls : List StrategyCall :=
  surgeThenRed.map fun bar => .onBar bar anyScan .support (5 / 100) .hot

theorem surgeCalls_wellFormed : ∀ c ∈ surgeCalls, c.WellFormed := by
  intro c hc
  obtain ⟨bar, hbar, rfl⟩ := List.mem_map.mp hc
  have hall : ∀ b ∈ surgeThenRed, b.WellFormed := by decide +kernel
  exact hall bar hbar

/-- A minute that trades above the red one and closes at 10.45 is a sound entry. -/
theorem entrySound_surgeCalls : ∃ sig, Signal.entry sig ∈ ((engineAfter Config.defaults
      surgeCalls).onBar Config.defaults (chartBar 33 1030 1046 1030 1045 3000) anyScan .support
      (5 / 100) .hot).2 ∧ EntrySound sig := by
  have hone : (((engineAfter Config.defaults surgeCalls).onBar Config.defaults
      (chartBar 33 1030 1046 1030 1045 3000) anyScan .support (5 / 100) .hot).2.filterMap
      Signal.asEntry).length = 1 := by decide +kernel
  obtain ⟨sig, hsig⟩ := List.exists_mem_of_length_pos (hone ▸ Nat.one_pos)
  have hsig := mem_of_mem_asEntry hsig
  exact ⟨sig, hsig, (entrySound_iff _ _ _ _ _ _ _ sig surgeCalls_wellFormed hsig).mpr
    (Or.inl (by decide))⟩

/-- Entries on the high of a minute, not on its close. -/
def midCandle : Config := { Config.defaults with entryTrigger := .midCandle }

/-- A minute that trades above the red one and closes at 10.25 is bought with its stop at 10.28. -/
theorem entry_below_stop : ¬ ∀ cfg calls bar scan l2 spread state sig,
    (∀ c ∈ calls, StrategyCall.WellFormed c) → BarTick.WellFormed bar →
    Signal.entry sig ∈ ((engineAfter cfg calls).onBar cfg bar scan l2 spread state).2 →
    EntrySound sig := by
  intro h
  have hbelow : (((engineAfter midCandle surgeCalls).onBar midCandle
      (chartBar 33 1030 1046 1020 1025 3000) anyScan .support (5 / 100) .hot).2.filterMap
      Signal.asEntry).map (fun sig => (sig.stopPrice.val, sig.entryPrice.val))
      = [(1028 / 100, 1025 / 100)] := by decide +kernel
  obtain ⟨sig, hsigs, hsig⟩ := List.map_eq_singleton_iff.mp hbelow
  have hmem : Signal.entry sig ∈ ((engineAfter midCandle surgeCalls).onBar midCandle
      (chartBar 33 1030 1046 1020 1025 3000) anyScan .support (5 / 100) .hot).2 :=
    mem_of_mem_asEntry (by rw [hsigs]; exact List.mem_singleton.mpr rfl)
  have hlt := (h midCandle surgeCalls _ _ _ _ _ sig surgeCalls_wellFormed (by decide +kernel)
    hmem).stop_lt_entry
  obtain ⟨hstop, hentry⟩ := Prod.mk.inj hsig
  rw [hstop, hentry] at hlt
  norm_num at hlt

end RossBot
