import RossBot.Strategy.Pullback
import RossBot.Strategy.Session

/-!
# What the engine shows the exit rules

The exit rules are pure; what they decide depends on what `on_bar` hands them. It
raises the intraday high to the high of the bar before it asks, so the rule that
compares the close with that high never sees a break of it; and it hands over the
bars before the current one, at most forty-nine of them, so the time stop judges
momentum without the bar it fires on.
-/

namespace RossBot

open Lib

/-! ## Exit signals of a bar -/

/-- What `on_bar` hands the exit rules with a 1-minute bar. -/
def SymbolState.exitInput (s : SymbolState) (bar : BarTick) (l2 : L2Signal) : ExitInput where
  currentBar := bar
  prevBars := (pushWindow 50 s.barsOneMin bar).dropLast
  currentPrice := bar.close.val
  l2Signal := l2
  vwap := (s.vwapState.update bar.high.val bar.low.val bar.close.val bar.volume).2
  marketRank := s.marketRank
  intradayHigh := if s.intradayHigh < bar.high.val then bar.high.val else s.intradayHigh

variable {cfg : Config} {s : SymbolState} {bar : BarTick} {scan : ScanResult} {l2 : L2Signal}
  {spread : ℚ} {state : MarketState} {sig : ExitSignal} {p : PositionSnapshot} {i : ExitInput}

/-- On a 1-minute bar in a position, the exit rules decide alone. -/
theorem SymbolState.signals_of_held (hminute : bar.timeframe = "1m") (hp : s.position = some p) :
    (s.onBar cfg bar scan l2 spread state).2
      = (evaluateExit cfg (p.mark bar.close) (s.exitInput bar l2)).toList.map .exit := by
  unfold SymbolState.onBar SymbolState.readBar SymbolState.exitInput
  dsimp only
  rw [if_pos hminute, hp]
  dsimp only
  generalize evaluateExit cfg (p.mark bar.close) _ = decision
  cases decision with
  | none => rfl
  | some sig =>
      dsimp only
      split <;> rfl

theorem SymbolState.exit_mem_onBar (hminute : bar.timeframe = "1m") (hp : s.position = some p) :
    Signal.exit sig ∈ (s.onBar cfg bar scan l2 spread state).2
      ↔ evaluateExit cfg (p.mark bar.close) (s.exitInput bar l2) = some sig := by
  rw [signals_of_held hminute hp]
  cases evaluateExit cfg (p.mark bar.close) (s.exitInput bar l2) with
  | none => simp
  | some sig' => simp [eq_comm]

/-- No other bar, and no bar out of a position, ends one. -/
theorem SymbolState.held_of_exit_mem
    (h : Signal.exit sig ∈ (s.onBar cfg bar scan l2 spread state).2) :
    bar.timeframe = "1m" ∧ ∃ p, s.position = some p := by
  refine ⟨?_, ?_⟩
  · by_contra hminute
    rw [signals_of_other hminute] at h
    exact absurd h (by simp)
  · rcases s.onBar_cases cfg bar scan l2 spread state with ⟨hnone, -⟩ | ⟨-, -, hsig⟩
      | ⟨p, -, hp, -⟩ | ⟨p, -, hp, -⟩
    · rw [hnone] at h
      exact absurd h (by simp)
    · rcases hsig with ⟨_, -, hsig⟩ | ⟨_, hsig⟩ <;> rw [hsig] at h <;> exact absurd h (by simp)
    · exact ⟨p, hp⟩
    · exact ⟨p, hp⟩

/-! ## P2 against the bail-out rule -/

/-- The time stop is the reason exactly when the stop was not hit and the rule fires. -/
theorem evaluateExit_timeStop :
    (∃ sig, evaluateExit cfg p i = some sig ∧ sig.reason = .timeStop)
      ↔ p.currentStop.val < i.currentPrice ∧ timeStopFires cfg p i = true := by
  unfold evaluateExit
  dsimp only
  split_ifs with h1 h2
  · exact iff_of_false (by simp [fullExit]) fun h => absurd h.1 (not_lt.mpr h1)
  · exact iff_of_true ⟨_, rfl, rfl⟩ ⟨not_le.mp h1, h2⟩
  all_goals
    refine iff_of_false ?_ fun h => h2 h.2
    simp [fullExit, scaleOut]

/-- Once the rules before it have passed, P5 alone scales out. -/
theorem evaluateExit_scale (h1 : p.currentStop.val < i.currentPrice)
    (h2 : timeStopFires cfg p i = false) (h3 : ¬ (i.l2Signal = .spoof ∨ i.l2Signal = .iceberg))
    (h4 : toppingTailFires i = false) :
    (∃ sig, evaluateExit cfg p i = some sig ∧ sig.reason = .scaleStrength
        ∧ sig.action = .partialScale ∧ sig.newStop = some p.entryPrice)
      ↔ scaleFires cfg p i = true := by
  unfold evaluateExit
  dsimp only
  rw [if_neg (not_le.mpr h1), if_neg (by simp [h2]), if_neg h3, if_neg (by simp [h4])]
  split_ifs with h5
  · exact iff_of_true ⟨_, rfl, rfl, rfl, rfl⟩ h5
  all_goals
    refine iff_of_false ?_ h5
    simp [fullExit]

/-- P2 spells the bail-out rule out in the opposite polarity. -/
theorem timeStopFires_eq : timeStopFires cfg p i
    = isBailoutCondition cfg p.entryTs p.entryPrice.val i.currentPrice
        (i.prevBars.filter fun b => decide (p.entryTs ≤ b.ts)) i.currentBar.ts := by
  unfold timeStopFires isBailoutCondition
  by_cases htime : i.currentBar.ts - p.entryTs < cfg.bailoutSeconds
  · rw [if_pos htime, decide_eq_false (not_le.mpr htime)]
    simp
  · rw [if_neg htime, decide_eq_true (not_lt.mp htime), Bool.true_and]
    by_cases hmove : cfg.bailoutMove ≤ i.currentPrice - p.entryPrice.val
    · rw [if_pos hmove, decide_eq_false (not_lt.mpr hmove), Bool.false_and]
    · rw [if_neg hmove, decide_eq_true (not_le.mp hmove), Bool.true_and]
      cases hasHigherHighOnRisingVolume _ _ <;> rfl

/-- **The two implementations of breakout-or-bailout agree** whenever the stop is not hit. -/
theorem timeStop_iff_isBailoutCondition (cfg : Config) (p : PositionSnapshot) (i : ExitInput)
    (hstop : ¬ i.currentPrice ≤ p.currentStop.val) :
    (∃ sig, evaluateExit cfg p i = some sig ∧ sig.reason = .timeStop)
      ↔ isBailoutCondition cfg p.entryTs p.entryPrice.val i.currentPrice
          (i.prevBars.filter fun b => decide (p.entryTs ≤ b.ts)) i.currentBar.ts = true := by
  rw [evaluateExit_timeStop, timeStopFires_eq, and_iff_right (not_le.mp hstop)]

/-- A position bought at 5.00 at the end of the first minute, with its stop at 4.90. -/
def boughtAtFive : PositionSnapshot :=
  ⟨"TEST", cents 500, cents 490, cents 520, 100, openingBell + 60, cents 500⟩

/-- A minute later it has gained nothing. -/
def stalled : ExitInput where
  currentBar := chartBar 2 500 501 499 500 100
  prevBars := [chartBar 1 500 501 499 500 100]
  currentPrice := 5
  l2Signal := .support
  vwap := none
  marketRank := none
  intradayHigh := 501 / 100

theorem timeStop_iff_isBailoutCondition_stalled :
    ¬ (5 : ℚ) ≤ boughtAtFive.currentStop.val
      ∧ ∃ sig, evaluateExit Config.defaults boughtAtFive stalled = some sig
        ∧ sig.reason = .timeStop := by
  have hstop : ¬ stalled.currentPrice ≤ boughtAtFive.currentStop.val := by decide +kernel
  refine ⟨hstop, (timeStop_iff_isBailoutCondition _ _ _ hstop).mpr ?_⟩
  decide +kernel

/-! ## Momentum since the entry -/

/-- A higher high above the entry price, on equal or greater volume. -/
def Momentum (entryPrice : ℚ) (prev curr : BarTick) : Prop :=
  prev.high.val < curr.high.val ∧ entryPrice < curr.high.val ∧ prev.volume ≤ curr.volume

instance (entryPrice : ℚ) (prev curr : BarTick) : Decidable (Momentum entryPrice prev curr) :=
  inferInstanceAs (Decidable (_ ∧ _))

theorem hasHigherHigh_cons {b : BarTick} {bars : List BarTick} {entryPrice : ℚ} :
    hasHigherHighOnRisingVolume (b :: bars) entryPrice = true
      ↔ (∃ curr ∈ bars.head?, Momentum entryPrice b curr)
        ∨ hasHigherHighOnRisingVolume bars entryPrice = true := by
  cases bars with
  | nil => simp [hasHigherHighOnRisingVolume]
  | cons curr rest =>
      rw [hasHigherHighOnRisingVolume]
      simp [Momentum, and_assoc]

/-- The scan finds a pair of neighbours that shows momentum. -/
theorem hasHigherHigh_iff {bars : List BarTick} {entryPrice : ℚ} :
    hasHigherHighOnRisingVolume bars entryPrice = true
      ↔ ∃ prev curr, [prev, curr] <:+: bars ∧ Momentum entryPrice prev curr := by
  induction bars with
  | nil => simp [hasHigherHighOnRisingVolume]
  | cons b bars ih =>
      -- two neighbours are the first two bars, or lie further on
      have hpair : ∀ prev curr, [prev, curr] <:+: b :: bars
          ↔ (prev = b ∧ curr ∈ bars.head?) ∨ [prev, curr] <:+: bars := by
        intro prev curr
        have hhead : [curr] <+: bars ↔ curr ∈ bars.head? := by
          cases bars with
          | nil => simp
          | cons c cs =>
              rw [List.cons_prefix_cons, List.head?_cons, Option.mem_some_iff, eq_comm]
              simp
        rw [List.infix_cons_iff, List.cons_prefix_cons, hhead]
      rw [hasHigherHigh_cons, ih]
      constructor
      · rintro (⟨curr, hcurr, hm⟩ | ⟨prev, curr, hin, hm⟩)
        · exact ⟨b, curr, (hpair b curr).mpr (Or.inl ⟨rfl, hcurr⟩), hm⟩
        · exact ⟨prev, curr, (hpair prev curr).mpr (Or.inr hin), hm⟩
      · rintro ⟨prev, curr, hin, hm⟩
        rcases (hpair prev curr).mp hin with ⟨rfl, hcurr⟩ | hin
        · exact Or.inl ⟨curr, hcurr, hm⟩
        · exact Or.inr ⟨prev, curr, hin, hm⟩

/-- A pair of neighbours in two lists lies in one of them, or where they meet. -/
theorem hasHigherHigh_append {xs ys : List BarTick} {entryPrice : ℚ} :
    hasHigherHighOnRisingVolume (xs ++ ys) entryPrice = true
      ↔ hasHigherHighOnRisingVolume xs entryPrice = true
        ∨ (∃ prev ∈ xs.getLast?, ∃ curr ∈ ys.head?, Momentum entryPrice prev curr)
        ∨ hasHigherHighOnRisingVolume ys entryPrice = true := by
  induction xs with
  | nil => simp [hasHigherHighOnRisingVolume]
  | cons x xs ih =>
      rw [List.cons_append, hasHigherHigh_cons, hasHigherHigh_cons, ih]
      cases xs with
      | nil => simp [hasHigherHighOnRisingVolume]
      | cons x' xs => simp [or_assoc]

/-- The bars since a position was entered. -/
def barsSinceEntry (p : PositionSnapshot) (bars : List BarTick) : List BarTick :=
  bars.filter fun b => decide (p.entryTs ≤ b.ts)

/-- The exit rules are shown the forty-nine 1-minute bars before the current one. -/
theorem exitInput_prevBars (cfg : Config) (calls : List StrategyCall) (bar : BarTick)
    (l2 : L2Signal) : ((engineAfter cfg calls bar.symbol).exitInput bar l2).prevBars
      = (minuteBars (sessionBars bar.symbol calls)).rtake 49 := by
  change (pushWindow 50 (engineAfter cfg calls bar.symbol).barsOneMin bar).dropLast = _
  rw [window_engineAfter, pushWindow_rtake, List.rtake_concat_succ, List.dropLast_concat]

/-- A bar of a symbol joins the bars of its session. -/
theorem sessionBars_onBar (calls : List StrategyCall) (bar : BarTick) (scan : ScanResult)
    (l2 : L2Signal) (spread : ℚ) (state : MarketState) :
    sessionBars bar.symbol (calls ++ [.onBar bar scan l2 spread state])
      = sessionBars bar.symbol calls ++ [bar] := by
  rw [sessionBars, foldl_snoc]
  exact if_pos rfl

/-- A time stop that comes out on a bar bails no position with momentum: no neighbours among the
1-minute bars since the entry, this one included, show any. -/
def TimeStopRight (cfg : Config) (calls : List StrategyCall) (bar : BarTick) (scan : ScanResult)
    (l2 : L2Signal) (spread : ℚ) (state : MarketState) : Prop :=
  ∀ p, (engineAfter cfg calls).position bar.symbol = some p →
    ∀ sig, Signal.exit sig ∈ ((engineAfter cfg calls).onBar cfg bar scan l2 spread state).2 →
      sig.reason = .timeStop →
      ¬ ∃ prev curr, [prev, curr] <:+: barsSinceEntry p (minuteBars
          (sessionBars bar.symbol (calls ++ [.onBar bar scan l2 spread state])))
        ∧ Momentum p.entryPrice.val prev curr

/-- The momentum the scan cannot see decides nothing: the rule is not due, or there is momentum in
the forty-nine bars that are scanned, or there is none in the pairs that are not, those that reach
further back and the one that ends with the current bar. -/
def MomentumInView (cfg : Config) (p : PositionSnapshot) (earlier : List BarTick)
    (bar : BarTick) : Prop :=
  bar.close.val ≤ p.currentStop.val
    ∨ bar.ts - p.entryTs < cfg.bailoutSeconds
    ∨ cfg.bailoutMove ≤ bar.close.val - p.entryPrice.val
    ∨ hasHigherHighOnRisingVolume (barsSinceEntry p (earlier.rtake 49)) p.entryPrice.val = true
    ∨ (¬ hasHigherHighOnRisingVolume (barsSinceEntry p (earlier.rdrop 49)
          ++ (barsSinceEntry p (earlier.rtake 49)).head?.toList) p.entryPrice.val = true
      ∧ ∀ prev ∈ (barsSinceEntry p earlier).getLast?, p.entryTs ≤ bar.ts →
        ¬ Momentum p.entryPrice.val prev bar)

/-- The momentum since the entry, sorted by what the scan sees of it. -/
theorem hasHigherHigh_barsSinceEntry (p : PositionSnapshot) (earlier : List BarTick)
    (bar : BarTick) (entryPrice : ℚ) :
    hasHigherHighOnRisingVolume (barsSinceEntry p (earlier ++ [bar])) entryPrice = true
      ↔ hasHigherHighOnRisingVolume (barsSinceEntry p (earlier.rtake 49)) entryPrice = true
        ∨ hasHigherHighOnRisingVolume (barsSinceEntry p (earlier.rdrop 49)
            ++ (barsSinceEntry p (earlier.rtake 49)).head?.toList) entryPrice = true
        ∨ ∃ prev ∈ (barsSinceEntry p earlier).getLast?, p.entryTs ≤ bar.ts
            ∧ Momentum entryPrice prev bar := by
  -- the bars so far are those before the window and those in it
  have hsplit : barsSinceEntry p earlier
      = barsSinceEntry p (earlier.rdrop 49) ++ barsSinceEntry p (earlier.rtake 49) := by
    unfold barsSinceEntry List.rdrop List.rtake
    rw [← List.filter_append, List.take_append_drop]
  -- the newest bar counts when it is not before the entry
  have hlast : barsSinceEntry p (earlier ++ [bar])
      = barsSinceEntry p earlier ++ (if p.entryTs ≤ bar.ts then [bar] else []) := by
    unfold barsSinceEntry
    rw [List.filter_append, List.filter_singleton]
    simp
  have hone : ∀ o : Option BarTick, ¬ hasHigherHighOnRisingVolume o.toList entryPrice = true := by
    intro o
    cases o <;> simp [hasHigherHighOnRisingVolume]
  have hbar : ¬ hasHigherHighOnRisingVolume (if p.entryTs ≤ bar.ts then [bar] else []) entryPrice
      = true := by
    split <;> simp [hasHigherHighOnRisingVolume]
  have hcurr : ∀ prev, (∃ curr ∈ (if p.entryTs ≤ bar.ts then [bar] else []).head?,
      Momentum entryPrice prev curr) ↔ p.entryTs ≤ bar.ts ∧ Momentum entryPrice prev bar := by
    intro prev
    split
    · rename_i hts
      simp [hts]
    · rename_i hts
      simp [hts]
  have hhead : ∀ o : Option BarTick, o.toList.head? = o := by
    intro o
    cases o <;> rfl
  -- the four places where two neighbours can lie, in the order of the statement
  have hsort : ∀ {old join scan newest : Prop},
      ((old ∨ join ∨ scan) ∨ newest) ↔ (scan ∨ (old ∨ join) ∨ newest) := by
    intros
    tauto
  rw [hlast, hasHigherHigh_append, hsplit, hasHigherHigh_append, hasHigherHigh_append, hhead,
    or_iff_left hbar, or_iff_left (hone _)]
  simp only [hcurr]
  exact hsort

variable (scan l2 spread state) in
/-- When the time stop comes out on a bar. -/
theorem onBar_timeStop {calls : List StrategyCall} (hminute : bar.timeframe = "1m")
    (hp : (engineAfter cfg calls).position bar.symbol = some p) :
    (∃ sig, Signal.exit sig ∈ ((engineAfter cfg calls).onBar cfg bar scan l2 spread state).2
        ∧ sig.reason = .timeStop)
      ↔ p.currentStop.val < bar.close.val
        ∧ (cfg.bailoutSeconds : ℚ) ≤ bar.ts - p.entryTs
        ∧ bar.close.val - p.entryPrice.val < cfg.bailoutMove
        ∧ ¬ hasHigherHighOnRisingVolume (barsSinceEntry p
            ((minuteBars (sessionBars bar.symbol calls)).rtake 49)) p.entryPrice.val = true := by
  -- the signals of a bar are what `evaluate_exit` says of the marked position
  have hrule : (∃ sig, Signal.exit sig
        ∈ ((engineAfter cfg calls).onBar cfg bar scan l2 spread state).2 ∧ sig.reason = .timeStop)
      ↔ ∃ sig, evaluateExit cfg (p.mark bar.close)
          ((engineAfter cfg calls bar.symbol).exitInput bar l2) = some sig
        ∧ sig.reason = .timeStop := by
    refine exists_congr fun sig => and_congr_left fun _ => ?_
    exact SymbolState.exit_mem_onBar hminute hp
  rw [hrule, evaluateExit_timeStop, timeStopFires, exitInput_prevBars, PositionSnapshot.mark_currentStop,
    PositionSnapshot.mark_entryPrice, PositionSnapshot.mark_entryTs, Bool.and_eq_true,
    Bool.and_eq_true, decide_eq_true_eq, decide_eq_true_eq, Bool.not_eq_true', Bool.not_eq_true,
    and_assoc]
  rfl

/-- **The time stop bails no position with momentum exactly when none is out of its view.** -/
theorem timeStop_right_iff (cfg : Config) (calls : List StrategyCall) (bar : BarTick)
    (scan : ScanResult) (l2 : L2Signal) (spread : ℚ) (state : MarketState) :
    TimeStopRight cfg calls bar scan l2 spread state
      ↔ (bar.timeframe = "1m" → ∀ p, (engineAfter cfg calls).position bar.symbol = some p →
          MomentumInView cfg p (minuteBars (sessionBars bar.symbol calls)) bar) := by
  by_cases hminute : bar.timeframe = "1m"
  · rw [imp_iff_right hminute]
    refine forall_congr' fun p => forall_congr' fun hp => ?_
    have hbars : minuteBars (sessionBars bar.symbol (calls ++ [.onBar bar scan l2 spread state]))
        = minuteBars (sessionBars bar.symbol calls) ++ [bar] := by
      rw [sessionBars_onBar, minuteBars, List.filter_append]
      simp [minuteBars, hminute]
    -- the momentum in view of the rule, and the one the claim looks at
    rw [hbars, ← hasHigherHigh_iff, hasHigherHigh_barsSinceEntry]
    have hfires := onBar_timeStop scan l2 spread state hminute hp
    constructor
    · intro hright
      unfold MomentumInView
      -- if momentum were out of view the rule would fire against it
      by_contra hout
      simp only [not_or, not_le, not_lt] at hout
      obtain ⟨hstop, htime, hmove, hscan, hrest⟩ := hout
      obtain ⟨sig, hsig, hreason⟩ := hfires.mpr ⟨hstop, htime, hmove, hscan⟩
      refine hrest ⟨fun hold => ?_, fun prev hprev hts hm => ?_⟩
      · exact hright sig hsig hreason (Or.inr (Or.inl hold))
      · exact hright sig hsig hreason (Or.inr (Or.inr ⟨prev, hprev, hts, hm⟩))
    · intro hview sig hsig hreason hseen
      obtain ⟨hstop, htime, hmove, hscan⟩ := hfires.mp ⟨sig, hsig, hreason⟩
      rcases hview with h | h | h | h | ⟨hold, hnew⟩
      · exact absurd hstop (not_lt.mpr h)
      · exact absurd htime (not_le.mpr h)
      · exact absurd hmove (not_lt.mpr h)
      · exact hscan h
      · rcases hseen with h | h | ⟨prev, hprev, hts, hm⟩
        · exact hscan h
        · exact hold h
        · exact hnew prev hprev hts hm
  · -- only 1-minute bars are asked
    refine iff_of_true ?_ fun h => absurd h hminute
    intro p _ sig hsig
    exact absurd (SymbolState.held_of_exit_mem hsig).1 hminute

deriving instance DecidableEq for PositionSnapshot

/-- The fill of `boughtAtFive`. -/
def buyAtFive : StrategyCall := .openPosition "TEST" 5 (49 / 10) (52 / 10) 100 (openingBell + 60)

/-- The second minute after the entry makes a higher high on twice the volume of the first, and is
bailed out: the scan was shown the first alone. -/
theorem momentum_bailed_out : ¬ ∀ cfg calls bar scan l2 spread state,
    TimeStopRight cfg calls bar scan l2 spread state := by
  intro h
  let first := chartBar 1 500 505 499 502 100
  let second := chartBar 2 502 508 501 505 200
  let calls := [buyAtFive, .onBar first anyScan .support 0 .hot]
  let held : PositionSnapshot := { boughtAtFive with highWatermark := cents 502 }
  have hheld : (engineAfter Config.defaults calls).position "TEST" = some held := by
    decide +kernel
  have hmomentum : hasHigherHighOnRisingVolume (barsSinceEntry held (minuteBars
      (sessionBars "TEST" (calls ++ [.onBar second anyScan .support 0 .hot])))) held.entryPrice.val
      = true := by decide +kernel
  obtain ⟨sig, hsig, hreason⟩ := (onBar_timeStop anyScan .support 0 .hot
    (show second.timeframe = "1m" from rfl) hheld).mpr (by decide +kernel)
  exact h Config.defaults calls second anyScan .support 0 .hot held hheld sig hsig hreason
    (hasHigherHigh_iff.mp hmomentum)

/-! ## P5 on a new high -/

/-- The position gains on a new high of the session, and no rule before P5 fires. -/
structure HodBreak (cfg : Config) (calls : List StrategyCall) (bar : BarTick) (l2 : L2Signal)
    (p : PositionSnapshot) : Prop where
  minute : bar.timeframe = "1m"
  wellFormed : bar.WellFormed
  held : (engineAfter cfg calls).position bar.symbol = some p
  /-- The bar closes above every earlier high of the session. -/
  newHigh : ∀ b ∈ sessionBars bar.symbol calls, b.high.val < bar.close.val
  gain : cfg.moveBeTrigger ≤ bar.close.val - p.entryPrice.val
  /-- P1 does not fire. -/
  aboveStop : p.currentStop.val < bar.close.val
  /-- P2 does not. -/
  notTime : timeStopFires cfg (p.mark bar.close)
    ((engineAfter cfg calls bar.symbol).exitInput bar l2) = false
  /-- P3 does not. -/
  notL2 : ¬ (l2 = .spoof ∨ l2 = .iceberg)
  /-- P4 does not. -/
  notTopping : toppingTailFires ((engineAfter cfg calls bar.symbol).exitInput bar l2) = false

/-- The bar scales out into strength and moves the stop to the entry price. -/
def ScalesOut (cfg : Config) (calls : List StrategyCall) (bar : BarTick) (scan : ScanResult)
    (l2 : L2Signal) (spread : ℚ) (state : MarketState) (p : PositionSnapshot) : Prop :=
  ∃ sig, Signal.exit sig ∈ ((engineAfter cfg calls).onBar cfg bar scan l2 spread state).2
    ∧ sig.reason = .scaleStrength ∧ sig.action = .partialScale ∧ sig.newStop = some p.entryPrice

/-- The high the rule compares with is raised to the high of the bar first. -/
theorem exitInput_no_hodBreak (s : SymbolState) (l2 : L2Signal) (hwell : bar.WellFormed) :
    ¬ (s.exitInput bar l2).intradayHigh < (s.exitInput bar l2).currentPrice := by
  have hhigh : bar.high.val ≤ (s.exitInput bar l2).intradayHigh := by
    unfold SymbolState.exitInput
    dsimp only
    split
    · exact le_refl _
    · rename_i hlow
      exact not_lt.mp hlow
  exact not_lt.mpr (hwell.close_le_high.trans hhigh)

/-- **A new high of the session scales out only where it is a half-dollar level.** -/
theorem hodBreak_scalesOut_iff (cfg : Config) (calls : List StrategyCall) (bar : BarTick)
    (scan : ScanResult) (l2 : L2Signal) (spread : ℚ) (state : MarketState) (p : PositionSnapshot)
    (h : HodBreak cfg calls bar l2 p) :
    ScalesOut cfg calls bar scan l2 spread state p
      ↔ atPsychLevel bar.close.val cfg.psychLevelStep cfg.psychLevelTolerance = true := by
  have hscale : scaleFires cfg (p.mark bar.close)
      ((engineAfter cfg calls bar.symbol).exitInput bar l2)
      = atPsychLevel bar.close.val cfg.psychLevelStep cfg.psychLevelTolerance := by
    -- the high of the day is raised by the bar before it is compared with it
    have hno := exitInput_no_hodBreak (engineAfter cfg calls bar.symbol) l2 h.wellFormed
    unfold scaleFires
    dsimp only
    rw [decide_eq_false hno, Bool.false_and, Bool.false_or, PositionSnapshot.mark_entryPrice]
    exact (congrArg _ (decide_eq_true h.gain)).trans (Bool.and_true _)
  have hrule : ScalesOut cfg calls bar scan l2 spread state p
      ↔ ∃ sig, evaluateExit cfg (p.mark bar.close)
          ((engineAfter cfg calls bar.symbol).exitInput bar l2) = some sig
        ∧ sig.reason = .scaleStrength ∧ sig.action = .partialScale
        ∧ sig.newStop = some (p.mark bar.close).entryPrice := by
    rw [PositionSnapshot.mark_entryPrice]
    refine exists_congr fun sig => and_congr_left fun _ => ?_
    exact SymbolState.exit_mem_onBar h.minute h.held
  rw [hrule, ← hscale]
  refine evaluateExit_scale ?_ h.notTime h.notL2 h.notTopping
  rw [PositionSnapshot.mark_currentStop]
  exact h.aboveStop

/-- A minute that closes at 5.10. -/
def earlierMinute : BarTick := chartBar 0 500 511 499 510 100

/-- The minute after the fill closes on a new high. -/
def newHighMinute (close : ℤ) : BarTick := chartBar 1 510 (close + 1) 509 close 200

theorem hodBreak_newHighMinute {close : ℤ} (h : close = 520 ∨ close = 550) :
    HodBreak Config.defaults [.onBar earlierMinute anyScan .support 0 .hot, buyAtFive]
      (newHighMinute close) .support boughtAtFive := by
  have hbars : ∀ b ∈ sessionBars "TEST" [.onBar earlierMinute anyScan .support 0 .hot, buyAtFive],
      b = earlierMinute := by
    intro b hb
    exact List.mem_singleton.mp hb
  rcases h with rfl | rfl
  all_goals
    refine ⟨rfl, by constructor <;> decide +kernel, by decide +kernel, ?_, by decide +kernel,
      by decide +kernel, by decide +kernel, by decide, by decide +kernel⟩
    intro b hb
    rw [hbars b hb]
    decide +kernel

theorem hodBreak_scalesOut_at_half_dollar :
    ScalesOut Config.defaults [.onBar earlierMinute anyScan .support 0 .hot, buyAtFive]
      (newHighMinute 550) anyScan .support 0 .hot boughtAtFive :=
  (hodBreak_scalesOut_iff _ _ _ _ _ _ _ _ (hodBreak_newHighMinute (Or.inr rfl))).mpr
    (by decide +kernel)

/-- A close of 5.20, nine cents above the high of the session and twenty above the entry, is not
sold into. -/
theorem newHigh_not_sold : ¬ ∀ cfg calls bar scan l2 spread state p,
    HodBreak cfg calls bar l2 p → ScalesOut cfg calls bar scan l2 spread state p := by
  intro h
  obtain ⟨sig, hsig, -⟩ := h _ _ _ anyScan _ 0 .hot _ (hodBreak_newHighMinute (Or.inl rfl))
  have hnone : ((engineAfter Config.defaults [.onBar earlierMinute anyScan .support 0 .hot,
      buyAtFive]).onBar Config.defaults (newHighMinute 520) anyScan .support 0 .hot).2.length = 0 := by
    decide +kernel
  rw [List.eq_nil_of_length_eq_zero hnone] at hsig
  exact absurd hsig (by simp)

end RossBot
