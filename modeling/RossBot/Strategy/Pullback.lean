import Mathlib.Order.Bounds.Basic
import RossBot.Lib.Stretch
import RossBot.Strategy.Patterns

/-!
# The pullback and the surge before it

`find_pullback_context` scans backwards twice. Read forwards, it accepts a list of
bars that ends with a surge of green bars, a pullback of red bars and the signal
bar (`PullbackShape`), where both runs are as long as they can be; the capped scan
cannot accept the end of a longer pullback, because the surge scan would then start
on a red bar.

The light-volume checks of the pattern recognisers count back from the signal bar
themselves. What they read is said here in terms of the same runs.
-/

namespace RossBot

open Lib

/-! ## The shape -/

/-- The lows of some bars. -/
def lows (bars : List BarTick) : Set ℚ := {x | ∃ b ∈ bars, b.low.val = x}

/-- The highs of some bars. -/
def highs (bars : List BarTick) : Set ℚ := {x | ∃ b ∈ bars, b.high.val = x}

theorem toMoney_of_mem_lows {bars : List BarTick} {x : ℚ} (h : x ∈ lows bars) : toMoney x = x := by
  obtain ⟨b, -, rfl⟩ := h
  exact b.low.toMoney_val

theorem toMoney_of_mem_highs {bars : List BarTick} {x : ℚ} (h : x ∈ highs bars) :
    toMoney x = x := by
  obtain ⟨b, -, rfl⟩ := h
  exact b.high.toMoney_val

theorem isLeast_lows {bars : List BarTick} {b : BarTick} {bs : List BarTick}
    (h : bars.reverse = b :: bs) : IsLeast (lows bars) (minOf b.low.val (bs.map (·.low.val))) := by
  have hset : lows bars = {y | y ∈ b.low.val :: bs.map (·.low.val)} := by
    ext y
    have hmem : y ∈ bars.reverse.map (·.low.val) ↔ y ∈ b.low.val :: bs.map (·.low.val) := by
      rw [h, List.map_cons]
    simpa [lows] using hmem
  rw [hset]
  exact List.min?_eq_some_iff.mp List.min?_cons'

theorem isGreatest_highs {bars : List BarTick} {b : BarTick} {bs : List BarTick}
    (h : bars.reverse = b :: bs) :
    IsGreatest (highs bars) (maxOf b.high.val (bs.map (·.high.val))) := by
  have hset : highs bars = {y | y ∈ b.high.val :: bs.map (·.high.val)} := by
    ext y
    have hmem : y ∈ bars.reverse.map (·.high.val) ↔ y ∈ b.high.val :: bs.map (·.high.val) := by
      rw [h, List.map_cons]
    simpa [highs] using hmem
  rw [hset]
  exact List.max?_eq_some_iff.mp List.max?_cons'

/-- The bars a pullback context is made from: a surge, the pullback after it and the signal bar.
Both runs are longest ones, the pullback is not empty and not longer than `pullbackMax`, the surge
is not shorter than `surgeMin`, and its highest high exceeds the low of its oldest bar. -/
structure PullbackShape (bars : List BarTick) (surgeMin pullbackMax : ℤ)
    (before surge pullback : List BarTick) : Prop where
  /-- There is enough history for the two scans. -/
  enough : surgeMin + pullbackMax + 1 ≤ bars.length
  /-- The pullback ends just before the last bar. -/
  split : ∃ signal, bars = before ++ surge ++ pullback ++ [signal]
  /-- It is the whole run of red bars there. -/
  red : LongestRun isRedCandle (before ++ surge) pullback
  /-- The surge is the whole run of green bars before it. -/
  green : LongestRun isGreenCandle before surge
  pulledBack : 1 ≤ pullback.length
  capped : (pullback.length : ℤ) ≤ pullbackMax
  surged : surgeMin ≤ surge.length
  rises : ∃ high, IsGreatest (highs surge) high ∧ ∃ oldest ∈ surge.head?, oldest.low.val < high

/-- What a pullback context says of the surge and the pullback it was made from. -/
structure PullbackContext.Describes (ctx : PullbackContext) (surge pullback : List BarTick) :
    Prop where
  count : ctx.pullbackCount = pullback.length
  low : IsLeast (lows pullback) ctx.pullbackLow.val
  high : IsGreatest (highs surge) ctx.surgeHigh.val
  start : surge.head?.map (·.low) = some ctx.surgeStart
  retrace : ctx.retraceRatio
    = (ctx.surgeHigh.val - ctx.pullbackLow.val) / (ctx.surgeHigh.val - ctx.surgeStart.val)

/-- The runs determine the context. -/
theorem PullbackContext.Describes.unique {c c' : PullbackContext} {surge pullback : List BarTick}
    (h : c.Describes surge pullback) (h' : c'.Describes surge pullback) : c = c' := by
  have hlow : c.pullbackLow = c'.pullbackLow := Money.ext (h.low.unique h'.low)
  have hhigh : c.surgeHigh = c'.surgeHigh := Money.ext (h.high.unique h'.high)
  have hstart : c.surgeStart = c'.surgeStart := Option.some.inj (h.start.symm.trans h'.start)
  have hretrace : c.retraceRatio = c'.retraceRatio := by
    rw [h.retrace, h'.retrace, hlow, hhigh, hstart]
  have hcount : c.pullbackCount = c'.pullbackCount := h.count.trans h'.count.symm
  cases c
  cases c'
  simp_all

variable {bars before surge pullback : List BarTick} {surgeMin pullbackMax : ℤ}

/-- The two scans read the two runs, when the pullback is within its cap. -/
theorem pullbackAndSurge_of_le {signal : BarTick}
    (hbars : bars = before ++ surge ++ pullback ++ [signal])
    (hred : LongestRun isRedCandle (before ++ surge) pullback)
    (hgreen : LongestRun isGreenCandle before surge) (hcap : (pullback.length : ℤ) ≤ pullbackMax) :
    pullbackAndSurge bars pullbackMax = (pullback.reverse, surge.reverse) := by
  have hback : bars.reverse.tail = (before ++ surge ++ pullback).reverse := by
    rw [hbars, List.reverse_concat, List.tail_cons]
  have hscan : (bars.reverse.tail.take pullbackMax.toNat).takeWhile isRedCandle
      = pullback.reverse := by
    rw [hback, hred.takeWhile_take, List.take_of_length_le (by rw [List.length_reverse]; omega)]
  unfold pullbackAndSurge
  dsimp only
  rw [hscan, hback, List.reverse_append, List.drop_left, hgreen.takeWhile_reverse]

/-- A pullback longer than the cap leaves the surge scan on a red bar. -/
theorem pullbackAndSurge_of_lt {signal : BarTick}
    (hbars : bars = before ++ surge ++ pullback ++ [signal])
    (hred : LongestRun isRedCandle (before ++ surge) pullback)
    (hlong : pullbackMax.toNat < pullback.length) :
    (pullbackAndSurge bars pullbackMax).2 = [] := by
  have hback : bars.reverse.tail = (before ++ surge ++ pullback).reverse := by
    rw [hbars, List.reverse_concat, List.tail_cons]
  have hscan : ((bars.reverse.tail.take pullbackMax.toNat).takeWhile isRedCandle).length
      = pullbackMax.toNat := by
    rw [hback, hred.takeWhile_take, List.length_take, List.length_reverse, min_eq_left hlong.le]
  obtain ⟨next, rest, hnext, hnextRed⟩ := hred.drop_of_capped hlong
  have hnextGreen : ¬ isGreenCandle next = true := by
    unfold isRedCandle at hnextRed
    unfold isGreenCandle
    simp only [decide_eq_true_eq] at hnextRed ⊢
    exact not_lt.mpr hnextRed.le
  unfold pullbackAndSurge
  dsimp only
  rw [hscan, hback, hnext, List.takeWhile_cons_of_neg hnextGreen]

/-- The context made of what the two scans read. -/
def contextOf (p : BarTick) (ps : List BarTick) (s : BarTick) (ss : List BarTick) :
    PullbackContext :=
  let pullbackLow := minOf p.low.val (ps.map (·.low.val))
  let surgeHigh := maxOf s.high.val (ss.map (·.high.val))
  let surgeStart := ((s :: ss).getLast (List.cons_ne_nil s ss)).low.val
  { pullbackCount := (p :: ps).length
    pullbackLow := .of pullbackLow
    surgeHigh := .of surgeHigh
    surgeStart := .of surgeStart
    retraceRatio := (surgeHigh - pullbackLow) / (surgeHigh - surgeStart) }

/-- Two scans that read something are accepted for a surge that is long enough and rises. -/
theorem findPullbackContext_of_scans {ctx : PullbackContext} {p s : BarTick} {ps ss : List BarTick}
    (henough : surgeMin + pullbackMax + 1 ≤ bars.length)
    (hscans : pullbackAndSurge bars pullbackMax = (p :: ps, s :: ss)) :
    findPullbackContext bars surgeMin pullbackMax = some ctx
      ↔ surgeMin ≤ (s :: ss).length
        ∧ ((s :: ss).getLast (List.cons_ne_nil s ss)).low.val
            < maxOf s.high.val (ss.map (·.high.val))
        ∧ ctx = contextOf p ps s ss := by
  unfold findPullbackContext
  rw [if_neg (not_lt.mpr henough), hscans]
  dsimp only
  split_ifs with hshort hflat
  · exact iff_of_false (by simp) fun h => absurd h.1 (not_le.mpr hshort)
  · exact iff_of_false (by simp) fun h => absurd h.2.1 (by linarith)
  · have hrises : ((s :: ss).getLast (List.cons_ne_nil s ss)).low.val
        < maxOf s.high.val (ss.map (·.high.val)) := by linarith
    rw [and_iff_right (not_lt.mp hshort), and_iff_right hrises, Option.some_inj]
    exact eq_comm

/-- A context is accepted for two scans that read something, a surge that is long enough and one
that rises. -/
theorem findPullbackContext_eq_some_iff {ctx : PullbackContext} :
    findPullbackContext bars surgeMin pullbackMax = some ctx
      ↔ surgeMin + pullbackMax + 1 ≤ bars.length
        ∧ ∃ p ps s ss, pullbackAndSurge bars pullbackMax = (p :: ps, s :: ss)
          ∧ surgeMin ≤ (s :: ss).length
          ∧ ((s :: ss).getLast (List.cons_ne_nil s ss)).low.val
              < maxOf s.high.val (ss.map (·.high.val))
          ∧ ctx = contextOf p ps s ss := by
  -- too few bars are refused before anything is scanned
  by_cases hlen : (bars.length : ℤ) < surgeMin + pullbackMax + 1
  · unfold findPullbackContext
    rw [if_pos hlen]
    exact iff_of_false (by simp) fun h => absurd h.1 (not_le.mpr hlen)
  · have henough := not_lt.mp hlen
    rw [and_iff_right henough]
    constructor
    · intro h
      -- what is left asks for a pullback and a surge that are not empty
      cases hscans : pullbackAndSurge bars pullbackMax with
      | mk pbs surges =>
          cases pbs with
          | nil => simp [findPullbackContext, hlen, hscans] at h
          | cons p ps =>
              cases surges with
              | nil => simp [findPullbackContext, hlen, hscans] at h
              | cons s ss =>
                  exact ⟨p, ps, s, ss, rfl, (findPullbackContext_of_scans henough hscans).mp h⟩
    · intro h
      obtain ⟨p, ps, s, ss, hscans, h⟩ := h
      exact (findPullbackContext_of_scans henough hscans).mpr h

/-- The context made of the two runs describes them. -/
theorem contextOf_describes {p s : BarTick} {ps ss : List BarTick}
    (hp : pullback.reverse = p :: ps) (hs : surge.reverse = s :: ss) :
    (contextOf p ps s ss).Describes surge pullback where
  count := by rw [contextOf, ← hp, List.length_reverse]
  low := by
    -- the low is one of the bars', so quantizing it changes nothing
    have hlow := isLeast_lows hp
    have hgrid := toMoney_of_mem_lows hlow.1
    rw [contextOf, Money.val_of, hgrid]
    exact hlow
  high := by
    have hhigh := isGreatest_highs hs
    have hgrid := toMoney_of_mem_highs hhigh.1
    rw [contextOf, Money.val_of, hgrid]
    exact hhigh
  start := by
    have hhead : surge.head? = some ((s :: ss).getLast (List.cons_ne_nil s ss)) := by
      rw [← List.getLast?_reverse, hs, List.getLast?_eq_some_getLast]
    rw [hhead]
    simp [contextOf]
  retrace := by
    have hlow := toMoney_of_mem_lows (isLeast_lows hp).1
    have hhigh := toMoney_of_mem_highs (isGreatest_highs hs).1
    simp only [contextOf, Money.val_of, hlow, hhigh, Money.toMoney_val]

/-! ## The grammar -/

theorem PullbackShape.accepted (hmin : 1 ≤ surgeMin)
    (h : PullbackShape bars surgeMin pullbackMax before surge pullback) :
    ∃ ctx, findPullbackContext bars surgeMin pullbackMax = some ctx
      ∧ ctx.Describes surge pullback := by
  obtain ⟨signal, hbars⟩ := h.split
  obtain ⟨high, hhigh, oldest, holdest, hrises⟩ := h.rises
  -- the scans find the runs again, newest bar first
  have hscans := pullbackAndSurge_of_le hbars h.red h.green h.capped
  obtain ⟨p, ps, hp⟩ : ∃ p ps, pullback.reverse = p :: ps := by
    apply List.exists_cons_of_length_pos
    rw [List.length_reverse]
    exact h.pulledBack
  obtain ⟨s, ss, hs⟩ : ∃ s ss, surge.reverse = s :: ss := by
    apply List.exists_cons_of_length_pos
    have hlen := h.surged
    rw [List.length_reverse]
    omega
  refine ⟨contextOf p ps s ss, ?_, contextOf_describes hp hs⟩
  rw [findPullbackContext_eq_some_iff]
  refine ⟨h.enough, p, ps, s, ss, by rw [hscans, hp, hs], ?_, ?_, rfl⟩
  · rw [← hs, List.length_reverse]
    exact h.surged
  · -- the surge rises from the low of its oldest bar
    have hlast : (s :: ss).getLast (List.cons_ne_nil s ss) = oldest := by
      have hhead : surge.head? = some ((s :: ss).getLast (List.cons_ne_nil s ss)) := by
        rw [← List.getLast?_reverse, hs, List.getLast?_eq_some_getLast]
      exact Option.some.inj (hhead.symm.trans holdest)
    rw [hlast, (isGreatest_highs hs).unique hhigh]
    exact hrises

/--
**What is accepted has the shape.**

The two scans go back from the bar before the last: over the red bars, then over the
green ones before those. Where a scan stops, the bar is not of its colour or there is
none, so the runs they find are the longest; the checks after them are the other
fields.
-/
theorem PullbackShape.of_accepted (hmin : 1 ≤ surgeMin) (hmax : 1 ≤ pullbackMax)
    {ctx : PullbackContext} (h : findPullbackContext bars surgeMin pullbackMax = some ctx) :
    ∃ before surge pullback, PullbackShape bars surgeMin pullbackMax before surge pullback := by
  obtain ⟨henough, p, ps, s, ss, hscans, hsurged, hrises, -⟩ :=
    findPullbackContext_eq_some_iff.mp h
  obtain ⟨signal, hbars⟩ : ∃ signal, bars = bars.dropLast ++ [signal] := by
    have hne : bars ≠ [] := by
      rintro rfl
      rw [List.length_nil] at henough
      omega
    exact ⟨bars.getLast hne, (List.dropLast_append_getLast hne).symm⟩
  -- the two longest runs, read off the list without its last bar
  let rest := bars.dropLast.rdropWhile isRedCandle
  let pullback := bars.dropLast.rtakeWhile isRedCandle
  let before := rest.rdropWhile isGreenCandle
  let surge := rest.rtakeWhile isGreenCandle
  have hrest : before ++ surge = rest := List.rdropWhile_append_rtakeWhile ..
  have hsplit : bars = before ++ surge ++ pullback ++ [signal] := by
    rw [hrest]
    show bars = rest ++ pullback ++ [signal]
    rw [List.rdropWhile_append_rtakeWhile]
    exact hbars
  have hred : LongestRun isRedCandle (before ++ surge) pullback := by
    rw [hrest]
    exact longestRun_split _ _
  have hgreen : LongestRun isGreenCandle before surge := longestRun_split _ _
  have hcap : ¬ pullbackMax.toNat < pullback.length := by
    intro hlong
    have hnone := pullbackAndSurge_of_lt hsplit hred hlong
    rw [hscans] at hnone
    exact absurd hnone (List.cons_ne_nil s ss)
  have hlength : (pullback.length : ℤ) ≤ pullbackMax := by omega
  have hread := pullbackAndSurge_of_le hsplit hred hgreen hlength
  rw [hscans, Prod.mk.injEq] at hread
  obtain ⟨hp, hs⟩ := hread
  have hpulled : pullback.length = (p :: ps).length := by rw [hp, List.length_reverse]
  have hlen : surge.length = (s :: ss).length := by rw [hs, List.length_reverse]
  refine ⟨before, surge, pullback, henough, ⟨signal, hsplit⟩, hred, hgreen, ?_, hlength, ?_, ?_⟩
  · rw [hpulled]
    simp
  · rw [hlen]
    exact hsurged
  · refine ⟨_, isGreatest_highs hs.symm, _, ?_, hrises⟩
    rw [← List.getLast?_reverse, ← hs, List.getLast?_eq_some_getLast]
    rfl

/-- **`find_pullback_context` accepts exactly its grammar**: a context comes out exactly of a list
of the shape, and it is the one that describes the two runs. -/
theorem findPullbackContext_grammar (bars : List BarTick) (surgeMin pullbackMax : ℤ)
    (hmin : 1 ≤ surgeMin) (hmax : 1 ≤ pullbackMax) :
    ((∃ ctx, findPullbackContext bars surgeMin pullbackMax = some ctx)
        ↔ ∃ before surge pullback, PullbackShape bars surgeMin pullbackMax before surge pullback)
      ∧ ∀ ctx, findPullbackContext bars surgeMin pullbackMax = some ctx
        ↔ ∃ before surge pullback, PullbackShape bars surgeMin pullbackMax before surge pullback
          ∧ ctx.Describes surge pullback := by
  -- the second part says which context; it is unique, since it describes the runs
  refine ⟨?_, fun ctx => ?_⟩
  · constructor
    · rintro ⟨ctx, h⟩
      exact PullbackShape.of_accepted hmin hmax h
    · rintro ⟨before, surge, pullback, h⟩
      obtain ⟨ctx, hctx, -⟩ := h.accepted hmin
      exact ⟨ctx, hctx⟩
  · constructor
    · intro h
      obtain ⟨before, surge, pullback, hshape⟩ := PullbackShape.of_accepted hmin hmax h
      obtain ⟨ctx', hctx', hdescribes⟩ := hshape.accepted hmin
      obtain rfl : ctx = ctx' := Option.some.inj (h.symm.trans hctx')
      exact ⟨before, surge, pullback, hshape, hdescribes⟩
    · rintro ⟨before, surge, pullback, hshape, hdescribes⟩
      obtain ⟨ctx', hctx', hdescribes'⟩ := hshape.accepted hmin
      rw [hctx', hdescribes.unique hdescribes']

/-- A minute of the symbol: open, high, low and close in cents, and the volume. -/
def chartBar (i : ℕ) (o h l c : ℤ) (volume : ℕ) : BarTick :=
  ⟨"TEST", openingBell + 60 * i, "1m", cents o, cents h, cents l, cents c, volume⟩

/-- Two flat minutes, two green ones, a red one on light volume, and a breakout. -/
def lightPullback : List BarTick :=
  [chartBar 0 500 501 499 500 100, chartBar 1 500 501 499 500 100, chartBar 2 500 521 499 520 1000,
    chartBar 3 520 541 519 540 2000, chartBar 4 540 541 529 530 500, chartBar 5 530 551 529 550 900]

theorem findPullbackContext_lightPullback : 1 ≤ (2 : ℤ) ∧ 1 ≤ (3 : ℤ)
    ∧ ∃ before surge pullback, PullbackShape lightPullback 2 3 before surge pullback := by
  refine ⟨by decide, by decide, ?_⟩
  have haccepted : (findPullbackContext lightPullback 2 3).isSome = true := by decide +kernel
  exact (findPullbackContext_grammar lightPullback 2 3 (by decide) (by decide)).1.mp
    (Option.isSome_iff_exists.mp haccepted)

/-! ## The light-volume checks -/

/-- The bars `is_micro_pullback` averages as the pullback: from `pb_end`, which is not excluded. -/
def microPullbackBars (bars : List BarTick) (ctx : PullbackContext) : List BarTick :=
  pySlice bars (bars.length - 2 - ctx.pullbackCount) (bars.length - 2 + 1)

/-- The bars it averages as the surge. -/
def microSurgeBars (bars : List BarTick) (ctx : PullbackContext) : List BarTick :=
  (pySlice bars (max 0 (bars.length - 2 - ctx.pullbackCount - 1 - 4))
    (bars.length - 2 - ctx.pullbackCount - 1 + 1)).filter isGreenCandle

/-- The bars `is_bull_flag` averages as the flag. -/
def flagBars (bars : List BarTick) (ctx : PullbackContext) : List BarTick :=
  pySlice bars (max 0 (bars.length - 2 - ctx.pullbackCount)) (bars.length - 2 + 1)

/-- The bars it averages as the pole. -/
def poleBars (bars : List BarTick) (ctx : PullbackContext) : List BarTick :=
  (pySlice bars (max 0 (bars.length - 2 - ctx.pullbackCount - 5))
    (max 0 (bars.length - 2 - ctx.pullbackCount))).filter isGreenCandle

/-- The average volume of some bars. -/
def meanVolume (bars : List BarTick) : ℚ := avgVolume (bars.map (·.volume))

/-- A match comes out exactly when the volume is light. -/
theorem isMicroPullback_isSome {ctx : PullbackContext} {ema9 : Option ℚ} :
    (isMicroPullback bars ctx ema9).isSome = true
      ↔ 4 ≤ bars.length ∧ (meanVolume (microSurgeBars bars ctx) ≤ 0
        ∨ meanVolume (microPullbackBars bars ctx)
            ≤ meanVolume (microSurgeBars bars ctx) * (8 / 10)) := by
  have hmatch : ∀ {light : Bool} {m : PatternMatch},
      (if (!light) = true then none else some m).isSome = true ↔ light = true := by
    intro light m
    cases light <;> simp
  unfold isMicroPullback
  -- the length is asked for before the volumes
  by_cases hlen : bars.length < 4
  · rw [if_pos hlen]
    exact iff_of_false (by simp) fun h => absurd h.1 (not_le.mpr hlen)
  · rw [if_neg hlen, and_iff_right (not_lt.mp hlen)]
    dsimp only
    rw [hmatch]
    unfold meanVolume microSurgeBars microPullbackBars
    split
    · rename_i hvol
      rw [decide_eq_true_eq, or_iff_right (not_le.mpr hvol)]
    · rename_i hvol
      exact iff_of_true rfl (Or.inl (not_lt.mp hvol))

/-- A flag is rejected on heavy volume, and otherwise only for its shape. -/
theorem isBullFlag_isSome {ctx : PullbackContext} {ema9 : Option ℚ} {flagMax : ℚ} :
    (isBullFlag bars ctx ema9 flagMax).isSome = true
      ↔ 5 ≤ bars.length ∧ ctx.pullbackCount ≤ 3 ∧ ctx.retraceRatio ≤ flagMax
        ∧ (meanVolume (poleBars bars ctx) ≤ 0
          ∨ meanVolume (flagBars bars ctx) ≤ meanVolume (poleBars bars ctx)) := by
  unfold isBullFlag
  dsimp only
  -- the four refusals, in the order of the source
  by_cases hlen : (bars.length : ℤ) < 5
  · rw [if_pos hlen]
    exact iff_of_false (by simp) fun h => by omega
  · rw [if_neg hlen, and_iff_right (show 5 ≤ bars.length by omega)]
    by_cases hcount : 3 < ctx.pullbackCount
    · rw [if_pos hcount]
      exact iff_of_false (by simp) fun h => absurd h.1 (not_le.mpr hcount)
    · rw [if_neg hcount, and_iff_right (not_lt.mp hcount)]
      by_cases hretrace : flagMax < ctx.retraceRatio
      · rw [if_pos hretrace]
        exact iff_of_false (by simp) fun h => absurd h.1 (not_le.mpr hretrace)
      · rw [if_neg hretrace, and_iff_right (not_lt.mp hretrace)]
        unfold meanVolume poleBars flagBars
        -- both volumes have to be known for the flag to be heavy
        split
        · rename_i hheavy
          exact iff_of_false (by simp) fun h =>
            h.elim (not_le.mpr hheavy.1) (not_le.mpr hheavy.2)
        · rename_i hlight
          have hne : bars ≠ [] := by
            rintro rfl
            exact absurd hlen (by simp)
          rw [List.getLast?_eq_some_getLast hne]
          refine iff_of_true rfl ?_
          rcases not_and_or.mp hlight with h | h
          · exact Or.inl (not_lt.mp h)
          · exact Or.inr (not_lt.mp h)

/-- What the two scans read, forwards: the bars before, the surge, the pullback, the signal bar. -/
theorem pullbackAndSurge_split (bars : List BarTick) (pullbackMax : ℤ) :
    ∃ before, bars.dropLast = before ++ (pullbackAndSurge bars pullbackMax).2.reverse
        ++ (pullbackAndSurge bars pullbackMax).1.reverse := by
  let back := bars.reverse.tail
  let red := (back.take pullbackMax.toNat).takeWhile isRedCandle
  have hred : red <+: back := (List.takeWhile_prefix _).trans (List.take_prefix _ _)
  have hgreen : (back.drop red.length).takeWhile isGreenCandle <+: back.drop red.length :=
    List.takeWhile_prefix _
  obtain ⟨rest, hrest⟩ := hgreen
  refine ⟨rest.reverse, ?_⟩
  have hback : back = red ++ ((back.drop red.length).takeWhile isGreenCandle ++ rest) := by
    rw [hrest]
    exact (List.prefix_iff_eq_append.mp hred).symm
  have hdrop : bars.dropLast = back.reverse := by
    show bars.dropLast = bars.reverse.tail.reverse
    rw [List.tail_reverse, List.reverse_reverse]
  rw [hdrop, hback, List.reverse_append, List.reverse_append]
  unfold pullbackAndSurge
  rfl

theorem pySlice_mid {α : Type} (front mid back : List α) {lo hi : ℤ} (hlo : lo = front.length)
    (hhi : hi = front.length + mid.length) : pySlice (front ++ mid ++ back) lo hi = mid := by
  have hto : hi.toNat = (front ++ mid).length := by rw [List.length_append]; omega
  have hfrom : lo.toNat = front.length := by omega
  rw [pySlice, hto, hfrom, List.take_left, List.drop_left]

theorem pySlice_rtake {α : Type} (front back : List α) {n : ℕ} {lo hi : ℤ}
    (hlo : lo = max 0 ((front.length : ℤ) - n)) (hhi : hi = front.length) :
    pySlice (front ++ back) lo hi = front.rtake n := by
  have hto : hi.toNat = front.length := by omega
  have hfrom : lo.toNat = front.length - n := by omega
  rw [pySlice, hto, hfrom, List.take_left, List.rtake]

/-- What the light-volume checks read: the pullback with the last bar of the surge, against the
green ones of the five bars before that bar. -/
structure LightVolumeWindows (bars : List BarTick) (ctx : PullbackContext)
    (front : List BarTick) (top : BarTick) (pullback : List BarTick) : Prop where
  split : ∃ signal, bars = front ++ top :: pullback ++ [signal]
  topGreen : isGreenCandle top
  count : pullback.length = ctx.pullbackCount
  micro : microPullbackBars bars ctx = top :: pullback
  surge : microSurgeBars bars ctx = (front.rtake 5).filter isGreenCandle
  flag : flagBars bars ctx = top :: pullback
  pole : poleBars bars ctx = (front.rtake 5).filter isGreenCandle

theorem lightVolumeWindows_of_split {ctx : PullbackContext} {front pullback : List BarTick}
    {top signal : BarTick} (hbars : bars = front ++ top :: pullback ++ [signal])
    (htop : isGreenCandle top = true) (hcount : pullback.length = ctx.pullbackCount) :
    LightVolumeWindows bars ctx front top pullback := by
  have hlen : (bars.length : ℤ) = front.length + ctx.pullbackCount + 2 := by
    rw [hbars, ← hcount]
    simp only [List.length_append, List.length_cons, List.length_nil]
    omega
  -- the surge's slices begin before the pullback, and its own bars end the list
  have hsurge : bars = front ++ (top :: pullback ++ [signal]) := by
    rw [hbars, List.append_assoc]
  refine ⟨⟨signal, hbars⟩, htop, hcount, ?_, ?_, ?_, ?_⟩
  · unfold microPullbackBars
    rw [hlen, hbars]
    exact pySlice_mid _ _ _ (by omega) (by rw [List.length_cons]; omega)
  · unfold microSurgeBars
    rw [hlen, hsurge, pySlice_rtake front _ (n := 5) (by omega) (by omega)]
  · unfold flagBars
    rw [hlen, hbars]
    exact pySlice_mid _ _ _ (by omega) (by rw [List.length_cons]; omega)
  · unfold poleBars
    rw [hlen, hsurge, pySlice_rtake front _ (n := 5) (by omega) (by omega)]

theorem lightVolumeWindows {ctx : PullbackContext}
    (h : findPullbackContext bars surgeMin pullbackMax = some ctx) :
    ∃ front top pullback, LightVolumeWindows bars ctx front top pullback := by
  obtain ⟨-, p, ps, s, ss, hscans, -, -, rfl⟩ := findPullbackContext_eq_some_iff.mp h
  obtain ⟨before, hlast⟩ := pullbackAndSurge_split bars pullbackMax
  have hgreen : isGreenCandle s = true := by
    have hmem : s ∈ (pullbackAndSurge bars pullbackMax).2 := by rw [hscans]; simp
    exact List.mem_takeWhile_imp hmem
  have hne : bars ≠ [] := by
    rintro rfl
    exact absurd hscans (by simp [pullbackAndSurge])
  rw [hscans, List.reverse_cons, ← List.append_assoc, List.append_assoc,
    List.singleton_append] at hlast
  have hbars : bars = before ++ ss.reverse ++ s :: (p :: ps).reverse ++ [bars.getLast hne] := by
    rw [← hlast]
    exact (List.dropLast_append_getLast hne).symm
  have hcount : (p :: ps).reverse.length = (contextOf p ps s ss).pullbackCount :=
    List.length_reverse
  exact ⟨_, s, _, lightVolumeWindows_of_split hbars hgreen hcount⟩

/-- The volume is light, as documented: the `ctx.pullback_count` bars just before the signal bar
average at most eight tenths of the green ones of the `n` bars just before those. -/
def LightVolume (bars : List BarTick) (ctx : PullbackContext) (n : ℕ) : Prop :=
  meanVolume (((bars.dropLast.rdrop ctx.pullbackCount).rtake n).filter isGreenCandle) ≤ 0
    ∨ meanVolume (bars.dropLast.rtake ctx.pullbackCount)
      ≤ meanVolume (((bars.dropLast.rdrop ctx.pullbackCount).rtake n).filter isGreenCandle)
        * (8 / 10)

/-- The checks read the bars they are documented to read. -/
structure LightVolumeRight (bars : List BarTick) (ctx : PullbackContext) (n : ℕ) : Prop where
  micro : microPullbackBars bars ctx = bars.dropLast.rtake ctx.pullbackCount
  surge : microSurgeBars bars ctx
    = ((bars.dropLast.rdrop ctx.pullbackCount).rtake n).filter isGreenCandle
  flag : flagBars bars ctx = bars.dropLast.rtake ctx.pullbackCount
  pole : poleBars bars ctx
    = ((bars.dropLast.rdrop ctx.pullbackCount).rtake n).filter isGreenCandle
  verdict : ∀ ema9, (isMicroPullback bars ctx ema9).isSome = true ↔ LightVolume bars ctx n

/-- **The light-volume checks never read the right bars**: the bound of the pullback that should be
excluded is included, so the last bar of the surge is averaged with the pullback and not with the
surge. -/
theorem lightVolume_wrong {ctx : PullbackContext}
    (h : findPullbackContext bars surgeMin pullbackMax = some ctx) :
    (∀ n, ¬ LightVolumeRight bars ctx n)
      ∧ (∃ front top pullback, LightVolumeWindows bars ctx front top pullback)
      ∧ (∀ ema9, (isMicroPullback bars ctx ema9).isSome = true
          ↔ 4 ≤ bars.length ∧ (meanVolume (microSurgeBars bars ctx) ≤ 0
            ∨ meanVolume (microPullbackBars bars ctx)
                ≤ meanVolume (microSurgeBars bars ctx) * (8 / 10)))
      ∧ ∀ ema9 flagMax, (isBullFlag bars ctx ema9 flagMax).isSome = true
          ↔ 5 ≤ bars.length ∧ ctx.pullbackCount ≤ 3 ∧ ctx.retraceRatio ≤ flagMax
            ∧ (meanVolume (poleBars bars ctx) ≤ 0
              ∨ meanVolume (flagBars bars ctx) ≤ meanVolume (poleBars bars ctx)) := by
  obtain ⟨front, top, pullback, hw⟩ := lightVolumeWindows h
  refine ⟨?_, ⟨front, top, pullback, hw⟩, fun _ => isMicroPullback_isSome,
    fun _ _ => isBullFlag_isSome⟩
  -- a right window has as many bars as the pullback; the one taken has one more
  intro n hright
  have hlen : (microPullbackBars bars ctx).length ≤ ctx.pullbackCount := by
    rw [hright.micro, List.rtake, List.length_drop]
    omega
  rw [hw.micro, List.length_cons, hw.count] at hlen
  omega

deriving instance DecidableEq for PullbackContext

instance (bars : List BarTick) (ctx : PullbackContext) (n : ℕ) :
    Decidable (LightVolume bars ctx n) := inferInstanceAs (Decidable (_ ∨ _))

/-- The context of the light pullback. -/
def lightContext : PullbackContext := ⟨1, cents 529, cents 541, cents 499, 2 / 7⟩

theorem findPullbackContext_lightContext :
    findPullbackContext lightPullback 2 3 = some lightContext := by
  decide +kernel

theorem lightVolume_wrong_lightPullback : ¬ LightVolumeRight lightPullback lightContext 4 :=
  (lightVolume_wrong findPullbackContext_lightContext).1 4

/-- The red bar's 500 are averaged with the 2000 of the bar before it, and compared with the 1000
of the first green bar: the pullback is light, and is not recognised. -/
theorem light_pullback_rejected : ¬ ∀ bars ctx, findPullbackContext bars 2 3 = some ctx →
    ∃ n, 1 ≤ n ∧ LightVolumeRight bars ctx n := by
  intro h
  obtain ⟨n, hn, hright⟩ := h _ _ findPullbackContext_lightContext
  have hlight : LightVolume lightPullback lightContext n := by
    rcases n with _ | _ | _ | _ | n
    · exact absurd hn (by decide)
    · decide +kernel
    · decide +kernel
    · decide +kernel
    · -- four bars are all there are
      have hall : (lightPullback.dropLast.rdrop lightContext.pullbackCount).rtake (n + 4)
          = (lightPullback.dropLast.rdrop lightContext.pullbackCount).rtake 4 := by
        have hlen : (lightPullback.dropLast.rdrop lightContext.pullbackCount).length = 4 := rfl
        rw [List.rtake, hlen, Nat.sub_eq_zero_of_le (Nat.le_add_left 4 n), List.rtake, hlen]
      have hfour : LightVolume lightPullback lightContext 4 := by decide +kernel
      unfold LightVolume at hfour ⊢
      rw [hall]
      exact hfour
  have hrejected : ¬ (isMicroPullback lightPullback lightContext none).isSome = true := by
    decide +kernel
  exact hrejected ((hright.verdict none).mpr hlight)

end RossBot
