import RossBot.Demo.TradeLog
import RossBot.Lib.Dict
import RossBot.Lib.Tally

/-!
# The performance summary

`performance_summary` of `core/demo/engine.py`. The loop over the equity curve keeps
the peak and the lowest total since; its greatest drawdown is that of the whole
curve (`maxDrawdownPct_isGreatest`). The R-multiples that are averaged come from a
list without the trades that have none, read alongside the list of all trades, so
they are those of the right trades only while the trades that have one come first
(`averagesRight_iff`).

The amounts and the drawdowns are exact: that a drawdown is rounded to 28 digits and
becomes a float is left out. The texts of the summary and its constants are, too.
-/

namespace RossBot

open Lib

/-! ## R-multiples -/

/-- `r_vals`. -/
def rVals (trades : List JournalRow) : List ℚ := trades.filterMap JournalRow.rMultiple

/-- The condition of the comprehensions: the P&L `counts`, and there is an R-multiple. -/
def averaged (counts : ℚ → Bool) (t : JournalRow) : Bool := counts t.pnl && t.rMultiple.isSome

/-- The first of each pair whose trade meets the condition. -/
def taken (counts : ℚ → Bool) (pairs : List (ℚ × JournalRow)) : List ℚ :=
  pairs.filterMap fun (r, t) => if averaged counts t then some r else none

/-- The comprehension over `zip(r_vals, trades)`, for the trades whose P&L `counts`. -/
def pairedR (counts : ℚ → Bool) (trades : List JournalRow) : List ℚ :=
  taken counts ((rVals trades).zip trades)

/-- `r_winners`. -/
def rWinners (trades : List JournalRow) : List ℚ := pairedR (fun pnl => decide (0 < pnl)) trades

/-- `r_losers`. -/
def rLosers (trades : List JournalRow) : List ℚ := pairedR (fun pnl => decide (pnl ≤ 0)) trades

/-- `round(sum(rs) / len(rs), 2) if rs else None`. -/
def meanR (rs : List ℚ) : Option ℚ :=
  if rs.length = 0 then none else some (roundFloat (binary64 (floatSum rs / (rs.length : ℚ))) 2)

/-! ## The equity curve -/

/-- What the loop over the trades keeps. -/
structure Drawdown where
  running : ℚ
  peak : ℚ
  troughAfterPeak : ℚ
  maxDd : ℚ

/-- Before the first trade. -/
def Drawdown.start : Drawdown := ⟨0, 0, 0, 0⟩

/-- One trade. -/
def Drawdown.add (d : Drawdown) (pnl : ℚ) : Drawdown :=
  let running := d.running + pnl
  if d.peak < running then
    { d with running := running, peak := running, troughAfterPeak := running }
  else if running < d.troughAfterPeak then
    let maxDd :=
      if 0 < d.peak then
        let dd := (d.peak - running) / d.peak
        if d.maxDd < dd then dd else d.maxDd
      else d.maxDd
    { d with running := running, troughAfterPeak := running, maxDd := maxDd }
  else { d with running := running }

/-- A point of `equity_curve`. -/
structure EquityPoint where
  ts : Time
  cumulativePnl : ℚ
  tradeId : ℕ

/-- `equity_curve`, from `idx` and `running` on. -/
def equityCurve (idx : ℕ) (running : ℚ) : List JournalRow → List EquityPoint
  | [] => []
  | t :: trades =>
      let running := running + t.pnl
      ⟨t.exitTs, quantize2 running, idx⟩ :: equityCurve (idx + 1) running trades

/-- `daily`. -/
def dailyPnl (trades : List JournalRow) : Dict String ℚ :=
  trades.foldl
    (fun daily t => daily.set t.exitDate ((daily.get? t.exitDate).getD 0 + t.pnl)) ∅

/-! ## The summary -/

/-- What `performance_summary` returns. -/
structure PerformanceSummary where
  totalTrades : ℕ
  winCount : ℕ
  lossCount : ℕ
  winRateValue : Option ℚ
  avgRWinners : Option ℚ
  avgRLosers : Option ℚ
  maxDrawdownPct : ℚ
  giveBackPctFromPeak : ℚ
  rolling5WinRate : Option ℚ
  rolling20WinRate : Option ℚ
  equityCurve : List EquityPoint
  dailyPnl : List (String × ℚ)
  realizedPnl : ℚ
  peakPnl : ℚ

/-- `_rolling_wr`. -/
def rollingWr (pnls : List ℚ) (n : ℕ) : Option ℚ :=
  let lastN := if n ≤ pnls.length then pnls.rtake n else pnls
  if lastN.length = 0 then none
  else some (roundFloat
    (binary64 ((lastN.countP fun p => decide (0 < p) : ℕ) / (lastN.length : ℚ))) 4)

/-- `performance_summary`. -/
def performanceSummary (risk : DemoRisk) (closedTrades : List JournalRow) : PerformanceSummary :=
  let trades := byExit closedTrades
  let pnls := trades.map (·.pnl)
  let wins := pnls.filter fun p => 0 < p
  let losses := pnls.filter fun p => p < 0
  let total := pnls.length
  let curve := pnls.foldl Drawdown.add .start
  { totalTrades := total
    winCount := wins.length
    lossCount := losses.length
    winRateValue :=
      if total = 0 then none
      else some (roundFloat (binary64 ((wins.length : ℚ) / (total : ℚ))) 4)
    avgRWinners := meanR (rWinners trades)
    avgRLosers := meanR (rLosers trades)
    maxDrawdownPct := curve.maxDd
    giveBackPctFromPeak :=
      if 0 < curve.peak then binary64 (decimal28 ((curve.peak - risk.realizedPnl) / curve.peak))
      else 0
    rolling5WinRate := rollingWr pnls 5
    rolling20WinRate := rollingWr pnls 20
    equityCurve := RossBot.equityCurve 1 0 trades
    dailyPnl := (RossBot.dailyPnl trades).items.insertionSort fun a b => a.1 ≤ b.1
    realizedPnl := quantize2 risk.realizedPnl
    peakPnl := quantize2 risk.peakPnl }

/-! ## The greatest drawdown -/

/-- The loop after the amounts `pnls`. -/
structure Drawdown.Tracks (d : Drawdown) (pnls : List ℚ) : Prop where
  running_eq : d.running = pnls.sum
  peak_eq : d.peak = Lib.peak pnls
  /-- The trough has been counted. -/
  trough_le : 0 < d.peak → (d.peak - d.troughAfterPeak) / d.peak ≤ d.maxDd
  isGreatest : IsGreatest (drawdowns pnls) d.maxDd

theorem Drawdown.tracks_start : Drawdown.start.Tracks [] where
  running_eq := rfl
  peak_eq := rfl
  trough_le := fun h => absurd h (lt_irrefl _)
  isGreatest := isGreatest_drawdowns_nil

/--
**One more trade keeps the running figures.**

A new peak is the new total, and the greatest drop from it is none. Otherwise the peak
stays, and the drop at the new total is compared with the greatest one so far; a peak
that is not positive has no share to drop by.
-/
theorem Drawdown.Tracks.add {d : Drawdown} {pnls : List ℚ} (h : d.Tracks pnls) (pnl : ℚ) :
    (d.add pnl).Tracks (pnls ++ [pnl]) := by
  have hsum : (pnls ++ [pnl]).sum = d.running + pnl := by
    rw [List.sum_append, List.sum_singleton, h.running_eq]
  have hpeak : Lib.peak (pnls ++ [pnl]) = max d.peak (d.running + pnl) := by
    rw [peak_snoc, h.peak_eq, h.running_eq]
  have hmax := isGreatest_drawdowns_snoc h.isGreatest pnl
  have hzero : 0 ≤ d.maxDd := h.isGreatest.2 (Or.inl rfl)
  have hpeak_nonneg : 0 ≤ d.peak := h.peak_eq ▸ peak_nonneg pnls
  rw [drop, hsum, hpeak] at hmax
  unfold Drawdown.add
  by_cases hrise : d.peak < d.running + pnl
  · -- a new peak: nothing has been lost from it
    rw [max_eq_right hrise.le, sub_self, zero_div, max_eq_left hzero, ite_self] at hmax
    rw [if_pos hrise]
    refine ⟨hsum.symm, ?_, fun _ => ?_, hmax⟩
    · rw [hpeak, max_eq_right hrise.le]
    · show (d.running + pnl - (d.running + pnl)) / (d.running + pnl) ≤ d.maxDd
      rw [sub_self, zero_div]
      exact hzero
  · have hsame : max d.peak (d.running + pnl) = d.peak := max_eq_left (not_lt.mp hrise)
    rw [hsame] at hmax hpeak
    rw [if_neg hrise]
    by_cases hfall : d.running + pnl < d.troughAfterPeak
    · -- a new trough
      rw [if_pos hfall]
      by_cases hpos : 0 < d.peak
      · rw [if_pos hpos, max_def_lt] at hmax
        refine ⟨hsum.symm, hpeak.symm, fun _ => ?_, ?_⟩
        · show (d.peak - (d.running + pnl)) / d.peak ≤ if 0 < d.peak then _ else _
          rw [if_pos hpos]
          split
          · exact le_refl _
          · rename_i hle
            exact not_lt.mp hle
        · show IsGreatest _ (if 0 < d.peak then _ else _)
          rw [if_pos hpos]
          exact hmax
      · rw [if_neg hpos] at hmax
        refine ⟨hsum.symm, hpeak.symm, fun h' => absurd h' hpos, ?_⟩
        show IsGreatest _ (if 0 < d.peak then _ else _)
        rw [if_neg hpos]
        exact hmax
    · -- neither: the total is no lower than the trough that was counted
      rw [if_neg hfall]
      refine ⟨hsum.symm, hpeak.symm, h.trough_le, ?_⟩
      by_cases hpos : 0 < d.peak
      · have hless : (d.peak - (d.running + pnl)) / d.peak ≤ d.maxDd :=
          (div_le_div_of_nonneg_right (sub_le_sub_left (not_lt.mp hfall) _) hpeak_nonneg).trans
            (h.trough_le hpos)
        rw [if_pos hpos, max_eq_left hless] at hmax
        exact hmax
      · rw [if_neg hpos] at hmax
        exact hmax

theorem Drawdown.tracks_foldl (pnls : List ℚ) : (pnls.foldl Drawdown.add .start).Tracks pnls := by
  induction pnls using List.reverseRecOn with
  | nil => exact tracks_start
  | append_singleton pnls pnl ih =>
      rw [List.foldl_append, List.foldl_cons, List.foldl_nil]
      exact ih.add pnl

/--
**The drawdown shown is the greatest there was.** Over the trades in order of exit
it is the greatest of the drops from the running peak to the running total, as a
share of the peak, at the points where the peak is positive; with no drop it is zero.
-/
theorem maxDrawdownPct_isGreatest (risk : DemoRisk) (closedTrades : List JournalRow) :
    IsGreatest (drawdowns ((byExit closedTrades).map (·.pnl)))
      (performanceSummary risk closedTrades).maxDrawdownPct :=
  (Drawdown.tracks_foldl _).isGreatest

/-! ## Which R-multiples are averaged -/

/-- The R-multiples of the trades whose P&L `counts`. -/
def rOf (counts : ℚ → Bool) (trades : List JournalRow) : List ℚ :=
  (trades.filter fun t => counts t.pnl).filterMap JournalRow.rMultiple

/-- The two averages are the means of the R-multiples of the winners, and of the others: of these
multiples, and not only of some that have the same mean. -/
structure AveragesRight (risk : DemoRisk) (closedTrades : List JournalRow) : Prop where
  winners : rWinners (byExit closedTrades) =
    rOf (fun pnl => decide (0 < pnl)) (byExit closedTrades)
  losers : rLosers (byExit closedTrades) =
    rOf (fun pnl => decide (pnl ≤ 0)) (byExit closedTrades)
  avgRWinners : (performanceSummary risk closedTrades).avgRWinners =
    meanR (rOf (fun pnl => decide (0 < pnl)) (byExit closedTrades))
  avgRLosers : (performanceSummary risk closedTrades).avgRLosers =
    meanR (rOf (fun pnl => decide (pnl ≤ 0)) (byExit closedTrades))

/-- The trades that have an R-multiple come before those that have none. -/
def Aligned (trades : List JournalRow) : Prop :=
  trades.Pairwise fun t u => t.rMultiple = none → u.rMultiple = none

section Averages

variable {trades : List JournalRow} {counts : ℚ → Bool}

theorem taken_cons (counts : ℚ → Bool) (r : ℚ) (t : JournalRow) (pairs : List (ℚ × JournalRow)) :
    taken counts ((r, t) :: pairs) =
      (if averaged counts t then [r] else []) ++ taken counts pairs := by
  rw [taken, taken, List.filterMap_cons]
  cases h : averaged counts t <;> simp [h]

/-- A trade with an R-multiple is paired with its own. -/
theorem pairedR_cons_some {t : JournalRow} {r : ℚ} (h : t.rMultiple = some r) :
    pairedR counts (t :: trades) =
      (if counts t.pnl then [r] else []) ++ pairedR counts trades := by
  have hcounts : averaged counts t = counts t.pnl := by
    rw [averaged, h, Option.isSome_some, Bool.and_true]
  rw [pairedR, rVals, List.filterMap_cons_some h, List.zip_cons_cons, taken_cons, hcounts]
  rfl

theorem rOf_cons_some {t : JournalRow} {r : ℚ} (h : t.rMultiple = some r) :
    rOf counts (t :: trades) = (if counts t.pnl then [r] else []) ++ rOf counts trades := by
  rw [rOf, List.filter_cons]
  cases hc : counts t.pnl <;> simp [rOf, h]

/-- Where no trade has an R-multiple there is none to average. -/
theorem rOf_of_none (h : ∀ t ∈ trades, t.rMultiple = none) : rOf counts trades = [] := by
  rw [rOf, List.filterMap_eq_nil_iff]
  intro t ht
  exact h t (List.mem_of_mem_filter ht)

/-- **Aligned trades are paired with their own R-multiples.** -/
theorem Aligned.pairedR_eq (h : Aligned trades) : pairedR counts trades = rOf counts trades := by
  induction trades with
  | nil => rfl
  | cons t trades ih =>
      obtain ⟨hfirst, hrest⟩ := List.pairwise_cons.mp h
      cases hr : t.rMultiple with
      | some r => rw [pairedR_cons_some hr, rOf_cons_some hr, ih hrest]
      | none =>
          -- from here on no trade has one, and there is nothing left to pair
          have hnone : ∀ u ∈ t :: trades, u.rMultiple = none :=
            List.forall_mem_cons.mpr ⟨hr, fun u hu => hfirst u hu hr⟩
          rw [rOf_of_none hnone, pairedR, rVals, List.filterMap_eq_nil_iff.mpr hnone,
            List.zip_nil_left]
          rfl

/-! ## Where the pairing slips -/

/-- As many R-multiples are averaged as trades meet the condition among those they are paired
with. -/
theorem length_pairedR (counts : ℚ → Bool) (trades : List JournalRow) :
    (pairedR counts trades).length =
      (trades.take (rVals trades).length).countP (averaged counts) := by
  have hpred : (fun x : ℚ × JournalRow => (if averaged counts x.2 then some x.1 else none).isSome) =
      averaged counts ∘ Prod.snd := by
    funext x
    cases h : averaged counts x.2 <;> simp [h]
  have hle : (rVals trades).length ≤ trades.length := List.length_filterMap_le ..
  have hsnd : ((rVals trades).zip trades).map Prod.snd = trades.take (rVals trades).length := by
    rw [List.zip_eq_zip_take_min, List.map_snd_zip (by simp), min_eq_left hle]
  rw [pairedR, taken, List.length_filterMap_eq_countP, hpred, ← List.countP_map, hsnd]

theorem length_rOf (counts : ℚ → Bool) (trades : List JournalRow) :
    (rOf counts trades).length = trades.countP (averaged counts) := by
  rw [rOf, List.length_filterMap_eq_countP, List.countP_filter]
  refine List.countP_congr ?_
  intro t _
  rw [averaged, Bool.and_comm]

/-- Every trade with an R-multiple is a winner or not. -/
theorem countP_averaged (trades : List JournalRow) :
    trades.countP (averaged fun pnl => decide (0 < pnl)) +
      trades.countP (averaged fun pnl => decide (pnl ≤ 0)) =
        trades.countP fun t => t.rMultiple.isSome := by
  induction trades with
  | nil => rfl
  | cons t trades ih =>
      rw [List.countP_cons, List.countP_cons, List.countP_cons, ← ih, averaged, averaged]
      rcases lt_or_ge 0 t.pnl with hwon | hlost
      · rw [decide_eq_true hwon, decide_eq_false (not_le.mpr hwon)]
        simp only [Bool.true_and, Bool.false_and, Bool.false_eq_true, if_false]
        omega
      · rw [decide_eq_true hlost, decide_eq_false (not_lt.mpr hlost)]
        simp only [Bool.true_and, Bool.false_and, Bool.false_eq_true, if_false]
        omega

theorem aligned_append {pre post : List JournalRow} (hpre : ∀ u ∈ pre, u.rMultiple.isSome = true)
    (hpost : ∀ u ∈ post, u.rMultiple = none) : Aligned (pre ++ post) := by
  rw [Aligned, List.pairwise_append]
  refine ⟨?_, ?_, ?_⟩
  · refine List.pairwise_of_forall_mem_list fun u hu _ _ hnone => ?_
    exact absurd (hpre u hu) (by simp [hnone])
  · exact List.pairwise_of_forall_mem_list fun _ _ v hv _ => hpost v hv
  · exact fun _ _ v hv _ => hpost v hv

/-- **Trades that lose no R-multiple to the pairing are aligned**: with a gap, an R-multiple is
paired with a trade that has none, and not averaged at all. -/
theorem aligned_of_paired
    (hwon : (rWinners trades).length = (rOf (fun pnl => decide (0 < pnl)) trades).length)
    (hlost : (rLosers trades).length = (rOf (fun pnl => decide (pnl ≤ 0)) trades).length) :
    Aligned trades := by
  have hcount : (rVals trades).length = trades.countP fun t => t.rMultiple.isSome :=
    List.length_filterMap_eq_countP ..
  have hfirst : (trades.take (rVals trades).length).countP (fun t => t.rMultiple.isSome) =
      (rVals trades).length := by
    rw [rWinners, length_pairedR, length_rOf] at hwon
    rw [rLosers, length_pairedR, length_rOf] at hlost
    rw [← countP_averaged, hwon, hlost, countP_averaged, hcount]
  have hlen : (trades.take (rVals trades).length).length = (rVals trades).length :=
    List.length_take_of_le (List.length_filterMap_le ..)
  -- the first trades all have one, so none is left for the others
  have hall := List.countP_eq_length.mp (hfirst.trans hlen.symm)
  have hrest : (trades.drop (rVals trades).length).countP (fun t => t.rMultiple.isSome) = 0 := by
    have hsplit := congrArg (List.countP fun t : JournalRow => t.rMultiple.isSome)
      (List.take_append_drop (rVals trades).length trades)
    rw [List.countP_append, hfirst, ← hcount] at hsplit
    omega
  rw [← List.take_append_drop (rVals trades).length trades]
  refine aligned_append hall fun u hu => ?_
  have hnone := List.countP_eq_zero.mp hrest u hu
  rwa [Bool.not_eq_true, Option.isSome_eq_false_iff, Option.isNone_iff_eq_none] at hnone

end Averages

/--
**The averages are right when the trades with an R-multiple come first**, in order of
exit, and in no other case. A trade without one that is closed before a trade with
one moves the later R-multiples to other trades, winners to losers among them, and
the last of them to none.
-/
theorem averagesRight_iff (risk : DemoRisk) (closedTrades : List JournalRow) :
    AveragesRight risk closedTrades ↔ Aligned (byExit closedTrades) := by
  constructor
  · intro h
    exact aligned_of_paired (congrArg List.length h.winners) (congrArg List.length h.losers)
  · intro h
    exact ⟨h.pairedR_eq, h.pairedR_eq, congrArg meanR h.pairedR_eq, congrArg meanR h.pairedR_eq⟩

/-- A stop that was moved to breakeven, then a winner of two R, then a loser of one. -/
def breakevenFirst : Journal :=
  .of [⟨some 0, ⟨"AAA", 100, 5, 5, openingBell, true, .microPullback⟩, 11 / 2, 100,
        .toppingTail, openingBell + 60⟩,
      ⟨some 1, ⟨"BBB", 100, 5, 49 / 10, openingBell, false, .microPullback⟩, 26 / 5, 100,
        .toppingTail, openingBell + 90⟩,
      ⟨some 2, ⟨"CCC", 100, 5, 49 / 10, openingBell, false, .microPullback⟩, 49 / 10, 100,
        .p1HardStop, openingBell + 120⟩]

/-- The winner of two R is not averaged, and the loser's multiple is its average. -/
theorem not_averagesRight_breakeven :
    (performanceSummary .fresh breakevenFirst.rows).avgRWinners = some (-1) ∧
      ¬ AveragesRight .fresh breakevenFirst.rows := by
  refine ⟨by decide +kernel, ?_⟩
  intro h
  exact absurd h.avgRWinners (by decide +kernel)

end RossBot
