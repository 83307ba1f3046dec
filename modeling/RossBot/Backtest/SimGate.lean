import RossBot.Backtest.Models
import RossBot.Lib.Window

/-!
# The simulator gate

`core/backtest/sim_gate.py`, and the counts of a `SimDay` that it reads. The gate
keeps no more days than the run it asks for: a failing day empties the buffer and
is then kept as its first day, and the buffer is cut to the last days. What it
counts is all the same the run at the end of everything recorded, as far as the
required number (`gateAfter_tracks`).
-/

namespace RossBot

open Lib

/-- `SimDay.day_trades`. -/
def SimDay.dayTrades (d : SimDay) : ℕ := d.completed.length

/-- `SimDay.wins`. -/
def SimDay.wins (d : SimDay) : ℕ :=
  (d.trades.filter fun t => !t.vetoed && decide (0 < t.netPnl)).length

/-- `SimDay.accuracy`. -/
def SimDay.accuracy (d : SimDay) : ℚ :=
  if d.dayTrades = 0 then 0 else (d.wins : ℚ) / (d.dayTrades : ℚ)

/-- The configuration keys of the gate. -/
structure GateConfig where
  simGateDays : ℤ
  simGateAccuracy : ℚ
  liveEnabled : Bool

/-- `SimulatorGate`. -/
structure SimulatorGate where
  cfg : GateConfig
  qualifyingDays : List SimDay

/-- `SimulatorGate(config)`. -/
def SimulatorGate.new (cfg : GateConfig) : SimulatorGate := ⟨cfg, []⟩

/-- The slice `xs[-n:]`. From 1 on it is the last `n` elements; `-0` is the first index. -/
def sliceLast {α : Type} (xs : List α) (n : ℤ) : List α :=
  if 0 < n then xs.rtake n.toNat else xs.drop (-n).toNat

/-- A day counts: it has a trade, and its accuracy is high enough. -/
def SimDay.qualifies (threshold : ℚ) (d : SimDay) : Bool :=
  decide (0 < d.dayTrades) && decide (threshold ≤ d.accuracy)

/-- `record_day`. -/
def SimulatorGate.recordDay (g : SimulatorGate) (day : SimDay) : SimulatorGate :=
  let kept := if day.qualifies g.cfg.simGateAccuracy then g.qualifyingDays else []
  { g with qualifyingDays := sliceLast (kept ++ [day]) g.cfg.simGateDays }

/-- `consecutive_qualifying_days`: from the last day back, up to the first that fails. -/
def SimulatorGate.consecutiveQualifyingDays (g : SimulatorGate) : ℕ :=
  (g.qualifyingDays.reverse.takeWhile fun d => d.qualifies g.cfg.simGateAccuracy).length

/-- `satisfied`. -/
def SimulatorGate.satisfied (g : SimulatorGate) : Bool :=
  decide (g.cfg.simGateDays ≤ (g.consecutiveQualifyingDays : ℤ))

/-- `live_mode_allowed`, under the configuration it is handed. -/
def SimulatorGate.liveModeAllowed (g : SimulatorGate) (cfg : GateConfig) : Bool :=
  g.satisfied && cfg.liveEnabled

/-- A gate that has been handed the days one after another. -/
def gateAfter (cfg : GateConfig) (days : List SimDay) : SimulatorGate :=
  days.foldl SimulatorGate.recordDay (.new cfg)

/-! ## What the buffer tells -/

/-- At least one trade that was not vetoed. -/
theorem SimDay.qualifies_iff (threshold : ℚ) (d : SimDay) :
    d.qualifies threshold = true ↔
      (∃ t ∈ d.trades, t.vetoed = false) ∧ threshold ≤ d.accuracy := by
  have htrades : 0 < d.dayTrades ↔ ∃ t ∈ d.trades, t.vetoed = false := by
    rw [dayTrades, List.length_pos_iff_exists_mem]
    simp [completed]
  rw [qualifies, Bool.and_eq_true, decide_eq_true_iff, decide_eq_true_iff, htrades]

theorem sliceLast_natCast {α : Type} (xs : List α) {n : ℕ} (hn : 1 ≤ n) :
    sliceLast xs n = xs.rtake n := by
  have hpos : (0 : ℤ) < n := by omega
  rw [sliceLast, if_pos hpos, Int.toNat_natCast]

/-- The gate has been handed `days`: its buffer ends in as much of their last run as it needs. -/
structure SimulatorGate.Tracks (g : SimulatorGate) (cfg : GateConfig) (n : ℕ)
    (days : List SimDay) : Prop where
  cfg_eq : g.cfg = cfg
  run_eq : trailing (SimDay.qualifies cfg.simGateAccuracy) g.qualifyingDays =
    min n (trailing (SimDay.qualifies cfg.simGateAccuracy) days)

theorem SimulatorGate.Tracks.recordDay {g : SimulatorGate} {cfg : GateConfig} {n : ℕ}
    {days : List SimDay} (h : g.Tracks cfg n days) (hn : 1 ≤ n) (hdays : cfg.simGateDays = n)
    (day : SimDay) : (g.recordDay day).Tracks cfg n (days ++ [day]) where
  cfg_eq := h.cfg_eq
  run_eq := by
    have hbuffer : (g.recordDay day).qualifyingDays =
        ((if day.qualifies cfg.simGateAccuracy then g.qualifyingDays else []) ++ [day]).rtake n := by
      rw [SimulatorGate.recordDay, h.cfg_eq, hdays]
      exact sliceLast_natCast _ hn
    rw [hbuffer, trailing_rtake, trailing_snoc, trailing_snoc]
    by_cases hq : day.qualifies cfg.simGateAccuracy
    · -- one day more, of the `n` that are kept
      rw [if_pos hq, if_pos hq, if_pos hq, h.run_eq]
      omega
    · rw [if_neg hq, if_neg hq]

/-- **Over any days recorded, the gate counts the run they end in, up to the required number.** -/
theorem gateAfter_tracks (cfg : GateConfig) (n : ℕ) (hn : 1 ≤ n) (hdays : cfg.simGateDays = n)
    (days : List SimDay) : (gateAfter cfg days).Tracks cfg n days := by
  induction days using List.reverseRecOn with
  | nil => exact ⟨rfl, (Nat.min_zero n).symm⟩
  | append_singleton days day ih =>
      rw [gateAfter, List.foldl_append, List.foldl_cons, List.foldl_nil]
      exact ih.recordDay hn hdays day

theorem gateAfter_consecutive (cfg : GateConfig) (n : ℕ) (hn : 1 ≤ n)
    (hdays : cfg.simGateDays = n) (days : List SimDay) :
    (gateAfter cfg days).consecutiveQualifyingDays =
      min n (trailing (SimDay.qualifies cfg.simGateAccuracy) days) := by
  have h := gateAfter_tracks cfg n hn hdays days
  rw [SimulatorGate.consecutiveQualifyingDays, h.cfg_eq]
  exact h.run_eq

theorem gateAfter_satisfied_iff (cfg : GateConfig) (n : ℕ) (hn : 1 ≤ n)
    (hdays : cfg.simGateDays = n) (days : List SimDay) :
    (gateAfter cfg days).satisfied = true ↔
      n ≤ days.length ∧ ∀ d ∈ days.rtake n,
        (∃ t ∈ d.trades, t.vetoed = false) ∧ cfg.simGateAccuracy ≤ d.accuracy := by
  have hcfg := (gateAfter_tracks cfg n hn hdays days).cfg_eq
  have hopen : (gateAfter cfg days).satisfied = true ↔
      n ≤ trailing (SimDay.qualifies cfg.simGateAccuracy) days := by
    rw [SimulatorGate.satisfied, decide_eq_true_iff, hcfg, hdays,
      gateAfter_consecutive cfg n hn hdays days]
    omega
  rw [hopen, le_trailing_iff]
  simp only [SimDay.qualifies_iff]

/-- Nothing but a full window of such days lets live trading on, and the switch must be on too. -/
theorem gateAfter_liveModeAllowed (cfg live : GateConfig) (n : ℕ) (hn : 1 ≤ n)
    (hdays : cfg.simGateDays = n) (days : List SimDay) :
    (gateAfter cfg days).liveModeAllowed live = true ↔
      (n ≤ days.length ∧ ∀ d ∈ days.rtake n,
        (∃ t ∈ d.trades, t.vetoed = false) ∧ cfg.simGateAccuracy ≤ d.accuracy) ∧
      live.liveEnabled = true := by
  rw [SimulatorGate.liveModeAllowed, Bool.and_eq_true, gateAfter_satisfied_iff cfg n hn hdays days]

/--
**The gate opens on a full window.** It is satisfied when at least as many days
were recorded as it requires and each of the last ones has a trade that was not
vetoed and an accuracy of at least the threshold; the count it shows is the length
of the run of such days at the end, up to the required number.
-/
theorem gateAfter_satisfied (cfg : GateConfig) (n : ℕ) (hn : 1 ≤ n)
    (hdays : cfg.simGateDays = n) (days : List SimDay) :
    ((gateAfter cfg days).satisfied = true ↔
      n ≤ days.length ∧ ∀ d ∈ days.rtake n,
        (∃ t ∈ d.trades, t.vetoed = false) ∧ cfg.simGateAccuracy ≤ d.accuracy) ∧
    (gateAfter cfg days).consecutiveQualifyingDays =
      min n (trailing (SimDay.qualifies cfg.simGateAccuracy) days) :=
  ⟨gateAfter_satisfied_iff cfg n hn hdays days, gateAfter_consecutive cfg n hn hdays days⟩

/-- A day with one trade, won or lost. -/
def oneTradeDay (date : ℤ) (netPnl : ℚ) : SimDay :=
  let at_ : Stamp := ⟨date * 86400, 0⟩
  (SimDay.new date).append
    { symbol := "AAA", entryTs := at_, exitTs := at_, entryPrice := 5, exitPrice := 5 + netPnl,
      shares := 1, grossPnl := netPnl, fees := 0, netPnl := netPnl, rMultiple := 0,
      holdSeconds := 0, exitReason := .eodFlatten, riskPerShare := 1, vetoed := false,
      vetoReasons := [], ruleViolation := false }

theorem gateAfter_satisfied_two :
    ((gateAfter ⟨2, 3 / 5, true⟩
        [oneTradeDay 0 1, oneTradeDay 1 (-1), oneTradeDay 2 1, oneTradeDay 3 1]).satisfied = true ↔
      2 ≤ [oneTradeDay 0 1, oneTradeDay 1 (-1), oneTradeDay 2 1, oneTradeDay 3 1].length ∧
        ∀ d ∈ [oneTradeDay 0 1, oneTradeDay 1 (-1), oneTradeDay 2 1, oneTradeDay 3 1].rtake 2,
          (∃ t ∈ d.trades, t.vetoed = false) ∧ 3 / 5 ≤ d.accuracy) ∧
    (gateAfter ⟨2, 3 / 5, true⟩
        [oneTradeDay 0 1, oneTradeDay 1 (-1), oneTradeDay 2 1,
          oneTradeDay 3 1]).consecutiveQualifyingDays =
      min 2 (trailing (SimDay.qualifies (3 / 5))
        [oneTradeDay 0 1, oneTradeDay 1 (-1), oneTradeDay 2 1, oneTradeDay 3 1]) :=
  gateAfter_satisfied ⟨2, 3 / 5, true⟩ 2 (by omega) rfl _

end RossBot
