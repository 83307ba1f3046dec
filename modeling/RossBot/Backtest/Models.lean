import RossBot.Lib.Tally
import RossBot.Risk.PreTrade

/-!
# Trade records, simulated days, results

`core/backtest/models.py`, and `_finalise_day` of `core/backtest/replay.py`. A
`datetime` is an instant together with the offset of the clock it is written in,
since `.date()` is read off that clock.
-/

namespace RossBot

open Lib

/-- A tz-aware `datetime`: its instant and its `utcoffset()` in seconds. -/
structure Stamp where
  instant : Time
  utcOffset : ℚ
  deriving DecidableEq

/-- `datetime.date()`, as days since the epoch. -/
def Stamp.date (t : Stamp) : ℤ := ⌊(t.instant + t.utcOffset) / 86400⌋

/-- `TradeRecord.exit_reason`. -/
inductive TradeExit where
  | vetoed
  | eodFlatten
  | signal (reason : ExitReason)
  deriving DecidableEq, Repr

/-- `TradeRecord`. -/
structure TradeRecord where
  symbol : Symbol
  entryTs : Stamp
  exitTs : Stamp
  entryPrice : ℚ
  exitPrice : ℚ
  shares : ℤ
  grossPnl : ℚ
  fees : ℚ
  netPnl : ℚ
  rMultiple : ℚ
  holdSeconds : ℚ
  exitReason : TradeExit
  riskPerShare : ℚ
  vetoed : Bool
  vetoReasons : List VetoReason
  ruleViolation : Bool
  deriving DecidableEq

/-- `SimDay`. -/
structure SimDay where
  date : ℤ
  trades : List TradeRecord
  peakPnl : ℚ
  endPnl : ℚ
  maxDrawdown : ℚ
  giveBackPct : ℚ
  deriving DecidableEq

/-- `SimDay(date=date)`. -/
def SimDay.new (date : ℤ) : SimDay where
  date := date
  trades := []
  peakPnl := 0
  endPnl := 0
  maxDrawdown := 0
  giveBackPct := 0

/-- `sim_day.trades.append(trade)`. -/
def SimDay.append (d : SimDay) (trade : TradeRecord) : SimDay :=
  { d with trades := d.trades ++ [trade] }

/-- The completed trades: those that are not vetoed. -/
def SimDay.completed (d : SimDay) : List TradeRecord := d.trades.filter fun t => !t.vetoed

/-- The net P&L of each completed trade, in order. -/
def SimDay.ledger (d : SimDay) : List ℚ := d.completed.map (·.netPnl)

/-- `BacktestResult`. -/
structure BacktestResult where
  days : List SimDay
  deriving DecidableEq

/-! ## Finalising a day -/

/-- What `_finalise_day` accumulates. -/
structure DayTally where
  pnlRunning : ℚ
  peak : ℚ
  maxDd : ℚ

/-- One completed trade. -/
def DayTally.add (t : DayTally) (netPnl : ℚ) : DayTally :=
  let running := t.pnlRunning + netPnl
  let peak := if t.peak < running then running else t.peak
  let dd := peak - running
  { pnlRunning := running
    peak := peak
    maxDd := if t.maxDd < dd then dd else t.maxDd }

/-- The loop of `_finalise_day`. -/
def tallyTrades (trades : List TradeRecord) : DayTally :=
  trades.foldl (fun t trade => if trade.vetoed then t else t.add trade.netPnl) ⟨0, 0, 0⟩

/-- `_finalise_day`. -/
def finaliseDay (d : SimDay) : SimDay :=
  let t := tallyTrades d.trades
  { d with
    endPnl := t.pnlRunning
    peakPnl := t.peak
    maxDrawdown := t.maxDd
    giveBackPct := if 0 < t.peak then t.maxDd / t.peak else d.giveBackPct }

/-! ## Lemmas -/

@[simp] theorem SimDay.completed_new (date : ℤ) : (SimDay.new date).completed = [] := rfl

@[simp] theorem SimDay.ledger_new (date : ℤ) : (SimDay.new date).ledger = [] := rfl

@[simp] theorem SimDay.date_append (d : SimDay) (t : TradeRecord) : (d.append t).date = d.date :=
  rfl

theorem SimDay.completed_append (d : SimDay) {t : TradeRecord} (h : t.vetoed = false) :
    (d.append t).completed = d.completed ++ [t] := by
  simp [SimDay.completed, SimDay.append, h]

theorem SimDay.completed_append_vetoed (d : SimDay) {t : TradeRecord} (h : t.vetoed = true) :
    (d.append t).completed = d.completed := by
  simp [SimDay.completed, SimDay.append, h]

theorem SimDay.ledger_append (d : SimDay) {t : TradeRecord} (h : t.vetoed = false) :
    (d.append t).ledger = d.ledger ++ [t.netPnl] := by
  rw [SimDay.ledger, SimDay.completed_append d h, List.map_append, List.map_singleton]; rfl

theorem SimDay.ledger_append_vetoed (d : SimDay) {t : TradeRecord} (h : t.vetoed = true) :
    (d.append t).ledger = d.ledger := by
  rw [SimDay.ledger, SimDay.completed_append_vetoed d h]; rfl

@[simp] theorem completed_finaliseDay (d : SimDay) : (finaliseDay d).completed = d.completed := rfl

/-- The loop passes over vetoed entries. -/
theorem tallyTrades_eq (d : SimDay) : tallyTrades d.trades = d.ledger.foldl DayTally.add ⟨0, 0, 0⟩ := by
  unfold tallyTrades SimDay.ledger SimDay.completed
  generalize (⟨0, 0, 0⟩ : DayTally) = t
  induction d.trades generalizing t with
  | nil => rfl
  | cons trade trades ih =>
      rw [List.foldl_cons, ih]
      cases hv : trade.vetoed <;> simp [hv]

/-- The loop's totals are the statistics of the ledger. -/
theorem foldl_add_tally (l : List ℚ) :
    (l.foldl DayTally.add ⟨0, 0, 0⟩).pnlRunning = l.sum
      ∧ (l.foldl DayTally.add ⟨0, 0, 0⟩).peak = peak l := by
  induction l using List.reverseRecOn with
  | nil => exact ⟨rfl, rfl⟩
  | append_singleton l x ih =>
      rw [List.foldl_append, List.foldl_cons, List.foldl_nil, List.sum_append, List.sum_singleton,
        peak_snoc]
      refine ⟨by rw [DayTally.add, ih.1], ?_⟩
      rw [DayTally.add, ih.1, ih.2, max_def]
      dsimp only
      split_ifs with h h' h'
      · rfl
      · exact absurd h.le h'
      · exact le_antisymm h' (not_lt.mp h)
      · rfl

theorem endPnl_finaliseDay (d : SimDay) : (finaliseDay d).endPnl = d.ledger.sum := by
  rw [finaliseDay, tallyTrades_eq]; exact (foldl_add_tally d.ledger).1

theorem peakPnl_finaliseDay (d : SimDay) : (finaliseDay d).peakPnl = peak d.ledger := by
  rw [finaliseDay, tallyTrades_eq]; exact (foldl_add_tally d.ledger).2

end RossBot
