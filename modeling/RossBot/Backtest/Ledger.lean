import RossBot.Backtest.Steps

/-!
# Two accountings of a day

The risk manager keeps its day up to date trade by trade; `SimDay` is summed up
when the day is over; the log gives a third reading, `ledgerToday`. `DayBook`
says that at every moment the three tell the same story, so that what the
pre-trade gate looks at is the ledger (`EntryLimits`), and what the risk manager
holds when a day is finalised is the fold of it (`LedgerFold`).
-/

namespace RossBot

open Lib

/-! ## Reading a day off the log -/

/-- A log event, seen as an entry in the ledger of the day. -/
def ReplayEvent.enter (ledger : List ℚ) : ReplayEvent → List ℚ
  | .dayStarted _ => []
  | .closed _ _ trade => ledger ++ [trade.netPnl]
  | _ => ledger

/-- A log event, seen as a count of the day's openings. -/
def ReplayEvent.count (n : ℕ) : ReplayEvent → ℕ
  | .dayStarted _ => 0
  | .opened _ _ _ => n + 1
  | _ => n

/-- The net P&L of each trade closed since the day began. -/
def ledgerToday (log : List ReplayEvent) : List ℚ := log.foldl ReplayEvent.enter []

/-- How many positions were opened since the day began. -/
def openingsToday (log : List ReplayEvent) : ℕ := log.foldl ReplayEvent.count 0

/-- The day an event finalises. -/
def ReplayEvent.finalisedDay : ReplayEvent → Option SimDay
  | .finalised day _ => some day
  | _ => none

theorem ledgerToday_snoc (log : List ReplayEvent) (x : ReplayEvent) :
    ledgerToday (log ++ [x]) = x.enter (ledgerToday log) := foldl_snoc [] log x

theorem openingsToday_snoc (log : List ReplayEvent) (x : ReplayEvent) :
    openingsToday (log ++ [x]) = x.count (openingsToday log) := foldl_snoc 0 log x

/-! ## What is claimed of a day -/

/-- `THREE_STRIKES` trades in a row, anywhere in the ledger, lost money. -/
def StruckOut (cfg : Config) (ledger : List ℚ) : Prop :=
  ∃ w, w <:+: ledger ∧ cfg.threeStrikes ≤ w.length ∧ ∀ x ∈ w, x < 0

/-- What the day so far must look like for a position to be opened on `e`. -/
structure EntryLimits (env : Backtest) (openings : ℕ) (ledger : List ℚ) (e : ReplayBar) :
    Prop where
  trades : (openings : ℤ) < env.cfg.maxTradesPerDay
  time : env.timeOfDay e.bar.ts ≤ env.cfg.hardStopTime
  strikes : ¬ StruckOut env.cfg ledger
  loss : -effectiveLossLimit env.cfg e.accountEquity env.cfg.avgWinDayPnl < ledger.sum
  giveBack : 0 < peak ledger → peak ledger * (1 - env.cfg.giveBackHard) < ledger.sum

/-- The risk manager's state is the fold of the ledger of a finalised day. -/
structure LedgerFold (risk : RiskState) (day : SimDay) : Prop where
  realized : risk.realizedPnl = day.ledger.sum
  endPnl : day.endPnl = day.ledger.sum
  peak : IsGreatest { t | ∃ p, p <+: day.ledger ∧ t = p.sum } risk.peakPnl
  dayPeak : day.peakPnl = risk.peakPnl
  losses : risk.consecutiveLosses = losingRun day.ledger
  trades : risk.tradesToday = day.completed.length
  flat : risk.openPositions.items = []

/-- The limits of the day, checked at each event of the log against the events before it: an
opening is within them, and a day that is over had no more openings than `MAX_TRADES_PER_DAY`. -/
def LimitsAt (env : Backtest) (before : List ReplayEvent) : ReplayEvent → Prop
  | .opened e _ _ => EntryLimits env (openingsToday before) (ledgerToday before) e
  | .finalised day _ => day.ledger = ledgerToday before
      ∧ day.completed.length = openingsToday before
      ∧ openingsToday before ≤ env.cfg.maxTradesPerDay.toNat
  | _ => True

/-- The two accountings, compared when a day is over. -/
def FoldAt : ReplayEvent → Prop
  | .finalised day risk => LedgerFold risk day
  | _ => True

namespace Replay

variable {env : Backtest} {s s' : Replay} {e : ReplayBar}

/-- How many positions are open. -/
def openCount (s : Replay) : ℕ := if s.openPos.isSome then 1 else 0

/-- The risk manager, the current `SimDay` and the log tell the same story. -/
structure DayBook (env : Backtest) (s : Replay) (day : SimDay) : Prop where
  realized : s.risk.realizedPnl = day.ledger.sum
  peak : s.risk.peakPnl = peak day.ledger
  losses : s.risk.consecutiveLosses = losingRun day.ledger
  trades : s.risk.tradesToday = (day.ledger.length + s.openCount : ℕ)
  cap : s.risk.tradesToday ≤ max 0 env.cfg.maxTradesPerDay
  /-- The halt is sticky; a limit that is not positive is caught by the streak itself. -/
  struck : StruckOut env.cfg day.ledger → s.risk.halted = true ∨ env.cfg.threeStrikes ≤ 0
  logLedger : ledgerToday s.log = day.ledger
  logOpenings : (openingsToday s.log : ℤ) = s.risk.tradesToday

/-- The books are in order, and so was everything that is in the log. -/
structure Booked (env : Backtest) (s : Replay) : Prop where
  today : ∀ day, s.simDay = some day → DayBook env s day
  limits : EachAt (LimitsAt env) s.log
  folds : ∀ x ∈ s.log, FoldAt x
  days : s.days = s.log.filterMap ReplayEvent.finalisedDay

theorem booked_start : Booked env start :=
  ⟨fun _ h => absurd h (by simp [start]), eachAt_nil, by simp [start], rfl⟩

/-! ## Each operation keeps the books -/

/-- The books look at the day, the risk manager, whether a position is open, and the log. -/
theorem Booked.congr (h : Booked env s) (hd : s'.simDay = s.simDay) (hr : s'.risk = s.risk)
    (ho : s'.openPos = s.openPos) (hl : s'.log = s.log) (hds : s'.days = s.days) :
    Booked env s' := by
  refine ⟨?_, hl ▸ h.limits, hl ▸ h.folds, by rw [hds, hl, h.days]⟩
  intro day hday
  have b := h.today day (hd ▸ hday)
  have hoc : s'.openCount = s.openCount := by rw [openCount, ho, openCount]
  exact
    { realized := hr ▸ b.realized
      peak := hr ▸ b.peak
      losses := hr ▸ b.losses
      trades := by rw [hr, hoc]; exact b.trades
      cap := hr ▸ b.cap
      struck := hr ▸ b.struck
      logLedger := by rw [hl]; exact b.logLedger
      logOpenings := by rw [hl, hr]; exact b.logOpenings }

theorem forall_mem_snoc {α : Type} {P : α → Prop} {l : List α} {x : α} (h : ∀ y ∈ l, P y)
    (hx : P x) : ∀ y ∈ l ++ [x], P y := by
  intro y hy
  rcases List.mem_append.mp hy with hy | hy
  · exact h y hy
  · rw [List.mem_singleton.mp hy]; exact hx

/-- Noting an event that concerns no ledger. -/
theorem Booked.note (h : Booked env s) {x : ReplayEvent}
    (hledger : x.enter (ledgerToday s.log) = ledgerToday s.log)
    (hcount : x.count (openingsToday s.log) = openingsToday s.log)
    (hday : x.finalisedDay = none) (hlim : LimitsAt env s.log x) (hfold : FoldAt x) :
    Booked env { s with log := s.log ++ [x] } := by
  refine ⟨?_, eachAt_snoc.mpr ⟨h.limits, hlim⟩, forall_mem_snoc h.folds hfold, ?_⟩
  · intro day hd
    have b := h.today day hd
    exact
      { b with
        logLedger := by rw [ledgerToday_snoc, hledger]; exact b.logLedger
        logOpenings := by rw [openingsToday_snoc, hcount]; exact b.logOpenings }
  · rw [List.filterMap_append, ← h.days]
    simp [hday]

theorem Booked.arrive (h : Booked env s) : Booked env (s.arrive e) :=
  h.note rfl rfl rfl trivial trivial

theorem Booked.handBar (h : Booked env s) : Booked env (s.handBar env e).1 :=
  (h.note (x := .handed e (s.engine e.symbol)) rfl rfl rfl trivial trivial).congr
    rfl rfl rfl rfl rfl

/-- Losing once more strikes out exactly when the losing run gets long enough. -/
theorem struckOut_snoc {cfg : Config} {l : List ℚ} {x : ℚ} (h : StruckOut cfg (l ++ [x])) :
    StruckOut cfg l ∨ cfg.threeStrikes ≤ losingRun (l ++ [x]) := by
  obtain ⟨w, hw, hlen, hneg⟩ := h
  rcases List.infix_concat_iff.mp hw with hsuf | hinf
  · obtain ⟨u, hu⟩ := hsuf
    refine Or.inr (le_trans hlen ?_)
    rw [← hu]
    exact_mod_cast le_losingRun_append u w hneg
  · exact Or.inl ⟨w, hinf, hlen, hneg⟩

/--
**A close is booked with the day and with the risk manager.**

Both are given the same record, so both folds go on by it. A close opens nothing, and
leaves the limits of the openings so far as they were.
-/
theorem Booked.completeTrade (h : Booked env s) {pos : OpenPosition} (hp : s.openPos = some pos)
    (x f : ℚ) (r : TradeExit) : Booked env (s.completeTrade env pos e x f r) := by
  refine ⟨?_, ?_, ?_, ?_⟩
  · -- the day: one more trade on both sides
    intro day' hday'
    rw [completeTrade_simDay] at hday'
    obtain ⟨day, hday, rfl⟩ := Option.map_eq_some_iff.mp hday'
    have b := h.today day hday
    generalize ht : tradeRecord pos e x f r = trade
    have hv : trade.vetoed = false := by rw [← ht]; rfl
    have hrisk : (s.completeTrade env pos e x f r).risk
        = s.risk.recordClose env.cfg pos.symbol trade.netPnl := by rw [← ht]; rfl
    have hledger : (day.append trade).ledger = day.ledger ++ [trade.netPnl] :=
      SimDay.ledger_append day hv
    have hopen : s.openCount = 1 := by rw [openCount, hp]; rfl
    -- the manager's streak is the losing run of the longer ledger
    have hrun : (s.risk.recordClose env.cfg pos.symbol trade.netPnl).consecutiveLosses
        = losingRun (day.ledger ++ [trade.netPnl]) := by
      rw [RiskState.consecutiveLosses_recordClose, losingRun_snoc, b.losses]
      split <;> simp
    refine
      { realized := ?_, peak := ?_, losses := ?_, trades := ?_, cap := ?_, struck := ?_
        logLedger := ?_, logOpenings := ?_ }
    · rw [hrisk, hledger, RiskState.realizedPnl_recordClose, b.realized]; simp
    · rw [hrisk, hledger, RiskState.peakPnl_recordClose, peak_snoc, b.peak, b.realized]
    · rw [hrisk, hledger, hrun]
    · rw [hrisk, hledger]
      show s.risk.tradesToday = _
      rw [b.trades, hopen, List.length_append, List.length_singleton]
      rfl
    · rw [hrisk]; exact b.cap
    · rw [hrisk, hledger]
      intro hs
      rcases struckOut_snoc hs with hold | hnew
      · -- the day was struck out before
        rcases b.struck hold with hh | hz
        · exact Or.inl (RiskState.halted_recordClose.mpr (Or.inl hh))
        · exact Or.inr hz
      · -- this trade is the last of the streak
        exact Or.inl (RiskState.halted_recordClose.mpr (Or.inr (hrun ▸ hnew)))
    · rw [completeTrade_log, ledgerToday_snoc, hledger, ← b.logLedger, ht]; rfl
    · rw [completeTrade_log, openingsToday_snoc, hrisk]; exact b.logOpenings
  · rw [completeTrade_log]; exact eachAt_snoc.mpr ⟨h.limits, trivial⟩
  · rw [completeTrade_log]; exact forall_mem_snoc h.folds trivial
  · -- closing a trade finalises no day
    rw [completeTrade_log, completeTrade_days, h.days, List.filterMap_append]
    simp [ReplayEvent.finalisedDay]

theorem Booked.flattenResidual (h : Booked env s) (ha : s.Agree) :
    Booked env (s.flattenResidual env e) := by
  cases hp : s.openPos with
  | none => rw [flattenResidual_of_none hp]; exact h
  | some pos => rw [ha.flattenResidual_of_some hp]; exact h.completeTrade hp _ _ _

/-- **Finalising a day finds the two accountings equal.** -/
theorem Booked.finaliseSimDay (h : Booked env s) (ha : s.Agree) (ho : s.openPos = none) :
    Booked env s.finaliseSimDay := by
  unfold Replay.finaliseSimDay
  split
  · exact h
  · rename_i day hday
    have b := h.today day hday
    have hopen : s.openCount = 0 := by rw [openCount, ho]; rfl
    have hlen : day.ledger.length = day.completed.length := by rw [SimDay.ledger, List.length_map]
    -- nothing is open, so every opening of the day is a completed trade
    have htrades : s.risk.tradesToday = (day.completed.length : ℤ) := by
      rw [b.trades, hopen, hlen]; rfl
    refine ⟨?_, ?_, ?_, ?_⟩
    · intro day' hday'
      rw [← Option.some.inj hday']
      exact
        { realized := b.realized, peak := b.peak, losses := b.losses, trades := b.trades
          cap := b.cap, struck := b.struck
          logLedger := by rw [ledgerToday_snoc]; exact b.logLedger
          logOpenings := by rw [openingsToday_snoc]; exact b.logOpenings }
    · -- the openings of the day, all of them closed by now
      refine eachAt_snoc.mpr ⟨h.limits, b.logLedger.symm, ?_, ?_⟩
      · have hcount := htrades.symm.trans b.logOpenings.symm
        exact_mod_cast hcount
      · have hle := b.logOpenings.le.trans b.cap
        omega
    · -- the two accountings
      refine forall_mem_snoc h.folds ?_
      exact
        { realized := b.realized
          endPnl := endPnl_finaliseDay day
          peak := by rw [b.peak]; exact isGreatest_peak day.ledger
          dayPeak := (peakPnl_finaliseDay day).trans b.peak.symm
          losses := b.losses
          trades := htrades
          flat := Dict.items_eq_nil.mpr fun sym => ha.risk_none (heldFor_of_none ho sym) }
    · rw [List.filterMap_append, h.days]
      simp [ReplayEvent.finalisedDay]

theorem Booked.startDay (h : Booked env s) (ho : s.openPos = none) :
    Booked env (s.startDay e) := by
  have hlog : (s.startDay e).log = s.log ++ [.dayStarted e.date] := rfl
  refine ⟨?_, ?_, ?_, ?_⟩
  · intro day hday
    have hd : SimDay.new e.date = day := Option.some.inj hday
    subst hd
    have hopen : (s.startDay e).openCount = 0 := by
      rw [openCount, show (s.startDay e).openPos = none from ho]; rfl
    refine
      { realized := rfl, peak := rfl, losses := rfl, trades := by rw [hopen]; rfl
        cap := le_max_left .., struck := ?_
        logLedger := by rw [hlog, ledgerToday_snoc]; rfl
        logOpenings := by rw [hlog, openingsToday_snoc]; rfl }
    -- an empty ledger is struck out only by a limit that is not positive
    rintro ⟨w, hw, hlen, -⟩
    rw [SimDay.ledger_new, List.infix_nil] at hw
    rw [hw] at hlen
    exact Or.inr (by simpa using hlen)
  · rw [hlog]; exact eachAt_snoc.mpr ⟨h.limits, trivial⟩
  · rw [hlog]; exact forall_mem_snoc h.folds trivial
  · rw [hlog, List.filterMap_append, ← h.days]
    simp [ReplayEvent.finalisedDay, Replay.startDay]

theorem Booked.rollover (h : Booked env s) (ha : s.Agree) : Booked env (s.rollover env e) := by
  by_cases hd : s.currentDay = some e.date
  · rw [rollover_of_same hd]; exact h
  · rw [rollover_of_new hd]
    have ho : (s.flattenResidual env e).openPos = none := ha.flattenResidual_openPos
    refine ((h.flattenResidual ha).finaliseSimDay ha.flattenResidual ho).startDay ?_
    rw [finaliseSimDay_openPos, ho]

theorem Booked.veto (h : Booked env s) {sig : EntrySignal} {vetoes : List VetoReason} :
    Booked env (s.veto e sig vetoes) := by
  refine ⟨?_, h.limits, h.folds, h.days⟩
  intro day' hday'
  obtain ⟨day, hday, rfl⟩ := Option.map_eq_some_iff.mp hday'
  have b := h.today day hday
  have hledger : (day.append (vetoRecord sig e vetoes)).ledger = day.ledger :=
    SimDay.ledger_append_vetoed day rfl
  exact
    { realized := by rw [hledger]; exact b.realized
      peak := by rw [hledger]; exact b.peak
      losses := by rw [hledger]; exact b.losses
      trades := by rw [hledger]; exact b.trades
      cap := b.cap
      struck := by rw [hledger]; exact b.struck
      logLedger := by rw [hledger]; exact b.logLedger
      logOpenings := b.logOpenings }

/-- What the risk manager approves, the ledger allows. -/
theorem DayBook.entryLimits {day : SimDay} (b : DayBook env s day) {sig : EntrySignal}
    (h : (s.approval env e sig).approved = true) :
    EntryLimits env (openingsToday s.log) (ledgerToday s.log) e := by
  have hgate := (RiskState.evaluate_approved h).1
  rw [b.logLedger]
  refine ⟨?_, hgate.time, ?_, ?_, ?_⟩
  · rw [b.logOpenings]; exact hgate.trades
  · -- a struck-out day is halted
    intro hs
    rcases b.struck hs with hh | hz
    · rw [hgate.notHalted] at hh; exact absurd hh (by simp)
    · -- the streak is never negative, so it has reached a limit that is not positive
      have hlosses := hgate.strikes
      rw [b.losses] at hlosses
      omega
  · rw [← b.realized]; exact hgate.loss
  · rw [← b.peak, ← b.realized]; exact hgate.giveBack

theorem Booked.openPosition (h : Booked env s) (ho : s.openPos = none) {sig : EntrySignal}
    (hd : ∃ day, s.simDay = some day) (happ : (s.approval env e sig).approved = true) (n : ℤ) :
    Booked env (s.openPosition env e sig n) := by
  obtain ⟨day, hday⟩ := hd
  have b := h.today day hday
  have hlimits := b.entryLimits happ
  have hlog : (s.openPosition env e sig n).log
      = s.log ++ [.opened e (filledPosition env e sig n) n] := rfl
  have htrades : (s.openPosition env e sig n).risk.tradesToday = s.risk.tradesToday + 1 := rfl
  have hopen : s.openCount = 0 := by rw [openCount, ho]; rfl
  refine ⟨?_, ?_, ?_, ?_⟩
  · -- the day: one more opening, and nothing closed
    intro day' hday'
    have hdd : day = day' := Option.some.inj (hday.symm.trans hday')
    subst hdd
    refine
      { realized := b.realized, peak := b.peak, losses := b.losses, trades := ?_, cap := ?_
        struck := b.struck
        logLedger := by rw [hlog, ledgerToday_snoc]; exact b.logLedger
        logOpenings := ?_ }
    · rw [htrades, b.trades, hopen]; rfl
    · have hlt := hlimits.trades
      rw [b.logOpenings] at hlt
      rw [htrades]
      exact le_trans (by omega) (le_max_right ..)
    · rw [hlog, openingsToday_snoc, htrades, ← b.logOpenings]; rfl
  · -- the opening is within the limits the gate checked
    rw [hlog]; exact eachAt_snoc.mpr ⟨h.limits, hlimits⟩
  · rw [hlog]; exact forall_mem_snoc h.folds trivial
  · rw [hlog, List.filterMap_append, ← h.days]
    simp [ReplayEvent.finalisedDay, Replay.openPosition]

theorem Booked.scaleOut (h : Booked env s) {pos : OpenPosition} (hp : s.openPos = some pos)
    (newStop : Option Money) : Booked env (s.scaleOut e pos newStop) := by
  unfold Replay.scaleOut
  split
  · exact h
  · split
    · exact h
    · refine ⟨?_, h.limits, h.folds, h.days⟩
      intro day hday
      have b := h.today day hday
      have hopen : s.openCount = 1 := by rw [openCount, hp]; rfl
      exact { b with trades := by rw [b.trades, hopen]; rfl }

theorem Booked.of_turn (h : Booked env s) (hd : ∃ day, s.simDay = some day)
    (ht : Turn env s e s') : Booked env s' := by
  cases ht with
  | eod hp => exact h.completeTrade hp _ _ _
  | stop hp => exact h.completeTrade hp _ _ _
  | quiet => exact h.handBar
  | vetoed => exact h.handBar.veto
  | opened _ _ ho happ => exact h.handBar.openPosition ho hd happ _
  | sold _ hp => exact h.handBar.completeTrade hp _ _ _
  | scaled _ _ hp => exact h.handBar.scaleOut hp _

/-- Every event keeps the books in order. -/
theorem Booked.onEvent (h : Booked env s) (ha : s.Agree) : Booked env (s.onEvent env e) := by
  obtain ⟨d, hd, -⟩ := rollover_simDay env (s.arrive e) e
  have hb := (h.arrive.rollover ha.arrive).of_turn ⟨d, hd⟩ (ha.onEvent_turn ..)
  exact hb.congr rfl rfl rfl rfl rfl

theorem booked_loop (env : Backtest) (events : List ReplayBar) :
    Booked env (replayLoop env events) :=
  (foldl_invariant (I := fun s => Booked env s ∧ s.Agree) ⟨booked_start, agree_start⟩
    (fun _ _ h => ⟨h.1.onEvent h.2, h.2.onEvent⟩) events).1

/-- The books are in order at the end, too. -/
theorem booked_end (env : Backtest) (events : List ReplayBar) :
    Booked env (replayEnd env events) := by
  have hb := booked_loop env events
  have ha := agree_loop env events
  unfold replayEnd flush
  cases hl : events.getLast? with
  | none =>
      have hnil : events = [] := by simpa using hl
      subst hnil
      exact hb.finaliseSimDay ha rfl
  | some e =>
      exact (hb.flattenResidual ha).finaliseSimDay ha.flattenResidual ha.flattenResidual_openPos

end Replay

/-- **Whenever a `SimDay` is finalised, the risk manager's state is the fold of its ledger.** The
days of the result are those the log says were finalised. -/
theorem risk_is_fold_of_ledger (env : Backtest) (events : List ReplayBar) :
    (replay env events).days
        = (replayEnd env events).log.filterMap ReplayEvent.finalisedDay
      ∧ ∀ day risk, ReplayEvent.finalised day risk ∈ (replayEnd env events).log →
          LedgerFold risk day :=
  ⟨(Replay.booked_end env events).days,
    fun _ _ hmem => (Replay.booked_end env events).folds _ hmem⟩

/-- **Every opening is within the limits of its day**, and so is the number of openings of every
day of the result. -/
theorem openings_within_limits (env : Backtest) (events : List ReplayBar) :
    EachAt (LimitsAt env) (replayEnd env events).log
      ∧ (replay env events).days
        = (replayEnd env events).log.filterMap ReplayEvent.finalisedDay :=
  ⟨(Replay.booked_end env events).limits, (Replay.booked_end env events).days⟩

end RossBot
