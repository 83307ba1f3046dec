import RossBot.Backtest.Ledger

/-!
# How positions are closed

Four paths of the loop close a position, and the flush after it a fifth.
`Closes` lists them for one event, `closings_flush` for the flush; from these
follow, each with its exact condition, three things one would like to hold of
every close: that it happens on a bar of the position's own symbol
(`closed_on_own_bar_iff`), on the day it is booked in (`booked_on_its_day_iff`),
and never better than a breached stop allows (`stop_respected_iff`).
-/

namespace RossBot

open Lib

/-- A close: the event it happened on, the position as it was, and the record. -/
structure Closing where
  on : ReplayBar
  pos : OpenPosition
  trade : TradeRecord

/-- The close an event of the log is. -/
def ReplayEvent.closing : ReplayEvent → Option Closing
  | .closed e pos trade => some ⟨e, pos, trade⟩
  | _ => none

/-- The closes of a log, in order. -/
def closings (log : List ReplayEvent) : List Closing := log.filterMap ReplayEvent.closing

/-- `_stop_exit`'s close. -/
def stopClosing (e : ReplayBar) (pos : OpenPosition) : Closing :=
  let fill := exitFillStop pos.stopPrice.val e.bar.low.val pos.shares
  ⟨e, pos, tradeRecord pos e fill.fillPrice fill.fees (.signal .hardStop)⟩

/-- The close of `_target_exit` and `_eod_flatten`. -/
def bidClosing (e : ReplayBar) (pos : OpenPosition) (reason : TradeExit) : Closing :=
  let fill := exitFillTarget e.bar.close.val pos.shares
  ⟨e, pos, tradeRecord pos e fill.fillPrice fill.fees reason⟩

theorem closings_append (l l' : List ReplayEvent) :
    closings (l ++ l') = closings l ++ closings l' := List.filterMap_append

theorem stopClosing_exitPrice (e : ReplayBar) (pos : OpenPosition) :
    (stopClosing e pos).trade.exitPrice
      = (exitFillStop pos.stopPrice.val e.bar.low.val pos.shares).fillPrice := rfl

theorem bidClosing_exitPrice (e : ReplayBar) (pos : OpenPosition) (reason : TradeExit) :
    (bidClosing e pos reason).trade.exitPrice
      = (exitFillTarget e.bar.close.val pos.shares).fillPrice := rfl

namespace Replay

variable {env : Backtest} {s s' : Replay} {e : ReplayBar}

/-- **The closes one event can add**, at most one. -/
inductive Closes (env : Backtest) (s : Replay) (e : ReplayBar) : List Closing → Prop where
  /-- The day changed: the new day's first bar closes what was open. -/
  | boundary {pos : OpenPosition} : s.openPos = some pos → s.currentDay ≠ some e.date →
      Closes env s e [bidClosing e pos .eodFlatten]
  | eod {pos : OpenPosition} : s.openPos = some pos → s.currentDay = some e.date →
      shouldFlattenEod (env.timeOfDay e.bar.ts) env.cfg = true →
      Closes env s e [bidClosing e pos .eodFlatten]
  | stop {pos : OpenPosition} : s.openPos = some pos → s.currentDay = some e.date →
      shouldFlattenEod (env.timeOfDay e.bar.ts) env.cfg = false →
      e.bar.low.val ≤ pos.stopPrice.val → Closes env s e [stopClosing e pos]
  /-- The strategy sold everything, on a bar of the position's symbol above its stop. -/
  | sold {pos : OpenPosition} {reason : ExitReason} : s.openPos = some pos →
      s.currentDay = some e.date → s.Hands env e → pos.symbol = e.symbol →
      Closes env s e [bidClosing e pos (.signal reason)]
  | none : (∀ pos, s.openPos = some pos → s.currentDay = some e.date) → s.Hands env e →
      Closes env s e []

@[simp] theorem closings_finaliseSimDay :
    closings s.finaliseSimDay.log = closings s.log := by
  unfold finaliseSimDay
  split
  · rfl
  · rw [closings_append]; exact List.append_nil _

@[simp] theorem closings_startDay : closings (s.startDay e).log = closings s.log := by
  show closings (s.log ++ _) = _
  rw [closings_append]; exact List.append_nil _

@[simp] theorem closings_arrive : closings (s.arrive e).log = closings s.log := by
  show closings (s.log ++ _) = _
  rw [closings_append]; exact List.append_nil _

@[simp] theorem closings_handBar : closings (s.handBar env e).1.log = closings s.log := by
  rw [handBar_log, closings_append]; exact List.append_nil _

@[simp] theorem closings_openPosition {sig : EntrySignal} {n : ℤ} :
    closings (s.openPosition env e sig n).log = closings s.log := by
  show closings (s.log ++ _) = _
  rw [closings_append]; exact List.append_nil _

@[simp] theorem closings_scaleOut {pos : OpenPosition} {stop : Option Money} :
    closings (s.scaleOut e pos stop).log = closings s.log := by
  unfold scaleOut
  split
  · rfl
  · split <;> rfl

theorem closings_completeTrade {pos : OpenPosition} {x f : ℚ} {r : TradeExit} :
    closings (s.completeTrade env pos e x f r).log
      = closings s.log ++ [⟨e, pos, tradeRecord pos e x f r⟩] := by
  rw [completeTrade_log, closings_append]; rfl

variable (env e) in
/--
**One event closes in one of four ways, or not at all.**

At the day boundary, by the EOD check, by the stop, or by a full exit of the strategy,
and never twice: what the boundary has closed is not open for the checks, a bar that a
check takes is not handed to the strategy, and an entry breaks out of its signals.
-/
theorem Agree.closings_onEvent (h : s.Agree) :
    ∃ cs, closings (s.onEvent env e).log = closings s.log ++ cs ∧ Closes env s e cs := by
  have hturn := h.onEvent_turn env e
  have hlog : (s.onEvent env e).log = (((s.arrive e).rollover env e).onBar env e).log := rfl
  rw [hlog]
  by_cases hd : s.currentDay = some e.date
  · -- the day goes on
    have hr : (s.arrive e).rollover env e = s.arrive e :=
      rollover_of_same (show (s.arrive e).currentDay = some e.date from hd)
    rw [hr] at hturn ⊢
    generalize (s.arrive e).onBar env e = t at hturn
    cases hturn with
    | @eod pos hp heod =>
        refine ⟨[bidClosing e pos .eodFlatten], ?_, .eod hp hd heod⟩
        rw [eodFlatten, closings_completeTrade, closings_arrive]; rfl
    | @stop pos hp heod hlow =>
        refine ⟨[stopClosing e pos], ?_, .stop hp hd heod hlow⟩
        rw [stopExit, closings_completeTrade, closings_arrive]; rfl
    | quiet hh => exact ⟨[], by simp, .none (fun _ _ => hd) hh⟩
    | vetoed hh => exact ⟨[], by simp [veto], .none (fun _ _ => hd) hh⟩
    | opened hh => exact ⟨[], by simp, .none (fun _ _ => hd) hh⟩
    | @sold pos reason hh hp hsym =>
        refine ⟨[bidClosing e pos (.signal reason)], ?_, .sold hp hd hh hsym⟩
        rw [targetExit, closings_completeTrade, closings_handBar, closings_arrive]; rfl
    | scaled hh => exact ⟨[], by simp, .none (fun _ _ => hd) hh⟩
  · -- the day changes, and nothing is open after the boundary
    have hd' : (s.arrive e).currentDay ≠ some e.date := hd
    -- a new day begins with nothing open, so the bar can close nothing more
    have hnone : ∀ pos, ((s.arrive e).rollover env e).openPos ≠ some pos := fun pos hp =>
      hd (h.arrive.rollover_openPos hp).1
    have hquiet : closings (((s.arrive e).rollover env e).onBar env e).log
        = closings ((s.arrive e).rollover env e).log := by
      generalize ((s.arrive e).rollover env e).onBar env e = t at hturn
      cases hturn with
      | eod hp => exact absurd hp (hnone _)
      | stop hp => exact absurd hp (hnone _)
      | quiet => simp
      | vetoed => simp [veto]
      | opened => simp
      | sold _ hp => exact absurd hp (hnone _)
      | scaled _ _ hp => exact absurd hp (hnone _)
    rw [hquiet, rollover_of_new hd', closings_startDay, closings_finaliseSimDay]
    cases hp : s.openPos with
    | none =>
        refine ⟨[], ?_, .none (fun pos hpos => ?_) (fun pos hpos => ?_)⟩
        · rw [flattenResidual_of_none (show (s.arrive e).openPos = Option.none from hp),
            closings_arrive, List.append_nil]
        · exact absurd (hp.symm.trans hpos) (by simp)
        · exact absurd (hp.symm.trans hpos) (by simp)
    | some pos =>
        refine ⟨[bidClosing e pos .eodFlatten], ?_, .boundary hp hd⟩
        rw [h.arrive.flattenResidual_of_some (show (s.arrive e).openPos = some pos from hp),
          eodFlatten, closings_completeTrade, closings_arrive]
        rfl

/-- The flush closes what is still open on the last bar. -/
theorem Agree.closings_flush (h : s.Agree) :
    closings (s.flush env (some e)).log
      = closings s.log ++ s.openPos.toList.map fun pos => bidClosing e pos .eodFlatten := by
  show closings (s.flattenResidual env e).finaliseSimDay.log = _
  rw [closings_finaliseSimDay]
  cases hp : s.openPos with
  | none => rw [flattenResidual_of_none hp]; simp
  | some pos => rw [h.flattenResidual_of_some hp, eodFlatten, closings_completeTrade]; rfl

end Replay

/-! ## The exact condition of a property of closes -/

/-- What the flush closes. -/
def flushClosings (env : Backtest) (events : List ReplayBar) : List Closing :=
  match events.getLast? with
  | none => []
  | some last => (replayLoop env events).openPos.toList.map fun pos =>
      bidClosing last pos .eodFlatten

theorem forall_flushClosings {env : Backtest} {events : List ReplayBar} {P : Closing → Prop} :
    (∀ c ∈ flushClosings env events, P c)
      ↔ ∀ pos last, (replayLoop env events).openPos = some pos → events.getLast? = some last →
          P (bidClosing last pos .eodFlatten) := by
  unfold flushClosings
  cases events.getLast? with
  | none => simp
  | some last =>
      cases (replayLoop env events).openPos with
      | none => simp
      | some pos => simp

theorem closings_replayEnd (env : Backtest) (events : List ReplayBar) :
    closings (replayEnd env events).log
      = closings (replayLoop env events).log ++ flushClosings env events := by
  unfold replayEnd flushClosings
  cases events.getLast? with
  | none =>
      show closings (replayLoop env events).finaliseSimDay.log = _
      rw [Replay.closings_finaliseSimDay, List.append_nil]
  | some last => exact (agree_loop env events).closings_flush

/-- **A property of closes, event by event.** If an event closes only what has the property
exactly when it meets `C`, all closes of a replay have it exactly when all events meet `C` and
the flush closes only such. -/
theorem closings_iff {env : Backtest} {P : Closing → Prop} {C : Replay → ReplayBar → Prop}
    (hC : ∀ s e cs, Replay.Closes env s e cs → ((∀ c ∈ cs, P c) ↔ C s e))
    (events : List ReplayBar) :
    (∀ c ∈ closings (replayEnd env events).log, P c)
      ↔ (∀ m ∈ replayMoves env events, C m.pre m.label) ∧ ∀ c ∈ flushClosings env events, P c := by
  have hstep : ∀ (s : Replay) (e : ReplayBar), s.Agree → (∀ c ∈ closings s.log, P c) →
      ((∀ c ∈ closings (s.onEvent env e).log, P c) ↔ C s e) := by
    intro s e ha hbefore
    obtain ⟨cs, hcs, hcl⟩ := ha.closings_onEvent env e
    rw [hcs, ← hC s e cs hcl]
    constructor
    · intro hall c hc
      exact hall c (List.mem_append_right _ hc)
    · intro hall c hc
      rcases List.mem_append.mp hc with hc | hc
      · exact hbefore c hc
      · exact hall c hc
  -- an event only adds closes
  have hgrow : ∀ (s : Replay) (e : ReplayBar), s.Agree →
      closings s.log <+: closings (s.onEvent env e).log := by
    intro s e ha
    obtain ⟨cs, hcs, -⟩ := ha.closings_onEvent env e
    exact ⟨cs, hcs.symm⟩
  have hloop := forall_foldl_iff (fun s => closings s.log) hgrow Replay.agree_start
    (fun s e h => h.onEvent) hstep events
  rw [closings_replayEnd]
  constructor
  · -- the flush comes after the loop, so the loop's closes are a prefix
    intro hall
    refine ⟨(hloop.mp fun c hc => hall c (List.mem_append_left _ hc)).2, ?_⟩
    exact fun c hc => hall c (List.mem_append_right _ hc)
  · rintro ⟨hmoves, hflush⟩ c hc
    rcases List.mem_append.mp hc with hc | hc
    · exact hloop.mpr ⟨by simp [Replay.start, closings], hmoves⟩ c hc
    · exact hflush c hc

/-! ## Every close is recorded -/

namespace Replay

variable {env : Backtest} {s s' : Replay} {e : ReplayBar}

/-- The completed trades of a state: those of the days that are over, then today's. -/
def recorded (s : Replay) : List TradeRecord :=
  s.days.flatMap SimDay.completed ++ s.simDay.toList.flatMap SimDay.completed

/-- The completed trades are the closes in the log. -/
def Recorded (s : Replay) : Prop := s.recorded = (closings s.log).map (·.trade)

theorem recorded_start : start.Recorded := rfl

theorem Recorded.congr (h : s.Recorded) (hd : s'.days = s.days) (hs : s'.simDay = s.simDay)
    (hl : closings s'.log = closings s.log) : s'.Recorded := by
  unfold Recorded recorded
  rw [hd, hs, hl]
  exact h

theorem Recorded.completeTrade (h : s.Recorded) (hd : ∃ day, s.simDay = some day)
    (pos : OpenPosition) (x f : ℚ) (r : TradeExit) :
    (s.completeTrade env pos e x f r).Recorded := by
  obtain ⟨day, hday⟩ := hd
  unfold Recorded recorded at h ⊢
  rw [closings_completeTrade, List.map_append, ← h, completeTrade_days, completeTrade_simDay, hday]
  simp [SimDay.completed_append day (t := tradeRecord pos e x f r) rfl]

theorem Recorded.veto (h : s.Recorded) {sig : EntrySignal} {vetoes : List VetoReason} :
    (s.veto e sig vetoes).Recorded := by
  unfold Recorded recorded at h ⊢
  have hsim : (s.veto e sig vetoes).simDay = s.simDay.map (·.append (vetoRecord sig e vetoes)) :=
    rfl
  have hdays : (s.veto e sig vetoes).days = s.days := rfl
  have hlog : (s.veto e sig vetoes).log = s.log := rfl
  rw [hsim, hdays, hlog]
  cases hd : s.simDay with
  | none => rw [hd] at h; exact h
  | some day =>
      rw [hd] at h
      simpa [SimDay.completed_append_vetoed day (t := vetoRecord sig e vetoes) rfl] using h

theorem Recorded.of_turn (h : s.Recorded) (hd : ∃ day, s.simDay = some day)
    (ht : Turn env s e s') : s'.Recorded := by
  have hhand : (s.handBar env e).1.Recorded := h.congr rfl rfl closings_handBar
  cases ht with
  | eod | stop => exact h.completeTrade hd _ _ _ _
  | quiet => exact hhand
  | vetoed => exact hhand.veto
  | opened => exact hhand.congr rfl rfl closings_openPosition
  | sold => exact hhand.completeTrade hd _ _ _ _
  | scaled =>
      refine hhand.congr ?_ ?_ closings_scaleOut
      · unfold scaleOut; dsimp only; split <;> rfl
      · unfold scaleOut; dsimp only; split <;> rfl

theorem Recorded.flattenResidual (h : s.Recorded) (ha : s.Agree) :
    (s.flattenResidual env e).Recorded := by
  cases hp : s.openPos with
  | none => rw [flattenResidual_of_none hp]; exact h
  | some pos =>
      rw [ha.flattenResidual_of_some hp]
      exact h.completeTrade (ha.day pos hp) _ _ _ _

/-- Finalising moves today's trades to the days that are over. -/
theorem Recorded.finaliseSimDay (h : s.Recorded) :
    s.finaliseSimDay.days.flatMap SimDay.completed
      = (closings s.finaliseSimDay.log).map (·.trade) := by
  rw [closings_finaliseSimDay, ← h, recorded]
  unfold Replay.finaliseSimDay
  split
  · rename_i hd; rw [hd]; simp
  · rename_i day hd; rw [hd]; simp

theorem Recorded.rollover (h : s.Recorded) (ha : s.Agree) : (s.rollover env e).Recorded := by
  by_cases hd : s.currentDay = some e.date
  · rw [rollover_of_same hd]; exact h
  · rw [rollover_of_new hd]
    have hflat : (s.flattenResidual env e).Recorded := h.flattenResidual ha
    have hfin := hflat.finaliseSimDay
    unfold Recorded recorded
    rw [closings_startDay, ← hfin]
    simp [Replay.startDay]

theorem Recorded.onEvent (h : s.Recorded) (ha : s.Agree) : (s.onEvent env e).Recorded := by
  have harr : (s.arrive e).Recorded := h.congr rfl rfl closings_arrive
  obtain ⟨d, hd, -⟩ := rollover_simDay env (s.arrive e) e
  exact ((harr.rollover ha.arrive).of_turn ⟨d, hd⟩ (ha.onEvent_turn ..)).congr rfl rfl rfl

end Replay

theorem recorded_loop (env : Backtest) (events : List ReplayBar) :
    (replayLoop env events).Recorded :=
  (foldl_invariant (I := fun s : Replay => s.Recorded ∧ s.Agree)
    ⟨Replay.recorded_start, Replay.agree_start⟩
    (fun _ _ h => ⟨h.1.onEvent h.2, h.2.onEvent⟩) events).1

/-- **The completed trades of the result are the closes in the log**, in order. -/
theorem recorded_trades (env : Backtest) (events : List ReplayBar) :
    (replay env events).days.flatMap SimDay.completed
      = (closings (replayEnd env events).log).map (·.trade) := by
  have hloop := recorded_loop env events
  unfold replay replayEnd Replay.flush
  cases events.getLast? with
  | none => exact hloop.finaliseSimDay
  | some last => exact (hloop.flattenResidual (agree_loop env events)).finaliseSimDay

/-! ## On a bar of its own symbol -/

/-- The close happened on a bar of the position's symbol, at a price made from that bar. -/
def OnOwnBar (c : Closing) : Prop :=
  c.on.symbol = c.pos.symbol
    ∧ (c.trade.exitPrice
        = (exitFillStop c.pos.stopPrice.val c.on.bar.low.val c.pos.shares).fillPrice
      ∨ c.trade.exitPrice = (exitFillTarget c.on.bar.close.val c.pos.shares).fillPrice)

/-- A bar of another symbol that leaves the open position alone: it is of the same day, before
`EOD_FLATTEN_TIME`, and its low is above the position's stop. -/
def LeavesAlone (env : Backtest) (s : Replay) (e : ReplayBar) : Prop :=
  ∀ pos, s.openPos = some pos → e.symbol ≠ pos.symbol →
    s.currentDay = some e.date
      ∧ shouldFlattenEod (env.timeOfDay e.bar.ts) env.cfg = false
      ∧ pos.stopPrice.val < e.bar.low.val

theorem onOwnBar_bidClosing {e : ReplayBar} {pos : OpenPosition} {r : TradeExit} :
    OnOwnBar (bidClosing e pos r) ↔ e.symbol = pos.symbol :=
  and_iff_left (Or.inr rfl)

theorem onOwnBar_stopClosing {e : ReplayBar} {pos : OpenPosition} :
    OnOwnBar (stopClosing e pos) ↔ e.symbol = pos.symbol :=
  and_iff_left (Or.inl rfl)

/-- Where the position is not left alone by just any bar, only its own symbol's leaves it alone. -/
theorem own_iff_leavesAlone {env : Backtest} {s : Replay} {e : ReplayBar} {pos : OpenPosition}
    (hp : s.openPos = some pos)
    (hnot : ¬ (s.currentDay = some e.date ∧ shouldFlattenEod (env.timeOfDay e.bar.ts) env.cfg = false
      ∧ pos.stopPrice.val < e.bar.low.val)) :
    e.symbol = pos.symbol ↔ LeavesAlone env s e := by
  constructor
  · intro hsym pos' hp' hne
    rw [← Option.some.inj (hp.symm.trans hp')] at hne
    exact absurd hsym hne
  · intro hc
    by_contra hne
    exact hnot (hc pos hp hne)

theorem Replay.Closes.onOwnBar_iff {env : Backtest} {s : Replay} {e : ReplayBar}
    {cs : List Closing} (h : Closes env s e cs) : (∀ c ∈ cs, OnOwnBar c) ↔ LeavesAlone env s e := by
  cases h with
  | boundary hp hd =>
      simp only [List.forall_mem_singleton, onOwnBar_bidClosing]
      exact own_iff_leavesAlone hp fun h => hd h.1
  | eod hp hd heod =>
      simp only [List.forall_mem_singleton, onOwnBar_bidClosing]
      exact own_iff_leavesAlone hp fun h => absurd (heod.symm.trans h.2.1) (by simp)
  | stop hp hd heod hlow =>
      simp only [List.forall_mem_singleton, onOwnBar_stopClosing]
      exact own_iff_leavesAlone hp fun h => absurd hlow (not_le.mpr h.2.2)
  -- the strategy only answers for the symbol of the bar
  | @sold pos reason hp hd hh hsym =>
      simp only [List.forall_mem_singleton, onOwnBar_bidClosing]
      refine iff_of_true hsym.symm fun pos' hp' hne => ?_
      exact ⟨hd, hh pos' hp'⟩
  | none hd hh =>
      refine iff_of_true (by simp) fun pos hp _ => ?_
      exact ⟨hd pos hp, hh pos hp⟩

/-- **Positions are closed on bars of their own symbol exactly when** every bar of another symbol
that arrives while one is open leaves it alone, and the last bar of the stream, if something is
still open then, is of that symbol. -/
theorem closed_on_own_bar_iff (env : Backtest) (events : List ReplayBar) :
    (∀ c ∈ closings (replayEnd env events).log, OnOwnBar c)
      ↔ (∀ m ∈ replayMoves env events, LeavesAlone env m.pre m.label)
        ∧ ∀ pos last, (replayLoop env events).openPos = some pos →
            events.getLast? = some last → last.symbol = pos.symbol := by
  rw [closings_iff fun s e cs h => h.onOwnBar_iff]
  refine and_congr_right fun _ => ?_
  simp only [forall_flushClosings, onOwnBar_bidClosing]

/-- A bar of another symbol, a minute after the breakout, at one dollar. -/
def strangerBar : ReplayBar := candle "OTHER" (openingBell + 60 * 34) 100 100 100 100 1000

/-- The ten-dollar position is stopped out by the other symbol's bar, at 0.99. -/
theorem stopped_by_stranger :
    ¬ ∀ c ∈ closings (replayEnd replayDay (quietHalfHour ++ [breakoutBar, strangerBar])).log,
      OnOwnBar c := by
  intro h
  have hother : (closings (replayEnd replayDay
      (quietHalfHour ++ [breakoutBar, strangerBar])).log).any
        (fun c => decide (c.on.symbol ≠ c.pos.symbol)) = true := by decide +kernel
  obtain ⟨c, hc, hne⟩ := List.any_eq_true.mp hother
  exact of_decide_eq_true hne (h c hc).1

/-! ## On the day it is booked in -/

/-- A trade opened and closed on this date, or marked as a violation. -/
def OnDate (date : ℤ) (t : TradeRecord) : Prop :=
  (t.entryTs.date = date ∧ t.exitTs.date = date) ∨ t.ruleViolation = true

namespace Replay

variable {env : Backtest} {s s' : Replay} {e : ReplayBar}

/-- Within a day, all is booked on its date. -/
structure DayDates (s : Replay) : Prop where
  trades : ∀ day, s.simDay = some day → ∀ t ∈ day.completed, OnDate day.date t
  entry : ∀ day pos, s.simDay = some day → s.openPos = some pos → pos.entryTs.date = day.date

theorem dayDates_start : DayDates start :=
  ⟨fun _ h => absurd h (by simp [start]), fun _ _ h => absurd h (by simp [start])⟩

/-- A close on the current date is booked on it. -/
theorem DayDates.completeTrade (h : DayDates s) {pos : OpenPosition} {x f : ℚ} {r : TradeExit}
    (hp : s.openPos = some pos) (hd : s.currentDay = some e.date) :
    DayDates (s.completeTrade env pos e x f r) := by
  refine ⟨?_, fun _ _ _ hpos => absurd hpos (by simp)⟩
  intro day' hday'
  rw [completeTrade_simDay] at hday'
  obtain ⟨day, hday, rfl⟩ := Option.map_eq_some_iff.mp hday'
  have hdate : day.date = e.date := by
    rw [currentDay, hday] at hd
    exact Option.some.inj hd
  intro t ht
  rw [SimDay.completed_append day rfl] at ht
  rw [SimDay.date_append]
  rcases List.mem_append.mp ht with ht | ht
  · exact h.trades day hday t ht
  · -- the new record carries the dates of the position and of this event
    rw [List.mem_singleton.mp ht]
    exact Or.inl ⟨h.entry day pos hday hp, hdate.symm⟩

theorem DayDates.startDay (ho : s.openPos = none) : DayDates (s.startDay e) := by
  refine ⟨?_, fun _ pos _ hpos => absurd (ho.symm.trans hpos) (by simp)⟩
  intro day hday t ht
  rw [← Option.some.inj (show some (SimDay.new e.date) = some day from hday)] at ht
  exact absurd ht (by simp)

theorem DayDates.congr (h : DayDates s) (hd : s'.simDay = s.simDay) (ho : s'.openPos = s.openPos) :
    DayDates s' :=
  ⟨fun day hday => h.trades day (hd ▸ hday),
    fun day pos hday hpos => h.entry day pos (hd ▸ hday) (ho ▸ hpos)⟩

theorem DayDates.of_turn (h : DayDates s) (hd : s.currentDay = some e.date)
    (ht : Turn env s e s') : DayDates s' := by
  cases ht with
  | eod hp => exact h.completeTrade hp hd
  | stop hp => exact h.completeTrade hp hd
  | quiet => exact h.congr rfl rfl
  | @vetoed sig vetoes _ _ ho =>
      refine ⟨?_, fun _ pos _ hpos => absurd (ho.symm.trans hpos) (by simp)⟩
      intro day' hday'
      obtain ⟨day, hday, rfl⟩ := Option.map_eq_some_iff.mp hday'
      intro t ht
      rw [SimDay.completed_append_vetoed day rfl] at ht
      exact h.trades day hday t ht
  | opened _ _ ho =>
      refine ⟨h.trades, ?_⟩
      intro day pos hday hpos
      rw [← Option.some.inj hpos]
      have hday' : s.simDay = some day := hday
      rw [currentDay, hday'] at hd
      exact (Option.some.inj hd).symm
  | sold _ hp => exact (h.congr rfl rfl : DayDates (s.handBar env e).1).completeTrade hp hd
  | @scaled pos _ _ hp =>
      unfold scaleOut
      dsimp only
      split
      · exact h.congr rfl rfl
      · refine ⟨h.trades, ?_⟩
        intro day pos' hday hpos'
        rw [← Option.some.inj hpos']
        exact h.entry day pos hday hp

/-- What the loop keeps of dates. -/
structure Dated (s : Replay) : Prop where
  agree : s.Agree
  dates : s.DayDates

theorem Dated.arrive (h : Dated s) : Dated (s.arrive e) :=
  ⟨h.agree.arrive, h.dates.congr rfl rfl⟩

theorem Dated.rollover (h : Dated s) : DayDates (s.rollover env e) := by
  by_cases hd : s.currentDay = some e.date
  · rw [rollover_of_same hd]; exact h.dates
  · rw [rollover_of_new hd]
    refine DayDates.startDay ?_
    rw [finaliseSimDay_openPos, h.agree.flattenResidual_openPos]

theorem Dated.onEvent (h : Dated s) : Dated (s.onEvent env e) := by
  refine ⟨h.agree.onEvent, ?_⟩
  have hr : DayDates ((s.arrive e).rollover env e) := h.arrive.rollover
  exact (hr.of_turn rollover_currentDay (h.agree.onEvent_turn ..)).congr rfl rfl

/-- Once the day is right, an event leaves it there. -/
theorem Turn.currentDay (h : Turn env s e s') : s'.currentDay = s.currentDay := by
  have happ : ∀ t, (s.simDay.map (·.append t)).map (·.date) = s.simDay.map (·.date) := by
    intro t; rw [Option.map_map]; rfl
  cases h with
  | eod | stop | sold | vetoed => exact happ _
  | quiet | opened => rfl
  | scaled =>
      unfold scaleOut
      dsimp only
      split <;> rfl

theorem Turn.days (h : Turn env s e s') : s'.days = s.days := by
  cases h with
  | eod | stop | sold | vetoed | quiet | opened => rfl
  | scaled =>
      unfold scaleOut
      dsimp only
      split <;> rfl

theorem Agree.onEvent_currentDay (h : s.Agree) :
    (s.onEvent env e).currentDay = some e.date :=
  (show (s.onEvent env e).currentDay = _ from (h.onEvent_turn env e).currentDay).trans
    Replay.rollover_currentDay

theorem finaliseSimDay_days : s.finaliseSimDay.days = s.days ++ s.finaliseSimDay.simDay.toList := by
  unfold finaliseSimDay
  split
  · rename_i h; rw [h]; simp
  · rfl

@[simp] theorem flattenResidual_days : (s.flattenResidual env e).days = s.days := by
  unfold flattenResidual
  split <;> rfl

theorem Agree.flattenResidual_arrive (h : s.Agree) :
    ((s.arrive e).flattenResidual env e).simDay = (s.flattenResidual env e).simDay := by
  cases hp : s.openPos with
  | none =>
      rw [flattenResidual_of_none hp,
        flattenResidual_of_none (show (s.arrive e).openPos = Option.none from hp)]
      rfl
  | some pos =>
      rw [h.flattenResidual_of_some hp,
        h.arrive.flattenResidual_of_some (show (s.arrive e).openPos = some pos from hp)]
      rfl

/-- The day that is over is the one before the boundary. -/
theorem Agree.onEvent_days (h : s.Agree) :
    (s.onEvent env e).days
      = if s.currentDay = some e.date then s.days
        else s.days ++ (s.flattenResidual env e).finaliseSimDay.simDay.toList := by
  have hdays : (s.onEvent env e).days = ((s.arrive e).rollover env e).days :=
    (h.onEvent_turn env e).days
  have hcur : (s.arrive e).currentDay = s.currentDay := rfl
  rw [hdays, Replay.rollover, hcur]
  split
  · rfl
  · show ((s.arrive e).flattenResidual env e).finaliseSimDay.days = _
    rw [finaliseSimDay_days, finaliseSimDay_simDay, finaliseSimDay_simDay, flattenResidual_days,
      h.flattenResidual_arrive]
    rfl

/-- What is open does not outlive its day. -/
def StaysInDay (s : Replay) (e : ReplayBar) : Prop :=
  s.openPos ≠ none → s.currentDay = some e.date

/-- A day that ends with nothing open is booked on its date. -/
theorem DayDates.finalised (h : DayDates s) :
    ∀ day ∈ s.finaliseSimDay.simDay.toList, ∀ t ∈ day.completed, OnDate day.date t := by
  intro day hday
  rw [finaliseSimDay_simDay, Option.mem_toList] at hday
  obtain ⟨d, hd, rfl⟩ := Option.map_eq_some_iff.mp hday
  exact h.trades d hd

variable (env) in
/-- A day that ends with a position open is not: the trade is closed on another date. -/
theorem Dated.not_onDate (h : Dated s) {pos : OpenPosition} (hp : s.openPos = some pos)
    (hd : s.currentDay ≠ some e.date) :
    ∃ day ∈ (s.flattenResidual env e).finaliseSimDay.simDay.toList,
      ∃ t ∈ day.completed, ¬ OnDate day.date t := by
  obtain ⟨day, hday⟩ := h.agree.day pos hp
  generalize ht : (bidClosing e pos .eodFlatten).trade = t
  have hv : t.vetoed = false := by rw [← ht]; rfl
  have hsim : (s.flattenResidual env e).simDay = some (day.append t) := by
    rw [h.agree.flattenResidual_of_some hp, eodFlatten, completeTrade_simDay, hday, ← ht]; rfl
  refine ⟨finaliseDay (day.append t), ?_, t, ?_, ?_⟩
  · rw [finaliseSimDay_simDay, hsim]; simp
  · rw [completed_finaliseDay, SimDay.completed_append day hv]; simp
  · rintro (⟨-, hexit⟩ | hrule)
    · -- the exit is stamped with the new date
      apply hd
      rw [currentDay, hday, ← ht] at *
      exact congrArg some hexit.symm
    · -- and no record is ever marked
      rw [← ht] at hrule
      exact absurd hrule (by simp [bidClosing, tradeRecord])

theorem Dated.onEvent_days_iff (h : Dated s)
    (hbefore : ∀ day ∈ s.days, ∀ t ∈ day.completed, OnDate day.date t) :
    (∀ day ∈ (s.onEvent env e).days, ∀ t ∈ day.completed, OnDate day.date t)
      ↔ s.StaysInDay e := by
  rw [h.agree.onEvent_days]
  by_cases hd : s.currentDay = some e.date
  · -- no day is over
    rw [if_pos hd]
    exact iff_of_true hbefore fun _ => hd
  · -- a day is over, and what was open was closed at the new day's bar
    rw [if_neg hd]
    cases hp : s.openPos with
    | none =>
        refine iff_of_true ?_ (fun hne => absurd hp hne)
        intro day hday
        rcases List.mem_append.mp hday with hday | hday
        · exact hbefore day hday
        · rw [flattenResidual_of_none hp] at hday
          exact h.dates.finalised day hday
    | some pos =>
        refine iff_of_false ?_ (fun hstay => hd (hstay (by rw [hp]; simp)))
        intro hall
        obtain ⟨day, hday, t, ht, hnot⟩ := h.not_onDate env hp hd
        exact hnot (hall day (List.mem_append_right _ hday) t ht)

end Replay

/-- After the loop, the day is that of the last event. -/
theorem replayLoop_currentDay (env : Backtest) {events : List ReplayBar} {last : ReplayBar}
    (h : events.getLast? = some last) : (replayLoop env events).currentDay = some last.date := by
  obtain ⟨before, rfl⟩ := List.getLast?_eq_some_iff.mp h
  unfold replayLoop
  rw [foldl_snoc]
  exact (agree_loop env before).onEvent_currentDay

/-- **U3 exactly when nothing is open across a day boundary**: every completed trade of the result
was opened and closed on the date of its `SimDay` (none is ever marked as a violation) if and
only if no event of another date arrives while a position is open. -/
theorem booked_on_its_day_iff (env : Backtest) (events : List ReplayBar) :
    (∀ day ∈ (replay env events).days, ∀ t ∈ day.completed, OnDate day.date t)
      ↔ ∀ m ∈ replayMoves env events, m.pre.StaysInDay m.label := by
  -- a day that is over stays as it is
  have hgrow : ∀ (s : Replay) (e : ReplayBar), s.Dated →
      s.days <+: (s.onEvent env e).days := by
    intro s e h
    rw [h.agree.onEvent_days]
    split
    · exact List.prefix_refl _
    · exact List.prefix_append ..
  have hloop := forall_foldl_iff Replay.days hgrow
    ⟨Replay.agree_start, Replay.dayDates_start⟩ (fun _ _ h => h.onEvent)
    (fun _ _ h hbefore => h.onEvent_days_iff hbefore) events
  have hstart : ∀ day ∈ Replay.start.days, ∀ t ∈ day.completed, OnDate day.date t := by
    simp [Replay.start]
  have hdated : (replayLoop env events).Dated :=
    foldl_invariant ⟨Replay.agree_start, Replay.dayDates_start⟩ (fun _ _ h => h.onEvent) events
  unfold replay replayEnd Replay.flush
  cases hl : events.getLast? with
  | none =>
      have hnil : events = [] := by simpa using hl
      subst hnil
      simp [replayLoop, replayMoves, Replay.start, Replay.finaliseSimDay]
  | some last =>
      -- the flush happens on the day of the last event, so it is booked on its date
      have hday := replayLoop_currentDay env hl
      have hflat : ((replayLoop env events).flattenResidual env last).DayDates := by
        cases hp : (replayLoop env events).openPos with
        | none => rw [Replay.flattenResidual_of_none hp]; exact hdated.dates
        | some pos =>
            rw [hdated.agree.flattenResidual_of_some hp]
            exact hdated.dates.completeTrade hp hday
      dsimp only
      rw [Replay.finaliseSimDay_days, Replay.flattenResidual_days]
      constructor
      · intro hall
        exact (hloop.mp fun day hd => hall day (List.mem_append_left _ hd)).2
      · intro hmoves day hd
        rcases List.mem_append.mp hd with hd | hd
        · exact hloop.mpr ⟨hstart, hmoves⟩ day hd
        · exact hflat.finalised day hd

/-- The next bar of the symbol comes the next morning, at eight dollars. -/
def nextMorning : ReplayBar := candle "TEST" (openingBell + 86400) 800 800 800 800 1000

/-- The position is closed at the next day's price, and booked in the day before. -/
theorem booked_a_day_early :
    ¬ ∀ day ∈ (replay replayDay (quietHalfHour ++ [breakoutBar, nextMorning])).days,
      ∀ t ∈ day.completed, OnDate day.date t := by
  intro h
  have hlate : (replay replayDay (quietHalfHour ++ [breakoutBar, nextMorning])).days.any
      (fun day => day.completed.any fun t =>
        decide (t.exitTs.date ≠ day.date) && !t.ruleViolation) = true := by decide +kernel
  obtain ⟨day, hday, hany⟩ := List.any_eq_true.mp hlate
  obtain ⟨t, ht, hboth⟩ := List.any_eq_true.mp hany
  rw [Bool.and_eq_true, decide_eq_true_eq, Bool.not_eq_true'] at hboth
  rcases h day hday t ht with ⟨-, hexit⟩ | hrule
  · exact hboth.1 hexit
  · exact absurd (hboth.2.symm.trans hrule) (by simp)

/-! ## No better than a breached stop allows -/

/-- The best price a position whose stop the bar breached may be closed at. -/
def stopBound (stop low : ℚ) : ℚ := max (1 / 100) (min (stop - mentalStopLatencySlip) (low - 1 / 100))

/-- A close on a bar of the position's symbol that breached its stop is no better than the stop
exit. -/
def RespectsStop (c : Closing) : Prop :=
  c.on.symbol = c.pos.symbol → c.on.bar.low.val ≤ c.pos.stopPrice.val →
    c.trade.exitPrice ≤ stopBound c.pos.stopPrice.val c.on.bar.low.val

/-- The close of the bar is so low that selling there is no better than the stop exit. -/
def ClosesLow (pos : OpenPosition) (e : ReplayBar) : Prop :=
  e.symbol = pos.symbol → e.bar.low.val ≤ pos.stopPrice.val →
    e.bar.close.val ≤ max (2 / 100) (min (pos.stopPrice.val - 4 / 100) e.bar.low.val)

/-- Where a day boundary or the EOD check closes a position on a bar that breached its stop, the
bar closes low. -/
def FlattensLow (env : Backtest) (s : Replay) (e : ReplayBar) : Prop :=
  ∀ pos, s.openPos = some pos →
    (s.currentDay ≠ some e.date ∨ shouldFlattenEod (env.timeOfDay e.bar.ts) env.cfg = true) →
    ClosesLow pos e

theorem exitFillStop_fillPrice (stop low : ℚ) (n : ℤ) :
    (exitFillStop stop low n).fillPrice = stopBound stop low := max_comm ..

/-- Selling at the bid is no better than the stop exit exactly when the bid is low. -/
theorem exitFillTarget_le_iff (stop low close : ℚ) (n : ℤ) :
    (exitFillTarget close n).fillPrice ≤ stopBound stop low
      ↔ close ≤ max (2 / 100) (min (stop - 4 / 100) low) := by
  have hfill : (exitFillTarget close n).fillPrice = max (close - 1 / 100) (1 / 100) := rfl
  rw [hfill, stopBound, max_le_iff, and_iff_left (le_max_left ..), le_max_iff, le_max_iff,
    le_min_iff, le_min_iff, mentalStopLatencySlip]
  constructor
  · rintro (h | ⟨h1, h2⟩)
    · exact Or.inl (by linarith)
    · exact Or.inr ⟨by linarith, by linarith⟩
  · rintro (h | ⟨h1, h2⟩)
    · exact Or.inl (by linarith)
    · exact Or.inr ⟨by linarith, by linarith⟩

theorem respectsStop_bidClosing {e : ReplayBar} {pos : OpenPosition} {r : TradeExit} :
    RespectsStop (bidClosing e pos r) ↔ ClosesLow pos e := by
  unfold RespectsStop ClosesLow
  rw [bidClosing_exitPrice]
  refine imp_congr_right fun _ => imp_congr_right fun _ => ?_
  exact exitFillTarget_le_iff ..

theorem respectsStop_stopClosing (e : ReplayBar) (pos : OpenPosition) :
    RespectsStop (stopClosing e pos) := by
  intro _ _
  rw [stopClosing_exitPrice, exitFillStop_fillPrice]
  exact le_refl _

/-- Where the position is sold at the bid whatever the bar, the bar must close low. -/
theorem closesLow_iff_flattensLow {env : Backtest} {s : Replay} {e : ReplayBar}
    {pos : OpenPosition} (hp : s.openPos = some pos)
    (hflat : s.currentDay ≠ some e.date ∨ shouldFlattenEod (env.timeOfDay e.bar.ts) env.cfg = true) :
    ClosesLow pos e ↔ FlattensLow env s e := by
  constructor
  · intro hlow pos' hp' _
    rw [← Option.some.inj (hp.symm.trans hp')]
    exact hlow
  · intro hc
    exact hc pos hp hflat

theorem Replay.Closes.respectsStop_iff {env : Backtest} {s : Replay} {e : ReplayBar}
    {cs : List Closing} (h : Closes env s e cs) :
    (∀ c ∈ cs, RespectsStop c) ↔ FlattensLow env s e := by
  cases h with
  | boundary hp hd =>
      simp only [List.forall_mem_singleton, respectsStop_bidClosing]
      exact closesLow_iff_flattensLow hp (Or.inl hd)
  | eod hp hd heod =>
      simp only [List.forall_mem_singleton, respectsStop_bidClosing]
      exact closesLow_iff_flattensLow hp (Or.inr heod)
  -- the stop exit is the bound itself
  | @stop pos hp hd heod hlow =>
      simp only [List.forall_mem_singleton]
      refine iff_of_true (respectsStop_stopClosing e pos) fun pos' _ hflat => ?_
      rcases hflat with hne | heod'
      · exact absurd hd hne
      · exact absurd (heod'.symm.trans heod) (by simp)
  | @sold pos reason hp hd hh hsym =>
      -- the strategy only sees bars above the stop
      simp only [List.forall_mem_singleton, respectsStop_bidClosing]
      refine iff_of_true (fun _ hlow => absurd hlow (not_le.mpr (hh pos hp).2)) ?_
      intro pos' hp' _ _ hlow
      exact absurd hlow (not_le.mpr (hh pos' hp').2)
  -- nothing was closed: the bar stayed above the stop
  | none hd hh =>
      refine iff_of_true (by simp) fun pos hp _ _ hlow => ?_
      exact absurd hlow (not_le.mpr (hh pos hp).2)

/-- **No close beats a breached stop exactly when** the day boundary, the EOD check and the final
flush, which all sell at the bid without looking at the stop, meet only bars that close low. -/
theorem stop_respected_iff (env : Backtest) (events : List ReplayBar) :
    (∀ c ∈ closings (replayEnd env events).log, RespectsStop c)
      ↔ (∀ m ∈ replayMoves env events, FlattensLow env m.pre m.label)
        ∧ ∀ pos last, (replayLoop env events).openPos = some pos →
            events.getLast? = some last → ClosesLow pos last := by
  rw [closings_iff fun s e cs h => h.respectsStop_iff]
  refine and_congr_right fun _ => ?_
  simp only [forall_flushClosings, respectsStop_bidClosing]

/-- At 15:55 the symbol falls through the stop to ten dollars, and closes at 10.60. -/
def afternoonBar : ReplayBar :=
  candle "TEST" (openingBell + 60 * 385) 1040 1060 1000 1060 3000

/-- The EOD flatten sells at 10.59 on a bar that breached the stop at 10.28. -/
theorem flattened_above_stop :
    ¬ ∀ c ∈ closings (replayEnd replayDay (quietHalfHour ++ [breakoutBar, afternoonBar])).log,
      RespectsStop c := by
  intro h
  have hhigh : (closings (replayEnd replayDay
      (quietHalfHour ++ [breakoutBar, afternoonBar])).log).any
        (fun c => decide (c.on.symbol = c.pos.symbol)
          && decide (c.on.bar.low.val ≤ c.pos.stopPrice.val)
          && decide (stopBound c.pos.stopPrice.val c.on.bar.low.val < c.trade.exitPrice))
        = true := by decide +kernel
  obtain ⟨c, hc, hall⟩ := List.any_eq_true.mp hhigh
  simp only [Bool.and_eq_true, decide_eq_true_eq] at hall
  exact absurd (h c hc hall.1.1 hall.1.2) (not_le.mpr hall.2)

end RossBot
