import Mathlib.Data.List.Chain
import RossBot.Backtest.Closings

/-!
# A backtest is its days

`core/backtest/replay.py`. What one day leaves to the next is its last close. So
when every day is flat at its end, and brings no symbol back whose session only the
first bar of a day resets, the days can be replayed one by one, in any order or side by
side, each given the close before it: the result is theirs, one after another.

The proof runs the whole replay beside one that begins with the day. From the day's
first bar on they are in step (`GoesOn`): what they disagree on is behind them.
-/

namespace RossBot

open Lib

/-- The variables before the loop, when a close came before. -/
def Replay.startAfter (prevClose : Option Money) : Replay :=
  { Replay.start with prevClose := prevClose }

/-- The days of a `replay` of these events alone, given the close before them. -/
def replayAfter (env : Backtest) (prevClose : Option Money) (events : List ReplayBar) :
    List SimDay :=
  ((events.foldl (Replay.onEvent env) (.startAfter prevClose)).flush env events.getLast?).days

/-- The last close, once these events are through. -/
def closeAfter (prevClose : Option Money) (events : List ReplayBar) : Option Money :=
  (events.getLast?.map (·.bar.close)).or prevClose

/-- Each of the days replayed by itself. -/
def replayEach (env : Backtest) : Option Money → List (List ReplayBar) → List SimDay
  | _, [] => []
  | prevClose, day :: days =>
      replayAfter env prevClose day ++ replayEach env (closeAfter prevClose day) days

/-- The day's last bar is not before the flatten time. -/
def ClosesOut (env : Backtest) (day : List ReplayBar) : Prop :=
  ∃ last, day.getLast? = some last
    ∧ shouldFlattenEod (env.timeOfDay last.bar.ts) env.cfg = true

/-- A later day begins on another date than an earlier one ended on. -/
def NewDate (day later : List ReplayBar) : Prop :=
  ∀ last first, day.getLast? = some last → later.head? = some first → last.date ≠ first.date

/-- What a later day trades besides the symbol of its first bar, an earlier one did not. -/
def NewSymbols (day later : List ReplayBar) : Prop :=
  ∀ first, later.head? = some first →
    ∀ e ∈ later, e.symbol ≠ first.symbol → ∀ b ∈ day, b.symbol ≠ e.symbol

namespace Replay

variable {env : Backtest} {s t : Replay} {e : ReplayBar} {syms : Set Symbol} {past : List SimDay}

/-! ## In step -/

/-- **The two replays are in step**: they differ in the days behind them, and in what the strategy
engine has of symbols that do not come up any more. -/
structure GoesOn (syms : Set Symbol) (past : List SimDay) (s t : Replay) : Prop where
  engine : ∀ sym ∈ syms, s.engine sym = t.engine sym
  risk : s.risk = t.risk
  days : s.days = past ++ t.days
  simDay : s.simDay = t.simDay
  openPos : s.openPos = t.openPos
  prevClose : s.prevClose = t.prevClose
  held : ∀ pos, t.openPos = some pos → pos.symbol ∈ syms

theorem setState_congr {g g' : StrategyEngine} (h : ∀ sym ∈ syms, g sym = g' sym) (symbol : Symbol)
    {a a' : SymbolState} (ha : a = a') :
    ∀ sym ∈ syms, g.setState symbol a sym = g'.setState symbol a' sym := by
  intro sym hsym
  unfold StrategyEngine.setState
  rw [ha, h sym hsym]

theorem GoesOn.completeTrade (h : GoesOn syms past s t) {pos : OpenPosition}
    (hpos : pos.symbol ∈ syms) (x f : ℚ) (r : TradeExit) :
    GoesOn syms past (s.completeTrade env pos e x f r) (t.completeTrade env pos e x f r) where
  engine := setState_congr h.engine _ (by rw [h.engine _ hpos])
  risk := by rw [Replay.completeTrade, Replay.completeTrade, h.risk]
  days := h.days
  simDay := congrArg (Option.map _) h.simDay
  openPos := rfl
  prevClose := h.prevClose
  held := fun _ hp => absurd hp (by simp)

theorem GoesOn.flattenResidual (h : GoesOn syms past s t) :
    GoesOn syms past (s.flattenResidual env e) (t.flattenResidual env e) := by
  unfold Replay.flattenResidual
  rw [h.openPos, h.simDay]
  split
  · rename_i pos _ hp _
    exact h.completeTrade (h.held pos hp) ..
  · exact h

theorem GoesOn.finaliseSimDay (h : GoesOn syms past s t) :
    GoesOn syms past s.finaliseSimDay t.finaliseSimDay := by
  unfold Replay.finaliseSimDay
  rw [h.simDay]
  split
  · exact h
  · exact ⟨h.engine, h.risk, by rw [h.days, List.append_assoc], rfl, h.openPos, h.prevClose, h.held⟩

theorem GoesOn.startDay (h : GoesOn syms past s t) :
    GoesOn syms past (s.startDay e) (t.startDay e) :=
  ⟨setState_congr h.engine _ (by rw [h.prevClose]), rfl, h.days, rfl, h.openPos, h.prevClose, h.held⟩

theorem GoesOn.arrive (h : GoesOn syms past s t) : GoesOn syms past (s.arrive e) (t.arrive e) :=
  ⟨h.engine, h.risk, h.days, h.simDay, h.openPos, h.prevClose, h.held⟩

theorem GoesOn.rollover (h : GoesOn syms past s t) :
    GoesOn syms past (s.rollover env e) (t.rollover env e) := by
  have hday : s.currentDay = t.currentDay := congrArg (Option.map _) h.simDay
  unfold Replay.rollover
  rw [hday]
  split
  · exact h
  · exact h.flattenResidual.finaliseSimDay.startDay

variable (env) in
theorem GoesOn.handBar (h : GoesOn syms past s t) (he : e.symbol ∈ syms) :
    GoesOn syms past (s.handBar env e).1 (t.handBar env e).1
      ∧ (s.handBar env e).2 = (t.handBar env e).2 := by
  have hself : s.engine e.bar.symbol = t.engine e.bar.symbol := h.engine _ he
  refine ⟨⟨setState_congr h.engine _ (by rw [hself]), h.risk, h.days, h.simDay, h.openPos,
    h.prevClose, h.held⟩, ?_⟩
  change (SymbolState.onBar env.cfg (s.engine e.bar.symbol) ..).2 = _
  rw [hself]
  rfl

theorem GoesOn.veto (h : GoesOn syms past s t) (sig : EntrySignal) (vetoes : List VetoReason) :
    GoesOn syms past (s.veto e sig vetoes) (t.veto e sig vetoes) :=
  ⟨h.engine, h.risk, h.days, congrArg (Option.map _) h.simDay, h.openPos, h.prevClose, h.held⟩

theorem GoesOn.openPosition (h : GoesOn syms past s t) (he : e.symbol ∈ syms) (sig : EntrySignal)
    (n : ℤ) : GoesOn syms past (s.openPosition env e sig n) (t.openPosition env e sig n) where
  engine := setState_congr h.engine _ (by rw [h.engine _ he])
  risk := by rw [Replay.openPosition, Replay.openPosition, h.risk]
  days := h.days
  simDay := h.simDay
  openPos := rfl
  prevClose := h.prevClose
  held := fun pos hp => Option.some.inj hp ▸ he

theorem GoesOn.scaleOut (h : GoesOn syms past s t) (he : e.symbol ∈ syms) {pos : OpenPosition}
    (hpos : pos.symbol ∈ syms) (newStop : Option Money) :
    GoesOn syms past (s.scaleOut e pos newStop) (t.scaleOut e pos newStop) := by
  unfold Replay.scaleOut
  split
  · exact h
  · split
    · exact h
    · exact ⟨setState_congr h.engine _ (by rw [h.engine _ he]), h.risk, h.days, h.simDay, rfl,
        h.prevClose, fun pos' hp => Option.some.inj hp ▸ hpos⟩

theorem GoesOn.handleSignals (h : GoesOn syms past s t) (he : e.symbol ∈ syms)
    (sigs : List Signal) :
    GoesOn syms past (Replay.handleSignals env e s sigs) (Replay.handleSignals env e t sigs) := by
  induction sigs generalizing s t with
  | nil => rwa [handleSignals_nil, handleSignals_nil]
  | cons sig rest ih =>
      cases sig with
      -- a failed pattern is passed over
      | failedPattern f =>
          rw [Replay.handleSignals, Replay.handleSignals]
          exact ih h
      | entry sig =>
          -- both ask the same risk manager
          have happ : s.approval env e sig = t.approval env e sig := by
            rw [approval, approval, h.risk]
          rw [Replay.handleSignals, Replay.handleSignals, h.openPos, happ]
          split
          · exact ih h
          · dsimp only
            split
            · exact h.openPosition he ..
            · exact ih (h.veto ..)
      | exit sig =>
          rw [Replay.handleSignals, Replay.handleSignals, h.openPos]
          split
          · exact ih h
          · rename_i pos hp
            split
            · -- an exit of the position that both hold
              exact h.completeTrade (h.held pos hp) ..
            · exact ih (h.scaleOut he (h.held pos hp) _)

variable (env) in
theorem GoesOn.onBar (h : GoesOn syms past s t) (he : e.symbol ∈ syms) :
    GoesOn syms past (s.onBar env e) (t.onBar env e) := by
  have hbar : GoesOn syms past
      (Replay.handleSignals env e (s.handBar env e).1 (s.handBar env e).2)
      (Replay.handleSignals env e (t.handBar env e).1 (t.handBar env e).2) := by
    obtain ⟨hstate, hsigs⟩ := h.handBar env he
    rw [hsigs]
    exact hstate.handleSignals he _
  unfold Replay.onBar exitCheck
  -- both hold the same position, or none
  rw [h.openPos]
  cases hp : t.openPos with
  | none => exact hbar
  | some pos =>
      dsimp only
      -- flattened at the end of the day
      by_cases heod : shouldFlattenEod (env.timeOfDay e.bar.ts) env.cfg = true
      · rw [if_pos heod, if_pos heod]
        exact h.completeTrade (h.held pos hp) ..
      · rw [if_neg heod, if_neg heod]
        -- stopped on the bar's low
        by_cases hlow : RiskState.checkMentalStop e.bar.low.val pos.asSnapshot = true
        · rw [if_pos hlow, if_pos hlow]
          exact h.completeTrade (h.held pos hp) ..
        · rw [if_neg hlow, if_neg hlow]
          exact hbar

theorem GoesOn.onEvent (h : GoesOn syms past s t) (he : e.symbol ∈ syms) :
    GoesOn syms past (s.onEvent env e) (t.onEvent env e) :=
  have hbar := h.arrive.rollover.onBar env he
  ⟨hbar.engine, hbar.risk, hbar.days, hbar.simDay, hbar.openPos, rfl, hbar.held⟩

variable (env) in
theorem GoesOn.foldl (h : GoesOn syms past s t) {events : List ReplayBar}
    (hsyms : ∀ e ∈ events, e.symbol ∈ syms) :
    GoesOn syms past (events.foldl (Replay.onEvent env) s) (events.foldl (Replay.onEvent env) t) := by
  induction events generalizing s t with
  | nil => exact h
  | cons e events ih =>
      exact ih (h.onEvent (hsyms e List.mem_cons_self))
        fun e' he' => hsyms e' (List.mem_cons_of_mem _ he')

variable (env) in
theorem GoesOn.flush (h : GoesOn syms past s t) (last : Option ReplayBar) :
    (s.flush env last).days = past ++ (t.flush env last).days := by
  cases last with
  | none => exact h.finaliseSimDay.days
  | some e => exact h.flattenResidual.finaliseSimDay.days

/-! ## The first bar of a day -/

variable (env) in
/-- **From the first bar of a day on they are in step**, when nothing is held and the other symbols
of the day are new to the engine. -/
theorem goesOn_boundary (ho : s.openPos = none) (hd : s.currentDay ≠ some e.date)
    (he : e.symbol ∈ syms) (hnew : ∀ sym ∈ syms, sym ≠ e.symbol → s.engine sym = .default) :
    GoesOn syms s.finaliseSimDay.days (s.onEvent env e) ((startAfter s.prevClose).onEvent env e) := by
  -- rolled over, the engine of the day is reset for the first symbol of it
  have hday : GoesOn syms s.finaliseSimDay.days ((s.arrive e).rollover env e)
      (((startAfter s.prevClose).arrive e).rollover env e) := by
    have hd' : ((startAfter s.prevClose).arrive e).currentDay ≠ some e.date :=
      fun h => absurd (show none = some e.date from h) (by simp)
    rw [rollover_of_new (s := s.arrive e) hd, rollover_of_new hd',
      flattenResidual_of_none (s := s.arrive e) ho,
      flattenResidual_of_none (s := (startAfter s.prevClose).arrive e) rfl]
    have hkept : (s.arrive e).finaliseSimDay.days = s.finaliseSimDay.days := by
      unfold finaliseSimDay arrive
      cases s.simDay <;> rfl
    refine ⟨?_, rfl, ?_, rfl, ?_, ?_, ?_⟩
    · -- the symbols that come are new, or the one that is reset
      intro sym hsym
      change (StrategyEngine.resetSession _ e.symbol _) sym = (StrategyEngine.resetSession _ _ _) sym
      unfold StrategyEngine.resetSession StrategyEngine.setState
      rw [finaliseSimDay_prevClose, finaliseSimDay_engine]
      split
      · rfl
      · rename_i hne
        exact hnew sym hsym hne
    · exact hkept.trans (List.append_nil _).symm
    · exact finaliseSimDay_openPos.trans ho
    · exact finaliseSimDay_prevClose
    · intro pos hp
      exact absurd hp (by simp [startDay, finaliseSimDay, startAfter, start, arrive])
  -- and the first bar of the day is like any other
  have hbar := hday.onBar env he
  exact ⟨hbar.engine, hbar.risk, hbar.days, hbar.simDay, hbar.openPos, rfl, hbar.held⟩

/-! ## The bars before it -/

/-- A symbol that does not come up is left alone. -/
theorem Turn.untouched {s' : Replay} (h : Turn env s e s') {sym : Symbol} (hne : sym ≠ e.symbol)
    (hheld : ∀ pos, s.openPos = some pos → pos.symbol ≠ sym) :
    s'.engine sym = s.engine sym ∧ ∀ pos, s'.openPos = some pos → pos.symbol ≠ sym := by
  have hnone : ∀ pos, (none : Option OpenPosition) = some pos → pos.symbol ≠ sym :=
    fun _ h => absurd h (by simp)
  cases h with
  -- closed before the bar is handed on
  | eod hp | stop hp => exact ⟨StrategyEngine.setState_ne _ _ (hheld _ hp).symm, hnone⟩
  | quiet | vetoed => exact ⟨handBar_engine_ne hne, hheld⟩
  -- what is opened is the bar's own
  | opened =>
      refine ⟨?_, fun pos hp => ?_⟩
      · exact (StrategyEngine.setState_ne _ _ hne).trans (handBar_engine_ne hne)
      · rw [← Option.some.inj hp]
        exact hne.symm
  | sold _ hp hsym =>
      exact ⟨(StrategyEngine.setState_ne _ _ (hheld _ hp).symm).trans (handBar_engine_ne hne), hnone⟩
  | @scaled pos _ _ hp hsym =>
      unfold Replay.scaleOut
      dsimp only
      split
      · exact ⟨handBar_engine_ne hne, hheld⟩
      · refine ⟨(StrategyEngine.setState_ne _ _ hne).trans (handBar_engine_ne hne), fun pos' hp' => ?_⟩
        rw [← Option.some.inj hp']
        exact hheld pos hp

/-- The state of a symbol that has not come up. -/
structure Unseen (sym : Symbol) (s : Replay) : Prop where
  agree : s.Agree
  engine : s.engine sym = .default
  held : ∀ pos, s.openPos = some pos → pos.symbol ≠ sym

theorem Unseen.onEvent {sym : Symbol} (h : Unseen sym s) (hne : sym ≠ e.symbol) :
    Unseen sym (s.onEvent env e) := by
  have hroll : ((s.arrive e).rollover env e).engine sym = .default
      ∧ ∀ pos, ((s.arrive e).rollover env e).openPos = some pos → pos.symbol ≠ sym := by
    refine ⟨?_, fun pos hp => h.held pos (h.agree.arrive.rollover_openPos hp).2⟩
    by_cases hd : (s.arrive e).currentDay = some e.date
    · rw [rollover_of_same hd]
      exact h.engine
    · rw [rollover_of_new hd]
      refine (StrategyEngine.setState_ne _ _ hne).trans ?_
      rw [finaliseSimDay_engine]
      cases hp : s.openPos with
      | none => rw [flattenResidual_of_none (s := s.arrive e) hp]; exact h.engine
      | some pos =>
          rw [h.agree.arrive.flattenResidual_of_some hp]
          exact (StrategyEngine.setState_ne _ _ (h.held pos hp).symm).trans h.engine
  obtain ⟨hengine, hheld⟩ := (h.agree.onEvent_turn env e).untouched hne hroll.2
  exact ⟨h.agree.onEvent, hengine.trans hroll.1, hheld⟩

theorem unseen_loop (env : Backtest) {events : List ReplayBar} {sym : Symbol}
    (h : ∀ e ∈ events, e.symbol ≠ sym) : Unseen sym (replayLoop env events) := by
  induction events using List.reverseRecOn with
  | nil => exact ⟨agree_start, rfl, fun _ hp => absurd hp (by simp [replayLoop, start])⟩
  | append_singleton events e ih =>
      rw [replayLoop, foldl_snoc]
      exact (ih fun b hb => h b (List.mem_append_left _ hb)).onEvent
        (h e (List.mem_append_right _ List.mem_cons_self)).symm

/-- **A bar at the flatten time leaves nothing open**: what is held is sold, and it is too late to
buy. -/
theorem Agree.flat_of_eod (h : s.Agree) (hstop : env.cfg.hardStopTime < env.cfg.eodFlattenTime)
    (heod : shouldFlattenEod (env.timeOfDay e.bar.ts) env.cfg = true) :
    (s.onEvent env e).openPos = none := by
  -- a bar handed to the strategy at that time finds nothing held
  have hnone : ∀ {r : Replay}, r.Hands env e → r.openPos = none := by
    intro r hh
    cases hp : r.openPos with
    | none => rfl
    | some pos => exact absurd ((hh pos hp).1.symm.trans heod) (by simp)
  have hturn := h.onEvent_turn env e
  change (((s.arrive e).rollover env e).onBar env e).openPos = none
  generalize ((s.arrive e).rollover env e).onBar env e = r at hturn ⊢
  cases hturn with
  | eod | stop | sold => rfl
  | quiet hh => exact hnone hh
  | vetoed _ _ ho => exact ho
  | opened _ _ _ happ =>
      have htime := (RiskState.evaluate_approved happ).1.time
      exact absurd (hstop.trans_le ((of_decide_eq_true heod).trans htime)) (lt_irrefl _)
  | scaled hh _ hp => exact absurd ((hnone hh).symm.trans hp) (by simp)

theorem loop_prevClose (env : Backtest) (events : List ReplayBar) :
    (replayLoop env events).prevClose = closeAfter none events := by
  induction events using List.reverseRecOn with
  | nil => rfl
  | append_singleton events e _ =>
      rw [replayLoop, foldl_snoc, closeAfter, List.getLast?_concat]
      rfl

end Replay

/-! ## Day by day -/

variable {env : Backtest}

/--
**What is replayed up to a flat end and what follows it do not mix.**

The boundary starts the day's session and the risk manager anew. Of the days before,
what is carried on is the close, and the engine's states of other symbols, which the
rest may not bring back.
-/
theorem replay_append {events : List ReplayBar} {first : ReplayBar} {rest : List ReplayBar}
    (hflat : (replayLoop env events).openPos = none)
    (hdate : ∀ last, events.getLast? = some last → last.date ≠ first.date)
    (hsyms : ∀ e ∈ first :: rest, e.symbol ≠ first.symbol → ∀ b ∈ events, b.symbol ≠ e.symbol) :
    (replay env (events ++ first :: rest)).days
      = (replay env events).days ++ replayAfter env (closeAfter none events) (first :: rest) := by
  -- the day before is another date, however the loop left it
  have hd : (replayLoop env events).currentDay ≠ some first.date := by
    cases hlast : events.getLast? with
    | none =>
        rw [List.getLast?_eq_none_iff.mp hlast]
        exact fun h => absurd (show none = some first.date from h) (by simp)
    | some last =>
        rw [replayLoop_currentDay env hlast]
        exact fun h => hdate last hlast (Option.some.inj h)
  -- from the first event on, the long replay and the short one go on alike
  have hstep : Replay.GoesOn { sym | ∃ e ∈ first :: rest, e.symbol = sym }
      (replayLoop env events).finaliseSimDay.days ((replayLoop env events).onEvent env first)
      ((Replay.startAfter (replayLoop env events).prevClose).onEvent env first) := by
    refine Replay.goesOn_boundary env hflat hd ⟨first, List.mem_cons_self, rfl⟩ ?_
    rintro sym ⟨e, he, rfl⟩ hne
    exact (Replay.unseen_loop env (hsyms e he hne)).engine
  have hrest : ∀ e ∈ rest, e.symbol ∈ { sym | ∃ e ∈ first :: rest, e.symbol = sym } :=
    fun e he => ⟨e, List.mem_cons_of_mem _ he, rfl⟩
  -- nothing is held at the end, so the flush only finalises the day
  have hpast : (replay env events).days = (replayLoop env events).finaliseSimDay.days := by
    change ((replayLoop env events).flush env events.getLast?).days = _
    unfold Replay.flush
    cases events.getLast? with
    | none => rfl
    | some last =>
        dsimp only
        rw [Replay.flattenResidual_of_none hflat]
  have hlast : (events ++ first :: rest).getLast? = (first :: rest).getLast? :=
    List.getLast?_append_of_ne_nil _ (by simp)
  rw [hpast, ← Replay.loop_prevClose env]
  refine Eq.trans ?_ ((hstep.foldl env hrest).flush env (first :: rest).getLast?)
  change (Replay.flush env ((events ++ first :: rest).foldl _ _) _).days = _
  rw [List.foldl_append, hlast]
  rfl

theorem closeAfter_append (prevClose : Option Money) (day later : List ReplayBar) :
    closeAfter (closeAfter prevClose day) later = closeAfter prevClose (day ++ later) := by
  unfold closeAfter
  rw [List.getLast?_append]
  cases later.getLast? <;> rfl

theorem replayEach_snoc (env : Backtest) (prevClose : Option Money) (days : List (List ReplayBar))
    (day : List ReplayBar) :
    replayEach env prevClose (days ++ [day])
      = replayEach env prevClose days ++ replayAfter env (closeAfter prevClose days.flatten) day := by
  induction days generalizing prevClose with
  | nil => simp [replayEach, closeAfter]
  | cons d days ih =>
      rw [List.cons_append, replayEach, replayEach, ih, closeAfter_append, List.append_assoc,
        List.flatten_cons]

/-- Days that close out leave nothing open. -/
theorem flat_of_closesOut (hstop : env.cfg.hardStopTime < env.cfg.eodFlattenTime)
    {days : List (List ReplayBar)} (hout : ∀ day ∈ days, ClosesOut env day) :
    (replayLoop env days.flatten).openPos = none := by
  cases days using List.reverseRecOn with
  | nil => rfl
  | append_singleton days day =>
      obtain ⟨last, hlast, heod⟩ := hout day (by simp)
      obtain ⟨before, rfl⟩ := List.getLast?_eq_some_iff.mp hlast
      rw [List.flatten_append, List.flatten_singleton, ← List.append_assoc, replayLoop, foldl_snoc]
      exact (agree_loop env _).flat_of_eod hstop heod

/-- The last bar of some days is that of the last day. -/
theorem getLast?_flatten_snoc {days : List (List ReplayBar)} {day : List ReplayBar}
    (h : day ≠ []) : (days ++ [day]).flatten.getLast? = day.getLast? := by
  rw [List.flatten_append, List.flatten_singleton]
  exact List.getLast?_append_of_ne_nil _ h

/-- **A backtest is its days, one after another**: as long as entries stop before the flatten time,
every day has a bar at its end, and only the first bar of a day brings back a symbol of an earlier
one, `replay` gives what replaying each day by itself does, each with the close before it. -/
theorem replay_dayByDay (hstop : env.cfg.hardStopTime < env.cfg.eodFlattenTime)
    {days : List (List ReplayBar)} (hout : ∀ day ∈ days, ClosesOut env day)
    (hdates : days.IsChain NewDate) (hsyms : days.Pairwise NewSymbols) :
    (replay env days.flatten).days = replayEach env none days := by
  induction days using List.reverseRecOn with
  | nil => rfl
  | append_singleton days day ih =>
      have hbefore : ∀ d ∈ days, ClosesOut env d := fun d hd => hout d (List.mem_append_left _ hd)
      obtain ⟨hchain, -, hnext⟩ := List.isChain_append.mp hdates
      obtain ⟨hpair, -, hapart⟩ := List.pairwise_append.mp hsyms
      cases day with
      | nil =>
          obtain ⟨last, hlast, -⟩ := hout [] (by simp)
          exact absurd hlast (by simp)
      | cons first rest =>
          rw [List.flatten_append, List.flatten_singleton,
            replay_append (flat_of_closesOut hstop hbefore), ih hbefore hchain hpair,
            replayEach_snoc]
          · -- the date changes after the last bar of the day before
            intro last hlast
            cases days using List.reverseRecOn with
            | nil => exact absurd hlast (by simp)
            | append_singleton days day =>
                obtain ⟨l, hl, -⟩ := hbefore day (by simp)
                rw [getLast?_flatten_snoc (by rintro rfl; simp at hl)] at hlast
                exact hnext day (by simp) (first :: rest) (by simp) last first hlast rfl
          · intro e he hne b hb
            obtain ⟨d, hd, hbd⟩ := List.mem_flatten.mp hb
            exact hapart d hd (first :: rest) (by simp) first rfl e he hne b hbd

/-- The day of the breakout, with a bar at 15:55, and the next day's first and last bars. -/
def twoDays : List (List ReplayBar) :=
  [quietHalfHour ++ [breakoutBar, afternoonBar],
    [nextMorning, candle "TEST" (openingBell + 86400 + 60 * 385) 800 810 790 805 1000]]

theorem replay_dayByDay_twoDays :
    (replay replayDay twoDays.flatten).days = replayEach replayDay none twoDays := by
  have hone : ∀ day ∈ twoDays, ∀ e ∈ day, e.symbol = "TEST" := by decide
  refine replay_dayByDay (by norm_num [replayDay, Config.defaults]) ?_ ?_ ?_
  · intro day hday
    rcases List.mem_pair.mp hday with rfl | rfl
    · exact ⟨afternoonBar, rfl, by decide +kernel⟩
    · exact ⟨_, rfl, by decide +kernel⟩
  · refine List.isChain_pair.mpr fun last first hlast hfirst => ?_
    obtain rfl := Option.some.inj hlast
    obtain rfl := Option.some.inj hfirst
    decide +kernel
  · refine List.pairwise_pair.mpr fun first hfirst e he hne => ?_
    have hmem : [nextMorning, candle "TEST" (openingBell + 86400 + 60 * 385) 800 810 790 805 1000]
        ∈ twoDays := List.mem_pair.mpr (Or.inr rfl)
    exact absurd ((hone _ hmem e he).trans (hone _ hmem first (List.mem_of_head? hfirst)).symm) hne

end RossBot
