import RossBot.Backtest.Closings
import RossBot.Backtest.Sessions
import RossBot.Indicators.Seeding

/-!
# What the indicators have seen

After an event of a stream of one symbol, the engine's indicators should be those
of a fresh engine that was fed every bar of the day so far. They are as long as
every bar is handed over (`sees_every_bar_iff`): a bar on which a stop or the EOD
flatten closes the position is not, and is missing from the readings for the rest
of the day.
-/

namespace RossBot

open Lib

/-- The streaming indicators of a symbol and its 1-minute window. -/
@[ext] structure Readings where
  ema9State : EmaState
  macdState : MacdState
  vwapState : VwapState
  intradayHigh : ℚ
  barsOneMin : List BarTick

/-- The readings of a state. -/
def SymbolState.readings (s : SymbolState) : Readings where
  ema9State := s.ema9State
  macdState := s.macdState
  vwapState := s.vwapState
  intradayHigh := s.intradayHigh
  barsOneMin := s.barsOneMin

/-- What a bar adds to the readings. -/
def Readings.absorb (r : Readings) (bar : BarTick) : Readings where
  ema9State := (r.ema9State.update bar.close.val).1
  macdState := (r.macdState.update bar.close.val).1
  vwapState := (r.vwapState.update bar.high.val bar.low.val bar.close.val bar.volume).1
  intradayHigh := if r.intradayHigh < bar.high.val then bar.high.val else r.intradayHigh
  barsOneMin := if bar.timeframe = "1m" then pushWindow 50 r.barsOneMin bar else r.barsOneMin

theorem SymbolState.readings_absorb (s : SymbolState) (bar : BarTick) :
    (s.absorb bar).readings = s.readings.absorb bar := by
  unfold SymbolState.absorb SymbolState.readBar SymbolState.readings Readings.absorb
  dsimp only
  split
  · rfl
  · split <;> rfl

theorem SymbolState.readings_session (s : SymbolState) : s.session.readings = s.readings := rfl

theorem SameSession.readings_eq {a b : SymbolState} (h : SameSession a b) :
    a.readings = b.readings := by
  rw [← a.readings_session, h.1, b.readings_session]

/-- A bar with volume changes the readings. -/
theorem Readings.absorb_ne_self {r : Readings} {bar : BarTick} (h : 0 < bar.volume) :
    r.absorb bar ≠ r := by
  intro heq
  have hvol : r.vwapState.vol + bar.volume = r.vwapState.vol :=
    congrArg (fun r' => r'.vwapState.vol) heq
  have hzero : (bar.volume : ℚ) = 0 := left_eq_add.mp hvol.symm
  exact absurd hzero (by exact_mod_cast h.ne')

/-! ## How many bars the readings have seen -/

/-- What a fresh session makes of some bars has seen as many. -/
theorem seen_sessionOf (bars : List BarTick) :
    (sessionOf bars).ema9State.Seen bars.length ∧ (sessionOf bars).ema9State.period = 9 := by
  induction bars using List.reverseRecOn with
  | nil => exact ⟨EmaState.seen_new (by decide), rfl⟩
  | append_singleton bars b ih =>
      have hema : (sessionOf (bars ++ [b])).ema9State
          = ((sessionOf bars).ema9State.update b.close.val).1 := by
        rw [sessionOf_snoc]
        exact congrArg Readings.ema9State ((sessionOf bars).readings_absorb b)
      obtain ⟨hseen, hperiod⟩ := ih.1.update b.close.val
      rw [hema, List.length_append, List.length_singleton]
      exact ⟨hseen, hperiod.trans ih.2⟩

/-- The readings of one bar are not those of several. -/
theorem readings_singleton_ne {bars : List BarTick} (b : BarTick) (h : bars ≠ []) :
    (sessionOf (bars ++ [b])).readings ≠ (sessionOf [b]).readings := by
  intro heq
  have hmany := (seen_sessionOf (bars ++ [b])).1.length
  have hone := (seen_sessionOf [b]).1.length
  rw [(seen_sessionOf _).2] at hmany hone
  have hbuf : (sessionOf (bars ++ [b])).ema9State.buf = (sessionOf [b]).ema9State.buf :=
    congrArg (fun r => r.ema9State.buf) heq
  have hlen := List.length_pos_iff.mpr h
  rw [hbuf, hone, List.length_append, List.length_singleton] at hmany
  omega

/-! ## A fresh engine for the day -/

/-- A fresh state of the engine that is fed the bars of some events. -/
def fedAfresh (env : Backtest) (events : List ReplayBar) : SymbolState :=
  events.foldl (fun s e =>
    (s.onBar env.cfg e.bar e.scanResult e.l2Signal e.spread e.marketState).1) .default

/-- The events of a date. -/
def onDate (d : ℤ) (events : List ReplayBar) : List ReplayBar := events.filter fun e => e.date = d

theorem fedAfresh_snoc (env : Backtest) (events : List ReplayBar) (e : ReplayBar) :
    fedAfresh env (events ++ [e]) = ((fedAfresh env events).onBar env.cfg e.bar e.scanResult
      e.l2Signal e.spread e.marketState).1 := foldl_snoc _ events e

theorem fedAfresh_session (env : Backtest) (events : List ReplayBar) :
    (fedAfresh env events).session = sessionOf (events.map (·.bar)) := by
  induction events using List.reverseRecOn with
  | nil => rfl
  | append_singleton events e ih =>
      rw [fedAfresh_snoc, (SymbolState.session_onBar ..).1, ih, List.map_append, List.map_singleton,
        sessionOf_snoc]

theorem fedAfresh_readings (env : Backtest) (events : List ReplayBar) :
    (fedAfresh env events).readings = (sessionOf (events.map (·.bar))).readings := by
  rw [← SymbolState.readings_session, fedAfresh_session]

theorem fedAfresh_readings_snoc (env : Backtest) (events : List ReplayBar) (e : ReplayBar) :
    (fedAfresh env (events ++ [e])).readings = (fedAfresh env events).readings.absorb e.bar := by
  rw [fedAfresh_readings, fedAfresh_readings, List.map_append, List.map_singleton, sessionOf_snoc,
    SymbolState.readings_absorb]

/-- A bar leaves a fresh state with the readings of a state that had seen bars before only if it
had seen none. -/
theorem absorb_fresh_iff {env : Backtest} {events : List ReplayBar} {e : ReplayBar} :
    (fedAfresh env []).readings.absorb e.bar = (fedAfresh env events).readings.absorb e.bar ↔
      events = [] := by
  constructor
  · intro heq
    by_contra hsome
    have hne : events.map (·.bar) ≠ [] := by simpa using hsome
    rw [← fedAfresh_readings_snoc, ← fedAfresh_readings_snoc, fedAfresh_readings,
      fedAfresh_readings] at heq
    simp only [List.map_append, List.map_cons, List.map_nil, List.nil_append] at heq
    exact readings_singleton_ne e.bar hne heq.symm
  · intro hnone
    rw [hnone]

theorem onDate_snoc (events : List ReplayBar) (e : ReplayBar) :
    onDate e.date (events ++ [e]) = onDate e.date events ++ [e] := by
  rw [onDate, List.filter_append]
  simp [onDate]

/-! ## When they agree -/

/-- After the event, the engine's readings are those of a fresh engine fed the day so far. -/
def SeesEveryBar (env : Backtest) (before : List ReplayBar) (e : ReplayBar) : Prop :=
  ((replayLoop env (before ++ [e])).engine e.symbol).readings =
    (fedAfresh env (onDate e.date (before ++ [e]))).readings

/-- The event starts no date a second time, and its bar is handed over, or nothing is lost. -/
structure NothingLost (env : Backtest) (before : List ReplayBar) (e : ReplayBar) : Prop where
  /-- Where the loop's day changes, the date is new. -/
  newDate : (replayLoop env before).currentDay ≠ some e.date → ∀ b ∈ before, b.date ≠ e.date
  /-- A bar that an exit check takes would have changed nothing. -/
  handed : ¬ (replayLoop env before).WillHand env e →
    ((replayLoop env before).engine e.symbol).readings.absorb e.bar =
      ((replayLoop env before).engine e.symbol).readings

theorem replayLoop_snoc (env : Backtest) (before : List ReplayBar) (e : ReplayBar) :
    replayLoop env (before ++ [e]) = (replayLoop env before).onEvent env e := foldl_snoc _ before e

/-- Within a day, the last event was of the same date and saw all its bars. -/
theorem SeesEveryBar.of_currentDay {env : Backtest} {before : List ReplayBar} {sym : Symbol}
    {d : ℤ} (h : EachAt (SeesEveryBar env) before) (hsym : ∀ b ∈ before, b.symbol = sym)
    (hd : (replayLoop env before).currentDay = some d) :
    ((replayLoop env before).engine sym).readings = (fedAfresh env (onDate d before)).readings := by
  rcases List.eq_nil_or_concat before with rfl | ⟨earlier, b, rfl⟩
  · exact absurd hd (by simp [replayLoop, Replay.start, Replay.currentDay])
  · rw [List.concat_eq_append] at h hsym hd ⊢
    have hday : some b.date = some d :=
      (replayLoop_currentDay env (by simp)).symm.trans hd
    have hb : SeesEveryBar env earlier b := h earlier b [] rfl
    rw [← hsym b (by simp), ← Option.some.inj hday]
    exact hb

/-- The step: given that all bars were seen so far, this one is exactly when nothing is lost. -/
theorem seesEveryBar_iff_nothingLost {env : Backtest} {before : List ReplayBar} {e : ReplayBar}
    {sym : Symbol} (h : EachAt (SeesEveryBar env) before) (hsym : ∀ b ∈ before, b.symbol = sym)
    (he : e.symbol = sym) : SeesEveryBar env before e ↔ NothingLost env before e := by
  have hagree := agree_loop env before
  have hsofar := SeesEveryBar.of_currentDay h (fun b hb => (hsym b hb).trans he.symm)
    (d := e.date)
  rw [SeesEveryBar, onDate_snoc, fedAfresh_readings_snoc, replayLoop_snoc]
  rcases hagree.onEvent_sessions env e with
    ⟨hnot, -, -, -, hsame⟩ | ⟨hwill, -, -, st, -, -, -, hmeets, hsess, -⟩
  · -- an exit check took the bar: the readings are what they were
    have hd : (replayLoop env before).currentDay = some e.date := by
      by_contra hd
      exact hnot fun hd' => absurd hd' hd
    rw [(hsame e.symbol).readings_eq, ← hsofar hd]
    constructor
    · intro hsees
      exact ⟨fun hne => absurd hd hne, fun _ => hsees.symm⟩
    · intro hlost
      exact (hlost.handed hnot).symm
  · have hafter : (((replayLoop env before).onEvent env e).engine e.symbol).readings =
        st.readings.absorb e.bar := by
      rw [← SymbolState.readings_session, hsess, SymbolState.readings_absorb,
        SymbolState.readings_session]
    rw [hafter]
    by_cases hd : (replayLoop env before).currentDay = some e.date
    · -- the day goes on
      rw [(hmeets.same hd).readings_eq, hsofar hd]
      exact iff_of_true rfl ⟨fun hne => absurd hd hne, fun hnot => absurd hwill hnot⟩
    · -- the state is fresh; it should be, if the date is
      have hfresh : st.readings = (fedAfresh env []).readings := by
        rw [← SymbolState.readings_session, (hmeets.new hd).1]
        rfl
      rw [hfresh, absorb_fresh_iff]
      constructor
      · intro hnone
        refine ⟨fun _ b hb hdate => ?_, fun hnot => absurd hwill hnot⟩
        exact List.filter_eq_nil_iff.mp hnone b hb (by simpa using hdate)
      · intro hlost
        exact List.filter_eq_nil_iff.mpr fun b hb => by simpa using hlost.newDate hd b hb

/--
**The indicators see every bar exactly when nothing is lost**: for a stream of
one symbol, the loop never comes back to a date it has left, and a bar that a
stop or the EOD flatten takes would have left the readings as they are, which no
bar with volume does.
-/
theorem sees_every_bar_iff (env : Backtest) (events : List ReplayBar) (sym : Symbol)
    (hsym : ∀ e ∈ events, e.symbol = sym) :
    EachAt (SeesEveryBar env) events ↔ EachAt (NothingLost env) events := by
  induction events using List.reverseRecOn with
  | nil => exact iff_of_true eachAt_nil eachAt_nil
  | append_singleton events e ih =>
      have hbefore : ∀ b ∈ events, b.symbol = sym := fun b hb =>
        hsym b (List.mem_append_left _ hb)
      have he : e.symbol = sym := hsym e (List.mem_append_right _ (List.mem_singleton.mpr rfl))
      rw [eachAt_snoc, eachAt_snoc, ← ih hbefore]
      exact and_congr_right fun h => seesEveryBar_iff_nothingLost h hbefore he

/-- A bar that falls to 10.20 after the breakout. -/
def fallingBar : ReplayBar := candle "TEST" (openingBell + 60 * 34) 1045 1046 1020 1025 1000

/-- The first two bars of a quiet morning. -/
def quietMinutes : List ReplayBar :=
  [candle "TEST" openingBell 1000 1000 1000 1000 1000,
    candle "TEST" (openingBell + 60) 1000 1000 1000 1000 1000]

theorem sees_every_bar_quietMinutes : EachAt (SeesEveryBar replayDay) quietMinutes := by
  refine (sees_every_bar_iff replayDay quietMinutes "TEST" (by simp [quietMinutes, candle,
    ReplayBar.symbol])).mpr ?_
  have hsplit : quietMinutes = [] ++ [candle "TEST" openingBell 1000 1000 1000 1000 1000]
      ++ [candle "TEST" (openingBell + 60) 1000 1000 1000 1000 1000] := rfl
  rw [hsplit, eachAt_snoc, eachAt_snoc]
  refine ⟨⟨eachAt_nil, fun _ b hb => absurd hb List.not_mem_nil, fun hnot => ?_⟩, ?_, ?_⟩
  · exact absurd (fun hd => absurd hd (by simp [replayLoop, Replay.start, Replay.currentDay])) hnot
  · exact fun hd => absurd (by decide +kernel) hd
  · -- nothing has been bought, so no exit check takes the bar
    have hflat : ((replayLoop replayDay [candle "TEST" openingBell 1000 1000 1000 1000
        1000]).openPos.isNone) = true := by decide +kernel
    refine fun hnot => absurd (fun _ pos hp => ?_) hnot
    rw [List.nil_append] at hp
    rw [hp] at hflat
    exact absurd hflat (by simp)

/-- A half hour, a breakout that is bought, and the bar that stops it out. -/
def stoppedDay : List ReplayBar := quietHalfHour ++ [breakoutBar] ++ [fallingBar]

/-- The bar that stops the breakout out is missing from the readings. -/
theorem stop_bar_unseen :
    ((replayLoop replayDay stoppedDay).engine "TEST").readings.barsOneMin.length = 34 ∧
      (fedAfresh replayDay (onDate fallingBar.date stoppedDay)).readings.barsOneMin.length = 35 ∧
      ¬ EachAt (SeesEveryBar replayDay) stoppedDay := by
  have hengine : ((replayLoop replayDay stoppedDay).engine
      "TEST").readings.barsOneMin.length = 34 := by decide +kernel
  have hfresh : (fedAfresh replayDay (onDate fallingBar.date
      stoppedDay)).readings.barsOneMin.length = 35 := by decide +kernel
  refine ⟨hengine, hfresh, fun h => ?_⟩
  have hsees : SeesEveryBar replayDay (quietHalfHour ++ [breakoutBar]) fallingBar :=
    h _ fallingBar [] rfl
  have hsymbol : fallingBar.symbol = "TEST" := rfl
  rw [SeesEveryBar, hsymbol, ← stoppedDay] at hsees
  rw [hsees, hfresh] at hengine
  exact absurd hengine (by decide)

end RossBot
