import RossBot.Backtest.Steps

/-!
# Sessions of the strategy engine

The loop notices a new day once for the whole stream and resets the one symbol
whose bar came first; the engine keeps a state for each symbol. What a bar is
judged with should come from its own symbol and its own date: `OwnSession` says
so of a bar handed to `on_bar`, and `sessions_are_own_iff` says exactly when all
bars of a replay have it.
-/

namespace RossBot

open Lib

/-! ## What a session is made of -/

/-- The part of a symbol's state that a session builds up: all but the position and what the
reset puts in (`prev_close`). -/
def SymbolState.session (s : SymbolState) : SymbolState :=
  { s with position := none, prevClose := none }

/-- What a bar adds to a session. -/
def SymbolState.absorb (s : SymbolState) (bar : BarTick) : SymbolState :=
  let s := (s.readBar bar).1
  if bar.timeframe = "1m" then { s with barsOneMin := pushWindow 50 s.barsOneMin bar }
  else if bar.timeframe = "10s" then { s with barsTenSec := pushWindow 100 s.barsTenSec bar }
  else s

/-- What a fresh session makes of some bars. -/
def sessionOf (bars : List BarTick) : SymbolState := bars.foldl SymbolState.absorb .default

theorem sessionOf_snoc (bars : List BarTick) (b : BarTick) :
    sessionOf (bars ++ [b]) = (sessionOf bars).absorb b := foldl_snoc _ bars b

/-- Two states differ at most in their position. -/
def SameSession (a b : SymbolState) : Prop := a.session = b.session ∧ a.prevClose = b.prevClose

theorem SameSession.refl (a : SymbolState) : SameSession a a := ⟨rfl, rfl⟩

theorem SameSession.trans {a b c : SymbolState} (h : SameSession a b) (h' : SameSession b c) :
    SameSession a c := ⟨h.1.trans h'.1, h.2.trans h'.2⟩

theorem SameSession.position (a : SymbolState) (p : Option PositionSnapshot) :
    SameSession { a with position := p } a := ⟨rfl, rfl⟩

/-- `on_bar` absorbs the bar and leaves `prev_close` alone. -/
theorem SymbolState.session_onBar (cfg : Config) (s : SymbolState) (bar : BarTick)
    (scan : ScanResult) (l2 : L2Signal) (spread : ℚ) (state : MarketState) :
    (s.onBar cfg bar scan l2 spread state).1.session = s.session.absorb bar
      ∧ (s.onBar cfg bar scan l2 spread state).1.prevClose = s.prevClose := by
  have hread : (s.session.readBar bar).1 = (s.readBar bar).1.session := rfl
  have hprev : (s.readBar bar).1.prevClose = s.prevClose := rfl
  unfold SymbolState.absorb SymbolState.onBar
  rw [hread, ← hprev]
  generalize s.readBar bar = r
  obtain ⟨s', macdPt, ema9, vwap⟩ := r
  dsimp only
  -- what follows `read_bar` depends on the timeframe and on the position
  by_cases h1 : bar.timeframe = "1m"
  · rw [if_pos h1, if_pos h1]
    -- whatever the engine signals, the indicator state was written before
    cases s'.position with
    | none => exact ⟨rfl, rfl⟩
    | some p =>
        dsimp only
        split
        · exact ⟨rfl, rfl⟩
        · split <;> exact ⟨rfl, rfl⟩
  · rw [if_neg h1, if_neg h1]
    split <;> exact ⟨rfl, rfl⟩

theorem EmaState.update_ne_new (s : EmaState) (x : ℚ) (n : ℕ) : (s.update x).1 ≠ .new n := by
  intro h
  have hbuf := congrArg EmaState.buf h
  have hema := congrArg EmaState.ema h
  unfold EmaState.update at hbuf hema
  cases he : s.ema with
  | none =>
      rw [he] at hbuf
      dsimp only at hbuf
      split at hbuf <;> simp [EmaState.new] at hbuf
  | some v =>
      rw [he] at hema
      simp [EmaState.new] at hema

/-- A session that has absorbed a bar is not fresh. -/
theorem SymbolState.absorb_ne_default (s : SymbolState) (bar : BarTick) :
    s.absorb bar ≠ .default := by
  intro h
  have hema := congrArg SymbolState.ema9State h
  refine EmaState.update_ne_new s.ema9State bar.close.val 9 ?_
  rw [← show SymbolState.default.ema9State = EmaState.new 9 from rfl, ← hema]
  unfold SymbolState.absorb
  dsimp only
  split
  · rfl
  · split <;> rfl

/-! ## Reading the log, symbol by symbol -/

/-- The bar an event of the log hands to the engine, if it is of this symbol. -/
def ReplayEvent.handedTo (sym : Symbol) : ReplayEvent → Option ReplayBar
  | .handed e _ => if e.symbol = sym then some e else none
  | _ => none

/-- The bar that arrives, if it is of this symbol. -/
def ReplayEvent.arrivedFor (sym : Symbol) : ReplayEvent → Option ReplayBar
  | .arrived e => if e.symbol = sym then some e else none
  | _ => none

/-- The bars of a symbol that were handed to the engine. -/
def handedBars (sym : Symbol) (log : List ReplayEvent) : List ReplayBar :=
  log.filterMap (ReplayEvent.handedTo sym)

/-- The bars of a symbol that arrived. -/
def arrivedBars (sym : Symbol) (log : List ReplayEvent) : List ReplayBar :=
  log.filterMap (ReplayEvent.arrivedFor sym)

/-- The symbol's last bar, if any was handed to the engine, is of another date. -/
def FirstOfDate (log : List ReplayEvent) (e : ReplayBar) : Prop :=
  ∀ b, (handedBars e.symbol log).getLast? = some b → b.date ≠ e.date

/-- The symbol's own last bar of another date. -/
def lastOtherDay (log : List ReplayEvent) (e : ReplayBar) : Option ReplayBar :=
  ((arrivedBars e.symbol log).filter fun b => b.date ≠ e.date).getLast?

/-- **A bar is judged within its own session.** `state` is what the engine had for the symbol when
the bar was handed to it, `before` the log until then. -/
structure OwnSession (before : List ReplayEvent) (e : ReplayBar) (state : SymbolState) : Prop where
  /-- The first bar of a date meets a state that has been reset. -/
  fresh : FirstOfDate before e → state.session = .default
  /-- It meets the close of the symbol's own last bar of another date. -/
  prevClose : FirstOfDate before e → ∀ j, lastOtherDay before e = some j →
    state.prevClose = some j.bar.close.val
  /-- The session is made of the last bars of this symbol, all of this date. -/
  bars : ∃ bs, bs <:+ handedBars e.symbol before ∧ (∀ b ∈ bs, b.date = e.date)
    ∧ state.session = sessionOf (bs.map (·.bar))
  /-- The previous close is a price of this symbol. -/
  price : ∀ c, state.prevClose = some c → ∃ b ∈ arrivedBars e.symbol before,
    c = b.bar.openPrice.val ∨ c = b.bar.close.val

/-- What is checked at each event of the log. -/
def SessionAt (before : List ReplayEvent) : ReplayEvent → Prop
  | .handed e state => OwnSession before e state
  | _ => True

/-! ## The other events of the log -/

/-- Neither the arrival of a bar nor its handing over. -/
def ReplayEvent.aside : ReplayEvent → Bool
  | .arrived _ | .handed _ _ => false
  | _ => true

theorem handedBars_append (sym : Symbol) (l l' : List ReplayEvent) :
    handedBars sym (l ++ l') = handedBars sym l ++ handedBars sym l' := List.filterMap_append

theorem arrivedBars_append (sym : Symbol) (l l' : List ReplayEvent) :
    arrivedBars sym (l ++ l') = arrivedBars sym l ++ arrivedBars sym l' := List.filterMap_append

theorem handedBars_aside {sym : Symbol} {l : List ReplayEvent} (h : ∀ x ∈ l, x.aside = true) :
    handedBars sym l = [] := by
  unfold handedBars
  rw [List.filterMap_eq_nil_iff]
  intro x hx
  have := h x hx
  cases x <;> simp_all [ReplayEvent.aside, ReplayEvent.handedTo]

theorem arrivedBars_aside {sym : Symbol} {l : List ReplayEvent} (h : ∀ x ∈ l, x.aside = true) :
    arrivedBars sym l = [] := by
  unfold arrivedBars
  rw [List.filterMap_eq_nil_iff]
  intro x hx
  have := h x hx
  cases x <;> simp_all [ReplayEvent.aside, ReplayEvent.arrivedFor]

theorem sessionAt_aside {x : ReplayEvent} (h : x.aside = true) (before : List ReplayEvent) :
    SessionAt before x := by
  cases x with
  | handed => exact absurd h (by simp [ReplayEvent.aside])
  | _ => trivial

namespace Replay

variable {env : Backtest} {s s' : Replay} {e : ReplayBar}

/-! ## What one event does to the sessions -/

theorem sameSession_setState {g : StrategyEngine} {sym : Symbol} {a : SymbolState}
    (h : SameSession a (g sym)) (sym' : Symbol) : SameSession (g.setState sym a sym') (g sym') := by
  unfold StrategyEngine.setState
  split
  · rename_i hs; rw [hs]; exact h
  · exact .refl _

/-- Closing touches the position only. -/
theorem completeTrade_sessions (pos : OpenPosition) (x f : ℚ) (r : TradeExit) (sym : Symbol) :
    SameSession ((s.completeTrade env pos e x f r).engine sym) (s.engine sym) :=
  sameSession_setState (.position _ _) sym

theorem openPosition_sessions (sig : EntrySignal) (n : ℤ) (sym : Symbol) :
    SameSession ((s.openPosition env e sig n).engine sym) (s.engine sym) :=
  sameSession_setState (.position _ _) sym

theorem scaleOut_sessions (pos : OpenPosition) (stop : Option Money) (sym : Symbol) :
    SameSession ((s.scaleOut e pos stop).engine sym) (s.engine sym) := by
  unfold scaleOut
  split
  · exact .refl _
  · split
    · exact .refl _
    · exact sameSession_setState (.position _ _) sym

/-- Either the bar is not handed over, and no session changes; or it is, and the session of its
symbol absorbs it. -/
theorem Turn.sessions (h : Turn env s e s') :
    (¬ s.Hands env e ∧ ∃ post, s'.log = s.log ++ post ∧ (∀ x ∈ post, x.aside = true)
      ∧ ∀ sym, SameSession (s'.engine sym) (s.engine sym))
    ∨ (s.Hands env e ∧ ∃ post, s'.log = s.log ++ .handed e (s.engine e.symbol) :: post
      ∧ (∀ x ∈ post, x.aside = true)
      ∧ ∀ sym, SameSession (s'.engine sym) ((s.handBar env e).1.engine sym)) := by
  cases h with
  -- flattened or stopped out: the bar is never handed to the engine
  | eod hp heod =>
      refine Or.inl ⟨fun hh => absurd (heod.symm.trans (hh _ hp).1) (by simp), _, rfl, ?_,
        completeTrade_sessions _ _ _ _⟩
      simp [ReplayEvent.aside]
  | stop hp _ hlow =>
      refine Or.inl ⟨fun hh => absurd hlow (not_le.mpr (hh _ hp).2), _, rfl, ?_,
        completeTrade_sessions _ _ _ _⟩
      simp [ReplayEvent.aside]
  -- handed over; what is logged after it is no bar
  | quiet hh => exact Or.inr ⟨hh, [], rfl, by simp, fun _ => .refl _⟩
  | vetoed hh => exact Or.inr ⟨hh, [], rfl, by simp, fun _ => .refl _⟩
  | opened hh =>
      refine Or.inr ⟨hh, _, List.append_assoc .., ?_, openPosition_sessions _ _⟩
      simp [ReplayEvent.aside]
  | sold hh =>
      refine Or.inr ⟨hh, _, List.append_assoc .., ?_, completeTrade_sessions _ _ _ _⟩
      simp [ReplayEvent.aside]
  | scaled hh =>
      refine Or.inr ⟨hh, [], ?_, by simp, scaleOut_sessions _ _⟩
      unfold scaleOut
      dsimp only
      split <;> rfl

/-- The price the boundary resets a session with. -/
def boundaryClose (s : Replay) (e : ReplayBar) : ℚ :=
  match s.prevClose with
  | some c => c.val
  | none => e.bar.openPrice.val

variable (env s e) in
theorem flattenResidual_sessions :
    (∃ es, (s.flattenResidual env e).log = s.log ++ es ∧ ∀ x ∈ es, x.aside = true)
      ∧ (s.flattenResidual env e).prevClose = s.prevClose
      ∧ ∀ sym, SameSession ((s.flattenResidual env e).engine sym) (s.engine sym) := by
  unfold flattenResidual
  split
  · exact ⟨⟨_, rfl, by simp [ReplayEvent.aside]⟩, rfl, completeTrade_sessions _ _ _ _⟩
  · exact ⟨⟨[], by simp, by simp⟩, rfl, fun _ => .refl _⟩

theorem finaliseSimDay_log :
    ∃ es, s.finaliseSimDay.log = s.log ++ es ∧ ∀ x ∈ es, x.aside = true := by
  unfold finaliseSimDay
  split
  · exact ⟨[], by simp, by simp⟩
  · exact ⟨_, rfl, by simp [ReplayEvent.aside]⟩

variable (env s e) in
/-- A boundary resets the session of the bar's symbol, and no other. -/
theorem rollover_sessions (hd : s.currentDay ≠ some e.date) :
    (∃ es, (s.rollover env e).log = s.log ++ es ∧ ∀ x ∈ es, x.aside = true)
      ∧ (∀ sym, sym ≠ e.symbol → SameSession ((s.rollover env e).engine sym) (s.engine sym))
      ∧ ((s.rollover env e).engine e.symbol).session = .default
      ∧ ((s.rollover env e).engine e.symbol).prevClose = some (s.boundaryClose e) := by
  rw [rollover_of_new hd]
  obtain ⟨⟨es, hes, hq⟩, hprev, hsame⟩ := flattenResidual_sessions env s e
  obtain ⟨fs, hfs, hq'⟩ := finaliseSimDay_log (s := s.flattenResidual env e)
  have hself : ((s.flattenResidual env e).finaliseSimDay.startDay e).engine e.symbol
      = { SymbolState.default with prevClose := some (s.boundaryClose e) } := by
    show StrategyEngine.setState _ _ _ _ = _
    rw [StrategyEngine.setState_self, finaliseSimDay_prevClose, hprev]
    rfl
  refine ⟨⟨es ++ fs ++ [.dayStarted e.date], ?_, ?_⟩, ?_, ?_, ?_⟩
  · show (s.flattenResidual env e).finaliseSimDay.log ++ _ = _
    rw [hfs, hes]; simp
  · intro x hx
    simp only [List.mem_append, List.mem_singleton] at hx
    rcases hx with (hx | hx) | rfl
    · exact hq x hx
    · exact hq' x hx
    · rfl
  · -- the reset leaves the other symbols as they were
    intro sym hne
    have hother : ((s.flattenResidual env e).finaliseSimDay.startDay e).engine sym
        = (s.flattenResidual env e).engine sym := by
      show StrategyEngine.setState _ _ _ _ = _
      rw [StrategyEngine.setState_ne _ _ hne, finaliseSimDay_engine]
    rw [hother]
    exact hsame sym
  · rw [hself]; rfl
  · rw [hself]

/-- The bar will be handed over: at a boundary always, else unless it closes the position. -/
def WillHand (env : Backtest) (s : Replay) (e : ReplayBar) : Prop :=
  s.currentDay = some e.date → s.Hands env e

/-- The state the engine has for the bar's symbol when the bar is handed over. -/
structure Meets (s : Replay) (e : ReplayBar) (st : SymbolState) : Prop where
  same : s.currentDay = some e.date → SameSession st (s.engine e.symbol)
  new : s.currentDay ≠ some e.date →
    st.session = .default ∧ st.prevClose = some (s.boundaryClose e)

variable (env e) in
/--
**What one event does to the sessions.**

The bar is taken by an exit check, and no session changes; or it is handed over and
absorbed by its own symbol, after the reset if it begins a day. What else is logged is
no bar, so the bars handed over can be read off the log.
-/
theorem Agree.onEvent_sessions (h : s.Agree) :
    (¬ s.WillHand env e ∧ ∃ es, (s.onEvent env e).log = s.log ++ .arrived e :: es
      ∧ (∀ x ∈ es, x.aside = true)
      ∧ ∀ sym, SameSession ((s.onEvent env e).engine sym) (s.engine sym))
    ∨ (s.WillHand env e ∧ ∃ es es' st,
      (s.onEvent env e).log = s.log ++ .arrived e :: (es ++ .handed e st :: es')
      ∧ (∀ x ∈ es, x.aside = true) ∧ (∀ x ∈ es', x.aside = true) ∧ s.Meets e st
      ∧ ((s.onEvent env e).engine e.symbol).session = st.session.absorb e.bar
      ∧ ((s.onEvent env e).engine e.symbol).prevClose = st.prevClose
      ∧ ∀ sym, sym ≠ e.symbol → SameSession ((s.onEvent env e).engine sym) (s.engine sym)) := by
  have hturn := h.onEvent_turn env e
  have hlog : (s.onEvent env e).log = (((s.arrive e).rollover env e).onBar env e).log := rfl
  have heng : (s.onEvent env e).engine = (((s.arrive e).rollover env e).onBar env e).engine := rfl
  have harr : (s.arrive e).log = s.log ++ [.arrived e] := rfl
  -- whatever the state, the bar is absorbed into it
  have habs : ∀ t : Replay, ((t.handBar env e).1.engine e.symbol).session
        = (t.engine e.symbol).session.absorb e.bar
      ∧ ((t.handBar env e).1.engine e.symbol).prevClose = (t.engine e.symbol).prevClose := by
    intro t
    rw [handBar_engine_self]
    exact SymbolState.session_onBar ..
  rw [hlog, heng]
  generalize ((s.arrive e).rollover env e).onBar env e = t at hturn
  by_cases hd : s.currentDay = some e.date
  · -- the day goes on
    rw [rollover_of_same (show (s.arrive e).currentDay = some e.date from hd)] at hturn
    rcases hturn.sessions with ⟨hnot, post, hpost, hq, hsame⟩ | ⟨hh, post, hpost, hq, hsame⟩
    · -- an exit check took the bar
      refine Or.inl ⟨fun hw => hnot (hw hd), post, ?_, hq, hsame⟩
      rw [hpost, harr]; simp
    · refine Or.inr ⟨fun _ => hh, [], post, s.engine e.symbol, ?_, by simp, hq,
        ⟨fun _ => .refl _, fun hne => absurd hd hne⟩, ?_, ?_, ?_⟩
      · rw [hpost, harr, List.append_assoc]; rfl
      · rw [(hsame e.symbol).1]; exact (habs _).1
      · rw [(hsame e.symbol).2]; exact (habs _).2
      · intro sym hne
        have hsym := hsame sym
        rw [handBar_engine_ne hne] at hsym
        exact hsym
  · -- the boundary resets the bar's symbol, and the bar is handed over
    obtain ⟨⟨es, hes, hqes⟩, hother, hfresh, hclose⟩ :=
      rollover_sessions env (s.arrive e) e hd
    -- the boundary leaves nothing open, so no exit check takes the bar
    have hnone : ∀ pos, ((s.arrive e).rollover env e).openPos ≠ some pos := fun pos hp =>
      hd (h.arrive.rollover_openPos hp).1
    rcases hturn.sessions with ⟨hnot, -⟩ | ⟨hh, post, hpost, hq, hsame⟩
    · exact absurd (fun pos hp => absurd hp (hnone pos)) hnot
    · refine Or.inr ⟨fun hw => absurd hw hd, es, post,
        ((s.arrive e).rollover env e).engine e.symbol, ?_, hqes, hq,
        ⟨fun hw => absurd hw hd, fun _ => ⟨hfresh, hclose⟩⟩, ?_, ?_, ?_⟩
      · rw [hpost, hes, harr]; simp
      · rw [(hsame e.symbol).1]; exact (habs _).1
      · rw [(hsame e.symbol).2]; exact (habs _).2
      · intro sym hne
        have hsym := hsame sym
        rw [handBar_engine_ne hne] at hsym
        exact hsym.trans (hother sym hne)

/-! ## Where a session comes from -/

/-- The session of a symbol is what its last bar made of the one that bar met. -/
inductive Origin (log : List ReplayEvent) (sym : Symbol) (st : SymbolState) : Prop where
  | untouched : handedBars sym log = [] → st.session = .default → st.prevClose = none →
      Origin log sym st
  | fed {before after : List ReplayEvent} {b : ReplayBar} {met : SymbolState} :
      log = before ++ .handed b met :: after → b.symbol = sym → handedBars sym after = [] →
      b ∈ arrivedBars sym before → st.session = met.session.absorb b.bar →
      st.prevClose = met.prevClose → Origin log sym st

/-- Events that hand nothing over for the symbol leave its session where it is. -/
theorem Origin.grow {log ext : List ReplayEvent} {sym : Symbol} {st st' : SymbolState}
    (h : Origin log sym st) (hext : handedBars sym ext = []) (hs : SameSession st' st) :
    Origin (log ++ ext) sym st' := by
  cases h with
  | untouched hnone hsess hprev =>
      refine .untouched ?_ (hs.1.trans hsess) (hs.2.trans hprev)
      rw [handedBars_append, hnone, hext]; rfl
  | @fed before after b met hlog hsym hafter harr hsess hprev =>
      refine @Origin.fed _ _ _ before (after ++ ext) b met ?_ hsym ?_ harr
        (hs.1.trans hsess) (hs.2.trans hprev)
      · rw [hlog]; simp
      · rw [handedBars_append, hafter, hext]; rfl

/-- The loop keeps track of all sessions. -/
structure Tracks (s : Replay) : Prop where
  agree : s.Agree
  origin : ∀ sym, Origin s.log sym (s.engine sym)
  prevClose : s.prevClose = none → s.log = []

theorem tracks_start : Tracks start :=
  ⟨agree_start, fun _ => .untouched rfl rfl rfl, fun _ => rfl⟩

theorem handedBars_arrived (sym : Symbol) (b : ReplayBar) (l : List ReplayEvent) :
    handedBars sym (.arrived b :: l) = handedBars sym l := rfl

theorem handedBars_handed_ne {sym : Symbol} {b : ReplayBar} (st : SymbolState)
    (l : List ReplayEvent) (h : b.symbol ≠ sym) :
    handedBars sym (.handed b st :: l) = handedBars sym l := by
  simp [handedBars, ReplayEvent.handedTo, h]

theorem handedBars_handed (b : ReplayBar) (st : SymbolState) (l : List ReplayEvent) :
    handedBars b.symbol (.handed b st :: l) = b :: handedBars b.symbol l := by
  simp [handedBars, ReplayEvent.handedTo]

theorem arrivedBars_arrived (b : ReplayBar) (l : List ReplayEvent) :
    arrivedBars b.symbol (.arrived b :: l) = b :: arrivedBars b.symbol l := by
  simp [arrivedBars, ReplayEvent.arrivedFor]

theorem Tracks.onEvent (h : Tracks s) : Tracks (s.onEvent env e) := by
  refine ⟨h.agree.onEvent, ?_, fun hn => absurd hn (by simp [Replay.onEvent])⟩
  intro sym
  rcases h.agree.onEvent_sessions env e with
    ⟨-, es, hlog, hq, hsame⟩ | ⟨-, es, es', st, hlog, hq, hq', -, hsess, hprev, hother⟩
  · -- nothing was handed over
    rw [hlog]
    refine (h.origin sym).grow ?_ (hsame sym)
    rw [handedBars_arrived, handedBars_aside hq]
  · -- a bar was handed over, to its own symbol
    by_cases hsym : sym = e.symbol
    · subst hsym
      refine @Origin.fed _ _ _ (s.log ++ .arrived e :: es) es' e st ?_ rfl
        (handedBars_aside hq') ?_ hsess hprev
      · rw [hlog]; simp
      · rw [arrivedBars_append, arrivedBars_arrived]
        exact List.mem_append_right _ List.mem_cons_self
    · rw [hlog]
      refine (h.origin sym).grow ?_ (hother sym hsym)
      rw [handedBars_arrived, handedBars_append, handedBars_aside hq,
        handedBars_handed_ne st es' (Ne.symm hsym), handedBars_aside hq']
      rfl

/-! ## The exact condition -/

/-- What the stream must look like when a bar is handed over. -/
structure StartsOwnSession (s : Replay) (e : ReplayBar) : Prop where
  /-- The first bar of the symbol on a date, if the symbol has a bar of another date, is also the
  first of the stream on that date, and follows that bar's closing price. -/
  reset : FirstOfDate s.log e → ∀ j, lastOtherDay s.log e = some j →
    s.currentDay ≠ some e.date ∧ s.prevClose = some j.bar.close
  /-- Where the stream's day changes, the previous bar closed at a price of this symbol. -/
  price : s.currentDay ≠ some e.date → ∀ c, s.prevClose = some c →
    ∃ b ∈ arrivedBars e.symbol s.log ++ [e],
      c.val = b.bar.openPrice.val ∨ c.val = b.bar.close.val

variable {es : List ReplayEvent}

theorem handedBars_before (hq : ∀ x ∈ es, x.aside = true) :
    handedBars e.symbol (s.log ++ .arrived e :: es) = handedBars e.symbol s.log := by
  rw [handedBars_append, handedBars_arrived, handedBars_aside hq, List.append_nil]

theorem arrivedBars_before (hq : ∀ x ∈ es, x.aside = true) :
    arrivedBars e.symbol (s.log ++ .arrived e :: es) = arrivedBars e.symbol s.log ++ [e] := by
  rw [arrivedBars_append, arrivedBars_arrived, arrivedBars_aside hq]

theorem firstOfDate_before (hq : ∀ x ∈ es, x.aside = true) :
    FirstOfDate (s.log ++ .arrived e :: es) e ↔ FirstOfDate s.log e := by
  unfold FirstOfDate
  rw [handedBars_before hq]

theorem lastOtherDay_before (hq : ∀ x ∈ es, x.aside = true) :
    lastOtherDay (s.log ++ .arrived e :: es) e = lastOtherDay s.log e := by
  unfold lastOtherDay
  rw [arrivedBars_before hq, List.filter_append]
  simp

/--
**At a boundary the session is new; what is left to check is the closing price it starts
with.**

The reset gives the bar's symbol the stream's last close, or the bar's own open when
there is none. A symbol with bars of another date has to find its own close there, and
one without them a price of its own.
-/
theorem Tracks.own_iff_of_new (h : Tracks s) {st : SymbolState} (hm : s.Meets e st)
    (hd : s.currentDay ≠ some e.date) (hq : ∀ x ∈ es, x.aside = true) :
    OwnSession (s.log ++ .arrived e :: es) e st ↔ s.StartsOwnSession e := by
  obtain ⟨hfresh, hclose⟩ := hm.new hd
  have hval : ∀ c, s.prevClose = some c → st.prevClose = some c.val := by
    intro c hc
    rw [hclose, boundaryClose, hc]
  constructor
  · intro hown
    refine ⟨?_, ?_⟩
    · intro hfirst j hj
      refine ⟨hd, ?_⟩
      have hstc := hown.prevClose ((firstOfDate_before hq).mpr hfirst) j
        ((lastOtherDay_before hq).trans hj)
      cases hp : s.prevClose with
      | none =>
          -- nothing has arrived yet, so there is no earlier bar
          rw [lastOtherDay, h.prevClose hp] at hj
          exact absurd hj (by simp [arrivedBars])
      | some c =>
          rw [hval c hp] at hstc
          exact congrArg some (Money.ext (Option.some.inj hstc))
    · intro _ c hc
      obtain ⟨b, hb, hprice⟩ := hown.price c.val (hval c hc)
      rw [arrivedBars_before hq] at hb
      exact ⟨b, hb, hprice⟩
  · intro hstart
    refine ⟨fun _ => hfresh, ?_, ⟨[], List.nil_suffix, by simp, hfresh⟩, ?_⟩
    · -- the stream's last close is the symbol's own
      intro hfirst j hj
      have hprev := (hstart.reset ((firstOfDate_before hq).mp hfirst) j
        ((lastOtherDay_before hq).symm.trans hj)).2
      exact hval j.bar.close hprev
    · -- it starts from the stream's last close, or else from this bar's own open
      intro c hc
      rw [arrivedBars_before hq]
      cases hp : s.prevClose with
      | none =>
          rw [hclose, boundaryClose, hp] at hc
          refine ⟨e, List.mem_append_right _ (List.mem_singleton.mpr rfl), Or.inl ?_⟩
          exact (Option.some.inj hc).symm
      | some c' =>
          obtain ⟨b, hb, hprice⟩ := hstart.price hd c' hp
          rw [hval c' hp] at hc
          rw [← Option.some.inj hc]
          exact ⟨b, hb, hprice⟩

/-- Where the day goes on, the symbol's last bar is of that day, or the bar would have to start a
session of its own. -/
theorem StartsOwnSession.date_of_last (h : s.StartsOwnSession e) (hd : s.currentDay = some e.date)
    {b : ReplayBar} (hlast : (handedBars e.symbol s.log).getLast? = some b)
    (hmem : b ∈ arrivedBars e.symbol s.log) : b.date = e.date := by
  by_contra hne
  have hf : FirstOfDate s.log e := by
    intro b' hb'
    rw [← Option.some.inj (hlast.symm.trans hb')]
    exact hne
  have hfilter : b ∈ (arrivedBars e.symbol s.log).filter fun b => b.date ≠ e.date :=
    List.mem_filter.mpr ⟨hmem, by simpa using hne⟩
  cases hj : lastOtherDay s.log e with
  | none =>
      rw [lastOtherDay, List.getLast?_eq_none_iff] at hj
      rw [hj] at hfilter
      exact absurd hfilter (by simp)
  | some j => exact (h.reset hf j hj).1 hd

/--
**Within a day, a session goes on; it is its own if it did not begin on another date.**

The symbol's last bar of this date was judged within its own session, and this bar
adds itself to that. The symbol may have no bar of this date yet: the stream's reset
was for another symbol then, and its session is the one it was left with.
-/
theorem Tracks.own_iff_of_same (h : Tracks s) {st : SymbolState} (hm : s.Meets e st)
    (hd : s.currentDay = some e.date) (hq : ∀ x ∈ es, x.aside = true)
    (hbefore : EachAt SessionAt s.log) :
    OwnSession (s.log ++ .arrived e :: es) e st ↔ s.StartsOwnSession e := by
  have hsame := hm.same hd
  constructor
  · -- a first bar would meet a state that has absorbed another
    intro hown
    refine ⟨?_, fun hne => absurd hd hne⟩
    intro hfirst j hj
    exfalso
    have hf := (firstOfDate_before hq).mpr hfirst
    have hclose := hown.prevClose hf j ((lastOtherDay_before hq).trans hj)
    have hfresh := hown.fresh hf
    rw [hsame.1] at hfresh
    rw [hsame.2] at hclose
    cases h.origin e.symbol with
    | untouched _ _ hprev => exact absurd (hprev.symm.trans hclose) (by simp)
    | fed _ _ _ _ hsess _ => exact SymbolState.absorb_ne_default _ _ (hsess.symm.trans hfresh)
  · intro hstart
    cases h.origin e.symbol with
    | untouched hnone hsess hprev =>
        -- the symbol was never seen by the engine
        have hfresh : st.session = .default := hsame.1.trans hsess
        have hclose : st.prevClose = none := hsame.2.trans hprev
        refine ⟨fun _ => hfresh, ?_, ⟨[], List.nil_suffix, by simp, hfresh⟩, ?_⟩
        · intro hf j hj
          have hreset := hstart.reset ((firstOfDate_before hq).mp hf) j
            ((lastOtherDay_before hq).symm.trans hj)
          exact absurd hd hreset.1
        · intro c hc
          exact absurd (hclose.symm.trans hc) (by simp)
    | @fed before after b met hlog hsym hafter harr hsess hprev =>
        -- its last bar is of this date, or this bar would have to start a session of its own
        have hhanded : handedBars e.symbol s.log = handedBars e.symbol before ++ [b] := by
          rw [hlog, handedBars_append, ← hsym, handedBars_handed, hsym, hafter]
        have hmem : b ∈ arrivedBars e.symbol s.log := by
          rw [hlog, arrivedBars_append]
          exact List.mem_append_left _ harr
        have hlast : (handedBars e.symbol s.log).getLast? = some b := by
          rw [hhanded, List.getLast?_concat]
        have hdate : b.date = e.date := hstart.date_of_last hd hlast hmem
        -- it was judged within its own session, which this bar goes on with
        have hmet : OwnSession before b met := hbefore before _ after hlog
        have hnot : ¬ FirstOfDate (s.log ++ .arrived e :: es) e := by
          rw [firstOfDate_before hq]
          intro hf
          exact hf b hlast hdate
        refine ⟨fun hf => absurd hf hnot, fun hf => absurd hf hnot, ?_, ?_⟩
        · -- the bars of its session, and its last one
          obtain ⟨bs, hsuf, hdates, hbs⟩ := hmet.bars
          refine ⟨bs ++ [b], ?_, ?_, ?_⟩
          · rw [handedBars_before hq, hhanded]
            rw [hsym] at hsuf
            obtain ⟨rest, hrest⟩ := hsuf
            exact ⟨rest, by rw [← hrest]; simp⟩
          · intro b' hb'
            rcases List.mem_append.mp hb' with hb' | hb'
            · exact (hdates b' hb').trans hdate
            · rw [List.mem_singleton.mp hb']; exact hdate
          · rw [hsame.1, hsess, hbs, List.map_append, List.map_singleton, sessionOf_snoc]
        · intro c hc
          rw [hsame.2, hprev] at hc
          obtain ⟨b', hb', hprice⟩ := hmet.price c hc
          refine ⟨b', ?_, hprice⟩
          rw [arrivedBars_before hq, hlog, arrivedBars_append, ← hsym]
          exact List.mem_append_left _ (List.mem_append_left _ hb')

theorem Tracks.sessionAt_iff (h : Tracks s) (hbefore : EachAt SessionAt s.log) :
    EachAt SessionAt (s.onEvent env e).log ↔ (s.WillHand env e → s.StartsOwnSession e) := by
  -- only a bar that is handed over is checked
  have haside : ∀ {l : List ReplayEvent}, (∀ x ∈ l, x.aside = true) →
      ∀ x ∈ l, ∀ before, SessionAt before x := fun hl x hx => sessionAt_aside (hl x hx)
  have harr : ∀ {l : List ReplayEvent}, (∀ x ∈ l, x.aside = true) →
      EachAt SessionAt (s.log ++ .arrived e :: l) := by
    intro l hl
    refine hbefore.extend ?_
    intro x hx before
    rcases List.mem_cons.mp hx with rfl | hx
    · trivial
    · exact haside hl x hx before
  rcases h.agree.onEvent_sessions env e with
    ⟨hnot, es, hlog, hq, -⟩ | ⟨hw, es, es', st, hlog, hq, hq', hmeets, -⟩
  · -- nothing to check
    rw [hlog]
    exact iff_of_true (harr hq) fun hw => absurd hw hnot
  · -- one bar to check
    have hsplit : (s.onEvent env e).log
        = (s.log ++ .arrived e :: es) ++ .handed e st :: es' := by rw [hlog]; simp
    rw [hsplit, (harr hq).extend_iff (haside hq')]
    have hown : OwnSession (s.log ++ .arrived e :: es) e st ↔ s.StartsOwnSession e := by
      by_cases hd : s.currentDay = some e.date
      · exact h.own_iff_of_same hmeets hd hq hbefore
      · exact h.own_iff_of_new hmeets hd hq
    exact hown.trans ⟨fun hstart _ => hstart, fun hstart => hstart hw⟩

end Replay

/-- **Every bar is judged within its own session exactly when** each bar handed over that is its
symbol's first on a date, the symbol having bars of another, is also the stream's first on that
date and follows the symbol's own close; and each bar that changes the stream's day follows a
price of its own symbol. -/
theorem sessions_are_own_iff (env : Backtest) (events : List ReplayBar) :
    EachAt SessionAt (replayLoop env events).log
      ↔ ∀ m ∈ replayMoves env events,
          m.pre.WillHand env m.label → m.pre.StartsOwnSession m.label := by
  -- an event only adds to the log
  have hgrow : ∀ (s : Replay) (e : ReplayBar), s.Tracks → s.log <+: (s.onEvent env e).log := by
    intro s e h
    rcases h.agree.onEvent_sessions env e with
      ⟨-, es, hlog, -⟩ | ⟨-, es, es', st, hlog, -⟩
    · rw [hlog]; exact List.prefix_append ..
    · rw [hlog]; exact List.prefix_append ..
  have hloop := eachAt_foldl_iff Replay.log hgrow Replay.tracks_start (fun _ _ h => h.onEvent)
    (fun _ _ h hbefore => h.sessionAt_iff hbefore) events
  exact hloop.trans (and_iff_right eachAt_nil)

/-- Two symbols on two mornings, in the same order. -/
def twoMornings : List ReplayBar :=
  [candle "FIRST" openingBell 1000 1000 1000 1000 1000,
    candle "SECOND" (openingBell + 60) 2000 2000 2000 2000 1000,
    candle "FIRST" (openingBell + 86400) 1000 1000 1000 1000 1000,
    candle "SECOND" (openingBell + 86460) 2000 2000 2000 2000 1000]

/-- The last event of a log hands a first bar of a date to a session that has bars already. -/
def endsStale (log : List ReplayEvent) : Bool :=
  match log.getLast? with
  | some (.handed e state) => !state.barsOneMin.isEmpty
      && (handedBars e.symbol log.dropLast).all fun b => decide (b.date ≠ e.date)
  | _ => false

/-- The second symbol meets the second morning with the bars of the first. -/
theorem second_symbol_stale : ¬ EachAt SessionAt (replayLoop replayDay twoMornings).log := by
  intro h
  have hstale : endsStale (replayLoop replayDay twoMornings).log = true := by decide +kernel
  generalize (replayLoop replayDay twoMornings).log = log at h hstale
  unfold endsStale at hstale
  split at hstale
  · rename_i e state hlast
    obtain ⟨before, rfl⟩ := List.getLast?_eq_some_iff.mp hlast
    rw [List.dropLast_concat, Bool.and_eq_true, List.all_eq_true] at hstale
    have hown : OwnSession before e state := h before _ [] rfl
    have hfirst : FirstOfDate before e := fun b hb =>
      of_decide_eq_true (hstale.2 b (List.mem_of_getLast? hb))
    have hempty : state.barsOneMin = [] := congrArg SymbolState.barsOneMin (hown.fresh hfirst)
    rw [hempty] at hstale
    exact absurd hstale.1 (by simp)
  · exact absurd hstale (by simp)

end RossBot
