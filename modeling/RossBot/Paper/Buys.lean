import RossBot.Live.Buys
import RossBot.Paper.Exits

/-!
# What the paper session buys

The bar loop of `PaperSession` decides as the live one does, with no ramp and no
reconciliation, and every way out of a position records a P&L of zero. So its risk
manager never moves off the state of a fresh day but for the positions and their
number (`Known.idle`): the guards against a losing day stay open whatever is lost,
the ice-breaker cuts every size, and what ends the buying is the number of trades.
-/

namespace RossBot

open Lib

/-- A day that neither gained nor lost anything yet. -/
structure RiskState.Idle (s : RiskState) : Prop where
  pnl : s.realizedPnl = 0
  peak : s.peakPnl = 0
  streak : s.consecutiveLosses = 0

theorem RiskState.idle_fresh : RiskState.fresh.Idle := ⟨rfl, rfl, rfl⟩

theorem RiskState.Idle.recordOpen {s : RiskState} (h : s.Idle) (symbol : Symbol) (price : ℚ) :
    (s.recordOpen symbol price).Idle := ⟨h.pnl, h.peak, h.streak⟩

/-- A close that earned nothing leaves the day as it is. -/
theorem RiskState.Idle.recordClose {s : RiskState} (h : s.Idle) (cfg : Config) (symbol : Symbol) :
    (RiskState.recordClose cfg s symbol 0).Idle := by
  refine ⟨?_, ?_, ?_⟩
  · rw [realizedPnl_recordClose, h.pnl, add_zero]
  · rw [peakPnl_recordClose, h.pnl, h.peak, add_zero, max_self]
  · rw [consecutiveLosses_recordClose, if_neg (lt_irrefl 0)]

/-- Three strikes are out of reach of closes that lose nothing. -/
theorem RiskState.halted_recordClose_zero {s : RiskState} {cfg : Config} (symbol : Symbol)
    (h : s.halted = false) (hstrikes : 0 < cfg.threeStrikes) :
    (RiskState.recordClose cfg s symbol 0).halted = false := by
  rw [← Bool.not_eq_true, RiskState.halted_recordClose, consecutiveLosses_recordClose,
    if_neg (lt_irrefl 0), h]
  simpa using hstrikes

namespace Paper

/-- What `run` is told. -/
def Env.briefing (env : Env) : Briefing where
  cfg := env.cfg
  symbols := env.symbols
  scanResults := env.scanResults
  l2Signals := env.l2Signals
  marketState := env.marketState

/-! ## What a run buys -/

/-- The bar that a step judges. -/
def judgedBar (m : Move World Label) : Option BarTick :=
  match m.label, m.pre.barTask with
  | .barQuote (some _), .awaitQuote bar _ _ => some bar
  | _, _ => none

/-- The bars of a symbol that went through the strategy engine. -/
def barsOf (symbol : Symbol) (ms : List (Move World Label)) : List BarTick :=
  (ms.filterMap judgedBar).filter fun b => b.symbol = symbol

/-- The BUY that a step sends. -/
def sentBuy (m : Move World Label) : Option EntryOrder :=
  match m.label, m.post.barTask with
  | .barQuote _, .awaitEntryAck o _ .sent => some o
  | .barResume, .awaitEntryAck o _ .sent => some o
  | _, _ => none

/-- The BUY that a step makes a position of. -/
def openedBy (m : Move World Label) : Option EntryOrder :=
  match m.label, m.pre.barTask with
  | .barResume, .awaitEntryAck o _ (.answered (some ack)) => if ack.accepted then some o else none
  | _, _ => none

/-- The positions opened so far. -/
def opened (ms : List (Move World Label)) : List EntryOrder := ms.filterMap openedBy

/-- **What holds of a BUY when it is sent**: `ms` are the moves so far, its own included. -/
structure SoundBuy (env : Env) (ms : List (Move World Label)) (o : EntryOrder) : Prop where
  /-- Fewer positions have been opened than a day may have. -/
  trades : ((opened ms).length : ℤ) < env.cfg.maxTradesPerDay
  time : env.timeOfDay o.bar.ts ≤ env.cfg.hardStopTime
  /-- The bars alone call for it. -/
  called : ∃ chart, barsOf o.bar.symbol ms = chart ++ [o.bar]
    ∧ env.briefing.CallsFor chart o.bar o.signal ∧ env.briefing.ChartedEntry chart o.bar o.signal
  stop : o.signal.stopPrice.val < o.signal.entryPrice.val
  positive : 0 < o.shares
  icebreaker : o.shares ≤ max 1 ⌊(env.cfg.maxSize : ℚ) * env.cfg.icebreakerFraction⌋
  /-- The loss at the stop, counted from the price of the signal; the limit is `BUY_OFFSET` above. -/
  budget : env.cfg.sizingMode = .riskFormula →
    lossAtStop o.signal.entryPrice.val o.signal.stopPrice.val o.shares
      ≤ env.cfg.perTradeRiskDollars

namespace World

variable {env : Env} {w w' : World}

/-! ## The bar loop, segment by segment -/

/-- Where the loop over the signals of a bar is suspended. -/
inductive Ran (env : Env) (w : World) (bar : BarTick) (sigs : List Signal) : BarTask → Prop where
  | done : Ran env w bar sigs .awaitBar
  | buy (earlier : List Signal) {rest : List Signal} {sig : EntrySignal} {o : EntryOrder} :
      sigs = earlier ++ .entry sig :: rest → w.opens.contains bar.symbol = false →
      w.entryOrder env sig bar = some o → Ran env w bar sigs (.awaitEntryAck o rest .sent)
  | sell (earlier : List Signal) {rest : List Signal} {sig : Signal} {o : SellOrder} :
      sigs = earlier ++ sig :: rest → Ran env w bar sigs (.awaitExitAck o bar rest .sent)

theorem Ran.cons {bar : BarTick} {sigs : List Signal} {t : BarTask} (h : Ran env w bar sigs t)
    (sig : Signal) : Ran env w bar (sig :: sigs) t := by
  cases h with
  | done => exact .done
  | buy earlier hsigs hopen ho => exact .buy (sig :: earlier) (by rw [hsigs]; rfl) hopen ho
  | sell earlier hsigs => exact .sell (sig :: earlier) (by rw [hsigs]; rfl)

/-- Only the bar loop moves on, to one of these. -/
theorem runSignals_ran (env : Env) (w : World) (bar : BarTick) (sigs : List Signal) :
    ∃ t, runSignals env bar sigs w = { w with barTask := t } ∧ Ran env w bar sigs t := by
  induction sigs with
  | nil => exact ⟨_, rfl, .done⟩
  | cons sig rest ih =>
      obtain ⟨t, ht, hran⟩ := ih
      -- a signal that does nothing is passed over
      have on : ∃ t, runSignals env bar rest w = { w with barTask := t }
          ∧ Ran env w bar (sig :: rest) t := ⟨t, ht, hran.cons sig⟩
      cases sig with
      | entry sig =>
          unfold runSignals
          -- an entry: not when the symbol is held, nor when the gate or the size says no
          split
          · exact on
          · rename_i hopen
            split
            · exact on
            · rename_i order ho
              exact ⟨_, rfl, .buy [] rfl (by simpa using hopen) ho⟩
      | exit sig =>
          unfold runSignals
          -- an exit: a full one of a held symbol only
          split
          · split
            · split
              · exact on
              · exact ⟨_, rfl, .sell [] rfl⟩
            · exact on
          · exact on
      | failedPattern f =>
          unfold runSignals
          exact on

/-- What is known of the bar loop where it is suspended, with `n` positions opened so far: a bar
that waits for its quote is of a scanned symbol, a BUY was sent with room for it, and no signals are
left after an order. -/
def Suspended (env : Env) (n : ℕ) : BarTask → Prop
  | .awaitQuote bar scan l2 =>
      env.scanResults bar.symbol = some scan ∧ l2 = env.l2Signals bar.symbol
  | .awaitEntryAck _ rest _ => rest = [] ∧ (n : ℤ) < env.cfg.maxTradesPerDay
  | .awaitExitAck _ _ rest _ => rest = []
  | _ => True

/-- These segments move the bar loop on, and nothing else. -/
theorem takeBar_suspended {bar : BarTick} (n : ℕ) (h : takeBar env bar w = some w') :
    ∃ t, w' = { w with barTask := t } ∧ Suspended env n t := by
  unfold takeBar at h
  split at h
  · rename_i hb
    split at h
    · exact ⟨_, (Option.some.inj h).symm, trivial⟩
    · split at h
      · exact ⟨w.barTask, (Option.some.inj h).symm, by rw [hb]; trivial⟩
      · rename_i scan hscan
        exact ⟨_, (Option.some.inj h).symm, hscan, rfl⟩
  · exact absurd h (by simp)

theorem feedEnds_suspended (env : Env) {raises : Bool} (n : ℕ) (h : feedEnds raises w = some w') :
    ∃ t, w' = { w with barTask := t } ∧ Suspended env n t := by
  unfold feedEnds at h
  split at h
  · refine ⟨_, (Option.some.inj h).symm, ?_⟩
    split <;> trivial
  · exact absurd h (by simp)

theorem barAnswer_suspended {reply : Option OrderAck} {n : ℕ} (ht : Suspended env n w.barTask)
    (h : barAnswer reply w = some w') :
    ∃ t, w' = { w with barTask := t } ∧ Suspended env n t := by
  unfold barAnswer at h
  split at h
  · rename_i hb
    rw [hb] at ht
    exact ⟨_, (Option.some.inj h).symm, ht⟩
  · rename_i hb
    rw [hb] at ht
    exact ⟨_, (Option.some.inj h).symm, ht⟩
  · exact absurd h (by simp)

/-- A bar whose quote comes is judged, and its signals are gone through. -/
theorem barQuote_judges {quote : Option QuoteTick} {n : ℕ} (ht : Suspended env n w.barTask)
    (h : barQuote env quote w = some w') :
    (quote = none ∧ w' = { w with barTask := .raised })
      ∨ ∃ q bar scan l2 spread t, quote = some q ∧ w.barTask = .awaitQuote bar scan l2
        ∧ env.scanResults bar.symbol = some scan
        ∧ w' = { w with engine := (env.briefing.judge w.engine bar scan spread).1, barTask := t }
        ∧ Ran env { w with engine := (env.briefing.judge w.engine bar scan spread).1 } bar
          (env.briefing.judge w.engine bar scan spread).2 t := by
  unfold barQuote at h
  split at h
  · rename_i bar scan l2 hb
    rw [hb] at ht
    obtain ⟨hscan, rfl⟩ := ht
    -- no quote ends the loop: nothing catches the error
    cases quote with
    | none => exact Or.inl ⟨rfl, (Option.some.inj h).symm⟩
    | some q =>
        dsimp only at h
        -- judged, and then the signals are gone through
        obtain ⟨t, hrun, hran⟩ := runSignals_ran env
          { w with engine := (env.briefing.judge w.engine bar scan (q.ask.val - q.bid.val)).1 } bar
          (env.briefing.judge w.engine bar scan (q.ask.val - q.bid.val)).2
        exact Or.inr ⟨q, bar, scan, _, _, t, rfl, hb, hscan,
          (Option.some.inj h).symm.trans hrun, hran⟩
  · exact absurd h (by simp)

/-- With no signals left the bar loop resumes to open a position, to close one, or to do neither, and
goes back to its feed. -/
theorem barResume_suspended {n : ℕ} (ht : Suspended env n w.barTask)
    (h : barResume env w = some w') :
    (∃ o ack, w.barTask = .awaitEntryAck o [] (.answered (some ack)) ∧ ack.accepted = true
        ∧ w' = { w.openPosition o ack with barTask := .awaitBar })
      ∨ openedBy ⟨w, .barResume, w'⟩ = none ∧ ∃ t, (t = .awaitBar ∨ t = .raised)
        ∧ (w' = { w with barTask := t } ∨ ∃ symbol, w' = { w.retire env symbol with barTask := t }) := by
  unfold barResume at h
  split at h
  · -- a BUY was with the broker
    rename_i order rest reply hb
    rw [hb] at ht
    obtain ⟨rfl, -⟩ := ht
    cases reply with
    | none => exact Or.inr ⟨by rw [openedBy, hb], _, Or.inr rfl, Or.inl (Option.some.inj h).symm⟩
    | some ack =>
        dsimp only at h
        split at h
        · rename_i hack
          exact Or.inl ⟨order, ack, hb, hack, (Option.some.inj h).symm⟩
        · rename_i hack
          exact Or.inr ⟨by rw [openedBy, hb]; exact if_neg hack, _, Or.inl rfl,
            Or.inl (Option.some.inj h).symm⟩
  · -- a SELL was
    rename_i order bar rest reply hb
    rw [hb] at ht
    obtain rfl : rest = [] := ht
    have hnone : openedBy ⟨w, .barResume, w'⟩ = none := by rw [openedBy, hb]
    refine Or.inr ⟨hnone, ?_⟩
    cases reply with
    | none => exact ⟨_, Or.inr rfl, Or.inl (Option.some.inj h).symm⟩
    | some ack =>
        dsimp only at h
        split at h
        · cases hcon : w.opens.contains order.symbol with
          -- the position may be gone: another loop sold it, and the `KeyError` ends this one
          | true =>
              rw [remove_recordClose hcon] at h
              exact ⟨_, Or.inl rfl, Or.inr ⟨_, (Option.some.inj h).symm⟩⟩
          | false =>
              obtain ⟨hnone, hsame⟩ := recordClose_of_untracked env hcon
              rw [hnone, hsame] at h
              exact ⟨_, Or.inr rfl, Or.inr ⟨_, (Option.some.inj h).symm⟩⟩
        · exact ⟨_, Or.inl rfl, Or.inl (Option.some.inj h).symm⟩
  · exact absurd h (by simp)

/-! ## The other loops -/

/-- Some symbols are recorded closed, and the bar loop stays where it is. -/
structure Closed (env : Env) (w w' : World) : Prop where
  closes : ∃ ks : List Symbol, w'.engine = (ks.foldl (recordClose env) w).engine
    ∧ w'.risk = (ks.foldl (recordClose env) w).risk
  barTask : w'.barTask = w.barTask

theorem Closed.aside (he : w'.engine = w.engine) (hr : w'.risk = w.risk)
    (hb : w'.barTask = w.barTask) : Closed env w w' := ⟨⟨[], he, hr⟩, hb⟩

theorem Closed.nextStop {u : World} (h : Closed env w u) (rest : List (Symbol × LivePosition)) :
    Closed env w (nextStop rest u) := by
  obtain ⟨t, ht⟩ := nextStop_footprint u rest
  rw [ht]
  exact ⟨h.closes, h.barTask⟩

theorem closed_retire (w : World) (symbol : Symbol) : Closed env w (w.retire env symbol) :=
  ⟨⟨[symbol], rfl, rfl⟩, rfl⟩

theorem closed_closeAll (w : World) : Closed env w (closeAll env w) := by
  refine ⟨⟨w.opens.keys, rfl, rfl⟩, ?_⟩
  exact foldl_invariant (f := recordClose env) (I := fun u : World => u.barTask = w.barTask) rfl
    (fun _ _ h => h) w.opens.keys

/-- The other loops close positions, and nothing more. -/
theorem closed_of_other {l : Label} (hs : step env w l = some w') (hl : l.ofBarLoop = false) :
    Closed env w w' := by
  have aside : Closed env w w := .aside rfl rfl rfl
  cases step_stepped hs with
  | barMoved hbar => exact absurd (hl.symm.trans hbar) (by simp)
  | judged | opened | exited => exact absurd hl (by simp [Label.ofBarLoop])
  | polled | passed | sellRaised => exact aside.nextStop _
  | stoppedOut => exact (closed_retire w _).nextStop _
  | flattened => exact ⟨(closed_closeAll w).closes, (closed_closeAll w).barTask⟩
  | _ => exact .aside rfl rfl rfl

/-! ## Orders -/

/-- An order is an approved signal: it passed the gate, and its size is not zero. -/
theorem entryOrder_some {sig : EntrySignal} {bar : BarTick} {o : EntryOrder}
    (h : w.entryOrder env sig bar = some o) :
    o.signal = sig ∧ o.bar = bar ∧ 0 < o.shares
      ∧ o.shares = computeSize sig w.risk env.cfg sig.marketState (env.dayOfWeek bar.ts) none
      ∧ PassesGate sig w.risk env.cfg (env.timeOfDay bar.ts) env.equity false := by
  unfold entryOrder at h
  dsimp only at h
  split at h
  · exact absurd h (by simp)
  · rename_i happ
    obtain ⟨hgate, hshares, hpos⟩ := RiskState.evaluate_approved (by simpa using happ)
    rw [← Option.some.inj h]
    exact ⟨rfl, rfl, hpos, hshares, hgate⟩

/-- The one signal of a bar leaves none behind it. -/
theorem Ran.suspended {bar : BarTick} {sigs : List Signal} {t : BarTask} {n : ℕ}
    (h : Ran env w bar sigs t) (hone : sigs.length ≤ 1) (hn : w.risk.tradesToday = n) :
    Suspended env n t := by
  have hlast : ∀ earlier rest (sig : Signal), sigs = earlier ++ sig :: rest → rest = [] := by
    intro earlier rest sig hsigs
    rw [hsigs, List.length_append, List.length_cons] at hone
    exact List.eq_nil_of_length_eq_zero (by omega)
  cases h with
  | done => trivial
  | buy earlier hsigs _ ho =>
      obtain ⟨-, -, -, -, hgate⟩ := entryOrder_some ho
      exact ⟨hlast earlier _ _ hsigs, hn ▸ hgate.trades⟩
  | sell earlier hsigs => exact hlast earlier _ _ hsigs

/-! ## What is known of a run -/

/-- **What the session knows after the moves `ms`.** -/
structure Known (env : Env) (ms : List (Move World Label)) (w : World) : Prop where
  /-- The risk manager heard of no gain and of no loss. -/
  idle : w.risk.Idle
  halted : 0 < env.cfg.threeStrikes → w.risk.halted = false
  /-- It counted what was opened. -/
  trades : w.risk.tradesToday = (opened ms).length
  le : ((opened ms).length : ℤ) ≤ max 0 env.cfg.maxTradesPerDay
  task : Suspended env (opened ms).length w.barTask
  /-- The engine reads the charts of the moves. -/
  reads : env.briefing.Reads w.engine fun s => barsOf s ms

theorem known_init : Known env [] (init env) where
  idle := RiskState.idle_fresh
  halted := fun _ => rfl
  trades := rfl
  le := by simp [opened]
  task := trivial
  reads := by
    have hstart : (init env).engine = env.briefing.refed [] :=
      (Briefing.refed_nil env.briefing).symm
    rw [hstart]
    exact .start

theorem opened_snoc (ms : List (Move World Label)) (m : Move World Label) :
    opened (ms ++ [m]) = opened ms ++ (openedBy m).toList := by
  rw [opened, List.filterMap_append, ← opened]
  cases h : openedBy m <;> simp [h]

theorem barsOf_snoc (s : Symbol) (ms : List (Move World Label)) (m : Move World Label) :
    barsOf s (ms ++ [m]) = barsOf s ms ++ (judgedBar m).toList.filter fun b => b.symbol = s := by
  rw [barsOf, List.filterMap_append, List.filter_append, ← barsOf]
  cases h : judgedBar m <;> simp [h]

/-- A move that judges nothing and opens nothing adds nothing to know. -/
theorem Known.aside {ms : List (Move World Label)} {m : Move World Label} (h : Known env ms w)
    (hc : ∃ ks : List Symbol, w'.engine = (ks.foldl (recordClose env) w).engine
      ∧ w'.risk = (ks.foldl (recordClose env) w).risk)
    (ht : Suspended env (opened ms).length w'.barTask) (hj : judgedBar m = none)
    (ho : openedBy m = none) : Known env (ms ++ [m]) w' := by
  obtain ⟨ks, he, hr⟩ := hc
  have hopened : opened (ms ++ [m]) = opened ms := by
    rw [opened_snoc, ho]
    exact List.append_nil _
  have hbars : ∀ s, barsOf s (ms ++ [m]) = barsOf s ms := by
    intro s
    rw [barsOf_snoc, hj]
    exact List.append_nil _
  -- closing records a profit of nothing, however many symbols are closed
  have hclosed := foldl_invariant (f := recordClose env) (I := fun u : World => u.risk.Idle
      ∧ (0 < env.cfg.threeStrikes → u.risk.halted = false)
      ∧ u.risk.tradesToday = w.risk.tradesToday
      ∧ env.briefing.Reads u.engine fun s => barsOf s ms)
    ⟨h.idle, h.halted, rfl, h.reads⟩
    (fun u s hu => ⟨hu.1.recordClose _ _,
      fun hstrikes => RiskState.halted_recordClose_zero s (hu.2.1 hstrikes) hstrikes, hu.2.2.1,
      hu.2.2.2.setPosition s none⟩) ks
  obtain ⟨hidle, hhalted, htrades, hreads⟩ := hclosed
  exact
    { idle := hr ▸ hidle
      halted := hr ▸ hhalted
      trades := by rw [hr, htrades, h.trades, hopened]
      le := hopened ▸ h.le
      task := hopened ▸ ht
      reads := by simpa only [he, hbars] using hreads }

/-- A judged bar is the last of its symbol's chart. -/
theorem Known.judged {ms : List (Move World Label)} {q : QuoteTick} {bar : BarTick}
    {scan : ScanResult} {l2 : L2Signal} {spread : ℚ} {t : BarTask} (h : Known env ms w)
    (hb : w.barTask = .awaitQuote bar scan l2) (hscan : env.scanResults bar.symbol = some scan)
    (hran : Ran env { w with engine := (env.briefing.judge w.engine bar scan spread).1 } bar
      (env.briefing.judge w.engine bar scan spread).2 t) :
    Known env (ms ++ [⟨w, .barQuote (some q), { w with
        engine := (env.briefing.judge w.engine bar scan spread).1, barTask := t }⟩])
      { w with engine := (env.briefing.judge w.engine bar scan spread).1, barTask := t } := by
  have hopened : ∀ w', opened (ms ++ [⟨w, .barQuote (some q), w'⟩]) = opened ms := by
    intro w'
    rw [opened_snoc]
    exact List.append_nil _
  have hbars : ∀ w' s, barsOf s (ms ++ [⟨w, .barQuote (some q), w'⟩])
      = barsOf s ms ++ [bar].filter fun b => b.symbol = s := by
    intro w' s
    rw [barsOf_snoc, judgedBar, hb]
    rfl
  exact
    { idle := h.idle
      halted := h.halted
      trades := by rw [hopened]; exact h.trades
      le := by rw [hopened]; exact h.le
      task := by
        rw [hopened]
        -- the gate that approves a size looks at the counter of trades
        exact hran.suspended (Briefing.length_judge_le ..) h.trades
      reads := by
        refine h.reads.judge hscan ?_ fun s hs => ?_
        · rw [hbars, List.filter_cons_of_pos (by simp), List.filter_nil]
        · rw [hbars, List.filter_cons_of_neg (by simpa using Ne.symm hs), List.filter_nil,
            List.append_nil] }

/-- An accepted BUY is one more position, and there was room for it. -/
theorem Known.opened {ms : List (Move World Label)} {o : EntryOrder} {ack : OrderAck}
    (h : Known env ms w) (hb : w.barTask = .awaitEntryAck o [] (.answered (some ack)))
    (hack : ack.accepted = true) :
    Known env (ms ++ [⟨w, .barResume, { w.openPosition o ack with barTask := .awaitBar }⟩])
      { w.openPosition o ack with barTask := .awaitBar } := by
  have hopened : ∀ w', Paper.opened (ms ++ [⟨w, .barResume, w'⟩]) = Paper.opened ms ++ [o] := by
    intro w'
    rw [opened_snoc, openedBy, hb]
    simp [hack]
  have hbars : ∀ w' s, barsOf s (ms ++ [⟨w, .barResume, w'⟩]) = barsOf s ms := by
    intro w' s
    rw [barsOf_snoc]
    exact List.append_nil _
  have htask := h.task
  rw [hb] at htask
  have htrades := h.trades
  exact
    { idle := h.idle.recordOpen _ _
      halted := h.halted
      trades := by
        rw [hopened, List.length_append, List.length_singleton]
        change w.risk.tradesToday + 1 = _
        push_cast
        omega
      le := by
        rw [hopened, List.length_append, List.length_singleton]
        -- the order was gated when there was room for one more, and nothing was opened since
        have := htask.2
        push_cast
        omega
      task := trivial
      reads := by
        simp only [hbars]
        exact h.reads.setPosition _ _ }

/--
**Preserved by every step.**

Each way of closing a position records a profit of zero, so the risk manager's day
stays idle; it counts what an accepted BUY opens, and the BUY in flight was gated when
there was room for it. A judged bar goes on its symbol's chart.
-/
theorem known_step {l : Label} {ms : List (Move World Label)} (h : Known env ms w)
    (hs : step env w l = some w') : Known env (ms ++ [⟨w, l, w'⟩]) w' := by
  cases hl : l.ofBarLoop with
  | false =>
      -- the other loops close at most
      have hc := closed_of_other hs hl
      refine h.aside hc.closes (hc.barTask ▸ h.task) ?_ ?_
      · cases l with
        | barQuote => exact absurd hl (by simp [Label.ofBarLoop])
        | _ => rfl
      · cases l with
        | barResume => exact absurd hl (by simp [Label.ofBarLoop])
        | _ => rfl
  | true =>
      cases l with
      | takeBar bar =>
          -- waiting or ending closes nothing
          obtain ⟨t, rfl, ht⟩ := takeBar_suspended (opened ms).length (task_some hs)
          exact h.aside ⟨[], rfl, rfl⟩ ht rfl rfl
      | feedEnds raises =>
          obtain ⟨t, rfl, ht⟩ := feedEnds_suspended env (opened ms).length (task_some hs)
          exact h.aside ⟨[], rfl, rfl⟩ ht rfl rfl
      | barAnswer reply =>
          obtain ⟨t, rfl, ht⟩ := barAnswer_suspended h.task hs
          exact h.aside ⟨[], rfl, rfl⟩ ht rfl rfl
      | barQuote quote =>
          rcases barQuote_judges h.task (task_some hs) with
            ⟨rfl, rfl⟩ | ⟨q, bar, scan, l2, spread, t, rfl, hb, hscan, rfl, hran⟩
          · -- the quote did not come: nothing was judged
            exact h.aside ⟨[], rfl, rfl⟩ trivial rfl rfl
          · exact h.judged hb hscan hran
      | barResume =>
          rcases barResume_suspended h.task (task_some hs) with
            ⟨o, ack, hb, hack, rfl⟩ | ⟨ho, t, ht, rfl | ⟨symbol, rfl⟩⟩
          · exact h.opened hb hack
          · -- not accepted, or an exit that raised
            refine h.aside ⟨[], rfl, rfl⟩ ?_ rfl ho
            rcases ht with rfl | rfl <;> trivial
          · -- an exit closes its symbol
            refine h.aside ⟨[symbol], rfl, rfl⟩ ?_ rfl ho
            rcases ht with rfl | rfl <;> trivial
      | _ => exact absurd hl (by simp [Label.ofBarLoop])

theorem known_run {ms : List (Move World Label)} (h : Run (step env) (init env) ms w) :
    Known env ms w :=
  h.history_of (C := fun _ => True) known_init (fun _ _ _ _ hi hs _ => known_step hi hs)
    fun _ _ => trivial

/-! ## Every BUY -/

/-- **An order that is made of an entry signal is a sound one.** -/
theorem sound_of_order (hcfg : SoundConfig env.cfg) {ms : List (Move World Label)}
    {m : Move World Label} {bar : BarTick} {scan : ScanResult} {spread : ℚ} {sig : EntrySignal}
    {o : EntryOrder} (h : Known env ms w) (hscan : env.scanResults bar.symbol = some scan)
    (hsig : .entry sig ∈ (env.briefing.judge w.engine bar scan spread).2)
    (horder : w.entryOrder env sig bar = some o) (hjudged : judgedBar m = some bar)
    (hopens : openedBy m = none) : SoundBuy env (ms ++ [m]) o := by
  obtain ⟨rfl, rfl, hpos, hcompute, hgate⟩ := entryOrder_some horder
  have hchart : barsOf o.bar.symbol (ms ++ [m]) = barsOf o.bar.symbol ms ++ [o.bar] := by
    rw [barsOf_snoc, hjudged]
    simp
  have hopened : Paper.opened (ms ++ [m]) = Paper.opened ms := by
    rw [opened_snoc, hopens]
    exact List.append_nil _
  -- the bars the session judged are those the engine knows
  have hcalled := h.reads.callsFor hscan hsig
  have hentry := hcalled.charted fun c hc => by simpa using (List.mem_filter.mp hc).2
  have hwithin := sizedWithin_computeSize
    ⟨hcfg.monday, hcfg.friday, hcfg.cold, hentry.conviction⟩ (hcompute ▸ hpos)
  -- the shares are what `compute_size` says
  rw [← hcompute] at hwithin
  refine
    { trades := by rw [hopened, ← h.trades]; exact hgate.trades
      time := hgate.time
      called := ⟨_, hchart, hcalled, hentry⟩
      stop := EntrySignal.stop_lt_entry (lt_of_lt_of_le hcfg.ratio hgate.ratio)
      positive := hpos
      icebreaker := hwithin.icebreaker h.idle.pnl.le
      budget := fun hmode => ?_ }
  rw [lossAtStop, mul_comm]
  exact hwithin.budget hmode

/-- **A BUY that is sent is a sound one.** -/
theorem sound_of_sent (hcfg : SoundConfig env.cfg) {ms : List (Move World Label)} {l : Label}
    {o : EntryOrder} (h : Known env ms w) (hs : step env w l = some w')
    (ho : sentBuy ⟨w, l, w'⟩ = some o) : SoundBuy env (ms ++ [⟨w, l, w'⟩]) o := by
  cases l with
  | barQuote quote =>
      rcases barQuote_judges h.task (task_some hs) with
        ⟨rfl, rfl⟩ | ⟨q, bar, scan, l2, spread, t, rfl, hb, hscan, rfl, hran⟩
      · exact absurd ho (by simp [sentBuy])
      · cases hran with
        | done | sell => exact absurd ho (by simp [sentBuy])
        | buy _ hsigs _ horder =>
            obtain rfl := Option.some.inj ho
            have hsig := hsigs ▸ List.mem_append_right _ List.mem_cons_self
            exact sound_of_order hcfg h hscan hsig horder (by rw [judgedBar, hb]) rfl
  | barResume =>
      -- no signals are left to make a BUY of
      rcases barResume_suspended h.task (task_some hs) with
        ⟨o', ack, hb, hack, rfl⟩ | ⟨-, t, rfl | rfl, rfl | ⟨symbol, rfl⟩⟩
      all_goals exact absurd ho (by simp [sentBuy])
  | _ => exact absurd ho (by simp [sentBuy])

end World

/-- **What ends a paper day's buying is its number of trades, and nothing it loses.** After the moves
`ms` of any run, at most `MAX_TRADES_PER_DAY` positions were opened, the risk manager counted them
all, and whatever the closed ones lost, no entry is vetoed for a halt, the daily loss, the give-back
or three strikes, and neither monitor asks for a halt. -/
theorem paper_lossGuards_idle {env : Env} (hstrikes : 0 < env.cfg.threeStrikes)
    (hlimit : 0 < effectiveLossLimit env.cfg env.equity env.cfg.avgWinDayPnl) (x : PaperRun env)
    (ms : List (Move World Label)) (w : World) (h : x.Passes ms w) :
    w.risk.tradesToday = (opened ms).length
      ∧ ((opened ms).length : ℤ) ≤ max 0 env.cfg.maxTradesPerDay
      ∧ (∀ sig time skip v, v ∈ evaluatePreTrade sig w.risk env.cfg time env.equity skip →
        v ≠ .halted ∧ v ≠ .dailyLossLimit ∧ v ≠ .giveBackHard ∧ v ≠ .threeStrikes)
      ∧ RiskState.checkDailyLoss env.cfg w.risk env.equity = false
      ∧ RiskState.checkGiveBack env.cfg w.risk ≠ .halt := by
  have hk := World.known_run h.2
  obtain ⟨hpnl, hpeak, hstreak⟩ := hk.idle
  have hhalted := hk.halted hstrikes
  -- nothing was lost on paper, so no limit is reached
  have hlimit' : ¬ w.risk.realizedPnl
      ≤ -effectiveLossLimit env.cfg env.equity env.cfg.avgWinDayPnl := by
    rw [hpnl]
    linarith
  have hpeak' : ¬ 0 < w.risk.peakPnl := by rw [hpeak]; exact lt_irrefl 0
  have hstreak' : ¬ env.cfg.threeStrikes ≤ w.risk.consecutiveLosses := by
    rw [hstreak]
    exact not_le.mpr hstrikes
  refine ⟨hk.trades, hk.le, ?_, decide_eq_false hlimit', ?_⟩
  · intro sig time skip v hv
    rw [evaluatePreTrade, if_neg (by simp [hhalted])] at hv
    simp only [List.mem_append, mem_vetoWhen, decide_eq_true_eq, Bool.and_eq_true, hlimit', hpeak',
      hstreak', false_and, or_false] at hv
    rcases hv with (((((⟨-, rfl⟩ | ⟨-, rfl⟩) | ⟨-, rfl⟩) | ⟨-, rfl⟩) | ⟨-, rfl⟩) | ⟨-, rfl⟩)
    all_goals decide
  · rw [RiskState.checkGiveBack, ne_eq, evaluateGiveBack_eq_halt]
    exact fun h => hpeak' h.1

/-- The breakout is bought, and stopped out far below. -/
def stoppedOut : PaperRun paperDay :=
  playPaper (breakoutBought ++ [.tick 2100, .stopWake, .stopQuote (bidAsk 900 905),
    .stopAnswer acceptedAck, .stopResume])

/-- The position is gone, and so is a good part of the account; another one could be opened. -/
theorem paper_lossGuards_idle_stoppedOut :
    stoppedOut.final.opens.items.length = 0 ∧ (opened stoppedOut.moves).length = 1
      ∧ RiskState.checkDailyLoss paperDay.cfg stoppedOut.final.risk paperDay.equity = false :=
  ⟨by decide +kernel, by decide +kernel,
    (paper_lossGuards_idle (by decide) (by decide +kernel) stoppedOut _ _
      stoppedOut.passes_final).2.2.2.1⟩

end Paper

end RossBot
