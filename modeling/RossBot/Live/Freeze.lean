import RossBot.Live.Book

/-!
# Freezing and thawing

`_feed_watchdog_loop` judges the feed by the age of the last bar. Two things are
asked of it. An entry is sent only while the session is not frozen, and after a
freeze only once positions have been reconciled (the module header: "On
reconnect: reconcile positions before resuming any new entries"); but the bar
loop tests `_frozen` before it waits for a quote and sends the entry after, and
the watchdog thaws without asking the reconcile loop. And a healthy feed is never
frozen; but the bars are one-minute bars and the threshold is five seconds.
-/

namespace RossBot

open Lib World

/-! ## Entries and the freeze -/

/-- What one event does to the duty to reconcile. -/
def dueStep (due : Bool) : Event → Bool
  | .froze => true
  | .reconciled => false
  | _ => due

/-- The session was frozen, and no reconciliation has completed since. -/
def reconcileDue (log : List Event) : Bool := log.foldl dueStep false

/-- **Every entry is sent by a session that is not frozen and has reconciled since it last was.** -/
def EntriesGated {env : Env} (x : LiveRun env) : Prop :=
  ∀ m ∈ x.moves, ∀ o, .buySubmitted o ∈ recorded m →
    m.pre.frozen = false ∧ reconcileDue m.pre.log = false

/-- The watchdog finds the feed stale while the bar loop waits for a quote, or thaws the session
while a reconciliation is due. -/
def losesGate (env : Env) (m : Move World Label) : Bool :=
  match m.label, m.pre.watchdogTask with
  | .watchdogWake, .sleeping _ =>
      if m.pre.stale env then
        match m.pre.barTask with
        | .awaitQuote .. => true
        | _ => false
      else m.pre.frozen && reconcileDue m.pre.log
  | _, _ => false

/-- An unfrozen session has reconciled, and a bar is only judged by an unfrozen session. -/
structure GateInv (w : World) : Prop where
  reconciled : w.frozen = false → reconcileDue w.log = false
  judging : ∀ {bar scan l2}, w.barTask = .awaitQuote bar scan l2 → w.frozen = false

namespace World

variable {env : Env} {w w' : World}

/-- Only a freeze makes a reconciliation due. -/
theorem reconcileDue_append {log es : List Event} (h : ∀ e ∈ es, e ≠ .froze)
    (hdue : reconcileDue log = false) : reconcileDue (log ++ es) = false := by
  induction es using List.reverseRecOn with
  | nil => rw [List.append_nil]; exact hdue
  | append_singleton es e ih =>
      have hes := ih fun e he => h e (List.mem_append_left _ he)
      have he := h e (List.mem_append_right _ (List.mem_singleton.mpr rfl))
      have hstep : reconcileDue (log ++ es ++ [e]) = dueStep (reconcileDue (log ++ es)) e := by
        rw [reconcileDue, List.foldl_append]; rfl
      rw [← List.append_assoc, hstep, hes]
      cases e with
      | froze => exact absurd rfl he
      | _ => rfl

theorem gateInv_init : GateInv (init env) := ⟨fun _ => rfl, fun h => absurd h (by simp [init])⟩

/-- A bar is only waiting for its quote after it was taken by an unfrozen session. -/
theorem awaitQuote_step {l : Label} (hr : Reached env w) (hs : step env w l = some w')
    {bar : BarTick} {scan : ScanResult} {l2 : L2Signal} (hb : w'.barTask = .awaitQuote bar scan l2) :
    w.barTask = .awaitQuote bar scan l2
      ∨ (l = .takeBar bar ∧ w.frozen = false ∧ w.barTask = .awaitBar) := by
  have hf := hr.footprint hs
  by_cases hw : .barTask ∈ l.writes
  · -- only `takeBar` begins to wait for a quote, and only when not frozen
    cases l with
    | takeBar bar' =>
        obtain ⟨hb0, ⟨-, rfl⟩ | ⟨-, -, rfl⟩ | ⟨scan', -, hfr, -, rfl⟩⟩ :=
          takeBar_cases (task_some hs).2
        · exact absurd hb (by simp)
        · exact absurd (hb0.symm.trans hb) (by simp)
        · obtain ⟨rfl, -, -⟩ := BarTask.awaitQuote.inj hb
          exact Or.inr ⟨rfl, hfr, hb0⟩
    | feedEnds =>
        obtain ⟨-, rfl⟩ := feedEnds_cases (task_some hs).2
        exact absurd hb (by simp)
    | barQuote quote =>
        obtain ⟨_, _, _, -, ⟨-, rfl⟩ | ⟨-, hj⟩⟩ := barQuote_cases (task_some hs).2
        · exact absurd hb (by simp)
        · cases hj <;> exact absurd hb (by simp)
    | barResume =>
        cases barResume_cases (noRest_reached hr) (task_some hs).2 <;> exact absurd hb (by simp)
    | barAnswer reply filled =>
        obtain ⟨_, _, -, -, -, rfl⟩ | ⟨_, _, _, -, -, -, rfl⟩ := barAnswer_cases hs
        · exact absurd hb (by simp)
        · exact absurd hb (by simp)
    | _ => simp [Label.writes] at hw
  · -- the bar loop was not moved
    have hsame : w'.barTask = w.barTask := hf.same .barTask hw
    exact Or.inl (hsame ▸ hb)

/-- **Preserved by every step that does not lose the gate.** -/
theorem gateInv_step {l : Label} (hr : Reached env w) (h : GateInv w)
    (hs : step env w l = some w') (hc : losesGate env ⟨w, l, w'⟩ = false) : GateInv w' := by
  obtain ⟨es, hlog, hes⟩ := (hr.footprint hs).log
  by_cases hfz : .frozen ∈ l.writes
  · cases l with
    | watchdogWake =>
        cases watchdogWake_cases (task_some hs).2 with
        | quiet | givesUp => exact ⟨h.reconciled, h.judging⟩
        | retries =>
            exact ⟨fun hfr => reconcileDue_append (by simp) (h.reconciled hfr), h.judging⟩
        | thaws hwt hst hfr =>
            -- the session thaws only with its reconciliation done
            have hdue : reconcileDue w.log = false := by
              simpa [losesGate, hwt, hst, hfr] using hc
            exact ⟨fun _ => reconcileDue_append (by simp) hdue, fun _ => rfl⟩
        | freezes hwt hst | flattens hwt hst _ =>
            -- a frozen session judges no bar, unless one was already waiting for its quote
            refine ⟨fun h => absurd h (by simp), ?_⟩
            intro bar scan l2 hb
            change w.barTask = _ at hb
            simp [losesGate, hwt, hst, hb] at hc
    | _ => simp [Label.writes] at hfz
  · have hsame : w'.frozen = w.frozen := (hr.footprint hs).same .frozen hfz
    refine ⟨?_, ?_⟩
    · rw [hsame, hlog]
      intro hfr
      refine reconcileDue_append ?_ (h.reconciled hfr)
      intro e he hfroze
      have hemit := hes e he
      rw [hfroze] at hemit
      cases l with
      | watchdogWake => exact absurd (by simp [Label.writes]) hfz
      | _ => exact absurd hemit (by simp [Label.emits])
    · intro bar scan l2 hb
      rw [hsame]
      rcases awaitQuote_step hr hs hb with hb0 | ⟨-, hfr, -⟩
      · exact h.judging hb0
      · exact hfr

end World

/-- **Every entry is gated, in every run in which the watchdog neither finds the feed stale while
a quote is awaited nor thaws the session before a reconciliation has completed.** -/
theorem entriesGated_of {env : Env} (x : LiveRun env) (hx : ∀ m ∈ x.moves, losesGate env m = false) :
    EntriesGated x := by
  intro m hm o hbuy
  have hinv : GateInv m.pre :=
    x.invariant_of (C := fun m => losesGate env m = false) (I := GateInv) gateInv_init
      (fun _ _ _ hr hi hs hc => gateInv_step hr hi hs hc) hx (x.visits_pre hm)
  have hs := x.step_of_mem hm
  have hemit := Reached.emits (x.reachable_pre hm) hs (log_of_recorded x hm) hbuy
  cases hl : m.label with
  | barQuote quote =>
      rw [hl] at hs
      obtain ⟨bar, scan, l2, hb, -⟩ := barQuote_cases (task_some hs).2
      have hfr := hinv.judging hb
      exact ⟨hfr, hinv.reconciled hfr⟩
  | _ =>
      rw [hl] at hemit
      exact absurd hemit (by simp [Label.emits])

/-- The session is frozen, positions are reconciled, the feed comes back, and the breakout is
bought. -/
def reconnected : LiveRun tradingDay :=
  play ([.takeBar (minuteBar 0 1000 1000 1000 1000 1000), .barQuote (bidAsk 998 1003),
      .tick 60, .watchdogWake, .reconcileWake, .reconcileAnswer true, .reconcileResume (fun _ => 0),
      .tick 3, .takeBar (minuteBar 1 1000 1000 1000 1000 1000), .watchdogWake]
    ++ beforeBreakout ++ breakout 100)

/-- In this run every entry is gated. -/
theorem entriesGated_reconnected : EntriesGated reconnected := by
  have hx : reconnected.moves.all (fun m => !losesGate tradingDay m) = true := by decide +kernel
  refine entriesGated_of reconnected ?_
  intro m hm
  simpa using List.all_eq_true.mp hx m hm

/-- The feed goes quiet while the breakout bar waits for its quote: the session is frozen, and
then the quote comes. -/
def boughtWhileFrozen : LiveRun tradingDay :=
  play (beforeBreakout ++ [.tick 6, .watchdogWake] ++ breakout 100)

/-- The entry is sent by a frozen session. -/
theorem entriesGated_boughtWhileFrozen : ¬ EntriesGated boughtWhileFrozen := by
  intro h
  have hany : boughtWhileFrozen.moves.any (fun m => m.pre.frozen
      && (recorded m).any fun | .buySubmitted _ => true | _ => false) = true := by decide +kernel
  obtain ⟨m, hm, hbad⟩ := List.any_eq_true.mp hany
  obtain ⟨hfr, hbuy⟩ := Bool.and_eq_true_iff.mp hbad
  obtain ⟨e, he, hbuy⟩ := List.any_eq_true.mp hbuy
  cases e with
  | buySubmitted o => exact absurd (hfr.symm.trans (h m hm o he).1) (by simp)
  | _ => exact absurd hbuy (by simp)

/-! ## A healthy feed -/

/-- The bars taken from the feed whose symbols have a scan result. -/
def arrivals (env : Env) : List Event → List BarTick :=
  List.filterMap fun
    | .barArrived bar => if (env.scanResults bar.symbol).isSome then some bar else none
    | _ => none

/-- The bars that `on_bar` has seen. -/
def judgedBars : List Event → List BarTick :=
  List.filterMap fun
    | .onBar bar _ => some bar
    | _ => none

/-- The bar that waits for its quote. -/
def awaiting : BarTask → List BarTick
  | .awaitQuote bar _ _ => [bar]
  | _ => []

/-- **The watchdog leaves the session alone, and every bar reaches the strategy engine.** -/
structure FeedServed {env : Env} (x : LiveRun env) : Prop where
  neverFreezes : .froze ∉ x.final.log
  neverFlattens : .flattenSubmitted .watchdog ∉ x.final.log
  /-- The bars that arrived have gone through `on_bar`, in order, up to the one in progress. -/
  reaches : ∀ w, x.Visits w → arrivals env w.log = judgedBars w.log ++ awaiting w.barTask
  /-- The bar loop ends only when it is told to, or with the feed. -/
  alive : ∀ m ∈ x.moves, m.post.barTask = .ended →
    m.pre.barTask = .ended ∨ m.pre.stopEvent = true ∨ m.label = .feedEnds

/-- A quote for a bar could not be obtained. -/
def quoteFails (m : Move World Label) : Bool :=
  match m.label with
  | .barQuote none => true
  | _ => false

/-- The watchdog polls with the last bar older than the threshold; or a call for an order of
the bar loop raised, or its exit was accepted after another task had closed the position. -/
def failsFeed (env : Env) (m : Move World Label) : Bool :=
  match m.label with
  | .watchdogWake =>
      match m.pre.watchdogTask with
      | .sleeping _ => m.pre.stale env
      | _ => false
  | .barResume =>
      !m.pre.stopEvent &&
        match m.pre.barTask with
        | .awaitEntryAck _ _ (.answered none) | .awaitExitAck _ _ _ (.answered none) => true
        | .awaitExitAck o _ _ (.answered (some ack)) =>
            ack.accepted && !m.pre.opens.contains o.symbol
        | _ => false
  | _ => false

/-- The session was never frozen, no flatten is under way, and no bar was lost. -/
structure ServedInv (env : Env) (w : World) : Prop where
  unfrozen : w.frozen = false
  neverFroze : .froze ∉ w.log
  neverFlattened : .flattenSubmitted .watchdog ∉ w.log
  atRest : (∃ due, w.watchdogTask = .sleeping due) ∨ w.watchdogTask = .ended
  reaches : arrivals env w.log = judgedBars w.log ++ awaiting w.barTask

namespace World

variable {env : Env} {w w' : World}

theorem servedInv_init : ServedInv env (init env) :=
  ⟨rfl, by simp [init], by simp [init], Or.inl ⟨_, rfl⟩, rfl⟩

/-- The watchdog's loop goes back to sleep, or ends. -/
theorem watchdogLoop_atRest :
    (∃ due, w.watchdogLoop env = .sleeping due) ∨ w.watchdogLoop env = .ended := by
  unfold watchdogLoop
  split
  · exact Or.inr rfl
  · exact Or.inl ⟨_, rfl⟩

/-- Steps that record no bar and neither freeze nor flatten leave the bars alone. -/
theorem servedInv_append (h : ServedInv env w) (es : List Event) (hlog : w'.log = w.log ++ es)
    (hes : ∀ e ∈ es, e ≠ .froze ∧ e ≠ .flattenSubmitted .watchdog ∧ (∀ b, e ≠ .barArrived b)
      ∧ ∀ b sigs, e ≠ .onBar b sigs)
    (hfr : w'.frozen = w.frozen)
    (hrest : (∃ due, w'.watchdogTask = .sleeping due) ∨ w'.watchdogTask = .ended)
    (hbar : awaiting w'.barTask = awaiting w.barTask) : ServedInv env w' := by
  -- nothing arrives, and nothing is judged
  have harr : arrivals env es = [] := by
    unfold arrivals
    rw [List.filterMap_eq_nil_iff]
    intro e he
    cases e with
    | barArrived b => exact absurd rfl ((hes _ he).2.2.1 b)
    | _ => rfl
  have hjud : judgedBars es = [] := by
    unfold judgedBars
    rw [List.filterMap_eq_nil_iff]
    intro e he
    cases e with
    | onBar b sigs => exact absurd rfl ((hes _ he).2.2.2 b sigs)
    | _ => rfl
  refine ⟨hfr.trans h.unfrozen, ?_, ?_, hrest, ?_⟩
  · rw [hlog, List.mem_append]
    rintro (hm | hm)
    · exact h.neverFroze hm
    · exact (hes _ hm).1 rfl
  · rw [hlog, List.mem_append]
    rintro (hm | hm)
    · exact h.neverFlattened hm
    · exact (hes _ hm).2.1 rfl
  · -- so the bars that arrived are still those that were judged, and the one awaited
    have ha : arrivals env w'.log = arrivals env w.log := by
      rw [hlog, arrivals, List.filterMap_append, ← arrivals, harr, List.append_nil]
    have hj : judgedBars w'.log = judgedBars w.log := by
      rw [hlog, judgedBars, List.filterMap_append, ← judgedBars, hjud, List.append_nil]
    rw [ha, hj, hbar]
    exact h.reaches

/-- A label that cannot freeze, flatten, or record a bar leaves the bars alone. -/
theorem servedInv_footprint {l : Label} (h : ServedInv env w) (hf : Footprint l w w')
    (hfr : .frozen ∉ l.writes) (hwt : .watchdogTask ∉ l.writes)
    (hem : ∀ e, l.emits e = true → e ≠ .froze ∧ e ≠ .flattenSubmitted .watchdog
      ∧ (∀ b, e ≠ .barArrived b) ∧ ∀ b sigs, e ≠ .onBar b sigs)
    (hbar : awaiting w'.barTask = awaiting w.barTask) : ServedInv env w' := by
  obtain ⟨es, hlog, hes⟩ := hf.log
  refine servedInv_append h es hlog (fun e he => hem e (hes e he)) (hf.same .frozen hfr) ?_ hbar
  rw [show w'.watchdogTask = w.watchdogTask from hf.same .watchdogTask hwt]
  exact h.atRest

/-- The bar that was waiting for its quote goes through `on_bar`. -/
theorem servedInv_judged {bar : BarTick} (h : ServedInv env w) (hb : awaiting w.barTask = [bar])
    (hj : Judged env w bar w') : ServedInv env w' := by
  have hprev := h.reaches
  rw [hb] at hprev
  -- the bar is judged first, and then some signals are gone through
  have key : ∀ fs : List Event, (∀ e ∈ fs, e ≠ .froze ∧ e ≠ .flattenSubmitted .watchdog
      ∧ (∀ b, e ≠ .barArrived b) ∧ ∀ b sigs, e ≠ .onBar b sigs) → ∀ sigs,
      ∀ v : World, v.frozen = w.frozen → v.watchdogTask = w.watchdogTask →
        awaiting v.barTask = [] → v.log = w.log ++ .onBar bar sigs :: fs → ServedInv env v := by
    intro fs hfs sigs v hfr hwt hbt hlog
    -- the moment it is judged: it has left the queue, and is on the chart
    have hmid : ServedInv env { w with
        barTask := .awaitBar, log := w.log ++ [.onBar bar sigs] } := by
      refine ⟨h.unfrozen, ?_, ?_, h.atRest, ?_⟩
      · simp [h.neverFroze]
      · simp [h.neverFlattened]
      · change arrivals env (w.log ++ [.onBar bar sigs])
          = judgedBars (w.log ++ [.onBar bar sigs]) ++ []
        have harr : arrivals env (w.log ++ [.onBar bar sigs]) = arrivals env w.log := by
          simp [arrivals]
        have hjud : judgedBars (w.log ++ [.onBar bar sigs]) = judgedBars w.log ++ [bar] := by
          simp [judgedBars]
        rw [harr, hjud, hprev, List.append_nil]
    refine servedInv_append hmid fs ?_ hfs hfr (hwt ▸ h.atRest) hbt
    rw [hlog]; simp
  cases hj with
  | quiet | lost => exact key [] (by simp) _ _ rfl rfl rfl rfl
  | scale | buy | sell => exact key [_] (by simp) _ _ rfl rfl rfl rfl

/--
**Preserved by every step that does not fail the feed.**

Only the watchdog freezes, and only on a poll that finds the last bar too old, which
the condition excludes. A bar that arrives then waits for its quote and is judged, if
its symbol was scanned; and the bar loop goes on after every answer, unless a call
raised or the exit was accepted for a position that is gone.
-/
theorem servedInv_step {l : Label} (hr : Reached env w) (h : ServedInv env w)
    (hs : step env w l = some w') (hq : quoteFails ⟨w, l, w'⟩ = false)
    (hc : failsFeed env ⟨w, l, w'⟩ = false) : ServedInv env w' := by
  have hf := hr.footprint hs
  cases l with
  | takeBar bar =>
      have hold : ∀ e ∈ w.log ++ [.barArrived bar],
          e ≠ .froze ∧ e ≠ .flattenSubmitted .watchdog := by
        intro e he
        rcases List.mem_append.mp he with he | he
        · exact ⟨fun hx => h.neverFroze (hx ▸ he), fun hx => h.neverFlattened (hx ▸ he)⟩
        · rw [List.mem_singleton.mp he]; simp
      obtain ⟨hb, ⟨-, rfl⟩ | ⟨-, hskip, rfl⟩ | ⟨scan, -, -, hscan, rfl⟩⟩ :=
        takeBar_cases (task_some hs).2
      · exact servedInv_append h [] (by simp) (by simp) rfl h.atRest (by rw [hb]; rfl)
      · -- skipped, and not because the session is frozen: the symbol has no scan result
        have hnone : env.scanResults bar.symbol = none := by
          rcases hskip with hfr | hn
          · exact absurd (h.unfrozen.symm.trans hfr) (by simp)
          · exact hn
        refine ⟨h.unfrozen, fun hm => (hold _ hm).1 rfl, fun hm => (hold _ hm).2 rfl, h.atRest, ?_⟩
        have harr : arrivals env (w.log ++ [.barArrived bar]) = arrivals env w.log := by
          simp [arrivals, hnone]
        have hjud : judgedBars (w.log ++ [.barArrived bar]) = judgedBars w.log := by
          simp [judgedBars]
        exact (harr.trans h.reaches).trans (by rw [hjud])
      · -- the bar waits for its quote, behind none
        refine ⟨h.unfrozen, fun hm => (hold _ hm).1 rfl, fun hm => (hold _ hm).2 rfl, h.atRest, ?_⟩
        have harr : arrivals env (w.log ++ [.barArrived bar]) = arrivals env w.log ++ [bar] := by
          simp [arrivals, hscan]
        have hjud : judgedBars (w.log ++ [.barArrived bar]) = judgedBars w.log := by
          simp [judgedBars]
        have hprev := h.reaches
        rw [show awaiting w.barTask = [] by rw [hb]; rfl, List.append_nil] at hprev
        change arrivals env (w.log ++ [.barArrived bar])
          = judgedBars (w.log ++ [.barArrived bar]) ++ [bar]
        rw [harr, hjud, hprev]
  | feedEnds =>
      obtain ⟨hb, rfl⟩ := feedEnds_cases (task_some hs).2
      exact servedInv_append h [] (by simp) (by simp) rfl h.atRest (by rw [hb]; rfl)
  | barQuote quote =>
      obtain ⟨bar, scan, l2, hb, ⟨rfl, -⟩ | ⟨-, hj⟩⟩ := barQuote_cases (task_some hs).2
      · exact absurd hq (by simp [quoteFails])
      · exact servedInv_judged h (by rw [hb]; rfl) hj
  | barResume =>
      refine servedInv_footprint h hf (by simp [Label.writes]) (by simp [Label.writes]) ?_ ?_
      · intro e he
        cases e <;> simp [Label.emits] at he ⊢
      · cases barResume_cases (noRest_reached hr) (task_some hs).2 with
        | buyRaised hb | buyRejected hb _ | opened hb _ | sellRaised hb | sellRejected hb _
        | sold hb _ _ | soldTwice hb _ _ => rw [hb]; rfl
  | barAnswer reply filled =>
      refine servedInv_footprint h hf (by simp [Label.writes]) (by simp [Label.writes]) ?_ ?_
      · intro e he
        cases e <;> simp [Label.emits] at he ⊢
      · obtain ⟨_, _, hb, -, -, rfl⟩ | ⟨_, _, _, hb, -, -, rfl⟩ := barAnswer_cases hs
        · rw [hb]; rfl
        · rw [hb]; rfl
  | watchdogWake =>
      cases watchdogWake_cases (task_some hs).2 with
      | quiet => exact servedInv_append h [] (by simp) (by simp) rfl watchdogLoop_atRest rfl
      | thaws _ _ hfr => exact absurd (h.unfrozen.symm.trans hfr) (by simp)
      | freezes hwt hst | flattens hwt hst _ => simp [failsFeed, hwt, hst] at hc
      -- there is no flatten to go on with
      | retries hwt | givesUp hwt =>
          rcases h.atRest with ⟨due, hd⟩ | hd
          · exact absurd (hd.symm.trans hwt) (by simp)
          · exact absurd (hd.symm.trans hwt) (by simp)
  | watchdogResume price =>
      obtain ⟨attempt, reply, hwt, -⟩ := watchdogResume_cases (task_some hs).2
      rcases h.atRest with ⟨due, hd⟩ | hd
      · exact absurd (hd.symm.trans hwt) (by simp)
      · exact absurd (hd.symm.trans hwt) (by simp)
  | watchdogAnswer reply closed =>
      obtain ⟨attempt, hwt, -⟩ := watchdogAnswer_cases hs
      rcases h.atRest with ⟨due, hd⟩ | hd
      · exact absurd (hd.symm.trans hwt) (by simp)
      · exact absurd (hd.symm.trans hwt) (by simp)
  | _ =>
      refine servedInv_footprint h hf (by simp [Label.writes]) (by simp [Label.writes]) ?_ ?_
      · intro e he
        cases e <;> simp [Label.emits] at he ⊢ <;> simp [he]
      · rw [show w'.barTask = w.barTask from hf.same .barTask (by simp [Label.writes])]

end World

/-- A bar loop that ends with its feed, or because it was told to, was not killed by an order. -/
theorem World.not_killed {env : Env} {w w' : World} {l : Label} (hr : Reached env w)
    (hs : step env w l = some w') (hq : quoteFails ⟨w, l, w'⟩ = false)
    (hc : failsFeed env ⟨w, l, w'⟩ = false) (hend : w'.barTask = .ended) :
    w.barTask = .ended ∨ w.stopEvent = true ∨ l = .feedEnds := by
  have hf := hr.footprint hs
  by_cases hw : .barTask ∈ l.writes
  · cases l with
    | takeBar bar =>
        obtain ⟨hb, ⟨hst, -⟩ | ⟨-, -, rfl⟩ | ⟨scan, -, -, -, rfl⟩⟩ := takeBar_cases (task_some hs).2
        · -- `stop` was called
          exact Or.inr (Or.inl hst)
        · exact Or.inl hend
        · exact absurd hend (by simp)
    | feedEnds => exact Or.inr (Or.inr rfl)
    | barQuote quote =>
        obtain ⟨bar, scan, l2, -, ⟨rfl, -⟩ | ⟨-, hj⟩⟩ := barQuote_cases (task_some hs).2
        · exact absurd hq (by simp [quoteFails])
        · cases hj <;> exact absurd hend (by simp)
    | barResume =>
        -- a `barResume` that ends the loop without `stop` raised
        cases hst : w.stopEvent with
        | true => exact Or.inr (Or.inl rfl)
        | false =>
            cases barResume_cases (noRest_reached hr) (task_some hs).2 with
            | buyRaised hb | sellRaised hb => simp [failsFeed, hb, hst] at hc
            -- an exit accepted for a position that is gone raises the `KeyError`
            | soldTwice hb ha hn =>
                simp [failsFeed, hb, hst, ha, Dict.contains_eq_false.mpr hn] at hc
            | buyRejected | opened | sellRejected | sold => exact absurd hend (by simp)
    | barAnswer reply filled =>
        obtain ⟨_, _, -, -, -, rfl⟩ | ⟨_, _, _, -, -, -, rfl⟩ := barAnswer_cases hs
        · exact absurd hend (by simp)
        · exact absurd hend (by simp)
    | _ => simp [Label.writes] at hw
  · have hsame : w'.barTask = w.barTask := hf.same .barTask hw
    exact Or.inl (hsame ▸ hend)

/-- What a failing move leaves behind: a freeze on the log, or a dead bar loop. -/
theorem World.failsFeed_post {env : Env} {w w' : World} {l : Label} (hr : Reached env w)
    (hs : step env w l = some w') (hc : failsFeed env ⟨w, l, w'⟩ = true) :
    .froze ∈ w'.log ∨ (l = .barResume ∧ w'.barTask = .ended ∧ w.barTask ≠ .ended
      ∧ w.stopEvent = false) := by
  cases l with
  -- the watchdog can freeze
  | watchdogWake =>
      refine Or.inl ?_
      cases watchdogWake_cases (task_some hs).2 with
      | quiet hwt hst | thaws hwt hst _ => simp [failsFeed, hwt, hst] at hc
      | retries hwt | givesUp hwt => simp [failsFeed, hwt] at hc
      | freezes | flattens => simp
  | barResume =>
      -- the bar loop can die
      refine Or.inr ⟨rfl, ?_⟩
      cases barResume_cases (noRest_reached hr) (task_some hs).2 with
      | buyRaised hb | sellRaised hb =>
          refine ⟨rfl, by rw [hb]; simp, ?_⟩
          simpa [failsFeed, hb] using hc
      | soldTwice hb ha hn =>
          refine ⟨rfl, by rw [hb]; simp, ?_⟩
          simpa [failsFeed, hb, ha, Dict.contains_eq_false.mpr hn] using hc
      | buyRejected hb _ | opened hb _ => simp [failsFeed, hb] at hc
      | sellRejected hb ha => simp [failsFeed, hb, ha] at hc
      | sold hb ha ho =>
          simp [failsFeed, hb, Dict.contains_iff.mpr ⟨_, ho⟩] at hc
  | _ => exact absurd hc (by simp [failsFeed])

/-- **With quotes that are obtained, the feed is served exactly in the runs in which no poll of
the watchdog finds the last bar older than the threshold and no order kills the bar loop.** A
one-minute feed has a bar older than five seconds for most of every minute. -/
theorem feedServed_iff {env : Env} (x : LiveRun env) (hq : ∀ m ∈ x.moves, quoteFails m = false) :
    FeedServed x ↔ ∀ m ∈ x.moves, failsFeed env m = false := by
  constructor
  · -- a failure would show: as a freeze, or as a loop that ended
    intro h m hm
    cases hc : failsFeed env m with
    | false => rfl
    | true =>
        exfalso
        rcases failsFeed_post (x.reachable_pre hm) (x.step_of_mem hm) hc with
          hfroze | ⟨hl, hend, halive, hstop⟩
        · obtain ⟨es, he⟩ := log_of_visits x (Or.inr ⟨m, hm, rfl⟩)
          exact h.neverFreezes (by rw [he]; exact List.mem_append_left _ hfroze)
        · rcases h.alive m hm hend with h0 | h0 | h0
          · exact halive h0
          · exact absurd (hstop.symm.trans h0) (by simp)
          · exact absurd (hl.symm.trans h0) (by simp)
  · -- and without one nothing shows, in any state
    intro h
    have hinv : ∀ w, x.Visits w → ServedInv env w := fun w hw =>
      x.invariant_of (C := fun m => quoteFails m = false ∧ failsFeed env m = false)
        (I := ServedInv env) servedInv_init
        (fun _ _ _ hr hi hs hc => servedInv_step hr hi hs hc.1 hc.2)
        (fun m hm => ⟨hq m hm, h m hm⟩) hw
    have hfinal := hinv _ x.visits_final
    exact ⟨hfinal.neverFroze, hfinal.neverFlattened, fun w hw => (hinv w hw).reaches,
      fun m hm hend =>
        not_killed (x.reachable_pre hm) (x.step_of_mem hm) (hq m hm) (h m hm) hend⟩

/-- Two bars a minute apart, each judged at once, with the watchdog polling right after each. -/
def polledAtBars : LiveRun tradingDay :=
  play [.tick 3, .takeBar (minuteBar 0 1000 1000 1000 1000 1000), .barQuote (bidAsk 998 1003),
    .watchdogWake, .tick 60, .takeBar (minuteBar 1 1000 1000 1000 1000 1000), .watchdogWake,
    .barQuote (bidAsk 998 1003)]

/-- In this run the feed is served. -/
theorem feedServed_polledAtBars : FeedServed polledAtBars := by
  have hq : polledAtBars.moves.all (fun m => !quoteFails m) = true := by decide +kernel
  have hc : polledAtBars.moves.all (fun m => !failsFeed tradingDay m) = true := by decide +kernel
  refine (feedServed_iff polledAtBars ?_).mpr ?_
  · intro m hm
    simpa using List.all_eq_true.mp hq m hm
  · intro m hm
    simpa using List.all_eq_true.mp hc m hm

/-- The last bar is at most a minute old. -/
def healthy (m : Move World Label) : Bool :=
  m.post.lastBarTs.all fun t => decide (m.post.clock - t ≤ 60)

/-- A bar, three polls of the watchdog on its own schedule, and the next bar a minute after the
first. -/
def minuteFeed : LiveRun tradingDay :=
  play [.takeBar (minuteBar 0 1000 1000 1000 1000 1000), .barQuote (bidAsk 998 1003),
    .tick (5 / 2), .watchdogWake, .tick (5 / 2), .watchdogWake, .tick (5 / 2), .watchdogWake,
    .tick (105 / 2), .takeBar (minuteBar 1 1000 1000 1000 1000 1000)]

/-- The third poll freezes the session, and the second bar is skipped. -/
theorem feedServed_minuteFeed :
    (∀ m ∈ minuteFeed.moves, healthy m = true ∧ quoteFails m = false) ∧ ¬ FeedServed minuteFeed := by
  refine ⟨?_, ?_⟩
  · have hall : minuteFeed.moves.all (fun m => healthy m && !quoteFails m) = true := by
      decide +kernel
    intro m hm
    simpa using List.all_eq_true.mp hall m hm
  · intro h
    have hfroze : minuteFeed.final.log.any (fun | .froze => true | _ => false) = true := by
      decide +kernel
    obtain ⟨e, he, hfz⟩ := List.any_eq_true.mp hfroze
    cases e with
    | froze => exact h.neverFreezes he
    | _ => exact absurd hfz (by simp)

end RossBot
