import RossBot.Live.Book

/-!
# Stop monitoring

The module header of `core/live/session.py` says what a disconnect means: freeze
new entries, keep monitoring stops. `_mental_stop_loop` instead begins every
iteration with `if self._frozen: continue`. Apart from that, an iteration reaches
every position that was tracked when it began, whatever quotes and answers the
others meet, and sells each one whose bid is at its stop.
-/

namespace RossBot

open Lib World

/-! ## Iterations in a log -/

/-- Events that begin or end an iteration. -/
def Event.bounds : Event → Bool
  | .poll _ | .pollDone => true
  | _ => false

/-- What one event does to the iteration in progress. -/
def iterationStep (it : Option (List (Symbol × LivePosition) × List Event)) :
    Event → Option (List (Symbol × LivePosition) × List Event)
  | .poll tracked => some (tracked, [])
  | .pollDone => none
  | e => it.map fun i => (i.1, i.2 ++ [e])

/-- The iteration in progress at the end of a log: the positions tracked when it began, and
the events since. -/
def iteration (log : List Event) : Option (List (Symbol × LivePosition) × List Event) :=
  log.foldl iterationStep none

@[simp] theorem iteration_poll (log : List Event) (tracked : List (Symbol × LivePosition)) :
    iteration (log ++ [.poll tracked]) = some (tracked, []) := by
  rw [iteration, List.foldl_append]; rfl

@[simp] theorem iteration_pollDone (log : List Event) :
    iteration (log ++ [.pollDone]) = none := by
  rw [iteration, List.foldl_append]; rfl

/-- Other events are collected. -/
theorem iteration_append (log : List Event) {es : List Event} (h : ∀ e ∈ es, e.bounds = false) :
    iteration (log ++ es) = (iteration log).map fun i => (i.1, i.2 ++ es) := by
  induction es using List.reverseRecOn with
  | nil =>
      rw [List.append_nil]
      cases iteration log <;> simp
  | append_singleton es e ih =>
      have hes := ih fun e he => h e (List.mem_append_left _ he)
      have he := h e (List.mem_append_right _ (List.mem_singleton.mpr rfl))
      have hstep : iteration (log ++ es ++ [e]) = iterationStep (iteration (log ++ es)) e := by
        rw [iteration, List.foldl_append]; rfl
      rw [← List.append_assoc, hstep, hes]
      -- the two events that bound an iteration are excluded
      cases e with
      | poll t => exact absurd he (by simp [Event.bounds])
      | pollDone => exact absurd he (by simp [Event.bounds])
      | _ => cases iteration log <;> simp [iterationStep]

/-- The iteration asked for the quote of this position. -/
def ReachedIn (events : List Event) (p : LivePosition) : Prop :=
  ∃ quote live, .stopQuoted p quote live ∈ events

/-- A finished iteration reached every position that was tracked when it began. -/
def ReachesAll (log : List Event) : Prop :=
  EachAt (fun before e => e = .pollDone → ∀ tracked events,
    iteration before = some (tracked, events) → ∀ b ∈ tracked, ReachedIn events b.2) log

/-- **Stops are monitored.** -/
structure StopsMonitored {env : Env} (x : LiveRun env) : Prop where
  /-- Every iteration reaches every position that was tracked when it began. -/
  reaches : ReachesAll x.final.log
  /-- A position that is reached, with its bid at or below its stop, is sold in that step. -/
  sells : ∀ m ∈ x.moves, ∀ p q live, .stopQuoted p (some q) live ∈ recorded m →
    q.bid.val ≤ p.stopPrice.val → ∃ s, .sellSubmitted (stopOrder s p q.bid.val) ∈ recorded m

/-- An iteration begins while the session is frozen and holds a position. -/
def skipsPoll (m : Move World Label) : Bool :=
  match m.label with
  | .stopWake => m.pre.frozen && !m.pre.opens.items.isEmpty
  | _ => false

/-! ## An iteration, step by step -/

/-- What is left of the iteration in progress, and what it has reached. -/
def Pending (w : World) (rest : List (Symbol × LivePosition)) : Prop :=
  ∃ tracked events, iteration w.log = some (tracked, events)
    ∧ ∀ b ∈ tracked, b ∈ rest ∨ ReachedIn events b.2

/-- The suspended iteration will reach everything it has not reached yet. -/
def PollInv (w : World) : Prop :=
  match w.stopTask with
  | .awaitQuote symbol pos rest => Pending w ((symbol, pos) :: rest)
  | .awaitSellAck _ rest _ => Pending w rest
  | .sleeping _ | .ended => iteration w.log = none

namespace World

variable {env : Env} {w w' : World}

theorem pollInv_init : PollInv (init env) := rfl

/-- Events that bound no iteration leave what is pending. -/
theorem pending_append {rest : List (Symbol × LivePosition)} {es : List Event}
    (hlog : w'.log = w.log ++ es) (hes : ∀ e ∈ es, e.bounds = false) (h : Pending w rest) :
    Pending w' rest := by
  obtain ⟨tracked, events, hit, hall⟩ := h
  refine ⟨tracked, events ++ es, ?_, ?_⟩
  · rw [hlog, iteration_append _ hes, hit]; rfl
  · intro b hb
    rcases hall b hb with hb | ⟨quote, live, hm⟩
    · exact Or.inl hb
    · exact Or.inr ⟨quote, live, List.mem_append_left _ hm⟩

/-- Events that bound no iteration finish none. -/
theorem reachesAll_append {es : List Event} (hlog : w'.log = w.log ++ es)
    (hes : ∀ e ∈ es, e.bounds = false) (h : ReachesAll w.log) : ReachesAll w'.log := by
  rw [ReachesAll, hlog, eachAt_append]
  refine ⟨h, ?_⟩
  intro before e after he hdone
  have hm : e ∈ es := by rw [he]; exact List.mem_append_right _ List.mem_cons_self
  have hb := hes e hm
  rw [hdone] at hb
  exact absurd hb (by simp [Event.bounds])

/-- Going on with an iteration: it either asks for the next quote, or has reached everything. -/
theorem pollInv_nextStop {rest : List (Symbol × LivePosition)} (h : Pending w rest)
    (hall : ReachesAll w.log) :
    PollInv (nextStop env rest w) ∧ ReachesAll (nextStop env rest w).log := by
  cases rest with
  | cons b rest => exact ⟨h, hall⟩
  | nil =>
      refine ⟨?_, ?_⟩
      · unfold PollInv nextStop stopLoop
        dsimp only
        split
        · rename_i heq; split at heq <;> exact absurd heq (by simp)
        · rename_i heq; split at heq <;> exact absurd heq (by simp)
        · exact iteration_pollDone _
        · exact iteration_pollDone _
      · change ReachesAll (w.log ++ [.pollDone])
        rw [ReachesAll, eachAt_snoc]
        refine ⟨hall, ?_⟩
        -- nothing is left of the iteration that ends here
        intro _ tracked events hit b hb
        obtain ⟨tracked', events', hit', hreach⟩ := h
        obtain ⟨rfl, rfl⟩ := Prod.mk.inj (Option.some.inj (hit.symm.trans hit'))
        rcases hreach b hb with hb' | hb'
        · exact absurd hb' (by simp)
        · exact hb'

/-- A quote reaches the position it was asked for. -/
theorem pending_quoted {b : Symbol × LivePosition} {rest : List (Symbol × LivePosition)}
    {quote : Option QuoteTick} {live : Bool} (es : List Event)
    (hlog : w'.log = w.log ++ .stopQuoted b.2 quote live :: es)
    (hes : ∀ e ∈ es, e.bounds = false) (h : Pending w (b :: rest)) : Pending w' rest := by
  have hes' : ∀ e ∈ Event.stopQuoted b.2 quote live :: es, e.bounds = false := by
    intro e he
    rcases List.mem_cons.mp he with rfl | he
    · rfl
    · exact hes e he
  obtain ⟨tracked, events, hit, hall⟩ := h
  -- the position quoted is off the list, with its quote in the iteration
  refine ⟨tracked, events ++ .stopQuoted b.2 quote live :: es, ?_, ?_⟩
  · rw [hlog, iteration_append _ hes', hit]; rfl
  · intro c hc
    rcases hall c hc with hc' | ⟨quote', live', hm⟩
    · rcases List.mem_cons.mp hc' with rfl | hc'
      · exact Or.inr ⟨quote, live, List.mem_append_right _ List.mem_cons_self⟩
      · exact Or.inl hc'
    · exact Or.inr ⟨quote', live', List.mem_append_left _ hm⟩

/-- Steps of other tasks leave the iteration alone. -/
theorem pollInv_append {es : List Event} (hst : w'.stopTask = w.stopTask)
    (hlog : w'.log = w.log ++ es) (hes : ∀ e ∈ es, e.bounds = false) (h : PollInv w) :
    PollInv w' := by
  unfold PollInv at h ⊢
  rw [hst]
  -- within an iteration the list is carried on; outside there is none
  cases hw : w.stopTask with
  | awaitQuote symbol pos rest =>
      rw [hw] at h
      exact pending_append hlog hes h
  | awaitSellAck o rest call =>
      rw [hw] at h
      exact pending_append hlog hes h
  | sleeping due =>
      rw [hw] at h
      change iteration w'.log = none
      rw [hlog, iteration_append _ hes, show iteration w.log = none from h]
      rfl
  | ended =>
      rw [hw] at h
      change iteration w'.log = none
      rw [hlog, iteration_append _ hes, show iteration w.log = none from h]
      rfl

/--
**Preserved by every step that does not skip an iteration.**

The positions an iteration has not reached yet are all on the list it is suspended
with: a quote takes one off and reaches it, and an answer to its SELL takes none. A wake
while frozen ends its iteration at once, which the condition allows only when nothing
is held.
-/
theorem pollInv_step {l : Label} (hr : Reached env w) (h : PollInv w ∧ ReachesAll w.log)
    (hs : step env w l = some w') (hc : skipsPoll ⟨w, l, w'⟩ = false) :
    PollInv w' ∧ ReachesAll w'.log := by
  obtain ⟨hinv, hall⟩ := h
  obtain ⟨es, hlog, hes⟩ := (hr.footprint hs).log
  cases l with
  | stopWake =>
      obtain ⟨due, -, -, hcase⟩ := stopWake_cases (task_some hs).2
      -- a poll ends one iteration's reach and begins the next
      have hreach : ReachesAll (w.log ++ [.poll w.opens.items]) := by
        rw [ReachesAll, eachAt_snoc]
        exact ⟨hall, fun h => absurd h (by simp)⟩
      rcases hcase with ⟨hf, rfl⟩ | ⟨-, rfl⟩
      · -- frozen, so there was nothing to reach
        have hnone : w.opens.items = [] := by
          simpa [skipsPoll, hf] using hc
        refine pollInv_nextStop ⟨w.opens.items, [], iteration_poll _ _, ?_⟩ hreach
        rw [hnone]
        simp
      · exact pollInv_nextStop ⟨w.opens.items, [], iteration_poll _ _, fun b hb => Or.inl hb⟩ hreach
  | stopQuote quote =>
      obtain ⟨symbol, pos, rest, hst, hq⟩ := stopQuote_cases (task_some hs).2
      unfold PollInv at hinv
      rw [hst] at hinv
      cases hq with
      | raised | held =>
          refine pollInv_nextStop (pending_quoted (b := (symbol, pos)) [] rfl (by simp)
            hinv) ?_
          rw [ReachesAll, eachAt_snoc]
          exact ⟨hall, fun h => absurd h (by simp)⟩
      | fired =>
          refine ⟨pending_quoted (b := (symbol, pos)) [_] rfl ?_ hinv,
            reachesAll_append rfl ?_ hall⟩
          · intro e he; rw [List.mem_singleton.mp he]; rfl
          · intro e he
            rcases List.mem_pair.mp he with rfl | rfl <;> rfl
  | stopResume =>
      obtain ⟨o, rest, reply, hst, hq⟩ := stopResume_cases (task_some hs).2
      unfold PollInv at hinv
      rw [hst] at hinv
      cases hq with
      | refused => exact pollInv_nextStop hinv hall
      | sold =>
          refine pollInv_nextStop (pending_append rfl ?_ hinv) (reachesAll_append rfl ?_ hall) <;>
          · intro e he
            rcases List.mem_pair.mp he with rfl | rfl <;> rfl
      | soldTwice =>
          refine pollInv_nextStop (pending_append rfl ?_ hinv) (reachesAll_append rfl ?_ hall) <;>
          · intro e he; rw [List.mem_singleton.mp he]; rfl
  | stopAnswer reply filled =>
      have hb : ∀ e ∈ es, e.bounds = false := by
        intro e he
        have := hes e he
        cases e <;> first | rfl | exact absurd this (by simp [Label.emits])
      refine ⟨?_, reachesAll_append hlog hb hall⟩
      obtain ⟨o, rest, hst, -, -, rfl⟩ := stopAnswer_cases hs
      unfold PollInv at hinv
      rw [hst] at hinv
      exact pending_append hlog hb hinv
  | _ =>
      have hb : ∀ e ∈ es, e.bounds = false := by
        intro e he
        have := hes e he
        cases e <;> first | rfl | exact absurd this (by simp [Label.emits])
      exact ⟨pollInv_append ((hr.footprint hs).same .stopTask (by simp [Label.writes])) hlog hb hinv,
        reachesAll_append hlog hb hall⟩

/-- **A position that is reached with its bid at or below its stop is sold in the same step.** -/
theorem sells_step {l : Label} (hr : Reached env w) (hs : step env w l = some w')
    {es : List Event} (hlog : w'.log = w.log ++ es) {p : LivePosition} {q : QuoteTick} {live : Bool}
    (hm : .stopQuoted p (some q) live ∈ es) (hbid : q.bid.val ≤ p.stopPrice.val) :
    ∃ s, .sellSubmitted (stopOrder s p q.bid.val) ∈ es := by
  have hemit := hr.emits hs hlog hm
  cases l with
  | stopQuote quote =>
      obtain ⟨symbol, pos, rest, -, hq⟩ := stopQuote_cases (task_some hs).2
      cases hq with
      | raised =>
          obtain ⟨t, fs, hw, hfs⟩ := nextStop_footprint env { w with
            log := w.log ++ [.stopQuoted pos none (w.isTracked symbol pos)] } rest
          rw [hw, List.append_assoc] at hlog
          rw [← List.append_cancel_left hlog] at hm
          rcases List.mem_append.mp hm with hm | hm
          · exact absurd (List.mem_singleton.mp hm) (by simp)
          · exact absurd (hfs _ hm) (by simp)
      | @held q' o hfire hmark =>
          obtain ⟨t, fs, hw, hfs⟩ := nextStop_footprint env { w with
            opens := o, log := w.log ++ [.stopQuoted pos (some q') (w.isTracked symbol pos)] } rest
          rw [hw, List.append_assoc] at hlog
          rw [← List.append_cancel_left hlog] at hm
          rcases List.mem_append.mp hm with hm | hm
          · obtain ⟨rfl, hqq, -⟩ := Event.stopQuoted.inj (List.mem_singleton.mp hm)
            obtain rfl := Option.some.inj hqq
            -- the primary stop fires at this bid
            have hfires : stopFires env p q.bid.val = true := by
              unfold stopFires RiskState.checkMentalStop isMentalStopBreached
              rw [Bool.or_eq_true]
              refine Or.inl (decide_eq_true ?_)
              change q.bid.val ≤ (Money.of p.stopPrice.val).val
              rw [Money.of_val]
              exact hbid
            rw [hfire] at hfires
            exact absurd hfires (by simp)
          · exact absurd (hfs _ hm) (by simp)
      | fired hfire hmark =>
          rw [← List.append_cancel_left hlog] at hm ⊢
          rcases List.mem_pair.mp hm with hm | hm
          · obtain ⟨rfl, hqq, -⟩ := Event.stopQuoted.inj hm
            obtain rfl := Option.some.inj hqq
            exact ⟨symbol, by simp⟩
          · exact absurd hm (by simp)
  | _ => exact absurd hemit (by simp [Label.emits])

end World

/-! ## When stops are monitored -/

/-- An iteration that is skipped reaches nothing. -/
theorem not_skips_of_reaches {env : Env} {x : LiveRun env} (h : ReachesAll x.final.log) :
    ∀ m ∈ x.moves, skipsPoll m = false := by
  intro m hm
  have hs := x.step_of_mem hm
  cases hl : m.label with
  | stopWake =>
      rw [hl] at hs
      obtain ⟨due, -, -, ⟨hf, hpost⟩ | ⟨hf, -⟩⟩ := stopWake_cases (task_some hs).2
      · obtain ⟨es, hfinal⟩ := log_of_visits x (Or.inr ⟨m, hm, rfl⟩)
        have hlog : m.post.log = (m.pre.log ++ [.poll m.pre.opens.items]) ++ [.pollDone] := by
          rw [hpost]; rfl
        have hsplit : x.final.log
            = (m.pre.log ++ [.poll m.pre.opens.items]) ++ .pollDone :: es := by
          rw [hfinal, hlog]; simp
        -- the iteration that ends at once has seen no quote, so it had no position
        have hreach := h _ _ _ hsplit rfl m.pre.opens.items [] (iteration_poll _ _)
        have hnone : m.pre.opens.items = [] := by
          rw [List.eq_nil_iff_forall_not_mem]
          intro b hb
          obtain ⟨quote, live, hmem⟩ := hreach b hb
          exact absurd hmem (by simp)
        simp [skipsPoll, hl, hnone]
      · simp [skipsPoll, hl, hf]
  | _ => simp [skipsPoll, hl]

/-- **Stops are monitored exactly in the runs in which no iteration begins while the session is
frozen and holds a position.** -/
theorem stopsMonitored_iff {env : Env} (x : LiveRun env) :
    StopsMonitored x ↔ ∀ m ∈ x.moves, skipsPoll m = false := by
  constructor
  · intro h
    exact not_skips_of_reaches h.reaches
  · intro h
    refine ⟨?_, ?_⟩
    · exact (x.invariant_of (C := fun m => skipsPoll m = false)
        (I := fun w => PollInv w ∧ ReachesAll w.log) ⟨pollInv_init, eachAt_nil⟩
        (fun _ _ _ hr hi hs hc => pollInv_step hr hi hs hc) h x.visits_final).2
    · intro m hm p q live he hbid
      exact sells_step (x.reachable_pre hm) (x.step_of_mem hm) (log_of_recorded x hm) he hbid

/-- A position is held, no bar comes for six seconds, and the watchdog freezes the session.
Then the mental-stop loop begins an iteration. -/
def frozenPoll : LiveRun tradingDay :=
  play (beforeBreakout ++ breakout 100 ++ [.tick 6, .watchdogWake, .stopWake])

/-- The iteration ends without asking for the quote of the position. -/
theorem stopsMonitored_frozenPoll : ¬ StopsMonitored frozenPoll := by
  intro h
  have hany : frozenPoll.moves.any skipsPoll = true := by decide +kernel
  obtain ⟨m, hm, hskip⟩ := List.any_eq_true.mp hany
  rw [not_skips_of_reaches h.reaches m hm] at hskip
  exact absurd hskip (by simp)

end RossBot
