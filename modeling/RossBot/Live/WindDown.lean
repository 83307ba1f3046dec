import RossBot.Live.Buys

/-!
# Winding down

`_stop_event` does not stop anything by itself: each loop finishes what it is
suspended in, and looks at the event only at the head of its `while`. What is
left is therefore read off the five suspensions, and every step from then on is
paid out of it, whatever the order of the steps and whatever the broker answers.
-/

namespace RossBot

open Lib

/-- The five loops of `run`. -/
inductive Loop where
  | bars
  | stops
  | eod
  | reconcile
  | watchdog
  deriving DecidableEq, Repr

/-- The loop whose segment this is. Time and the broker take no part of a loop. -/
@[simp] def Label.loop : Label → Option Loop
  | .takeBar _ | .feedEnds | .barQuote _ | .barResume => some .bars
  | .stopWake | .stopQuote _ | .stopResume => some .stops
  | .eodWake | .eodResume _ => some .eod
  | .reconcileWake | .reconcileResume _ => some .reconcile
  | .watchdogWake | .watchdogResume _ => some .watchdog
  | .tick _ | .barAnswer _ _ | .stopAnswer _ _ | .eodAnswer _ _ | .reconcileAnswer _
  | .watchdogAnswer _ _ | .brokerMove _ _ | .stop | .cancel => none

/-- One for a segment of this loop. -/
@[simp] def Label.cost (t : Loop) (l : Label) : ℕ := if l.loop = some t then 1 else 0

/-- Where the session keeps what the loop is suspended in. -/
def Loop.field : Loop → Field
  | .bars => .barTask
  | .stops => .stopTask
  | .eod => .eodTask
  | .reconcile => .reconcileTask
  | .watchdog => .watchdogTask

/-- A segment of a loop writes its task. -/
theorem Label.cost_eq_zero {t : Loop} {l : Label} (h : t.field ∉ l.writes) : l.cost t = 0 := by
  unfold Label.cost
  rw [if_neg]
  intro ht
  refine h ?_
  cases l with
  | tick | barAnswer | stopAnswer | eodAnswer | reconcileAnswer | watchdogAnswer | brokerMove
  | stop | cancel => exact absurd ht (by simp [Label.loop])
  | _ =>
      obtain rfl := Option.some.inj ht
      simp [Label.writes, Loop.field]

/-! ## What a suspended task has left -/

/-- The bars it may still judge. -/
@[simp] def BarTask.barsLeft : BarTask → ℕ
  | .awaitQuote _ _ _ => 1
  | _ => 0

/-- The positions it may still open. -/
@[simp] def BarTask.entriesLeft : BarTask → ℕ
  | .awaitQuote _ _ _ | .awaitEntryAck _ _ _ => 1
  | _ => 0

/-- The segments until its `while` is left. -/
@[simp] def BarTask.segmentsLeft : BarTask → ℕ
  | .awaitBar => 1
  | .awaitQuote _ _ _ => 3
  | .awaitEntryAck _ _ _ | .awaitExitAck _ _ _ _ => 2
  | .ended => 0

/-- The SELLs it may still send; an iteration that has yet to begin sees what is `tracked`. -/
@[simp] def StopTask.sellsLeft (tracked : ℕ) : StopTask → ℕ
  | .sleeping _ => tracked
  | .awaitQuote _ _ rest => 1 + rest.length
  | .awaitSellAck _ rest _ => rest.length
  | .ended => 0

/-- A quote and an answer for each position. -/
@[simp] def StopTask.segmentsLeft (tracked : ℕ) : StopTask → ℕ
  | .sleeping _ => 1 + 2 * tracked
  | .awaitQuote _ _ rest => 2 + 2 * rest.length
  | .awaitSellAck _ rest _ => 1 + 2 * rest.length
  | .ended => 0

/-- More to find, more to do. -/
theorem StopTask.left_mono {t : StopTask} {m n : ℕ} (h : m ≤ n) :
    t.segmentsLeft m ≤ t.segmentsLeft n ∧ t.sellsLeft m ≤ t.sellsLeft n := by
  cases t with
  | sleeping => simp only [StopTask.segmentsLeft, StopTask.sellsLeft]; omega
  | awaitQuote | awaitSellAck | ended => exact ⟨le_rfl, le_rfl⟩

@[simp] def EodTask.segmentsLeft : EodTask → ℕ
  | .sleeping _ => 2
  | .awaitFlatten _ => 1
  | .ended => 0

@[simp] def ReconcileTask.segmentsLeft : ReconcileTask → ℕ
  | .sleeping _ => 2
  | .awaitPositions _ => 1
  | .ended => 0

/-- Two for each attempt that is left. -/
@[simp] def WatchdogTask.segmentsLeft (attempts : ℤ) : WatchdogTask → ℕ
  | .sleeping _ => 1 + 2 * attempts.toNat
  | .awaitFlatten attempt _ => 2 + 2 * (attempts - attempt).toNat
  | .delaying attempt _ => 1 + 2 * (attempts - attempt).toNat
  | .ended => 0

/-- The SELLs sent so far. -/
def sentSells : List Event → List SellOrder :=
  List.filterMap fun
    | .sellSubmitted o => some o
    | _ => none

namespace World

/-- The positions a poll may find: those tracked, and one the bar loop may still open. -/
def mayTrack (w : World) : ℕ := w.opens.items.length + w.barTask.entriesLeft

/-- The segments each loop has left. -/
def segmentsLeft (env : Env) (w : World) : Loop → ℕ
  | .bars => w.barTask.segmentsLeft
  | .stops => w.stopTask.segmentsLeft w.mayTrack
  | .eod => w.eodTask.segmentsLeft
  | .reconcile => w.reconcileTask.segmentsLeft
  | .watchdog => w.watchdogTask.segmentsLeft env.cfg.reconnectMaxAttempts

/-- The SELLs both loops have left. -/
def sellsLeft (w : World) : ℕ := w.barTask.barsLeft + w.stopTask.sellsLeft w.mayTrack

end World

/-- **What the moves `ms` from a stopped `w` to `w'` come to.** -/
structure WindsDown (env : Env) (w : World) (ms : List (Move World Label)) (w' : World) :
    Prop where
  stopped : w'.stopEvent = true
  segments : ∀ t, (ms.map fun m => m.label.cost t).sum ≤ w.segmentsLeft env t
  bars : (judgedBars (ms.flatMap World.recorded)).length ≤ w.barTask.barsLeft
  buys : (sentBuys (ms.flatMap World.recorded)).length ≤ w.barTask.barsLeft
  opened : (openedPositions (ms.flatMap World.recorded)).length ≤ w.barTask.entriesLeft
  sells : (sentSells (ms.flatMap World.recorded)).length ≤ w.sellsLeft
  tracked : w'.opens.items.length ≤ w.mayTrack

namespace World

variable {env : Env} {w w' : World}

/-! ## One step -/

/-- The event stays set. -/
theorem stopEvent_step {l : Label} (hr : Reached env w) (hstop : w.stopEvent = true)
    (hs : step env w l = some w') : w'.stopEvent = true := by
  by_cases hl : .stopEvent ∈ l.writes
  · cases l with
    | eodResume price =>
        obtain ⟨reply, -, ⟨-, rfl⟩ | ⟨acks, -, rfl⟩⟩ := eodResume_cases (task_some hs).2
        · exact hstop
        · rfl
    | stop => rw [← Option.some.inj hs]
    | _ => simp [Label.writes] at hl
  · have hsame : w'.stopEvent = w.stopEvent := (hr.footprint hs).same .stopEvent hl
    rw [hsame]
    exact hstop

/-- Only a quote makes the bar loop judge a bar or send an order. -/
theorem emits_judged {l : Label} (hl : ∀ quote, l ≠ .barQuote quote) :
    (∀ b s, l.emits (.onBar b s) = false) ∧ (∀ o, l.emits (.buySubmitted o) = false)
      ∧ (.barTask ∈ l.writes → ∀ o, l.emits (.sellSubmitted o) = false) := by
  cases l with
  | barQuote quote => exact absurd rfl (hl quote)
  | _ => simp [Label.emits, Label.writes]

theorem nothing_judged {l : Label} {es : List Event} (hes : ∀ e ∈ es, l.emits e = true)
    (hl : ∀ quote, l ≠ .barQuote quote) :
    judgedBars es = [] ∧ sentBuys es = [] ∧ (.barTask ∈ l.writes → sentSells es = []) := by
  obtain ⟨hj, hb, hsell⟩ := emits_judged hl
  refine ⟨List.filterMap_eq_nil_iff.mpr ?_, List.filterMap_eq_nil_iff.mpr ?_,
    fun hw => List.filterMap_eq_nil_iff.mpr ?_⟩
  · intro e he
    cases e with
    | onBar b s => exact absurd ((hj b s).symm.trans (hes _ he)) (by simp)
    | _ => rfl
  · intro e he
    cases e with
    | buySubmitted o => exact absurd ((hb o).symm.trans (hes _ he)) (by simp)
    | _ => rfl
  · intro e he
    cases e with
    | sellSubmitted o => exact absurd ((hsell hw o).symm.trans (hes _ he)) (by simp)
    | _ => rfl

/-- **What the bar loop pays** for a step that records `es`. -/
structure BarPaid (l : Label) (es : List Event) (t t' : BarTask) : Prop where
  segments : l.cost .bars + t'.segmentsLeft ≤ t.segmentsLeft
  bars : (judgedBars es).length + t'.barsLeft ≤ t.barsLeft
  buys : (sentBuys es).length + t'.barsLeft ≤ t.barsLeft
  entries : t'.entriesLeft ≤ t.entriesLeft
  sells : .barTask ∈ l.writes → (sentSells es).length + t'.barsLeft ≤ t.barsLeft

/-- A step that judges nothing. -/
theorem BarPaid.quiet {l : Label} {es : List Event} {t t' : BarTask}
    (hes : judgedBars es = [] ∧ sentBuys es = [] ∧ (.barTask ∈ l.writes → sentSells es = []))
    (hsegments : l.cost .bars + t'.segmentsLeft ≤ t.segmentsLeft)
    (hbars : t'.barsLeft ≤ t.barsLeft) (hentries : t'.entriesLeft ≤ t.entriesLeft) :
    BarPaid l es t t' := by
  obtain ⟨hj, hb, hsell⟩ := hes
  refine ⟨hsegments, ?_, ?_, hentries, fun hw => ?_⟩
  · rwa [hj, List.length_nil, Nat.zero_add]
  · rwa [hb, List.length_nil, Nat.zero_add]
  · rwa [hsell hw, List.length_nil, Nat.zero_add]

/--
**The bar loop pays for its segments, its orders and the bar it judges.**

With the event set a bar is taken only to end the loop. So there is at most the bar
whose quote is awaited, and of its signals at most one becomes an order, as none is
left over behind one.
-/
theorem barPaid_step {l : Label} {es : List Event} (hr : Reached env w)
    (hstop : w.stopEvent = true) (hs : step env w l = some w') (hlog : w'.log = w.log ++ es) :
    BarPaid l es w.barTask w'.barTask := by
  have hem : ∀ e ∈ es, l.emits e = true := fun e he => hr.emits hs hlog he
  by_cases hl : .barTask ∈ l.writes
  · cases l with
    | takeBar bar =>
        have hquiet := nothing_judged hem (by simp)
        obtain ⟨hb, ⟨-, rfl⟩ | ⟨hn, -, -⟩ | ⟨scan, hn, -, -, -⟩⟩ := takeBar_cases (task_some hs).2
        · rw [hb]
          exact .quiet hquiet (by simp) (by simp) (by simp)
        -- a bar is only taken while the event is not set
        · exact absurd (hstop.symm.trans hn) (by simp)
        · exact absurd (hstop.symm.trans hn) (by simp)
    | feedEnds =>
        have hquiet := nothing_judged hem (by simp)
        obtain ⟨hb, rfl⟩ := feedEnds_cases (task_some hs).2
        rw [hb]
        exact .quiet hquiet (by simp) (by simp) (by simp)
    | barQuote quote =>
        obtain ⟨bar, scan, l2, hb, ⟨-, rfl⟩ | ⟨-, hj⟩⟩ := barQuote_cases (task_some hs).2
        · have hnil : es = [] := by simpa using hlog
          rw [hb, hnil]
          exact ⟨by simp, by simp [judgedBars], by simp [sentBuys], by simp,
            by simp [sentSells]⟩
        · rw [hb]
          cases hj <;>
          · rw [← List.append_cancel_left hlog]
            exact ⟨by simp, by simp [judgedBars], by simp [sentBuys], by simp,
              by simp [sentSells]⟩
    | barResume =>
        have hquiet := nothing_judged hem (by simp)
        cases barResume_cases (noRest_reached hr) (task_some hs).2 with
        | buyRaised hb | buyRejected hb | opened hb | sellRaised hb | sellRejected hb
        | sold hb | soldTwice hb =>
            rw [hb]
            exact .quiet hquiet (by simp) (by simp) (by simp)
    | barAnswer reply filled =>
        have hquiet := nothing_judged hem (by simp)
        obtain ⟨o, rest, hb, -, -, rfl⟩ | ⟨o, bar, rest, hb, -, -, rfl⟩ := barAnswer_cases hs
        all_goals
          rw [hb]
          exact .quiet hquiet (by simp) (by simp) (by simp)
    | _ => simp [Label.writes] at hl
  · have hsame : w'.barTask = w.barTask := (hr.footprint hs).same .barTask hl
    have hquiet : judgedBars es = [] ∧ sentBuys es = []
        ∧ (.barTask ∈ l.writes → sentSells es = []) := by
      refine nothing_judged hem ?_
      rintro quote rfl
      exact hl (by simp [Label.writes])
    have hcost : l.cost .bars = 0 := Label.cost_eq_zero hl
    rw [hsame]
    exact .quiet hquiet (by rw [hcost, Nat.zero_add]) le_rfl le_rfl

/-- **Room for what is tracked** only shrinks; what is opened was counted in it. -/
theorem mayTrack_step {l : Label} (hr : Reached env w) (hstop : w.stopEvent = true)
    (hs : step env w l = some w') : w'.mayTrack ≤ w.mayTrack := by
  obtain ⟨es, hlog, -⟩ := (hr.footprint hs).log
  have hentries := (barPaid_step hr hstop hs hlog).entries
  unfold mayTrack
  rcases (step_book hr hs).opened_or with ⟨-, hold⟩ | ⟨o, ack, hb, -, hb', ho, -, -⟩
  · have hlen : w'.opens.items.length ≤ w.opens.items.length := by
      refine Dict.length_le_of_get? fun s p' hp' => ?_
      obtain ⟨p, -, hp, -⟩ := hold s p' hp'
      exact ⟨p, hp⟩
    omega
  · rw [ho, hb, hb']
    exact Dict.length_set_le ..

theorem opened_step {l : Label} {es : List Event} (hr : Reached env w)
    (hstop : w.stopEvent = true) (hs : step env w l = some w') (hlog : w'.log = w.log ++ es) :
    (openedPositions es).length + w'.barTask.entriesLeft ≤ w.barTask.entriesLeft := by
  have hentries := (barPaid_step hr hstop hs hlog).entries
  rcases (step_book hr hs).opened_or with ⟨hsame, -⟩ | ⟨o, ack, hb, -, hb', -, -, hmore⟩
  · rw [hlog, openedPositions_append] at hsame
    rw [List.append_right_eq_self.mp hsame]
    simpa using hentries
  · rw [hlog, openedPositions_append] at hmore
    rw [List.append_cancel_left hmore, hb, hb']
    simp

/-! ## The stop loop -/

variable (env) in
/-- Once the event is set, an iteration that is over is the last one. -/
theorem nextStop_left (hstop : w.stopEvent = true) (n : ℕ) (rest : List (Symbol × LivePosition)) :
    (nextStop env rest w).stopTask.segmentsLeft n = 2 * rest.length
      ∧ (nextStop env rest w).stopTask.sellsLeft n = rest.length := by
  cases rest with
  | nil => simp [nextStop, stopLoop, hstop]
  | cons b rest =>
      simp only [nextStop, StopTask.segmentsLeft, StopTask.sellsLeft, List.length_cons]
      omega

theorem sentSells_append (es fs : List Event) :
    sentSells (es ++ fs) = sentSells es ++ sentSells fs := List.filterMap_append

variable (env) in
theorem sentSells_nextStop (rest : List (Symbol × LivePosition)) :
    sentSells (nextStop env rest w).log = sentSells w.log := by
  obtain ⟨t, es, h, hes⟩ := nextStop_footprint env w rest
  have hnil : sentSells es = [] :=
    List.filterMap_eq_nil_iff.mpr fun e he => by rw [hes e he]
  rw [h, sentSells_append, hnil, List.append_nil]

/-- **What the stop loop pays** for a step that records `es`. -/
structure StopPaid (l : Label) (es : List Event) (w w' : World) : Prop where
  segments : l.cost .stops + w'.stopTask.segmentsLeft w'.mayTrack
    ≤ w.stopTask.segmentsLeft w.mayTrack
  keeps : w'.stopTask.sellsLeft w'.mayTrack ≤ w.stopTask.sellsLeft w.mayTrack
  sells : .barTask ∉ l.writes →
    (sentSells es).length + w'.stopTask.sellsLeft w'.mayTrack ≤ w.stopTask.sellsLeft w.mayTrack

/-- A step that sends no SELL. -/
theorem StopPaid.quiet {l : Label} {es : List Event} (hes : .barTask ∉ l.writes → sentSells es = [])
    (hsegments : l.cost .stops + w'.stopTask.segmentsLeft w'.mayTrack
      ≤ w.stopTask.segmentsLeft w.mayTrack)
    (hkeeps : w'.stopTask.sellsLeft w'.mayTrack ≤ w.stopTask.sellsLeft w.mayTrack) :
    StopPaid l es w w' :=
  ⟨hsegments, hkeeps, fun hl => by rwa [hes hl, List.length_nil, Nat.zero_add]⟩

/-- On to what is left of the iteration. -/
theorem StopPaid.next {l : Label} {es : List Event} {u : World} (hu : u.stopEvent = true)
    {rest : List (Symbol × LivePosition)} (hes : sentSells es = [])
    (hsegments : l.cost .stops + 2 * rest.length ≤ w.stopTask.segmentsLeft w.mayTrack)
    (hsells : rest.length ≤ w.stopTask.sellsLeft w.mayTrack) :
    StopPaid l es w (nextStop env rest u) := by
  obtain ⟨hsegs, hsell⟩ := nextStop_left env hu (nextStop env rest u).mayTrack rest
  exact .quiet (fun _ => hes) (hsegs.symm ▸ hsegments) (hsell.symm ▸ hsells)

/-- Only a quote makes the stop loop send a SELL. -/
theorem nothing_sold {l : Label} {es : List Event} (hes : ∀ e ∈ es, l.emits e = true)
    (hb : .barTask ∉ l.writes) (hl : ∀ quote, l ≠ .stopQuote quote) : sentSells es = [] := by
  have hnot : ∀ o, l.emits (.sellSubmitted o) = false := by
    cases l with
    | barQuote quote => exact absurd (by simp [Label.writes]) hb
    | stopQuote quote => exact absurd rfl (hl quote)
    | _ => exact fun o => rfl
  refine List.filterMap_eq_nil_iff.mpr fun e he => ?_
  cases e with
  | sellSubmitted o => exact absurd ((hnot o).symm.trans (hes _ he)) (by simp)
  | _ => rfl

/--
**The stop loop pays for its segments, and for each SELL it sends.**

What it is still good for is read off the place it is suspended at: two segments and
one SELL for each position left in its iteration. From its sleep it wakes for one more
iteration over what is tracked by then, and after that the event ends it.
-/
theorem stopPaid_step {l : Label} {es : List Event} (hr : Reached env w)
    (hstop : w.stopEvent = true) (hs : step env w l = some w') (hlog : w'.log = w.log ++ es) :
    StopPaid l es w w' := by
  have hem : ∀ e ∈ es, l.emits e = true := fun e he => hr.emits hs hlog he
  by_cases hl : .stopTask ∈ l.writes
  · cases l with
    | stopWake =>
        have hquiet := nothing_sold hem (by simp [Label.writes]) (by simp)
        obtain ⟨due, ht, -, ⟨-, rfl⟩ | ⟨-, rfl⟩⟩ := stopWake_cases (task_some hs).2
        · refine .next ?_ hquiet ?_ ?_
          · exact hstop
          · simp [ht]
          · simp
        · refine .next ?_ hquiet ?_ ?_
          · exact hstop
          · simp only [ht, mayTrack, Label.cost, Label.loop, StopTask.segmentsLeft, if_pos]
            omega
          · simp [ht, mayTrack]
    | stopQuote quote =>
        obtain ⟨symbol, pos, rest, ht, hq⟩ := stopQuote_cases (task_some hs).2
        -- a position that is held, or has no quote, is passed over
        have hpass : ∀ {u : World}, u.stopEvent = true → sentSells u.log = sentSells w.log →
            w' = nextStop env rest u → StopPaid (.stopQuote quote) es w w' := by
          rintro u hu hul rfl
          refine .next hu ?_ ?_ ?_
          · have hsent := sentSells_nextStop env (w := u) rest
            rw [hlog, sentSells_append, hul] at hsent
            exact List.append_right_eq_self.mp hsent
          · simp only [ht, Label.cost, Label.loop, StopTask.segmentsLeft, if_pos]
            omega
          · simp [ht]
        cases hq with
        | raised | held =>
            refine hpass ?_ ?_ rfl
            · exact hstop
            · exact (sentSells_append ..).trans (List.append_nil _)
        | fired =>
            rw [← List.append_cancel_left hlog]
            refine ⟨?_, ?_, fun _ => ?_⟩
            · simp only [ht, Label.cost, Label.loop, StopTask.segmentsLeft, if_pos]
              omega
            · simp [ht]
            · simp [ht, sentSells]
    | stopResume =>
        have hquiet := nothing_sold hem (by simp [Label.writes]) (by simp)
        obtain ⟨o, rest, reply, ht, hq⟩ := stopResume_cases (task_some hs).2
        cases hq with
        | refused | sold | soldTwice =>
            refine .next ?_ hquiet ?_ ?_
            · exact hstop
            · simp [ht]
            · simp [ht]
    | stopAnswer reply filled =>
        have hquiet := nothing_sold hem (by simp [Label.writes]) (by simp)
        obtain ⟨o, rest, ht, -, -, rfl⟩ := stopAnswer_cases hs
        exact .quiet (fun _ => hquiet) (by simp [ht]) (by simp [ht])
    | _ => simp [Label.writes] at hl
  · have hsame : w'.stopTask = w.stopTask := (hr.footprint hs).same .stopTask hl
    have hmono := w.stopTask.left_mono (mayTrack_step hr hstop hs)
    have hcost : l.cost .stops = 0 := Label.cost_eq_zero hl
    refine .quiet (fun hb => nothing_sold hem hb ?_) ?_ ?_
    · rintro quote rfl
      exact hl (by simp [Label.writes])
    · rw [hcost, Nat.zero_add, hsame]
      exact hmono.1
    · rw [hsame]
      exact hmono.2

/-! ## The loops that flatten and compare -/

theorem eodPaid_step {l : Label} (hr : Reached env w) (hstop : w.stopEvent = true)
    (hs : step env w l = some w') :
    l.cost .eod + w'.eodTask.segmentsLeft ≤ w.eodTask.segmentsLeft := by
  by_cases hl : .eodTask ∈ l.writes
  · cases l with
    | eodWake =>
        obtain ⟨⟨due, ht⟩, ⟨-, rfl⟩ | rfl⟩ := eodWake_cases (task_some hs).2
        · simp [ht]
        · -- it wakes once more, and ends
          simp [ht, eodLoop, hstop]
    | eodResume price =>
        -- a flatten under way returns once
        obtain ⟨reply, ht, ⟨-, rfl⟩ | ⟨acks, -, rfl⟩⟩ := eodResume_cases (task_some hs).2
        · simp [ht]
        · simp [ht]
    | eodAnswer reply closed =>
        obtain ⟨ht, -, rfl⟩ := eodAnswer_cases hs
        simp [ht]
    | _ => simp [Label.writes] at hl
  · have hsame : w'.eodTask = w.eodTask := (hr.footprint hs).same .eodTask hl
    have hcost : l.cost .eod = 0 := Label.cost_eq_zero hl
    rw [hsame, hcost, Nat.zero_add]

theorem reconcilePaid_step {l : Label} (hr : Reached env w) (hstop : w.stopEvent = true)
    (hs : step env w l = some w') :
    l.cost .reconcile + w'.reconcileTask.segmentsLeft ≤ w.reconcileTask.segmentsLeft := by
  by_cases hl : .reconcileTask ∈ l.writes
  · cases l with
    | reconcileWake =>
        obtain ⟨⟨due, ht⟩, rfl | rfl⟩ := reconcileWake_cases (task_some hs).2
        · simp [ht]
        · simp [ht, reconcileLoop, hstop]
    | reconcileResume price =>
        obtain ⟨reply, ht, rfl⟩ := reconcileResume_cases (task_some hs).2
        simp [ht, reconcileLoop, hstop]
    | reconcileAnswer ok =>
        obtain ⟨ht, rfl⟩ := reconcileAnswer_cases hs
        simp [ht]
    | _ => simp [Label.writes] at hl
  · have hsame : w'.reconcileTask = w.reconcileTask := (hr.footprint hs).same .reconcileTask hl
    have hcost : l.cost .reconcile = 0 := Label.cost_eq_zero hl
    rw [hsame, hcost, Nat.zero_add]

/-- An attempt to flatten is one of those configured. -/
theorem watchdogWake_attempt {attempt : ℤ} {call : Call (List OrderAck)}
    (hs : watchdogWake env w = some w') (ht : w'.watchdogTask = .awaitFlatten attempt call) :
    attempt ≤ env.cfg.reconnectMaxAttempts := by
  -- a flatten is only tried while attempts are left
  have htry : ∀ (n : ℤ) (u : World),
      (tryFlatten env n u).watchdogTask = .awaitFlatten attempt call →
      attempt ≤ env.cfg.reconnectMaxAttempts := by
    intro n u hu
    unfold tryFlatten at hu
    split at hu
    · rename_i hn
      obtain ⟨rfl, -⟩ := WatchdogTask.awaitFlatten.inj hu
      exact hn
    · unfold watchdogLoop at hu
      split at hu <;> exact absurd hu (by simp)
  have hloop : ∀ u : World, watchdogLoop env u ≠ .awaitFlatten attempt call := by
    intro u
    unfold watchdogLoop
    split <;> simp
  unfold watchdogWake at hs
  split at hs
  · split at hs
    · exact absurd hs (by simp)
    · split at hs
      · -- stopped, or nothing to do: back to the loop
        exact absurd ht (Option.some.inj hs ▸ hloop _)
      · dsimp only at hs
        split at hs
        · split at hs
          · exact absurd ht (Option.some.inj hs ▸ hloop _)
          · exact absurd ht (Option.some.inj hs ▸ hloop _)
        · split at hs
          · exact absurd ht (Option.some.inj hs ▸ hloop _)
          · -- the first attempt
            exact htry _ _ (Option.some.inj hs ▸ ht)
  · split at hs
    · exact absurd hs (by simp)
    · -- another one
      exact htry _ _ (Option.some.inj hs ▸ ht)
  · exact absurd hs (by simp)

theorem watchdogPaid_step {l : Label} (hr : Reached env w) (hstop : w.stopEvent = true)
    (hs : step env w l = some w') :
    l.cost .watchdog + w'.watchdogTask.segmentsLeft env.cfg.reconnectMaxAttempts
      ≤ w.watchdogTask.segmentsLeft env.cfg.reconnectMaxAttempts := by
  by_cases hl : .watchdogTask ∈ l.writes
  · cases l with
    | watchdogWake =>
        have hwake := (task_some hs).2
        cases watchdogWake_cases hwake with
        | quiet ht | thaws ht | freezes ht | givesUp ht => simp [ht, watchdogLoop, hstop]
        -- the attempt it is at bounds those that are left
        | flattens ht =>
            have := watchdogWake_attempt hwake rfl
            simp only [ht, Label.cost, Label.loop, WatchdogTask.segmentsLeft, if_pos]
            omega
        | retries ht =>
            have := watchdogWake_attempt hwake rfl
            simp only [ht, Label.cost, Label.loop, WatchdogTask.segmentsLeft, if_pos]
            omega
    | watchdogResume price =>
        obtain ⟨attempt, reply, ht, ⟨-, rfl⟩ | ⟨ack, acks, -, rfl⟩⟩ :=
          watchdogResume_cases (task_some hs).2
        · -- no answer: it waits to try again
          simp only [ht, Label.cost, Label.loop, WatchdogTask.segmentsLeft, if_pos]
          omega
        · simp [ht, watchdogLoop, hstop]
          omega
    | watchdogAnswer reply closed =>
        obtain ⟨attempt, ht, -, rfl⟩ := watchdogAnswer_cases hs
        simp [ht]
    | _ => simp [Label.writes] at hl
  · have hsame : w'.watchdogTask = w.watchdogTask := (hr.footprint hs).same .watchdogTask hl
    have hcost : l.cost .watchdog = 0 := Label.cost_eq_zero hl
    rw [hsame, hcost, Nat.zero_add]

/-! ## Runs -/

theorem segments_step {l : Label} (hr : Reached env w) (hstop : w.stopEvent = true)
    (hs : step env w l = some w') (t : Loop) :
    l.cost t + w'.segmentsLeft env t ≤ w.segmentsLeft env t := by
  obtain ⟨es, hlog, -⟩ := (hr.footprint hs).log
  cases t with
  | bars => exact (barPaid_step hr hstop hs hlog).segments
  | stops => exact (stopPaid_step hr hstop hs hlog).segments
  | eod => exact eodPaid_step hr hstop hs
  | reconcile => exact reconcilePaid_step hr hstop hs
  | watchdog => exact watchdogPaid_step hr hstop hs

theorem sellsLeft_step {l : Label} {es : List Event} (hr : Reached env w)
    (hstop : w.stopEvent = true) (hs : step env w l = some w') (hlog : w'.log = w.log ++ es) :
    (sentSells es).length + w'.sellsLeft ≤ w.sellsLeft := by
  have hbar := barPaid_step hr hstop hs hlog
  have hloop := stopPaid_step hr hstop hs hlog
  unfold sellsLeft
  by_cases hl : .barTask ∈ l.writes
  · have := hbar.sells hl
    have := hloop.keeps
    omega
  · have := hbar.bars
    have := hloop.sells hl
    omega

/-- What a stopped session records is paid for, kind by kind. -/
theorem recorded_paid {α : Type} (f : Event → Option α) (left : World → ℕ)
    (hstep : ∀ {u u' : World} {l : Label} {es : List Event}, Reached env u → u.stopEvent = true →
      step env u l = some u' → u'.log = u.log ++ es →
      (es.filterMap f).length + left u' ≤ left u)
    (hr : Reached env w) (hstop : w.stopEvent = true) {ms : List (Move World Label)}
    (h : Run (step env) w ms w') :
    ((ms.flatMap recorded).filterMap f).length + left w' ≤ left w := by
  have hsum : ((ms.flatMap recorded).filterMap f).length
      = (ms.map fun m => ((recorded m).filterMap f).length).sum := by
    rw [List.filterMap_flatMap, List.length_flatMap]
  rw [hsum]
  refine (h.paid (I := fun u => Reached env u ∧ u.stopEvent = true) _ left ⟨hr, hstop⟩ ?_).2
  rintro u l u' ⟨hu, hus⟩ hs
  obtain ⟨es, hlog, -⟩ := (hu.footprint hs).log
  refine ⟨⟨hu.next hs, stopEvent_step hu hus hs⟩, ?_⟩
  rw [recorded_of_log (m := ⟨u, l, u'⟩) hlog]
  exact hstep hu hus hs hlog

end World

/-- **A stopped session winds down.** From any reachable world in which the event is set, whatever
the order of the steps and the broker's answers, each loop does no more than what its suspension
leaves it: at most one more bar is judged, one BUY sent and one position opened. -/
theorem stopped_windsDown {env : Env} {w w' : World} (hr : World.Reached env w)
    (hstop : w.stopEvent = true) {ms : List (Move World Label)}
    (h : Run (World.step env) w ms w') : WindsDown env w ms w' := by
  have hstep : ∀ (u : World) (l : Label) (u' : World),
      World.Reached env u ∧ u.stopEvent = true → World.step env u l = some u' →
      World.Reached env u' ∧ u'.stopEvent = true :=
    fun u l u' hu hs => ⟨hu.1.next hs, World.stopEvent_step hu.1 hu.2 hs⟩
  obtain ⟨hend, htracked⟩ := h.paid (fun _ => 0) World.mayTrack ⟨hr, hstop⟩ fun u l u' hu hs =>
    ⟨hstep u l u' hu hs, (Nat.zero_add _).trans_le (World.mayTrack_step hu.1 hu.2 hs)⟩
  refine ⟨hend.2, ?_, ?_, ?_, ?_, ?_, ?_⟩
  · -- each loop pays for its segments with those it had left
    intro t
    have hpaid := (h.paid (fun m => m.label.cost t) (fun u => u.segmentsLeft env t) ⟨hr, hstop⟩
      fun u l u' hu hs => ⟨hstep u l u' hu hs, World.segments_step hu.1 hu.2 hs t⟩).2
    omega
  · -- a bar that is judged was the last one awaited
    have hpaid := World.recorded_paid _ (fun u => u.barTask.barsLeft)
      (fun hu hus hs hlog => (World.barPaid_step hu hus hs hlog).bars) hr hstop h
    exact le_trans (Nat.le_add_right ..) hpaid
  · have hpaid := World.recorded_paid _ (fun u => u.barTask.barsLeft)
      (fun hu hus hs hlog => (World.barPaid_step hu hus hs hlog).buys) hr hstop h
    exact le_trans (Nat.le_add_right ..) hpaid
  · -- a position is opened of an order that was sent
    have hpaid := World.recorded_paid _ (fun u => u.barTask.entriesLeft)
      (fun hu hus hs hlog => World.opened_step hu hus hs hlog) hr hstop h
    exact le_trans (Nat.le_add_right ..) hpaid
  · have hpaid := World.recorded_paid _ (fun u => u.sellsLeft)
      (fun hu hus hs hlog => World.sellsLeft_step hu hus hs hlog) hr hstop h
    exact le_trans (Nat.le_add_right ..) hpaid
  · -- tracked now, or on its way to be
    unfold World.mayTrack at htracked ⊢
    omega

/-- The session is stopped while the breakout bar waits for its quote. -/
def stoppedMidway : LiveRun tradingDay := play (beforeBreakout ++ [.stop])

/-- The quote comes all the same. -/
def afterStop : Execution (World.step tradingDay) stoppedMidway.final :=
  (Execution.start _ _).play (breakout 100)

/-- The breakout is bought after the stop, and nothing more. -/
theorem stopped_windsDown_midway : afterStop.final.opens.items.length = 1
    ∧ WindsDown tradingDay stoppedMidway.final afterStop.moves afterStop.final :=
  ⟨by decide +kernel, stopped_windsDown (stoppedMidway.reachable stoppedMidway.visits_final)
    (by decide +kernel) afterStop.run⟩

end RossBot
