import RossBot.Live.Book
import RossBot.Paper.Stores

/-!
# How the paper session lets go of a position

Three paths of `core/backtest/paper_session.py` drop a position: an exit signal,
the mental stop, and the flatten before the close. The first waits for an
accepted sell. The second takes whatever the broker answers for a success, so
one refusal is enough to drop a position the broker still holds. The third is
never taken: the loop reads a naive clock, the conversion to Eastern Time rejects
it, and the task is over at its first wake.
-/

namespace RossBot.Paper

open Lib Paper.World

/-! ## A paper trading day -/

/-- The live trading day, on paper. The machine stands in New York. -/
def paperDay : Env where
  cfg := tradingDay.cfg
  symbols := tradingDay.symbols
  scanResults := tradingDay.scanResults
  l2Signals := tradingDay.l2Signals
  marketState := tradingDay.marketState
  equity := tradingDay.equity
  timeOfDay := tradingDay.timeOfDay
  dayOfWeek := tradingDay.dayOfWeek
  localOffset := fun _ => -18000
  startTime := tradingDay.startTime

/-- Everything up to the breakout, which is bought. -/
def breakoutBought : List Label :=
  (List.range 30).flatMap (fun i =>
    [.takeBar (minuteBar i 1000 1000 1000 1000 1000), .barQuote (bidAsk 998 1003)])
  ++ [.takeBar (minuteBar 30 1000 1020 1000 1020 3000), .barQuote (bidAsk 1018 1023),
    .takeBar (minuteBar 31 1020 1040 1020 1040 3000), .barQuote (bidAsk 1038 1043),
    .takeBar (minuteBar 32 1040 1040 1028 1030 1000), .barQuote (bidAsk 1028 1033),
    .takeBar (minuteBar 33 1030 1046 1030 1045 3000), .barQuote (bidAsk 1042 1047),
    .barAnswer acceptedAck, .barResume]

/-- A run of the paper day. -/
def playPaper (labels : List Label) : PaperRun paperDay := (Execution.start _ _).play labels

/-! ## The flatten before the close -/

/-- The loop has sent the flatten, and once it is answered nothing is held any more. -/
def Flattens (env : Env) (w : World) : Prop :=
  w.eodTask = .awaitFlatten .sent
    ∧ ∀ acks, ∃ w', eodResume env { w with eodTask := .awaitFlatten (.answered (some acks)) }
        = some w' ∧ Flat w'

/-- The iteration of the EOD loop that begins in this state flattens. -/
def FlattensAtEod (env : Env) (w : World) : Prop := ∃ w', eodWake env w = some w' ∧ Flattens env w'

section EodFlatten

variable {env : Env} {w w' : World}

/-- The datetime the loop reads is naive, whatever the time. -/
theorem etTime_now (env : Env) (t : Time) :
    etTime env (.now env t)
      = .error "naive datetime is not allowed; all times must be tz-aware" := rfl

/-- So the iteration raises before it has looked at the time or at `_open`. -/
theorem eodWakeAt_now (env : Env) (w : World) :
    eodWakeAt env (.now env w.clock) w = { w with eodTask := .raised } := by
  unfold eodWakeAt riskShouldFlattenEod
  rw [etTime_now]
  rfl

/-- With the clock the rest of the system reads, the same iteration flattens. -/
theorem flattens_nowUtc (hcopies : CopiesTracked w)
    (heod : shouldFlattenEod (env.timeOfDay w.clock) env.cfg = true) (hopen : w.opens.items ≠ []) :
    Flattens env (eodWakeAt env (.nowUtc w.clock) w) := by
  have het : riskShouldFlattenEod env (.nowUtc w.clock) = .ok true := by
    have hday : riskShouldFlattenEod env (.nowUtc w.clock)
        = .ok (shouldFlattenEod (env.timeOfDay (w.clock - 0)) env.cfg) := rfl
    rw [hday, sub_zero, heod]
  have hwake : eodWakeAt env (.nowUtc w.clock) w = { w with eodTask := .awaitFlatten .sent } := by
    unfold eodWakeAt
    rw [het]
    exact if_pos ⟨rfl, hopen⟩
  rw [hwake]
  refine ⟨rfl, ?_⟩
  intro acks
  have hflat : Flat (closeAll env { w with eodTask := .awaitFlatten (.answered (some acks)) }) :=
    flat_closeAll env hcopies
  exact ⟨_, rfl, hflat.opens, hflat.engine, hflat.risk⟩

/-- The loop never gets as far as its broker call. -/
def FlattenUnsent (w : World) : Prop := ∀ call, w.eodTask ≠ .awaitFlatten call

theorem FlattenUnsent.nextStop (h : FlattenUnsent w) (rest : List (Symbol × LivePosition)) :
    FlattenUnsent (nextStop rest w) := by
  obtain ⟨t, ht⟩ := nextStop_footprint w rest
  rw [ht]
  exact h

theorem flattenUnsent_step {l : Label} (h : FlattenUnsent w) (hs : step env w l = some w') :
    FlattenUnsent w' := by
  cases step_stepped hs with
  | clockRejected =>
      -- the one step that could send the flatten raises instead
      intro call hcall
      exact absurd hcall (by simp)
  | eodAnswered hsent | flattenRaised hsent | flattened hsent => exact absurd hsent (h _)
  | polled | passed | sellRaised => exact h.nextStop _
  | stoppedOut => exact FlattenUnsent.nextStop (w := w.retire env _) h _
  | _ => exact h

/-- **In no run does the session flatten.** -/
theorem flattenUnsent_reached (hr : Reachable (step env) (init env) w) : FlattenUnsent w := by
  refine hr.invariant ?_ fun _ _ _ _ h hs => flattenUnsent_step h hs
  intro call h
  exact absurd h (by simp [init])

end EodFlatten

/-- **No iteration of the EOD loop flattens**: at every time of the day and whatever is open, the
clock it reads makes `should_flatten_eod` raise, and the task is over. -/
theorem eodLoop_never_flattens (env : Env) (w : World) (due : Time)
    (hsleep : w.eodTask = .sleeping due) (hdue : due ≤ w.clock) :
    eodWake env w = some { w with eodTask := .raised } ∧ ¬ FlattensAtEod env w := by
  have hwake : eodWake env w = some { w with eodTask := .raised } := by
    unfold eodWake
    rw [hsleep]
    exact (if_neg (not_lt.mpr hdue)).trans (congrArg some (eodWakeAt_now env w))
  refine ⟨hwake, ?_⟩
  rintro ⟨w', hw', hsent, -⟩
  rw [hwake] at hw'
  rw [← Option.some.inj hw'] at hsent
  exact absurd hsent (by simp)

/-- The position is still held at 15:55. -/
def heldAtClose : PaperRun paperDay := playPaper (breakoutBought ++ [.tick 23100])

/-- When the EOD loop wakes next. -/
def EodTask.due : EodTask → Option Time
  | .sleeping due => some due
  | _ => none

theorem EodTask.eq_sleeping {t : EodTask} {due : Time} (h : t.due = some due) :
    t = .sleeping due := by
  cases t with
  | sleeping d => rw [Option.some.inj h]
  | _ => exact absurd h (by simp [EodTask.due])

/-- The loop is due there, and raises. -/
theorem eodLoop_never_flattens_heldAtClose :
    eodWake paperDay heldAtClose.final = some { heldAtClose.final with eodTask := .raised }
      ∧ ¬ FlattensAtEod paperDay heldAtClose.final := by
  have hsleep : heldAtClose.final.eodTask.due = some (openingBell + 10) := by decide +kernel
  have hdue : openingBell + 10 ≤ heldAtClose.final.clock := by decide +kernel
  exact eodLoop_never_flattens paperDay heldAtClose.final (openingBell + 10)
    (EodTask.eq_sleeping hsleep) hdue

/-- It is time to flatten and a position is open, but the iteration does not flatten. -/
theorem heldAtClose_not_flattened :
    shouldFlattenEod (paperDay.timeOfDay heldAtClose.final.clock) paperDay.cfg = true
      ∧ heldAtClose.final.opens.contains "TEST" = true
      ∧ ¬ FlattensAtEod paperDay heldAtClose.final := by
  refine ⟨by decide +kernel, by decide +kernel, ?_⟩
  rintro ⟨w', hw', hsent, -⟩
  cases eodWake_stepped hw' with
  | clockRejected => exact absurd hsent (by simp)
  | barMoved hbar => exact absurd hbar (by simp [Label.ofBarLoop])

/-! ## The mental stop -/

/-- A step of the mental-stop loop. -/
def Label.ofStopLoop : Label → Bool
  | .stopWake | .stopQuote _ | .stopResume => true
  | _ => false

/-- The sell whose answer the mental-stop loop reads in this move. -/
def stopSale (m : Move World Label) : Option (SellOrder × Option OrderAck) :=
  match m.label, m.pre.stopTask with
  | .stopResume, .awaitSellAck order _ (.answered reply) => some (order, reply)
  | _, _ => none

/-- The mental-stop loop learns that a sell of this symbol was accepted. -/
def SoldAt (m : Move World Label) (s : Symbol) : Prop :=
  ∃ order ack, stopSale m = some (order, some ack) ∧ order.symbol = s ∧ ack.accepted = true

/-- The three stores hold for a symbol what they held. -/
structure KeepsAt (s : Symbol) (w w' : World) : Prop where
  opens : w'.opens.get? s = w.opens.get? s
  engine : w'.engine.position s = w.engine.position s
  risk : w'.risk.openPositions.get? s = w.risk.openPositions.get? s

/-- What the iteration in progress has still to ask for. -/
def StopTask.queue : StopTask → List (Symbol × LivePosition)
  | .awaitQuote symbol pos rest => (symbol, pos) :: rest
  | .awaitSellAck _ rest _ => rest
  | .sleeping _ | .ended => []

/-- What is still to be asked for after a step: a poll takes up whatever is tracked then, and a
quote is that of the first in the queue. -/
def queueAfter (m : Move World Label) : List (Symbol × LivePosition) :=
  match m.label with
  | .stopWake => m.pre.opens.items
  | .stopQuote _ => m.pre.stopTask.queue.tail
  | _ => m.pre.stopTask.queue

/-- **The mental stop drops a position only after an accepted sell.** -/
structure SellsFirst {env : Env} (x : PaperRun env) : Prop where
  /-- What the loop has not sold stays in all three stores, whatever it was answered. -/
  keeps : ∀ m ∈ x.moves, m.label.ofStopLoop = true → ∀ s, ¬ SoldAt m s → KeepsAt s m.pre m.post
  /-- So the next poll takes it up again, and passes over nothing. -/
  polls : ∀ m ∈ x.moves, m.post.stopTask.queue = queueAfter m
  /-- With its bid still at or below its stop, it is sold again. -/
  fires : ∀ m ∈ x.moves, ∀ q s p rest, m.label = .stopQuote (some q) →
    m.pre.stopTask = .awaitQuote s p rest → q.bid.val ≤ p.stopPrice.val →
    m.post.stopTask = .awaitSellAck (stopOrder s p q.bid.val) rest .sent

/-- The mental-stop loop reads that its sell of a tracked symbol was rejected. -/
def readsRefusal (m : Move World Label) : Bool :=
  match stopSale m with
  | some (order, some ack) => !ack.accepted && m.pre.opens.contains order.symbol
  | _ => false

section MentalStop

variable {env : Env} {w w' : World}

/-- A step is of one loop only. -/
theorem notBarLoop_of_stopLoop {l : Label} (h : l.ofStopLoop = true) : l.ofBarLoop = false := by
  cases l with
  | stopWake | stopQuote | stopResume => rfl
  | _ => exact absurd h (by simp [Label.ofStopLoop])

/-- The answer that waits for the loop is the one it reads. -/
theorem stopSale_of_answered {order : SellOrder} {rest : List (Symbol × LivePosition)}
    {reply : Option OrderAck} (hst : w.stopTask = .awaitSellAck order rest (.answered reply)) :
    stopSale ⟨w, .stopResume, w'⟩ = some (order, reply) := by
  simp only [stopSale, hst]

/-- Going on with an iteration drops nothing. -/
theorem KeepsAt.nextStop {s : Symbol} (h : KeepsAt s w w')
    (rest : List (Symbol × LivePosition)) : KeepsAt s w (nextStop rest w') := by
  obtain ⟨t, ht⟩ := nextStop_footprint w' rest
  rw [ht]
  exact ⟨h.opens, h.engine, h.risk⟩

/-- Letting go of a symbol that is not tracked, or of another one, keeps what is held. -/
theorem keepsAt_retire {s symbol : Symbol} (hcopies : CopiesTracked w)
    (h : s = symbol → w.opens.get? symbol = none) : KeepsAt s w (w.retire env symbol) := by
  obtain ⟨ho, he, hr⟩ := retire_at env w symbol s
  by_cases hs : s = symbol
  · subst hs
    have hn := h rfl
    obtain ⟨heng, hrisk⟩ := hcopies s hn
    exact ⟨by rw [ho, hn, if_pos rfl], by rw [he, heng, if_pos rfl], by rw [hr, hrisk, if_pos rfl]⟩
  · exact ⟨by rw [ho, if_neg hs], by rw [he, if_neg hs], by rw [hr, if_neg hs]⟩

/-- The loop drops only what was sold, unless it reads a refusal of a tracked symbol. -/
theorem keepsAt_step {l : Label} (hcopies : CopiesTracked w) (hs : step env w l = some w')
    (hl : l.ofStopLoop = true) (href : readsRefusal ⟨w, l, w'⟩ = false) {s : Symbol}
    (hsold : ¬ SoldAt ⟨w, l, w'⟩ s) : KeepsAt s w w' := by
  have hrefl : KeepsAt s w w := ⟨rfl, rfl, rfl⟩
  cases step_stepped hs with
  | polled | passed | sellRaised => exact hrefl.nextStop _
  | fired => exact ⟨rfl, rfl, rfl⟩
  | @stoppedOut order rest ack hst =>
      refine KeepsAt.nextStop (keepsAt_retire hcopies ?_) rest
      intro hs
      -- not accepted, or it would have been sold
      have hacc : ack.accepted = false := by
        cases hack : ack.accepted with
        | false => rfl
        | true => exact absurd ⟨order, ack, stopSale_of_answered hst, hs.symm, hack⟩ hsold
      rw [readsRefusal, stopSale_of_answered hst] at href
      simp only [hacc, Bool.not_false, Bool.true_and] at href
      exact Dict.contains_eq_false.mp href
  | barMoved hbar =>
      rw [notBarLoop_of_stopLoop hl] at hbar
      exact absurd hbar (by simp)
  | _ => exact absurd hl (by simp [Label.ofStopLoop])

/-- A refusal that is read drops the position. -/
theorem dropped_of_readsRefusal {l : Label} (hs : step env w l = some w')
    (href : readsRefusal ⟨w, l, w'⟩ = true) :
    ∃ s, l.ofStopLoop = true ∧ ¬ SoldAt ⟨w, l, w'⟩ s ∧ ¬ KeepsAt s w w' := by
  cases l with
  | stopResume =>
      cases step_stepped hs with
      | sellRaised hst => exact absurd href (by simp [readsRefusal, stopSale_of_answered hst])
      | @stoppedOut order rest ack hst =>
          rw [readsRefusal, stopSale_of_answered hst] at href
          obtain ⟨hrej, hcon⟩ := (Bool.and_eq_true _ _).mp href
          -- the sale was refused, and `_stop_loop` retires the position all the same
          refine ⟨order.symbol, rfl, ?_, ?_⟩
          · -- no sale on the symbol was accepted
            rintro ⟨order', ack', hsale, -, hacc⟩
            rw [stopSale_of_answered hst] at hsale
            obtain ⟨-, hack⟩ := Prod.mk.inj (Option.some.inj hsale)
            rw [← Option.some.inj hack] at hacc
            rw [hacc] at hrej
            exact absurd hrej (by simp)
          · -- the position is gone from the book, so nothing was kept
            intro hkeep
            -- whatever the loop looks at next leaves the book alone
            obtain ⟨t, ht⟩ := nextStop_footprint (w.retire env order.symbol) rest
            have hgone : (nextStop rest (w.retire env order.symbol)).opens.get? order.symbol
                = none := by
              rw [ht]
              exact Dict.get?_erase_self ..
            obtain ⟨p, hp⟩ := Dict.contains_iff.mp hcon
            rw [hkeep.opens, hp] at hgone
            exact absurd hgone (by simp)
      | barMoved hbar => exact absurd hbar (by simp [Label.ofBarLoop])
  | _ => exact absurd href (by simp [readsRefusal, stopSale])

/-- Going on with an iteration leaves the rest of it to be asked for. -/
theorem queue_nextStop (rest : List (Symbol × LivePosition)) :
    (nextStop rest w).stopTask.queue = rest := by
  cases rest with
  | nil =>
      change (stopLoop w).queue = []
      unfold stopLoop
      split <;> rfl
  | cons b rest => rfl

theorem stopTask_closeAll : (closeAll env w).stopTask = w.stopTask :=
  foldl_invariant (f := recordClose env) (I := fun v => v.stopTask = w.stopTask) rfl
    (fun _ _ h => h) w.opens.keys

/-- **No step passes over a position.** -/
theorem queue_step {l : Label} (hs : step env w l = some w') :
    w'.stopTask.queue = queueAfter ⟨w, l, w'⟩ := by
  cases step_stepped hs with
  | polled => exact queue_nextStop _
  | passed hst | sellRaised hst | stoppedOut hst =>
      rw [queue_nextStop, queueAfter, hst]; rfl
  | fired hst | stopAnswered hst => rw [queueAfter, hst]; rfl
  | flattened => exact congrArg StopTask.queue stopTask_closeAll
  | barMoved hbar => cases l <;> first | rfl | exact absurd hbar (by simp [Label.ofBarLoop])
  | _ => rfl

/-- A position whose bid is at or below its stop is sold. -/
theorem fires_step {q : QuoteTick} {s : Symbol} {p : LivePosition}
    {rest : List (Symbol × LivePosition)} (hs : step env w (.stopQuote (some q)) = some w')
    (hst : w.stopTask = .awaitQuote s p rest) (hbid : q.bid.val ≤ p.stopPrice.val) :
    w'.stopTask = .awaitSellAck (stopOrder s p q.bid.val) rest .sent := by
  -- the tracked stop is already in cents, so `check_mental_stop` compares the stop itself
  have hfires : RiskState.checkMentalStop q.bid.val p.snapshot = true := by
    unfold RiskState.checkMentalStop isMentalStopBreached
    refine decide_eq_true ?_
    change q.bid.val ≤ (Money.of p.stopPrice.val).val
    rw [Money.of_val]
    exact hbid
  -- a quote below the stop is not passed over
  cases step_stepped hs with
  | passed hst' hheld =>
      obtain ⟨-, rfl, -⟩ := StopTask.awaitQuote.inj (hst.symm.trans hst')
      exact absurd (hfires.symm.trans (hheld q rfl)) (by simp)
  | fired hst' =>
      obtain ⟨rfl, rfl, rfl⟩ := StopTask.awaitQuote.inj (hst.symm.trans hst')
      rfl
  | barMoved hbar => exact absurd hbar (by simp [Label.ofBarLoop])

end MentalStop

/-- **The mental stop drops a position only after an accepted sell, exactly in the runs in which it
never reads that its sell of a tracked symbol was rejected.** -/
theorem sellsFirst_iff {env : Env} (x : PaperRun env) :
    SellsFirst x ↔ ∀ m ∈ x.moves, readsRefusal m = false := by
  constructor
  · intro h m hm
    rw [Bool.eq_false_iff]
    intro href
    obtain ⟨s, hl, hsold, hdrop⟩ := dropped_of_readsRefusal (x.step_of_mem hm) href
    exact hdrop (h.keeps m hm hl s hsold)
  · intro h
    refine ⟨?_, fun m hm => queue_step (x.step_of_mem hm), ?_⟩
    · intro m hm hl s hsold
      exact keepsAt_step (copiesTracked_reached (x.reachable_pre hm)) (x.step_of_mem hm) hl
        (h m hm) hsold
    · intro m hm q s p rest hl hst hbid
      have hs := x.step_of_mem hm
      rw [hl] at hs
      exact fires_step hs hst hbid

/-- The bid falls to the stop, and the broker rejects the sell. -/
def refusedStop : PaperRun paperDay :=
  playPaper (breakoutBought ++
    [.tick 1, .stopWake, .stopQuote (bidAsk 1000 1005), .stopAnswer rejectedAck, .stopResume])

/-- The position is gone from the session, which has sold nothing. -/
theorem sellsFirst_refusedStop :
    refusedStop.final.opens.contains "TEST" = false ∧ ¬ SellsFirst refusedStop := by
  refine ⟨by decide +kernel, ?_⟩
  intro h
  have hany : refusedStop.moves.any readsRefusal = true := by decide +kernel
  obtain ⟨m, hm, href⟩ := List.any_eq_true.mp hany
  obtain ⟨s, hl, hsold, hdrop⟩ := dropped_of_readsRefusal (refusedStop.step_of_mem hm) href
  exact hdrop (h.keeps m hm hl s hsold)

end RossBot.Paper
