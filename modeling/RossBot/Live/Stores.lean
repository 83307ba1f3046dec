import RossBot.Live.Book

/-!
# The three stores, and the stop

`_open`, the strategy engine and the risk manager each hold the positions.
`copies_reached` says what they agree on unconditionally; what it leaves open is
that the engine forgets a position as soon as it emits a full exit, while the
other two wait for the broker. A refused exit therefore leaves a position that
no exit rule looks at any more.

The stop is the second subject. `replay` in `core/backtest/replay.py` answers a
scale-out by moving the stop to breakeven, in its own record and in the engine;
the live bar loop handles full exits only, so a live stop never moves.
-/

namespace RossBot

open Lib World

/-! ## Agreement -/

/-- No task is suspended inside a handler. -/
def World.quiescent (w : World) : Bool :=
  w.cancelled
    || ((match w.barTask with | .awaitEntryAck .. | .awaitExitAck .. => false | _ => true)
      && (match w.stopTask with | .awaitSellAck .. => false | _ => true)
      && (match w.eodTask with | .awaitFlatten _ => false | _ => true)
      && (match w.watchdogTask with | .awaitFlatten .. | .delaying .. => false | _ => true))

/-- The three stores hold the same position for a symbol, with one entry price, or none. -/
def AgreeOn (w : World) (s : Symbol) : Prop :=
  (w.engine.position s).map (·.entryPrice.val) = (w.opens.get? s).map (·.entryPrice)
    ∧ w.risk.openPositions.get? s = (w.opens.get? s).map (·.entryPrice)

/-- **The stores agree whenever nothing is half done, and a refused exit changes none of them.** -/
structure StoresAgree {env : Env} (x : LiveRun env) : Prop where
  quiet : ∀ w, x.Visits w → w.quiescent = true → ∀ s, AgreeOn w s
  refused : ∀ m ∈ x.moves, m.label = .barResume → ∀ o bar rest reply,
    m.pre.barTask = .awaitExitAck o bar rest (.answered reply) → reply.any (·.accepted) = false →
    ∀ p, m.pre.opens.get? o.symbol = some p →
      m.post.opens.get? o.symbol = some p ∧ AgreeOn m.post o.symbol

/-- An exit of a tracked position is refused, or the tasks are cancelled while one is in flight. -/
def exitFails (m : Move World Label) : Bool :=
  match m.label, m.pre.barTask with
  | .barResume, .awaitExitAck o _ _ (.answered reply) =>
      !reply.any (·.accepted) && m.pre.opens.contains o.symbol
  | .cancel, .awaitExitAck o _ _ _ => m.pre.opens.contains o.symbol
  | _, _ => false

/-- The bar loop is waiting for the answer to an exit of this symbol. -/
def World.Exiting (w : World) (s : Symbol) : Prop :=
  w.cancelled = false ∧ ∃ o bar rest call, w.barTask = .awaitExitAck o bar rest call ∧ o.symbol = s

/-- The engine holds every tracked position, unless its exit is in flight. -/
def World.EngineHolds (w : World) : Prop :=
  ∀ {s p}, w.opens.get? s = some p → (∃ e, w.engine.position s = some e) ∨ w.Exiting s

namespace World

variable {env : Env} {w w' : World}

/--
**An engine position of a symbol that stays tracked is only lost to an exit in flight.**

The engine drops a position when its own rules emit a full exit, before the SELL is
sent. The other ways to drop it, a close by any of the loops, take the symbol out of
`_open` in the same step.
-/
theorem engine_step {l : Label} (hr : Reached env w) (hs : step env w l = some w')
    {s : Symbol} {p' : LivePosition} {e : PositionSnapshot} (hp : w'.opens.get? s = some p')
    (he : w.engine.position s = some e) :
    (∃ e', w'.engine.position s = some e') ∨ w'.Exiting s := by
  have kept : ∀ (v : StrategyEngine) (symbol : Symbol), s ≠ symbol → (∃ q, v.position s = some q) →
      ∃ q, (v.closePosition symbol).position s = some q := by
    rintro v symbol hne ⟨q, hq⟩
    exact ⟨q, by rw [StrategyEngine.position_closePosition, if_neg hne]; exact hq⟩
  cases step_book hr hs with
  | aside ha => exact Or.inl ⟨e, ha.engine ▸ he⟩
  | @judged bar scan l2 hc hb hj =>
      have marked : ∀ {v : StrategyEngine}, Marked bar w.engine v → ∃ q, v.position s = some q := by
        intro v hm
        rcases hm s with h | ⟨q, -, h⟩
        · exact ⟨e, h.trans he⟩
        · exact ⟨_, h⟩
      cases hj with
      | quiet hm => exact Or.inl (marked hm)
      | scale _ _ hm => exact Or.inl (marked hm)
      | buy _ _ _ hm _ => exact Or.inl (marked hm)
      | lost hsnap hcl hnone =>
          -- what the engine holds is tracked under the same symbol, so no exit is lost
          obtain ⟨q, hq, hsym, -, -⟩ := (copies_reached hr).engine hsnap
          rw [hsym, or_self, hq] at hnone
          exact absurd hnone (by simp)
      | sell hsnap hcon hpos hcl =>
          obtain ⟨q, hq, hsym, -, -⟩ := (copies_reached hr).engine hsnap
          by_cases hsb : s = bar.symbol
          · exact Or.inr ⟨hc, _, _, _, _, rfl, hsym.trans hsb.symm⟩
          · exact Or.inl ⟨e, (hcl s).trans ((if_neg hsb).trans he)⟩
  | @opened o ack hb hacc hb' ha =>
      rw [ha.engine]
      change (∃ e', (w.engine.openPosition o.signal.symbol o.limit o.signal.stopPrice.val
        o.signal.targetPrice.val o.shares o.bar.ts).position s = some e') ∨ _
      rw [StrategyEngine.position_openPosition]
      split
      · exact Or.inl ⟨_, rfl⟩
      · exact Or.inl ⟨e, he⟩
  | @sold o q hq ha =>
      have ho : w'.opens = w.opens.erase o.symbol := ha.opens
      rw [ho, Dict.get?_erase] at hp
      split at hp
      · exact absurd hp (by simp)
      · -- another symbol was sold
        rename_i hne
        rw [ha.engine]
        exact Or.inl (kept w.engine o.symbol hne ⟨e, he⟩)
  | @soldTwice o hn ha =>
      -- the symbol of a second sale is no longer tracked
      have hne : s ≠ o.symbol := by
        rintro rfl
        rw [ha.opens] at hp
        exact absurd (hn.symm.trans hp) (by simp)
      rw [ha.engine]
      exact Or.inl (kept w.engine o.symbol hne ⟨e, he⟩)
  | remarked _ ha => exact Or.inl ⟨e, ha.engine ▸ he⟩
  | @dropped price bs hnd hbs ha =>
      -- what stays tracked was not dropped
      have hout : s ∉ bs.map Prod.fst := by
        intro hm
        rw [ha.opens, retireAll_opens, if_pos hm] at hp
        exact absurd hp (by simp)
      rw [ha.engine]
      refine Or.inl (retireAll_induction (I := fun v => ∃ q, v.engine.position s = some q)
        price ?_ hnd hbs ⟨e, he⟩)
      intro v s' p x hm _ hv
      refine kept v.engine s' ?_ hv
      rintro rfl
      exact hout (List.mem_map.mpr ⟨_, hm, rfl⟩)

/-- An exit stays in flight until the bar loop resumes, or the tasks are cancelled. -/
theorem exiting_step {l : Label} (hr : Reached env w) (hs : step env w l = some w') {s : Symbol}
    (h : w.Exiting s) : w'.Exiting s ∨ l = .barResume ∨ l = .cancel := by
  obtain ⟨hc, o, bar, rest, call, hb, hsym⟩ := h
  have hf := hr.footprint hs
  -- while the run goes on, only the bar loop's own moves leave the exit
  by_cases hlc : l = .cancel
  · exact Or.inr (Or.inr hlc)
  have hc' : w'.cancelled = false := by
    have hsame : w'.cancelled = w.cancelled := hf.same .cancelled (by
      cases l <;> first | exact absurd rfl hlc | simp [Label.writes])
    rw [hsame]; exact hc
  -- those that write the bar loop's place start from another place, or bring the answer
  by_cases hw : .barTask ∈ l.writes
  · cases l with
    | takeBar bar =>
        have hb0 := (takeBar_cases (task_some hs).2).1
        exact absurd (hb0.symm.trans hb) (by simp)
    | feedEnds =>
        have hb0 := (feedEnds_cases (task_some hs).2).1
        exact absurd (hb0.symm.trans hb) (by simp)
    | barQuote quote =>
        obtain ⟨_, _, _, hb0, -⟩ := barQuote_cases (task_some hs).2
        exact absurd (hb0.symm.trans hb) (by simp)
    | barResume => exact Or.inr (Or.inl rfl)
    | barAnswer reply filled =>
        obtain ⟨o', rest', hb0, -, -, rfl⟩ | ⟨o', bar', rest', hb0, -, -, rfl⟩ := barAnswer_cases hs
        · exact absurd (hb0.symm.trans hb) (by simp)
        · -- the answer comes for the very order that was sent
          obtain ⟨rfl, rfl, rfl, -⟩ := BarTask.awaitExitAck.inj (hb0.symm.trans hb)
          exact Or.inl ⟨hc', o', bar', rest', _, rfl, hsym⟩
    | _ => simp [Label.writes] at hw
  · have hsame : w'.barTask = w.barTask := hf.same .barTask hw
    exact Or.inl ⟨hc', o, bar, rest, call, hsame.trans hb, hsym⟩

theorem engineHolds_init : EngineHolds (init env) := fun h => absurd h (by simp [init])

/--
**Unless an exit fails, the engine holds what is tracked.**

A position that is tracked after the step was tracked before it, with the engine's copy
or with its exit in flight; or it was opened in this step, in both. An exit in flight
ends with its position sold, unless it fails.
-/
theorem engineHolds_step {l : Label} (hr : Reached env w) (h : EngineHolds w)
    (hs : step env w l = some w') (hx : exitFails ⟨w, l, w'⟩ = false) : EngineHolds w' := by
  intro s p' hp'
  rcases (step_book hr hs).opened_or with ⟨-, hold⟩ | ⟨o, ack, hb, -, -, hset, heng, -⟩
  · obtain ⟨p, m, hp, -⟩ := hold s p' hp'
    rcases h hp with ⟨e, he⟩ | hex
    · exact engine_step hr hs hp' he
    · rcases exiting_step hr hs hex with hex' | rfl | rfl
      · exact Or.inr hex'
      · -- the bar loop learns what became of the exit: the symbol can only be gone
        obtain ⟨-, o, bar, rest, call, hb, rfl⟩ := hex
        have hcon : w.opens.contains o.symbol = true := Dict.contains_iff.mpr ⟨p, hp⟩
        cases barResume_cases (noRest_reached hr) (task_some hs).2 with
        | buyRaised hb0 | buyRejected hb0 _ | opened hb0 _ =>
            exact absurd (hb0.symm.trans hb) (by simp)
        | sellRaised hb0 | sellRejected hb0 hrej =>
            obtain ⟨rfl, -, -, -⟩ := BarTask.awaitExitAck.inj (hb0.symm.trans hb)
            simp [exitFails, *] at hx
        | sold hb0 _ _ =>
            obtain ⟨rfl, -, -, -⟩ := BarTask.awaitExitAck.inj (hb0.symm.trans hb)
            change (w.opens.erase _).get? _ = _ at hp'
            rw [Dict.get?_erase_self] at hp'
            exact absurd hp' (by simp)
        | soldTwice hb0 _ hn =>
            obtain ⟨rfl, -, -, -⟩ := BarTask.awaitExitAck.inj (hb0.symm.trans hb)
            exact absurd (hn.symm.trans hp) (by simp)
      · -- cancelled with the exit in flight
        obtain ⟨-, o, bar, rest, call, hb, rfl⟩ := hex
        have hcon : w.opens.contains o.symbol = true := Dict.contains_iff.mpr ⟨p, hp⟩
        simp [exitFails, hb, hcon] at hx
  · rw [hset, Dict.get?_set] at hp'
    split at hp'
    · rename_i hsym
      refine Or.inl ⟨⟨o.signal.symbol, .of o.limit, .of o.signal.stopPrice.val,
        .of o.signal.targetPrice.val, o.shares, o.bar.ts, .of o.limit⟩, ?_⟩
      rw [heng]
      exact (StrategyEngine.position_openPosition ..).trans (if_pos hsym)
    · rename_i hsym
      rcases h hp' with ⟨e, he⟩ | ⟨-, _, _, _, _, hb', -⟩
      · have hkeep : w'.opens.get? s = some p' := by
          rw [hset, Dict.get?_set_ne _ _ hsym]
          exact hp'
        exact engine_step hr hs hkeep he
      · exact absurd (hb.symm.trans hb') (by simp)

/-- The entry prices of tracked positions are those of opened positions. -/
theorem opened_of_tracked (x : LiveRun env) (hw : x.Visits w) {s : Symbol} {p : LivePosition}
    (hp : w.opens.get? s = some p) : ∃ q, .opened q ∈ x.final.log ∧ q.entryPrice = p.entryPrice := by
  obtain ⟨m, hm⟩ := (identity_reached (x.reachable hw)).tracked hp
  obtain ⟨es, he⟩ := log_of_visits x hw
  obtain ⟨ev, hev, hq⟩ := List.mem_filterMap.mp hm
  cases ev with
  | opened q =>
      refine ⟨q, ?_, congrArg (·.entryPrice) (Option.some.inj hq)⟩
      rw [he]
      exact List.mem_append_left _ hev
  | _ => exact absurd hq (by simp)

end World

/-! ## When the stores agree -/

/-- **The stores agree whenever nothing is half done, in every run whose entry prices are in
whole hundredths of a cent and in which no exit of a tracked position fails.** -/
theorem storesAgree_of {env : Env} (x : LiveRun env)
    (hgrid : ∀ p, .opened p ∈ x.final.log → OnGrid p.entryPrice)
    (hx : ∀ m ∈ x.moves, exitFails m = false) : StoresAgree x := by
  have hholds : ∀ w, x.Visits w → EngineHolds w := fun w hw =>
    x.invariant_of (C := fun m => exitFails m = false) (I := EngineHolds)
      engineHolds_init (fun _ _ _ hr hi hs hc => engineHolds_step hr hi hs hc) hx hw
  refine ⟨?_, ?_⟩
  · intro w hw hq s
    have hcopies := copies_reached (x.reachable hw)
    refine ⟨?_, hcopies.risk s⟩
    cases hp : w.opens.get? s with
    | none =>
        cases he : w.engine.position s with
        | none => rfl
        | some e =>
            obtain ⟨p, hp', -⟩ := hcopies.engine he
            exact absurd (hp.symm.trans hp') (by simp)
    | some p =>
        rcases hholds w hw hp with ⟨e, he⟩ | ⟨hc, o, bar, rest, call, hb, -⟩
        · -- the engine has the entry price as `Money`, which loses nothing on the grid
          obtain ⟨p', hp', -, hprice, -⟩ := hcopies.engine he
          rw [hp] at hp'
          have hpp := Option.some.inj hp'
          subst hpp
          obtain ⟨q, hqm, hqe⟩ := opened_of_tracked x hw hp
          have hval : e.entryPrice.val = p.entryPrice := by
            rw [hprice, Money.val_of, toMoney_of_onGrid (hqe ▸ hgrid q hqm)]
          rw [he, Option.map_some, Option.map_some, hval]
        · rw [quiescent, hc, hb] at hq
          simp at hq
  · intro m hm hl o bar rest reply hb hrej p hp
    have hf := hx m hm
    have hcon : m.pre.opens.contains o.symbol = true := Dict.contains_iff.mpr ⟨p, hp⟩
    unfold exitFails at hf
    rw [hl, hb] at hf
    simp only at hf
    rw [hrej, hcon] at hf
    exact absurd hf (by simp)

/-- A position is bought, held for a bar, and sold. -/
def roundTrip : LiveRun tradingDay :=
  play (beforeBreakout ++ breakout 100 ++
    [.takeBar (minuteBar 34 1045 1070 1044 1065 3000), .barQuote (bidAsk 1063 1068),
      .takeBar (minuteBar 35 1065 1066 1020 1020 3000), .barQuote (bidAsk 1018 1023),
      .barAnswer acceptedAck 100, .barResume])

private theorem roundTrip_onGrid : ∀ p, .opened p ∈ roundTrip.final.log → OnGrid p.entryPrice := by
  intro p hp
  have hprices : (openedPositions roundTrip.final.log).map (·.entryPrice) = [21 / 2] := by
    decide +kernel
  have hmem : p ∈ openedPositions roundTrip.final.log :=
    List.mem_filterMap.mpr ⟨_, hp, rfl⟩
  have hprice : p.entryPrice ∈ [(21 / 2 : ℚ)] := by
    rw [← hprices]; exact List.mem_map.mpr ⟨p, hmem, rfl⟩
  rw [List.mem_singleton.mp hprice]
  exact ⟨105000, by norm_num⟩

/-- In this run the stores agree. -/
theorem storesAgree_roundTrip : StoresAgree roundTrip := by
  have hx : roundTrip.moves.all (fun m => !exitFails m) = true := by decide +kernel
  refine storesAgree_of roundTrip roundTrip_onGrid ?_
  intro m hm
  simpa using List.all_eq_true.mp hx m hm

/-- The breakout fails and its exit is refused. -/
def refusedExit : LiveRun tradingDay :=
  play (beforeBreakout ++ breakout 100 ++
    [.takeBar (minuteBar 34 1040 1040 1010 1010 3000), .barQuote (bidAsk 1008 1013),
      .barAnswer rejectedAck 0, .barResume])

/-- The position is tracked, every task is at rest, and the engine has no position. -/
theorem storesAgree_refusedExit : ¬ StoresAgree refusedExit := by
  intro h
  have hq : refusedExit.final.quiescent = true := by decide +kernel
  have hopen : (refusedExit.final.opens.get? "TEST").map (·.entryPrice) = some (21 / 2) := by
    decide +kernel
  have heng : (refusedExit.final.engine.position "TEST").isNone = true := by decide +kernel
  have hagree := (h.quiet _ refusedExit.visits_final hq "TEST").1
  rw [hopen, Option.isNone_iff_eq_none.mp heng] at hagree
  exact absurd hagree (by simp)

/-! ## The stop after a scale-out -/

/-- The scale-outs so far, with the stops they asked for. -/
def scaleSignals : List Event → List (LivePosition × Money) :=
  List.filterMap fun
    | .scaleSignal p ns => some (p, ns)
    | _ => none

theorem mem_scaleSignals {log : List Event} {p : LivePosition} {ns : Money} :
    (p, ns) ∈ scaleSignals log ↔ .scaleSignal p ns ∈ log := by
  unfold scaleSignals
  rw [List.mem_filterMap]
  constructor
  · rintro ⟨e, he, hc⟩
    cases e with
    | scaleSignal q n =>
        obtain ⟨rfl, rfl⟩ := Prod.mk.inj (Option.some.inj hc)
        exact he
    | _ => exact absurd hc (by simp)
  · intro h
    exact ⟨_, h, rfl⟩

/-- **From a scale-out on, until the position is closed, both stops are at least the new stop.** -/
def BreakevenHeld {env : Env} (x : LiveRun env) : Prop :=
  ∀ w, x.Visits w → ∀ p ns, (p, ns) ∈ scaleSignals w.log →
    ∀ s q, w.opens.get? s = some q → q.ref = p.ref →
      ns.val ≤ q.stopPrice.val ∧ ∀ e, w.engine.position s = some e → ns.val ≤ e.currentStop.val

namespace World

variable {env : Env} {w w' : World}

/-- A recorded scale-out names the tracked position, and asks for the engine's entry price. -/
theorem scale_step {l : Label} (hr : Reached env w) (hs : step env w l = some w')
    {es : List Event} (hlog : w'.log = w.log ++ es) {p : LivePosition} {ns : Money}
    (hm : .scaleSignal p ns ∈ es) :
    ∃ s snap, w.engine.position s = some snap ∧ w.opens.get? s = some p
      ∧ ns = snap.entryPrice ∧ w'.opens = w.opens := by
  have hemit := hr.emits hs hlog hm
  cases l with
  | barQuote quote =>
      obtain ⟨bar, -, -, -, ⟨-, rfl⟩ | ⟨-, hj⟩⟩ := barQuote_cases (task_some hs).2
      · have hnil : es = [] := by simpa using hlog
        rw [hnil] at hm
        exact absurd hm (by simp)
      · -- the signals of the bar: only a scale-out is logged as one
        cases hj with
        | quiet | lost | buy | sell =>
            rw [← List.append_cancel_left hlog] at hm
            exact absurd hm (by simp)
        | scale hsnap htr hmk =>
            rw [← List.append_cancel_left hlog] at hm
            rcases List.mem_pair.mp hm with h | h
            · exact absurd h (by simp)
            · obtain ⟨rfl, rfl⟩ := Event.scaleSignal.inj h
              exact ⟨_, _, hsnap, htr, rfl, rfl⟩
  | _ => exact absurd hemit (by simp [Label.emits])

/-- A scale-out asks for breakeven, and names an opened position. -/
def ScaleInv (w : World) : Prop :=
  ∀ p ns, .scaleSignal p ns ∈ w.log →
    ns = .of p.entryPrice ∧ ∃ m, { p with highWatermark := m } ∈ openedPositions w.log

theorem scaleInv_init : ScaleInv (init env) := fun _ _ h => absurd h (by simp [init])

theorem scaleInv_step {l : Label} (hr : Reached env w) (h : ScaleInv w)
    (hs : step env w l = some w') : ScaleInv w' := by
  intro p ns hm
  obtain ⟨es, hlog, -⟩ := (hr.footprint hs).log
  have hgrow : ∀ q ∈ openedPositions w.log, q ∈ openedPositions w'.log := by
    intro q hq
    rw [hlog, openedPositions_append]
    exact List.mem_append_left _ hq
  rw [hlog] at hm
  -- a scale-out logged before, or one of this step
  rcases List.mem_append.mp hm with hm | hm
  · obtain ⟨hns, m, hp⟩ := h p ns hm
    exact ⟨hns, m, hgrow _ hp⟩
  · obtain ⟨s, snap, hsnap, htr, rfl, -⟩ := scale_step hr hs hlog hm
    -- the engine's copy of the position has its entry price, which is the new stop
    obtain ⟨q, hq, -, hprice, -⟩ := (copies_reached hr).engine hsnap
    rw [htr] at hq
    have hqp := Option.some.inj hq
    subst hqp
    obtain ⟨m, hm⟩ := (identity_reached hr).tracked htr
    exact ⟨hprice, m, hgrow _ hm⟩

theorem scaleInv_reached (h : Reached env w) : ScaleInv w :=
  h.invariant scaleInv_init fun _ _ _ hr hi hs => scaleInv_step hr hi hs

end World

/-- **The live stops are at breakeven after every scale-out exactly in the runs in which every
position that was scaled out already had its stop at or above its entry price.** Nothing moves
a live stop. -/
theorem breakevenHeld_iff {env : Env} (x : LiveRun env) :
    BreakevenHeld x ↔ ∀ p ns, (p, ns) ∈ scaleSignals x.final.log →
      (Money.of p.entryPrice).val ≤ p.stopPrice.val := by
  have hfinal := scaleInv_reached (x.reachable x.visits_final)
  constructor
  · intro h p ns hsc
    have hm := mem_scaleSignals.mp hsc
    obtain ⟨m, hmm, hes⟩ := recorded_by x hm
    have hlog := log_of_recorded x hmm
    obtain ⟨s, snap, -, htr, -, hopens⟩ :=
      scale_step (x.reachable_pre hmm) (x.step_of_mem hmm) hlog hes
    have hpost : .scaleSignal p ns ∈ m.post.log := by
      rw [hlog]; exact List.mem_append_right _ hes
    have hle := (h m.post (Or.inr ⟨m, hmm, rfl⟩) p ns (mem_scaleSignals.mpr hpost) s p
      (hopens ▸ htr) rfl).1
    rwa [(hfinal p ns hm).1] at hle
  · intro h w hw p ns hsc s q hq href
    -- the tracked position is the one that was scaled out, and nothing has moved its stop
    have hm := mem_scaleSignals.mp hsc
    obtain ⟨es, he⟩ := log_of_visits x hw
    have hle := h p ns (mem_scaleSignals.mpr (by rw [he]; exact List.mem_append_left _ hm))
    have hr := x.reachable hw
    obtain ⟨hns, m, hp⟩ := scaleInv_reached hr p ns hm
    obtain ⟨m', hq'⟩ := (identity_reached hr).tracked hq
    have hstop : p.stopPrice = q.stopPrice :=
      congrArg (·.stopPrice) ((identity_reached hr).eq_of_ref hp hq' href.symm)
    rw [← hns, hstop] at hle
    refine ⟨hle, ?_⟩
    intro e he
    obtain ⟨q', hq'', -, -, hcur⟩ := (copies_reached hr).engine he
    rw [hq] at hq''
    have hqq := Option.some.inj hq''
    subst hqq
    rw [hcur]
    exact hle

/-- The breakout runs to eleven dollars, a half-dollar level: a scale-out. -/
def scaledOut : LiveRun tradingDay :=
  play (beforeBreakout ++ breakout 100 ++
    [.takeBar (minuteBar 34 1045 1102 1044 1100 3000), .barQuote (bidAsk 1098 1103)])

/-- The new stop is 10.50, and the session goes on watching 10.28. -/
theorem breakevenHeld_scaledOut : ¬ BreakevenHeld scaledOut := by
  intro h
  have hev : (scaleSignals scaledOut.final.log).map (fun c => (c.1.ref, c.2.val))
      = [(0, 21 / 2)] := by decide +kernel
  have hopen : (scaledOut.final.opens.get? "TEST").map (fun q => (q.ref, q.stopPrice.val))
      = some (0, 257 / 25) := by decide +kernel
  obtain ⟨⟨p, ns⟩, hl, hp⟩ := List.map_eq_singleton_iff.mp hev
  obtain ⟨q, hq, hqp⟩ := Option.map_eq_some_iff.mp hopen
  have hm : (p, ns) ∈ scaleSignals scaledOut.final.log := by
    rw [hl]; exact List.mem_singleton.mpr rfl
  have href : q.ref = p.ref := (congrArg Prod.fst hqp).trans (congrArg Prod.fst hp).symm
  have hle := (h _ scaledOut.visits_final p ns hm "TEST" q hq href).1
  rw [show ns.val = 21 / 2 from congrArg Prod.snd hp,
    show q.stopPrice.val = 257 / 25 from congrArg Prod.snd hqp] at hle
  exact absurd hle (by norm_num)

end RossBot
