import RossBot.Backtest.Replay
import RossBot.Demo.Moves

/-!
# The kill-switch and the halt of the day

`risk.halted` is looked at before an entry's signal is broadcast, and the order is
sent after; and a BUY that is with the broker when the kill-switch's flatten
returns is tracked when it is answered. `HaltInv` is what holds if neither gap is
hit; `Quiet` is what most steps are, as far as it is concerned.
-/

namespace RossBot

open Lib

/-! ## What is claimed -/

/-- A BUY goes to the broker. -/
def DemoEvent.buys : DemoEvent → Bool
  | .orderSent o => decide (o.side = .buy)
  | _ => false

/-- The kill-switch or `halt_day` halts the day. -/
def DemoEvent.halts : DemoEvent → Bool
  | .haltCalled _ => true
  | _ => false

/-- The position of a BUY is added to `positions`. -/
def DemoEvent.opens : DemoEvent → Bool
  | .opened _ _ => true
  | _ => false

/-- The kill-switch's flatten returns. -/
def DemoEvent.flattens : DemoEvent → Bool
  | .killFlattened => true
  | _ => false

/-- **A halt is final**: no BUY is sent after one, and none is tracked after the kill-switch's
flatten. -/
structure StaysHalted (log : List DemoEvent) : Prop where
  noBuy : EachAt (fun before e => e.buys = true → ∀ h ∈ before, h.halts = false) log
  noOpen : EachAt (fun before e => e.opens = true → ∀ h ∈ before, h.flattens = false) log

/-! ## The two gaps -/

/-- The loop has a BUY with the broker. -/
def EngineTask.buying : EngineTask → Bool
  | .awaitEntryAck _ _ _ => true
  | _ => false

/-- The handler has a BUY with the broker. -/
def OperatorTask.buying : OperatorTask → Bool
  | .orderAck _ .buy _ _ _ _ => true
  | _ => false

namespace Desk

/-- The kill-switch was used, or the day was halted from the dashboard. -/
def haltCalled (s : Desk) : Bool := s.log.any DemoEvent.halts

/-- The kill-switch's flatten has returned. -/
def flattened (s : Desk) : Bool := s.log.any DemoEvent.flattens

/-- An entry has passed the gate and will be sent when its broadcast is done. -/
def entryDue (env : DemoEnv) (s : Desk) : Bool := s.engine.approved && s.effectiveAutoTrade env

/-- A BUY is with the broker. -/
def BuyInFlight (s : Desk) : Prop := s.engine.buying = true ∨ ∃ i, (s.tasks i).buying = true

end Desk

/-- Neither gap is hit: no halt comes while an entry is due (nor is AUTO_TRADE switched on, after
a halt, under an entry that has passed the gate), and no flatten of the kill-switch returns
while a BUY is with the broker. -/
def MissesGaps (env : DemoEnv) (m : Move Desk DeskLabel) : Prop :=
  match m.label with
  | .request _ .killSwitch | .request _ (.haltDay _) => m.pre.entryDue env = false
  | .request _ (.setOverride (.autoTrade true)) =>
      m.pre.haltCalled = true → m.pre.engine.approved = false
  | .taskFlattened i => m.pre.tasks i = .killAck → ¬ m.pre.BuyInFlight
  | _ => True

/-! ## Quiet steps -/

/-- Neither a BUY, nor a halt, nor a flatten. -/
def DemoEvent.plain (e : DemoEvent) : Bool := !(e.buys || e.halts || e.flattens)

namespace Desk

variable {env : DemoEnv} {s s' s'' : Desk}

/-- Whatever happened, it got nothing nearer to either gap. -/
structure Quiet (s s' : Desk) : Prop where
  log : ∃ es, s'.log = s.log ++ es
    ∧ ∀ e ∈ es, e.plain = true ∧ (e.opens = true → s.BuyInFlight)
  halted : s.risk.halted = true → s'.risk.halted = true
  auto : s'.overrides.autoTrade = s.overrides.autoTrade
  approved : s'.engine.approved = true → s.engine.approved = true
  engineBuying : s'.engine.buying = true → s.engine.buying = true
  taskBuying : ∀ i, (s'.tasks i).buying = true → (s.tasks i).buying = true
  kill : ∀ i, s'.tasks i = .killAck → s.tasks i = .killAck

theorem Quiet.refl (s : Desk) : s.Quiet s :=
  ⟨⟨[], by simp⟩, id, rfl, id, id, fun _ => id, fun _ => id⟩

theorem Quiet.buyInFlight (h : s.Quiet s') (hf : s'.BuyInFlight) : s.BuyInFlight := by
  rcases hf with hf | ⟨i, hf⟩
  · exact Or.inl (h.engineBuying hf)
  · exact Or.inr ⟨i, h.taskBuying i hf⟩

theorem Quiet.trans (h : s.Quiet s') (h' : s'.Quiet s'') : s.Quiet s'' := by
  obtain ⟨es, hes, hp⟩ := h.log
  obtain ⟨fs, hfs, hq⟩ := h'.log
  refine ⟨⟨es ++ fs, ?_, ?_⟩, h'.halted ∘ h.halted, h'.auto.trans h.auto, h.approved ∘ h'.approved,
    h.engineBuying ∘ h'.engineBuying, fun i => h.taskBuying i ∘ h'.taskBuying i,
    fun i => h.kill i ∘ h'.kill i⟩
  · rw [hfs, hes, List.append_assoc]
  · intro e he
    rcases List.mem_append.mp he with he | he
    · exact hp e he
    · exact ⟨(hq e he).1, fun ho => h.buyInFlight ((hq e he).2 ho)⟩

/-- The loop moves on to a place with no entry on its way. -/
theorem Quiet.toEngine (h : s.Quiet s') {t : EngineTask} (ha : t.approved = false)
    (hb : t.buying = false) : s.Quiet { s' with engine := t } :=
  ⟨h.log, h.halted, h.auto, fun h' => absurd (ha.symm.trans h') (by simp),
    fun h' => absurd (hb.symm.trans h') (by simp), h.taskBuying, h.kill⟩

/-- The loop moves on to where it only waits. -/
theorem Quiet.toWait (h : s.Quiet s') {t : EngineTask} (ht : t.waits = true) :
    s.Quiet { s' with engine := t } := by
  refine h.toEngine ?_ ?_ <;> cases t <;> first | rfl | exact absurd ht (by simp [EngineTask.waits])

/-- A handler that moves on to a place with no BUY on its way puts none in flight. -/
theorem buying_setTask {i : ℕ} {t : OperatorTask} (ht : t.buying = false) (j : ℕ)
    (hj : ((s.setTask i t).tasks j).buying = true) : (s.tasks j).buying = true := by
  rw [tasks_setTask] at hj
  split at hj
  · exact absurd (ht.symm.trans hj) (by simp)
  · exact hj

/-- A handler moves on to a place with no BUY on its way. -/
theorem Quiet.toTask (h : s.Quiet s') (i : ℕ) {t : OperatorTask} (hb : t.buying = false)
    (hk : t ≠ .killAck) : s.Quiet (s'.setTask i t) := by
  refine ⟨h.log, h.halted, h.auto, h.approved, h.engineBuying,
    fun j hj => h.taskBuying j (buying_setTask hb j hj), fun j hj => ?_⟩
  rw [tasks_setTask] at hj
  split at hj
  · exact absurd hj hk
  · exact h.kill j hj

/-- Something is noted that is plain, and an opening only if a BUY was with the broker. -/
theorem Quiet.toNote (h : s.Quiet s') {e : DemoEvent} (he : e.plain = true)
    (ho : e.opens = true → s'.BuyInFlight) : s.Quiet (s'.note e) := by
  refine h.trans ⟨⟨[e], rfl, ?_⟩, id, rfl, id, id, fun _ => id, fun _ => id⟩
  intro e' he'
  rw [List.mem_singleton.mp he']; exact ⟨he, ho⟩

/-- The risk state changes, and no halt is lifted. -/
theorem Quiet.toRisk (h : s.Quiet s') {r : DemoRisk}
    (hr : s'.risk.halted = true → r.halted = true) : s.Quiet { s' with risk := r } :=
  ⟨h.log, fun h' => hr (h.halted h'), h.auto, h.approved, h.engineBuying, h.taskBuying, h.kill⟩

/-- Nothing changes that the gaps depend on. -/
theorem Quiet.congr (h : s.Quiet s') (hlog : s''.log = s'.log) (hrisk : s''.risk = s'.risk)
    (hover : s''.overrides = s'.overrides) (hengine : s''.engine = s'.engine)
    (htasks : s''.tasks = s'.tasks) : s.Quiet s'' := by
  refine h.trans ⟨⟨[], by simp [hlog], by simp⟩, ?_, by rw [hover], ?_, ?_, ?_, ?_⟩
  all_goals simp [hrisk, hengine, htasks]

/-! ## Booking -/

theorem Quiet.toObject (h : s.Quiet s') (ref : ℕ) (pos : DemoPosition) :
    s.Quiet (s'.setObject ref pos) := h.congr rfl rfl rfl rfl rfl

theorem Quiet.toJournal (h : s.Quiet s') (ref : Option ℕ) (pos : DemoPosition) (x : ℚ) (n : ℤ)
    (pnl : ℚ) (reason : DemoExit) (now : Time) :
    s.Quiet (s'.recordJournal ref pos x n pnl reason now) :=
  (h.toNote (e := .journaled ref n) rfl (by simp [DemoEvent.opens])).congr rfl rfl rfl rfl rfl

theorem Quiet.toClose (h : s.Quiet s') (ref : Option ℕ) (n : ℤ) (pnl : ℚ) :
    s.Quiet (s'.recordClose ref n pnl) :=
  ((h.toRisk (r := s'.risk.recordClose pnl) (by simp)).toNote (e := .recordedClose ref n pnl) rfl
    (by simp [DemoEvent.opens])).congr rfl rfl rfl rfl rfl

theorem Quiet.bookExit (h : s.Quiet s') (exit : PendingExit) (reason : DemoExit) :
    s.Quiet (s'.bookExit exit reason) := (h.toJournal ..).toClose ..

theorem Quiet.bookScaleOut (h : s.Quiet s') (exit : PendingExit) (half : ℤ) :
    s.Quiet (s'.bookScaleOut exit half) := by
  unfold Desk.bookScaleOut
  dsimp only
  exact (((h.toObject ..).toJournal ..).toObject ..).toClose ..

theorem Quiet.forget (h : s.Quiet s') {symbol : Symbol} (hf : s'.forget symbol = some s'') :
    s.Quiet s'' := by
  unfold Desk.forget at hf
  split at hf
  · exact absurd hf (by simp)
  · rw [← Option.some.inj hf]; exact h.congr rfl rfl rfl rfl rfl

theorem Quiet.sendScaleOut (h : s.Quiet s') (exit : PendingExit) :
    s.Quiet (s'.sendScaleOut exit) := h.toNote rfl (by simp [DemoEvent.opens])

theorem Quiet.openPosition (h : s.Quiet s') (hf : s'.BuyInFlight) (pos : DemoPosition) :
    s.Quiet (s'.openPosition pos) :=
  ((h.toRisk (r := s'.risk.countTrade) id).toNote (e := .opened s'.nextRef pos) rfl
    fun _ => hf).congr rfl rfl rfl rfl rfl

/-! ## Posting -/

/-- A BUY is tracked only if it was in flight. -/
theorem buyInFlight_of_opens {l : DeskLabel} {pos : DemoPosition}
    (h : s.posting env l = .opens pos) : s.BuyInFlight := by
  have hposts := posting_cases env s l
  rw [h] at hposts
  cases hposts with
  | opensEntry heng => exact Or.inl (by rw [heng]; rfl)
  | @opensManual i _ _ _ _ _ _ htask => exact Or.inr ⟨i, by rw [htask]; rfl⟩

theorem quiet_post {p : Posting} (hp : ∀ pos, p = .opens pos → s.BuyInFlight) :
    s.Quiet (s.post p) := by
  have hself := Quiet.refl s
  cases p with
  | nothing => exact hself
  | opens pos => exact hself.openPosition (hp pos rfl) pos
  | scales exit half => exact hself.bookScaleOut exit half
  | closes exit reason => exact (hself.bookExit exit reason).congr rfl rfl rfl rfl rfl
  | replays pos x reason now =>
      have hbook := (hself.toJournal none pos x pos.shares
        ((x - pos.entryPrice) * (pos.shares : ℚ)) reason now).toClose none pos.shares
        ((x - pos.entryPrice) * (pos.shares : ℚ))
      exact hbook.toRisk (r := DemoRisk.countTrade _) id
  | clears => exact hself.congr rfl rfl rfl rfl rfl
  | restops ref stop => exact hself.toObject ..

theorem Posted.quiet {l : DeskLabel} (h : s.Posted env l s') : s.Quiet s' := by
  have hpost : s.Quiet (s.post (s.posting env l)) := quiet_post fun _ hp => buyInFlight_of_opens hp
  rcases h with rfl | ⟨symbol, rfl⟩
  · exact hpost
  · exact hpost.toNote rfl (by simp [DemoEvent.opens])

/-- A handler moves on to where it only waits. -/
theorem Quiet.toTaskWait (h : s.Quiet s') (i : ℕ) {k : OperatorTask} (hk : k.waits = true) :
    s.Quiet (s'.setTask i k) := by
  refine h.toTask i ?_ ?_
  · cases k <;> first | rfl | exact absurd hk (by simp [OperatorTask.waits])
  · rintro rfl
    exact absurd hk (by simp [OperatorTask.waits])

/-! ## The invariant -/

/-- **What holds while neither gap is hit.** -/
structure HaltInv (env : DemoEnv) (s : Desk) : Prop where
  halted : s.haltCalled = true → s.risk.halted = true
  due : s.haltCalled = true → s.entryDue env = false
  called : s.flattened = true → s.haltCalled = true
  flown : s.flattened = true → ¬ s.BuyInFlight
  connected : s.BuyInFlight → env.connected = true
  kill : ∀ i, s.tasks i = .killAck → s.haltCalled = true
  final : StaysHalted s.log

theorem haltInv_init : HaltInv env (init env) where
  halted h := absurd h (by simp [haltCalled, init])
  due h := absurd h (by simp [haltCalled, init])
  called h := absurd h (by simp [flattened, init])
  flown h := absurd h (by simp [flattened, init])
  connected h := by
    rcases h with h | ⟨i, h⟩
    · exact absurd h (by simp [init, EngineTask.buying])
    · exact absurd h (by simp [init, OperatorTask.buying])
  kill i h := absurd h (by simp [init])
  final := ⟨eachAt_nil, eachAt_nil⟩

theorem haltCalled_append (es : List DemoEvent) (hlog : s'.log = s.log ++ es)
    (hes : ∀ e ∈ es, e.halts = false) : s'.haltCalled = s.haltCalled := by
  rw [haltCalled, haltCalled, hlog, List.any_append, Bool.or_eq_left_iff_imp]
  intro h
  obtain ⟨e, he, h⟩ := List.any_eq_true.mp h
  exact absurd (hes e he) (by simp [h])

theorem flattened_append (es : List DemoEvent) (hlog : s'.log = s.log ++ es)
    (hes : ∀ e ∈ es, e.flattens = false) : s'.flattened = s.flattened := by
  rw [flattened, flattened, hlog, List.any_append, Bool.or_eq_left_iff_imp]
  intro h
  obtain ⟨e, he, h⟩ := List.any_eq_true.mp h
  exact absurd (hes e he) (by simp [h])

theorem plain_iff {e : DemoEvent} :
    e.plain = true ↔ e.buys = false ∧ e.halts = false ∧ e.flattens = false := by
  simp [DemoEvent.plain, and_assoc]

theorem no_halts_of (h : s.haltCalled = false) : ∀ e ∈ s.log, e.halts = false := by
  intro e he
  by_contra hne
  have : s.haltCalled = true := List.any_eq_true.mpr ⟨e, he, by simpa using hne⟩
  exact absurd (h.symm.trans this) (by simp)

theorem no_flattens_of (h : s.flattened = false) : ∀ e ∈ s.log, e.flattens = false := by
  intro e he
  by_contra hne
  have : s.flattened = true := List.any_eq_true.mpr ⟨e, he, by simpa using hne⟩
  exact absurd (h.symm.trans this) (by simp)

theorem HaltInv.not_called (h : HaltInv env s) (hnot : s.risk.halted = false) :
    s.haltCalled = false := by
  by_contra hne
  exact absurd (hnot.symm.trans (h.halted (by simpa using hne))) (by simp)

/-- **Quiet steps preserve it.** -/
theorem HaltInv.quiet (h : HaltInv env s) (hq : s.Quiet s') : HaltInv env s' := by
  obtain ⟨es, hlog, hes⟩ := hq.log
  have hplain : ∀ e ∈ es, e.buys = false ∧ e.halts = false ∧ e.flattens = false :=
    fun e he => plain_iff.mp (hes e he).1
  have hcall : s'.haltCalled = s.haltCalled := haltCalled_append _ hlog fun e he => (hplain e he).2.1
  have hflat : s'.flattened = s.flattened := flattened_append _ hlog fun e he => (hplain e he).2.2
  refine ⟨fun hc => hq.halted (h.halted (hcall ▸ hc)), fun hc => ?_, fun hf => ?_,
    fun hf hb => h.flown (hflat ▸ hf) (hq.buyInFlight hb), fun hb => h.connected (hq.buyInFlight hb),
    fun i hi => hcall ▸ h.kill i (hq.kill i hi), ?_, ?_⟩
  · -- an entry that is due now was due before
    have hdue := h.due (hcall ▸ hc)
    rw [entryDue, Bool.and_eq_false_iff, effectiveAutoTrade] at hdue ⊢
    rw [hq.auto]
    refine hdue.imp_left fun ha => ?_
    by_contra hne
    exact absurd (ha.symm.trans (hq.approved (by simpa using hne))) (by simp)
  · rw [hcall]; exact h.called (hflat ▸ hf)
  · rw [hlog]
    refine h.final.noBuy.extend ?_
    intro e he before hb
    exact absurd ((hplain e he).1.symm.trans hb) (by simp)
  · -- an opening follows a BUY that was in flight, so no flatten has returned
    rw [hlog, eachAt_append]
    refine ⟨h.final.noOpen, ?_⟩
    intro before e after hsplit ho f hf
    have he : e ∈ es := hsplit ▸ List.mem_append_right _ List.mem_cons_self
    have hno : s.flattened = false := by
      by_contra hne
      exact h.flown (by simpa using hne) ((hes e he).2 ho)
    rcases List.mem_append.mp hf with hf | hf
    · exact no_flattens_of hno f hf
    · exact (hplain f (hsplit ▸ List.mem_append_left _ hf)).2.2

/-- Before the first halt, entries are approved and sent freely. -/
theorem HaltInv.uncalled (h : HaltInv env s) (hnot : s.haltCalled = false) (es : List DemoEvent)
    (hlog : s'.log = s.log ++ es) (hes : ∀ e ∈ es, e.halts = false ∧ e.flattens = false)
    (ho : ∀ e ∈ es, e.opens = false) (hconn : s'.BuyInFlight → env.connected = true)
    (hkill : ∀ i, s'.tasks i = .killAck → s.tasks i = .killAck) : HaltInv env s' := by
  have hcall : s'.haltCalled = false :=
    (haltCalled_append _ hlog fun e he => (hes e he).1).trans hnot
  have hflat : s'.flattened = false := by
    rw [flattened_append _ hlog fun e he => (hes e he).2]
    by_contra hne
    exact absurd (hnot.symm.trans (h.called (by simpa using hne))) (by simp)
  refine ⟨fun hc => absurd (hcall.symm.trans hc) (by simp),
    fun hc => absurd (hcall.symm.trans hc) (by simp),
    fun hf => absurd (hflat.symm.trans hf) (by simp),
    fun hf => absurd (hflat.symm.trans hf) (by simp), hconn,
    fun i hi => absurd (hnot.symm.trans (h.kill i (hkill i hi))) (by simp), ?_, ?_⟩
  · -- whatever is sent, no halt came before it
    intro before e after hsplit _ f hf
    exact no_halts_of hcall f (hsplit ▸ List.mem_append_left _ hf)
  · rw [hlog]
    refine h.final.noOpen.extend ?_
    intro e he before hopen
    exact absurd ((ho e he).symm.trans hopen) (by simp)

/-- **A halt that misses the gaps**, and whatever it sends or clears at once. -/
theorem HaltInv.halting (h : HaltInv env s) (hdue : s.entryDue env = false) (es : List DemoEvent)
    (hlog : s'.log = s.log ++ es) (hes : ∀ e ∈ es, e.buys = false ∧ e.opens = false)
    (hcall : s'.haltCalled = true) (hrisk : s'.risk.halted = true)
    (hauto : s'.overrides = s.overrides) (hengine : s'.engine = s.engine)
    (htask : ∀ i, (s'.tasks i).buying = true → (s.tasks i).buying = true)
    (hflown : s'.flattened = true → ¬ s'.BuyInFlight) : HaltInv env s' := by
  refine ⟨fun _ => hrisk, fun _ => ?_, fun _ => hcall, hflown, fun hb => ?_, fun _ _ => hcall, ?_, ?_⟩
  · -- no entry is due after it, as none was before
    rwa [entryDue, hengine, effectiveAutoTrade, hauto]
  · refine h.connected ?_
    rcases hb with hb | ⟨i, hb⟩
    · exact Or.inl (hengine ▸ hb)
    · exact Or.inr ⟨i, htask i hb⟩
  · rw [hlog]
    refine h.final.noBuy.extend ?_
    intro e he before hb
    exact absurd ((hes e he).1.symm.trans hb) (by simp)
  · rw [hlog]
    refine h.final.noOpen.extend ?_
    intro e he before hopen
    exact absurd ((hes e he).2.symm.trans hopen) (by simp)

/-- The kill-switch's flatten returns with no BUY in flight. -/
theorem HaltInv.killFlattened (h : HaltInv env s) {i : ℕ} (hi : s.tasks i = .killAck)
    (hfly : ¬ s.BuyInFlight) :
    HaltInv env (({ s with positions := ∅ }.note .killFlattened).setTask i .done) := by
  have hcall := h.kill i hi
  refine h.halting (h.due hcall) [.killFlattened] rfl (by simp [DemoEvent.buys,
    DemoEvent.opens]) ?_ (h.halted hcall) rfl rfl (buying_setTask rfl) ?_
  · exact List.any_append.trans (by rw [show s.log.any DemoEvent.halts = true from hcall]; rfl)
  · rintro - (hb | ⟨j, hb⟩)
    · exact hfly (Or.inl hb)
    · exact hfly (Or.inr ⟨j, buying_setTask rfl j hb⟩)

theorem log_killHalt : s.killHalt.log = s.log ++ [.haltCalled .manualKillSwitch] := rfl

/-- The kill-switch has halted the day, and its flatten is on its way. -/
theorem HaltInv.killSent (h : HaltInv env s) (hdue : s.entryDue env = false) (i : ℕ) :
    HaltInv env ((s.killHalt.note .flattenAllSent).setTask i .killAck) := by
  have hlog : ((s.killHalt.note .flattenAllSent).setTask i .killAck).log
      = s.log ++ [.haltCalled .manualKillSwitch, .flattenAllSent] := by
    simp [note, setTask, log_killHalt]
  refine h.halting hdue _ hlog (by simp [DemoEvent.buys, DemoEvent.opens]) ?_
    (DemoRisk.halted_halt ..) rfl rfl (buying_setTask rfl) ?_
  · simp [haltCalled, hlog, DemoEvent.halts]
  · intro hf
    rw [flattened_append _ hlog (by simp [DemoEvent.flattens])] at hf
    rintro (hb | ⟨j, hb⟩)
    · exact h.flown hf (Or.inl hb)
    · exact h.flown hf (Or.inr ⟨j, buying_setTask rfl j hb⟩)

/-- The kill-switch without a broker: nothing is in flight. -/
theorem HaltInv.killedOffline (h : HaltInv env s) (hdue : s.entryDue env = false)
    (hconn : ¬ env.connected = true) :
    HaltInv env ({ s.killHalt with positions := ∅ }.note .killFlattened) := by
  have hfly : ¬ s.BuyInFlight := fun hb => hconn (h.connected hb)
  have hlog : ({ s.killHalt with positions := ∅ }.note .killFlattened).log
      = s.log ++ [.haltCalled .manualKillSwitch, .killFlattened] := by
    simp [note, log_killHalt]
  refine h.halting hdue _ hlog (by simp [DemoEvent.buys, DemoEvent.opens]) ?_
    (DemoRisk.halted_halt ..) rfl rfl (fun _ => id) fun _ => hfly
  simp [haltCalled, hlog, DemoEvent.halts]

/-- A BUY is sent by hand while the day is not halted. -/
theorem HaltInv.sendManual (h : HaltInv env s) (hconn : env.connected = true)
    (hnot : s.risk.halted = false) (i : ℕ) (symbol : Symbol) (qty : ℤ) (limitPrice : ℚ)
    (stop : Option ℚ) : HaltInv env (sendManual i symbol .buy qty limitPrice stop s) := by
  refine h.uncalled (h.not_called hnot) [_] rfl ?_ ?_ (fun _ => hconn) ?_
  · intro e he; rw [List.mem_singleton.mp he]; exact ⟨rfl, rfl⟩
  · intro e he; rw [List.mem_singleton.mp he]; rfl
  · intro j hj
    rw [Desk.sendManual, tasks_setTask] at hj
    split at hj
    · exact absurd hj (by simp)
    · exact hj

/-- The day is halted from the dashboard. -/
theorem HaltInv.haltDay (h : HaltInv env s) (hdue : s.entryDue env = false) (reason : String) :
    HaltInv env ((s.halt (.haltDay reason)).note (.haltCalled (.haltDay reason))) := by
  refine h.halting hdue [.haltCalled (.haltDay reason)] rfl (by simp [DemoEvent.buys,
    DemoEvent.opens]) ?_ (DemoRisk.halted_halt ..) rfl rfl (fun _ => id) ?_
  · simp [haltCalled, note, DemoEvent.halts]
  · intro hf
    rw [flattened_append (s := s) [.haltCalled (.haltDay reason)] rfl
      (by simp [DemoEvent.flattens])] at hf
    exact h.flown hf

/-- AUTO_TRADE is switched on under no entry that was halted, or off. -/
theorem HaltInv.switched (h : HaltInv env s) {value : Bool}
    (hc : value = true → s.haltCalled = true → s.engine.approved = false) :
    HaltInv env { s with overrides := { s.overrides with autoTrade := some value } } := by
  refine ⟨h.halted, fun hcall => ?_, h.called, h.flown, h.connected, h.kill, h.final⟩
  cases value with
  | false => exact Bool.and_false _
  | true =>
      rw [entryDue, Bool.and_eq_false_iff]
      exact Or.inl (hc rfl hcall)

/-- An entry is approved while the day is not halted. -/
theorem HaltInv.approved (h : HaltInv env s) (hnot : s.risk.halted = false) {e : EngineTask}
    (hb : e.buying = false) : HaltInv env { s with engine := e } := by
  refine h.uncalled (h.not_called hnot) [] (List.append_nil _).symm (by simp) (by simp) ?_
    fun _ => id
  rintro (hb' | hb')
  · exact absurd (hb.symm.trans hb') (by simp)
  · exact h.connected (Or.inr hb')

/-- An entry that is due is sent, so no halt has been called yet. -/
theorem HaltInv.entrySent (h : HaltInv env s) (hdue : s.entryDue env = true)
    (hconn : env.connected = true) (o : DemoOrder) (e : EngineTask) :
    HaltInv env { s.note (.orderSent o) with engine := e } := by
  have hcall : s.haltCalled = false := by
    by_contra hne
    exact absurd (hdue.symm.trans (h.due (by simpa using hne))) (by simp)
  refine h.uncalled hcall [.orderSent o] rfl ?_ ?_ (fun _ => hconn) fun _ => id
  · intro e he; rw [List.mem_singleton.mp he]; exact ⟨rfl, rfl⟩
  · intro e he; rw [List.mem_singleton.mp he]; rfl

/--
**Preserved by every step that misses the gaps.**

After a halt the gate approves nothing, and the condition leaves nothing approved from
before it; so no BUY is sent, and once the kill-switch has cleared the positions no BUY
is on its way that could open another.
-/
theorem haltInv_step {l : DeskLabel} (h : HaltInv env s) (hs : step env s l = some s')
    (hc : MissesGaps env ⟨s, l, s'⟩) : HaltInv env s' := by
  have hself := Quiet.refl s
  cases step_cases hs with
  | ticks => exact h.quiet (hself.congr rfl rfl rfl rfl rfl)
  | waits r tierB _ he hr =>
      have hrisk : s.Quiet { s with risk := r, tierB := tierB } :=
        (hself.toRisk hr.halted).congr rfl rfl rfl rfl rfl
      exact h.quiet (hrisk.toWait he)
  -- the two steps that can bring an entry nearer to its order
  | approves hnot => exact h.approved hnot rfl
  | sendsEntry happ hauto hconn =>
      refine h.entrySent ?_ hconn _ _
      rw [entryDue, Bool.and_eq_true]
      exact ⟨happ, hauto⟩
  | sendsScale => exact h.quiet ((hself.sendScaleOut _).toEngine rfl rfl)
  | sendsExit => exact h.quiet ((hself.toNote rfl (by simp [DemoEvent.opens])).toEngine rfl rfl)
  | booksLoop _ hp he => exact h.quiet (hp.quiet.toWait he)
  | @settles i q r svc overrides hr hauto =>
      have hpost : s.Quiet (s.post (s.requested env q)) :=
        quiet_post fun _ hp => buyInFlight_of_opens (l := .request i q) hp
      exact h.quiet ⟨hpost.log, fun hh => hr.halted (hpost.halted hh), hauto, hpost.approved,
        hpost.engineBuying, hpost.taskBuying, hpost.kill⟩
  | switches value =>
      refine h.switched fun hv => ?_
      subst hv
      exact hc
  | asks _ hk => exact h.quiet (hself.toTaskWait _ hk)
  | @sendsManual i q symbol side qty limitPrice stop _ _ hside =>
      cases side with
      | sell =>
          exact h.quiet ((hself.toNote rfl (by simp [DemoEvent.opens])).toTask i rfl (by simp))
      | buy => exact h.sendManual (hside rfl).1 (hside rfl).2 ..
  | flattens =>
      exact h.quiet ((hself.toNote rfl (by simp [DemoEvent.opens])).toTask _ rfl (by simp))
  -- a halt comes with no entry due
  | haltsDay reason => exact h.haltDay hc reason
  | @kills i => exact h.killSent hc i
  | killsOffline hconn => exact h.killedOffline hc (by simp [hconn])
  | taskCloses =>
      exact h.quiet ((hself.toNote rfl (by simp [DemoEvent.opens])).toTask _ rfl (by simp))
  | taskScales => exact h.quiet ((hself.sendScaleOut _).toTask _ rfl (by simp))
  | @finishes l i t k tierB _ hp hk =>
      have hbook : s.Quiet { t with tierB := tierB } := hp.quiet.congr rfl rfl rfl rfl rfl
      exact h.quiet (hbook.toTaskWait i hk)
  | killReturns htask => exact h.killFlattened htask (hc htask)

end Desk

/-- **A halt is final in every run that misses the gaps.** -/
theorem stays_halted (env : DemoEnv) (x : DeskRun env) (h : ∀ m ∈ x.moves, MissesGaps env m) :
    StaysHalted x.final.log := by
  have hinv : Desk.HaltInv env x.final :=
    x.invariant_of Desk.haltInv_init (fun _ _ _ _ hi hs hc => Desk.haltInv_step hi hs hc) h
      x.visits_final
  exact hinv.final

/-! ## A halted morning -/

/-- The shipped configuration, with credentials, at the opening bell. -/
def deskDay : DemoEnv where
  cfg := .defaults
  connected := true
  timeOfDay := replayDay.timeOfDay
  marketActive := fun _ => true
  startTime := openingBell

/-- A minute of the symbol, prices in cents. -/
def deskBar (o h l c : ℤ) : BarTick :=
  ⟨"TEST", openingBell, "1Min", cents o, cents h, cents l, cents c, 1000⟩

/-- Half an hour at ten dollars, five green bars to 10.50, two red ones, and a breakout. -/
def surgeAndPullback : List BarTick :=
  List.replicate 35 (deskBar 1000 1000 1000 1000)
  ++ [deskBar 1000 1010 1000 1010, deskBar 1010 1020 1010 1020, deskBar 1020 1030 1020 1030,
    deskBar 1030 1040 1030 1040, deskBar 1040 1050 1040 1050, deskBar 1050 1050 1045 1045,
    deskBar 1045 1045 1040 1040, deskBar 1040 1060 1040 1055]

/-- The broker takes the order. -/
def orderTaken : OrderAck := ⟨"", some "1", true, "accepted", none⟩

/-- No handler has a BUY with the broker. -/
def Desk.NoTaskBuys (s : Desk) : Prop := ∀ i, (s.tasks i).buying = false

/-- The operator orders a symbol. -/
def DeskLabel.orders : DeskLabel → Bool
  | .request _ q => q.ordered.isSome
  | _ => false

theorem OperatorTask.not_buying_of_waits {k : OperatorTask} (h : k.waits = true) :
    k.buying = false := by
  cases k with
  | orderAck => exact absurd h (by simp [waits])
  | _ => rfl

/-- On a halted day, or when the operator orders nothing, no handler comes to buy. -/
theorem Desk.noTaskBuys_step {env : DemoEnv} {s s' : Desk} {l : DeskLabel} (h : s.NoTaskBuys)
    (hs : s.step env l = some s') (hl : s.risk.halted = true ∨ l.orders = false) :
    s'.NoTaskBuys := by
  -- one task is set, to one that does not buy
  have hset {t : Desk} {i : ℕ} {k : OperatorTask} (ht : t.tasks = s.tasks)
      (hk : k.buying = false) : (t.setTask i k).NoTaskBuys := by
    intro j
    rw [tasks_setTask, ht]
    split
    · exact hk
    · exact h j
  cases step_cases hs with
  | asks _ hk => exact hset rfl (OperatorTask.not_buying_of_waits hk)
  | @sendsManual i q symbol side _ _ _ _ _ hbuy hord =>
      refine hset rfl ?_
      cases side with
      | sell => rfl
      | buy =>
          -- the gate of the dashboard, and the request is an order
          rcases hl with hl | hl
          · exact absurd (hl.symm.trans (hbuy rfl).2) (by simp)
          · exact absurd hl (by simp [DeskLabel.orders, hord])
  | flattens => exact hset rfl rfl
  | kills => exact hset rfl rfl
  | taskCloses => exact hset rfl rfl
  | taskScales => exact hset rfl rfl
  | finishes tierB _ hp hk => exact hset hp.tasks.2 (OperatorTask.not_buying_of_waits hk)
  | killReturns => exact hset rfl rfl
  | @booksLoop _ t _ _ hp =>
      intro i
      show (t.tasks i).buying = false
      rw [hp.tasks.2]
      exact h i
  | settles =>
      intro i
      show ((s.post _).tasks i).buying = false
      rw [tasks_post]
      exact h i
  | _ => exact h

/-- TEST breaks out, and its quote is on its way; the kill-switch is used, its flatten returns, and
the quote arrives. Then the operator orders TEST, twice. -/
def haltedBeforeGate : List DeskLabel :=
  [.iterate true true, .scanned (some ["TEST"]), .resume, .bars (some surgeAndPullback),
    .request 0 .killSwitch, .taskFlattened 0, .entryQuote (some ⟨cents 1050, cents 1055⟩), .resume,
    .request 1 (.manualOrder "TEST" .buy 100 (21 / 2)),
    .request 2 (.manualTrade "TEST" (21 / 2) (52 / 5) 100), .iterate true true]

/-- The gate and the dashboard refuse all three; the log ends with the flatten. -/
theorem stays_halted_kill_switch :
    let x : DeskRun deskDay := (Execution.start _ _).play haltedBeforeGate
    StaysHalted x.final.log
      ∧ x.final.log = [.haltCalled .manualKillSwitch, .flattenAllSent, .killFlattened] := by
  intro x
  refine ⟨stays_halted deskDay x ?_, by decide +kernel⟩
  have hloop : ∀ m ∈ x.moves, m.pre.engine.approved = false ∧ m.pre.engine.buying = false := by
    decide +kernel
  have horders : ∀ m ∈ x.moves, m.pre.risk.halted = true ∨ m.label.orders = false := by
    decide +kernel
  have htasks : ∀ m ∈ x.moves, m.pre.NoTaskBuys := fun m hm =>
    x.invariant_of (fun _ => rfl) (fun _ _ _ _ h hs hl => Desk.noTaskBuys_step h hs hl) horders
      (x.visits_pre hm)
  intro m hm
  have hdue : m.pre.entryDue deskDay = false := by rw [Desk.entryDue, (hloop m hm).1, Bool.false_and]
  unfold MissesGaps
  split
  · exact hdue
  · exact hdue
  · exact fun _ => (hloop m hm).1
  · rintro _ (hb | ⟨i, hb⟩)
    · exact absurd (hb.symm.trans (hloop m hm).2) (by simp)
    · exact absurd (hb.symm.trans (htasks m hm i)) (by simp)
  · trivial

/-- An entry passes the gate; the kill-switch is used, and its flatten returns, while the entry's
signal is broadcast; then the loop goes on. -/
def haltedInTheGap : List DeskLabel :=
  [.iterate true true, .scanned (some ["TEST"]), .resume, .bars (some surgeAndPullback),
    .entryQuote (some ⟨cents 1050, cents 1055⟩), .request 0 .killSwitch, .taskFlattened 0, .resume,
    .ack orderTaken]

/-- The BUY is sent after the halt, and tracked after the flatten. -/
theorem bought_after_halt :
    ¬ ∀ x : DeskRun deskDay, StaysHalted x.final.log := by
  intro h
  have hlog : ∃ o pos, ((Execution.start (Desk.step deskDay) (Desk.init deskDay)).play
      haltedInTheGap).final.log
      = [.haltCalled .manualKillSwitch, .flattenAllSent, .killFlattened, .orderSent o,
        .opened 0 pos] ∧ o.side = .buy := by
    refine ⟨⟨.entry "TEST" 1767709800, "TEST", .buy, 1666, 53 / 5⟩,
      ⟨"TEST", 1666, 211 / 20, 52 / 5, openingBell, false, .microPullback⟩, ?_, rfl⟩
    decide +kernel
  obtain ⟨o, pos, hlog, hbuy⟩ := hlog
  have hfinal := (h ((Execution.start (Desk.step deskDay) (Desk.init deskDay)).play
    haltedInTheGap)).noBuy
  rw [hlog] at hfinal
  have hno := hfinal [.haltCalled .manualKillSwitch, .flattenAllSent, .killFlattened] (.orderSent o)
    [.opened 0 pos] rfl (by simp [DemoEvent.buys, hbuy]) (.haltCalled .manualKillSwitch) (by simp)
  exact absurd hno (by simp [DemoEvent.halts])

end RossBot
