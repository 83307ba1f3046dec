import RossBot.Demo.Guardrails
import RossBot.Demo.Orders
import RossBot.Demo.Refs

/-!
# A paused desk

`POST /controls/pause` promises that no new entries will be taken. The gates see
to that, the loop's and the operator's; but the loop's is passed before the signal
is broadcast, so that the one entry in that broadcast is still sent. After it a
desk whose entries are barred only closes, until the pause is lifted.
-/

namespace RossBot

open Lib

/-- The operator resumes trading. -/
def DeskLabel.resumes : DeskLabel → Bool
  | .request _ .resume => true
  | _ => false

namespace Desk

/-- The session or the day is halted. -/
def Halted (s : Desk) : Prop := s.svc.halted = true ∨ s.risk.halted = true

/-- Entries are barred: trading is paused, or halted. -/
def Barred (s : Desk) : Prop := s.svc.isPaused = true ∨ s.Halted

/-- A resume that has something to lift. -/
def Lifts (m : Move Desk DeskLabel) : Prop := m.label.resumes = true ∧ ¬ m.pre.Halted

variable {env : DemoEnv} {s s' t : Desk} {l : DeskLabel}

/-! ## The bar stays -/

theorem Barred.refuses (h : s.Barred) (now : Time) (gate : GateResult) :
    s.RefusesBuy env now gate := by
  rw [refusesBuy_iff]
  rcases h with h | h | h
  · exact Or.inr (Or.inr (Or.inl h))
  · exact Or.inl h
  · exact Or.inr (Or.inl h)

theorem svc_post (p : Posting) : (s.post p).svc = s.svc := by cases p <;> rfl

theorem Posted.svc (h : s.Posted env l t) : t.svc = s.svc := by
  rcases h with rfl | ⟨symbol, rfl⟩
  · exact svc_post _
  · exact svc_post _

theorem svc_manualOrder (i : ℕ) (symbol : Symbol) (side : Side) (qty : ℤ) (limitPrice : ℚ)
    (stop : Option ℚ) : (manualOrder env i symbol side qty limitPrice stop s).svc = s.svc := by
  rcases manualOrder_cases env s i symbol side qty limitPrice stop with
    ⟨r, h, -⟩ | ⟨-, h⟩ | ⟨-, -, h⟩ <;> exact (congrArg Desk.svc h).trans rfl

theorem svc_manualTrade (i : ℕ) (symbol : Symbol) (entry stop : ℚ) (shares : ℤ) :
    (manualTrade env i symbol entry stop shares s).svc = s.svc := by
  rcases manualTrade_cases env s i symbol entry stop shares with
    ⟨r, h, -⟩ | ⟨-, -, -, qty, -, -, h⟩ <;> exact (congrArg Desk.svc h).trans rfl

/--
**What a request leaves of the service's flags: only a resume lifts anything.**

And a resume lifts the pause alone; while the service is halted it is refused. Halted is
what the registered risk manager is, and no request does more to it than set that.
-/
theorem svc_handle (i : ℕ) (q : Request) :
    (s.svc.halted = true → (s.handle env i q).svc.halted = true)
      ∧ (q ≠ .resume → s.svc.isPaused = true → (s.handle env i q).svc.isPaused = true) := by
  have hsame : (s.handle env i q).svc = s.svc →
      (s.svc.halted = true → (s.handle env i q).svc.halted = true)
        ∧ (q ≠ .resume → s.svc.isPaused = true → (s.handle env i q).svc.isPaused = true) :=
    fun h => by rw [h]; exact ⟨id, fun _ => id⟩
  cases q with
  | closePosition symbol =>
      refine hsame ?_
      rw [handle]
      split <;> rfl
  | scaleOutPosition symbol =>
      refine hsame ?_
      rw [handle]
      split
      · rfl
      · split
        · rfl
        · split <;> rfl
  | moveStop symbol stop =>
      refine hsame ?_
      rw [handle]
      split <;> rfl
  | manualOrder => exact hsame (svc_manualOrder ..)
  | manualTrade => exact hsame (svc_manualTrade ..)
  | flattenAll =>
      refine hsame ?_
      rw [handle]
      split <;> rfl
  | haltDay => exact hsame rfl
  | killSwitch =>
      have hsvc : (s.handle env i .killSwitch).svc
          = { s.svc with riskManager := s.svc.riskManager.map fun _ => true } := by
        rw [handle]
        dsimp only
        split <;> rfl
      rw [hsvc]
      refine ⟨fun h => ?_, fun _ => id⟩
      -- a registered risk manager is halted now; there is one, as it was halted
      rw [StateService.halted] at h ⊢
      cases hr : s.svc.riskManager with
      | none => rw [hr] at h; exact absurd h (by simp)
      | some halted => rfl
  | setOverride override =>
      refine hsame ?_
      cases override <;> rfl
  | pause =>
      rw [handle]
      split
      · exact ⟨id, fun _ => id⟩
      · exact ⟨id, fun _ _ => rfl⟩
  | resume =>
      refine ⟨fun h => ?_, fun h => absurd rfl h⟩
      rw [handle, if_pos h]
      exact h
  | triggerScan =>
      refine hsame ?_
      rw [handle]
      split <;> rfl

/-- Only a request touches the flags. -/
theorem svc_step (hs : s.step env l = some s') :
    (∃ i q, l = .request i q ∧ s' = s.handle env i q) ∨ s'.svc = s.svc := by
  cases l with
  | request i q =>
      rw [step, request] at hs
      split at hs
      · exact Or.inl ⟨i, q, rfl, (Option.some.inj hs).symm⟩
      · exact absurd hs (by simp)
  | _ =>
      right
      cases step_cases hs with
      | booksLoop _ hp => exact hp.svc
      | finishes _ _ hp => exact hp.svc
      | _ => rfl

theorem halted_step (h : s.Halted) (hs : s.step env l = some s') : s'.Halted := by
  rcases h with h | h
  · left
    rcases svc_step hs with ⟨i, q, -, rfl⟩ | hsvc
    · exact (svc_handle i q).1 h
    · rwa [hsvc]
  · exact Or.inr ((step_posts hs).risk.halted (by rw [halted_post, h]))

/-- **The bar stays until it is lifted.** -/
theorem barred_step (h : s.Barred) (hs : s.step env l = some s') (hl : ¬ Lifts ⟨s, l, s'⟩) :
    s'.Barred := by
  by_cases hh : s.Halted
  · exact Or.inr (halted_step hh hs)
  have hpaused : s.svc.isPaused = true := h.resolve_right hh
  left
  rcases svc_step hs with ⟨i, q, rfl, rfl⟩ | hsvc
  · refine (svc_handle i q).2 (fun hq => hl ⟨?_, hh⟩) hpaused
    rw [hq]; rfl
  · rwa [hsvc]

/-! ## What is still to come -/

/-- A loop that only waits has no entry on its way. -/
theorem no_entry_of_waits {e : EngineTask} (h : e.waits = true) :
    e.approved = false ∧ e.buying = false := by
  cases e <;> first | exact ⟨rfl, rfl⟩ | exact absurd h (by simp [EngineTask.waits])

/-- A handler that only waits has no BUY on its way. -/
theorem not_buying_of_waits {k : OperatorTask} (h : k.waits = true) : k.buying = false := by
  cases k <;> first | rfl | exact absurd h (by simp [OperatorTask.waits])

/-- Nothing gets nearer to a BUY but the entry that was approved. -/
structure Winds (s s' : Desk) : Prop where
  approved : s'.engine.approved = true → s.engine.approved = true
  engineBuying : s'.engine.buying = true → s.engine.buying = true ∨ s.engine.approved = true
  taskBuying : ∀ i, (s'.tasks i).buying = true → (s.tasks i).buying = true

theorem Winds.same (he : s'.engine = s.engine) (hk : s'.tasks = s.tasks) : s.Winds s' :=
  ⟨by rw [he]; exact id, by rw [he]; exact Or.inl, by rw [hk]; exact fun _ => id⟩

/-- The loop moves on to a place with no entry on its way. -/
theorem Winds.loop {e : EngineTask} (he : s'.engine = e) (ha : e.approved = false)
    (hb : e.buying = false) (hk : s'.tasks = s.tasks) : s.Winds s' := by
  refine ⟨fun h => ?_, fun h => ?_, by rw [hk]; exact fun _ => id⟩
  · rw [he] at h; exact absurd (ha.symm.trans h) (by simp)
  · rw [he] at h; exact absurd (hb.symm.trans h) (by simp)

/-- The loop moves on to where it only waits. -/
theorem Winds.wait {e : EngineTask} (he : s'.engine = e) (hw : e.waits = true)
    (hk : s'.tasks = s.tasks) : s.Winds s' :=
  .loop he (no_entry_of_waits hw).1 (no_entry_of_waits hw).2 hk

/-- A handler moves on to a place with no BUY on its way. -/
theorem Winds.task {i : ℕ} {k : OperatorTask} (he : t.engine = s.engine) (ht : t.tasks = s.tasks)
    (hk : k.buying = false) : s.Winds (t.setTask i k) := by
  refine ⟨?_, ?_, fun j hj => ?_⟩
  · change t.engine.approved = true → _
    rw [he]; exact id
  · change t.engine.buying = true → _
    rw [he]; exact Or.inl
  · rw [← ht]
    exact buying_setTask hk j hj

/--
**A barred desk sends no BUY for the operator.**

Two of the requests can ask for one, `manual_order` and `manual_trade`, and both ask
`_manual_guardrails` first, in the step that would send it. It refuses while the day is
halted or paused.
-/
theorem not_buying_handle (h : s.Barred) {i : ℕ} (hfree : s.tasks i = .done) (q : Request) :
    ((s.handle env i q).tasks i).buying = false := by
  have hdone : (s.tasks i).buying = false := by rw [hfree]; rfl
  have hset : ∀ (u : Desk) (k : OperatorTask), k.buying = false →
      ((u.setTask i k).tasks i).buying = false := by
    intro u k hk
    rw [tasks_setTask, if_pos rfl]
    exact hk
  have hrefuses : s.RefusesBuy env s.clock .insufficientBars := h.refuses _ _
  -- the manual guardrails refuse whatever the request is
  obtain ⟨r, veto, hrefused⟩ :
      ∃ r veto, manualGuardrails env s = ({ s with risk := r }, some veto) := by
    rcases manualGuardrails_cases env s with ⟨r, veto, hg, -⟩ | ⟨hg, -⟩
    · exact ⟨r, veto, hg⟩
    · exact absurd (by rw [hg]) hrefuses.manual
  -- only a BUY would be sent, and both that can ask for one are refused
  cases q with
  | closePosition symbol =>
      rw [handle]
      split
      · exact hdone
      · exact hset _ _ rfl
  -- a scale-out sells
  | scaleOutPosition symbol =>
      rw [handle]
      split
      · exact hdone
      · split
        · exact hdone
        · split
          · exact hdone
          · exact hset _ _ rfl
  | moveStop symbol stop =>
      rw [handle]
      split <;> exact hdone
  | manualOrder symbol side qty limitPrice =>
      rw [handle]
      unfold manualOrder
      split
      · exact hdone
      · split
        · exact hdone
        · cases side with
          | sell => exact hset _ _ rfl
          | buy => rw [hrefused]; exact hdone
  | manualTrade symbol entry stop shares =>
      rw [handle]
      unfold manualTrade
      split
      · exact hdone
      · rw [hrefused]; exact hdone
  | flattenAll =>
      rw [handle]
      split
      · exact hdone
      · exact hset _ _ rfl
  | killSwitch =>
      rw [handle]
      dsimp only
      split
      · exact hset _ _ rfl
      · exact hdone
  | setOverride override => cases override <;> exact hdone
  | haltDay => exact hdone
  | pause =>
      rw [handle]
      split <;> exact hdone
  | resume =>
      rw [handle]
      split <;> exact hdone
  | triggerScan =>
      rw [handle]
      split
      · exact hdone
      · exact hset _ _ rfl

/-- A barred desk approves no entry. -/
theorem not_approved_gotEntryQuote {quote : Option QuoteTick} (h : s.Barred)
    (hs : s.gotEntryQuote env quote = some s') : s'.engine.approved = false := by
  unfold gotEntryQuote at hs
  split at hs
  · split at hs
    · rw [← Option.some.inj hs]
      exact (no_entry_of_waits (waits_nextEntry ..)).1
    · dsimp only at hs
      split at hs
      · rw [← Option.some.inj hs]
        exact (no_entry_of_waits (waits_nextEntry ..)).1
      · split at hs
        · rw [← Option.some.inj hs]; rfl
        · -- the gate approved, which a barred desk's gate does not
          rename_i hgate
          obtain ⟨veto, hveto⟩ := (h.refuses _ _).auto
          rw [hgate] at hveto
          exact absurd hveto (by simp)
  · exact absurd hs (by simp)

/-- **One step of a barred desk.** -/
theorem winds_step (h : s.Barred) (hs : s.step env l = some s') : s.Winds s' := by
  cases step_cases hs with
  | ticks | switches | haltsDay | killsOffline => exact .same rfl rfl
  | waits r tierB _ he => exact .wait rfl he rfl
  | approves => exact absurd (not_approved_gotEntryQuote h hs) (by simp [EngineTask.approved])
  | sendsEntry happ =>
      exact ⟨fun h' => absurd h' (by simp [EngineTask.approved]), fun _ => Or.inr happ, fun _ => id⟩
  | sendsScale | sendsExit => exact .loop rfl rfl rfl rfl
  | booksLoop _ hp he => exact .wait rfl he hp.tasks.2
  | settles => exact .same (engine_post _) (tasks_post _)
  | asks _ hk => exact .task rfl rfl (not_buying_of_waits hk)
  | @sendsManual i q symbol side qty limitPrice stop hfree =>
      cases side with
      | sell => exact .task rfl rfl rfl
      | buy =>
          -- the gate of the operator's orders is looked at in the step that sends them
          rw [step, request, hfree] at hs
          have hnot : ((s.handle env i q).tasks i).buying = false := not_buying_handle h hfree q
          rw [Option.some.inj hs, sendManual, tasks_setTask, if_pos rfl] at hnot
          exact absurd hnot (by simp [OperatorTask.buying])
  | flattens | kills | taskCloses | taskScales | killReturns => exact .task rfl rfl rfl
  | finishes tierB _ hp hk => exact .task hp.tasks.1 hp.tasks.2 (not_buying_of_waits hk)

/-- A BUY on its way is an order on its way. -/
theorem placing_of_buying {e : EngineTask} (h : e.buying = true) : e.placing ≠ none := by
  cases e with
  | awaitEntryAck => simp [EngineTask.placing]
  | _ => exact absurd h (by simp [EngineTask.buying])

theorem buying_of_placing {e : EngineTask} {o : DemoOrder} (h : e.placing = some o)
    (ho : o.side = .buy) : e.buying = true := by
  cases e with
  | awaitEntryAck => rfl
  | awaitScaleAck =>
      rw [← Option.some.inj h] at ho
      exact absurd ho (by simp [PendingExit.order])
  | _ => exact absurd h (by simp [EngineTask.placing])

/-- An operator's BUY on its way is an order on its way. -/
theorem placing_of_task_buying {k : OperatorTask} (h : k.buying = true) : k.placing ≠ none := by
  cases k with
  | orderAck => simp [OperatorTask.placing]
  | _ => exact absurd h (by simp [OperatorTask.buying])

theorem buying_of_task_placing {k : OperatorTask} {o : DemoOrder} (h : k.placing = some o)
    (ho : o.side = .buy) : k.buying = true := by
  cases k with
  | orderAck symbol side =>
      rw [← Option.some.inj h] at ho
      obtain rfl : side = .buy := ho
      rfl
  | scaleAck =>
      rw [← Option.some.inj h] at ho
      exact absurd ho (by simp [PendingExit.order])
  | _ => exact absurd h (by simp [OperatorTask.placing])

/-- A BUY that goes out was the approved entry. -/
theorem buys_step (h : s.Barred) (hs : s.step env l = some s') {o : DemoOrder}
    (hsent : s'.sent = s.sent ++ [o]) (ho : o.side = .buy) :
    s.engine.approved = true ∧ s'.engine.approved = false := by
  have hwinds := winds_step h hs
  cases places_step hs with
  | none hc =>
      rw [hc.sent] at hsent
      exact absurd hsent (by simp)
  | sends c o' _ hsent' hfree hpend =>
      obtain rfl : o' = o := by
        rw [hsent'] at hsent
        simpa using hsent
      cases c with
      | loop =>
          have hbuying : s'.engine.buying = true := buying_of_placing hpend ho
          refine ⟨(hwinds.engineBuying hbuying).resolve_left fun hb =>
            placing_of_buying hb hfree, ?_⟩
          cases heng : s'.engine with
          | awaitEntryAck => rfl
          | _ => rw [heng] at hbuying; exact absurd hbuying (by simp [EngineTask.buying])
      | handler i =>
          -- the operator's gate is shut: this BUY would have been with the broker before
          have hbuying := hwinds.taskBuying i (buying_of_task_placing hpend ho)
          exact absurd hfree (placing_of_task_buying hbuying)

/-! ## The run -/

/-- The BUYs among the orders. -/
def buys (os : List DemoOrder) : ℕ := os.countP fun o => o.side = .buy

/-- **What a barred desk has done since `s`**: it has sent the approved entry at most, and with
none approved and no BUY under way it tracks nothing it did not track. -/
structure WoundDown (s t : Desk) : Prop where
  barred : t.Barred
  bought : ∃ os, t.sent = s.sent ++ os
    ∧ buys os + t.engine.approved.toNat ≤ s.engine.approved.toNat
  closing : s.engine.approved = false → ¬ s.BuyInFlight →
    t.engine.approved = false ∧ ¬ t.BuyInFlight
      ∧ ∀ symbol ref, t.positions.get? symbol = some ref → s.positions.get? symbol = some ref

theorem WoundDown.start (h : s.Barred) : s.WoundDown s :=
  ⟨h, ⟨[], by simp [buys]⟩, fun ha hb => ⟨ha, hb, fun _ _ => id⟩⟩

theorem WoundDown.step (h : s.WoundDown t) (hs : t.step env l = some s')
    (hl : ¬ Lifts ⟨t, l, s'⟩) : s.WoundDown s' := by
  have hwinds := winds_step h.barred hs
  refine ⟨barred_step h.barred hs hl, ?_, fun ha hb => ?_⟩
  · -- one more BUY at most: the one that was approved before the bar
    obtain ⟨os, hos, hle⟩ := h.bought
    cases places_step hs with
    | none hc =>
        refine ⟨os, hc.sent.trans hos, le_trans (Nat.add_le_add_left ?_ _) hle⟩
        exact Bool.toNat_le_toNat hwinds.approved
    | sends c o _ hsent =>
        refine ⟨os ++ [o], by rw [hsent, hos, List.append_assoc], ?_⟩
        rw [buys, List.countP_append, List.countP_singleton]
        split
        · -- the BUY sent is the approved one, so nothing is approved after it
          rename_i hside
          obtain ⟨ht, hs'⟩ := buys_step h.barred hs hsent (of_decide_eq_true hside)
          rw [ht] at hle
          rw [hs']
          exact hle
        · exact le_trans (Nat.add_le_add_left (Bool.toNat_le_toNat hwinds.approved) _) hle
  · -- nothing approved and nothing in flight: every position open was there before
    obtain ⟨happ, hfly, hpos⟩ := h.closing ha hb
    refine ⟨?_, ?_, fun symbol ref hget => ?_⟩
    · by_contra hne
      exact absurd (happ.symm.trans (hwinds.approved (by simpa using hne))) (by simp)
    · rintro (hbuy | ⟨i, hbuy⟩)
      · rcases hwinds.engineBuying hbuy with hbuy | hbuy
        · exact hfly (Or.inl hbuy)
        · exact absurd (happ.symm.trans hbuy) (by simp)
      · exact hfly (Or.inr ⟨i, hwinds.taskBuying i hbuy⟩)
    · rw [(step_posts hs).positions] at hget
      rcases positions_post hget with hget | ⟨pos, hopens, -, -⟩
      · exact hpos symbol ref hget
      · exact absurd (buyInFlight_of_opens hopens) hfly

end Desk

/-- **A barred desk winds down.** From any state in which trading is paused or halted, however the
loop and the dashboard interleave and until a resume lifts the pause, one BUY is sent at most: the
entry that had passed the gate. When there is none, and no BUY is under way, nothing is tracked that
was not. A halt is lifted by no resume. -/
theorem barred_windsDown {env : DemoEnv} {s t : Desk} {ms : List (Move Desk DeskLabel)}
    (h : Run (Desk.step env) s ms t)
    (hbar : s.Halted ∨ s.svc.isPaused = true ∧ ∀ m ∈ ms, ¬ Desk.Lifts m) : s.WoundDown t := by
  have hbarred : s.Barred := hbar.elim Or.inr fun hp => Or.inl hp.1
  have hlifts : ∀ m ∈ ms, ¬ Desk.Lifts m := by
    rcases hbar with hh | ⟨-, hl⟩
    · intro m hm hlift
      obtain ⟨ms', -, hrun⟩ := h.before m hm
      exact hlift.2 (Reachable.invariant hh (fun _ _ _ _ hi hs => Desk.halted_step hi hs) ⟨ms', hrun⟩)
    · exact hl
  exact h.invariant_of (I := s.WoundDown) (Desk.WoundDown.start hbarred)
    (fun _ _ _ _ hi hs hl => hi.step hs hl) hlifts

/-- An entry passes the gate, and trading is paused while its signal is broadcast. -/
def pausedInTheGap : Desk :=
  ((Execution.start (Desk.step deskDay) (Desk.init deskDay)).play
    [.iterate true true, .scanned (some ["TEST"]), .resume, .bars (some surgeAndPullback),
      .entryQuote (some ⟨cents 1050, cents 1055⟩), .request 0 .pause]).final

/-- The loop goes on, and begins again. -/
def thenGoesOn : Execution (Desk.step deskDay) pausedInTheGap :=
  (Execution.start _ _).play [.resume, .ack orderTaken, .resume, .iterate true true]

/-- The entry is sent, and it is the last. -/
theorem barred_windsDown_gap :
    pausedInTheGap.WoundDown thenGoesOn.final ∧ Desk.buys thenGoesOn.final.sent = 1 := by
  refine ⟨barred_windsDown thenGoesOn.run (Or.inr ⟨by decide +kernel, ?_⟩), by decide +kernel⟩
  have hmoves : ∀ m ∈ thenGoesOn.moves, m.label.resumes = false := by decide +kernel
  intro m hm hlift
  exact absurd ((hmoves m hm).symm.trans hlift.1) (by simp)

end RossBot
