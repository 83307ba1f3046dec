import RossBot.Demo.Moves

/-!
# The orders on their way

Entries, scale-outs and the operator's own orders go to the broker under a
`client_order_id`; closes and flattens have none. A step sends one order at most,
and only for a task that has none with the broker (`places_step`).
-/

namespace RossBot

open Lib

/-- The order a log entry says was sent. -/
def DemoEvent.sent : DemoEvent → Option DemoOrder
  | .orderSent o => some o
  | _ => none

/-! ## The ids -/

/-- The id as it is sent. -/
def DemoOrderId.text : DemoOrderId → String
  | .entry symbol second => "demo-" ++ symbol ++ "-" ++ toString second
  | .scale symbol second => "demo-scale-" ++ symbol ++ "-" ++ toString second
  | .manual symbol second => "manual-" ++ symbol ++ "-" ++ toString second

/-- The symbol an id names. -/
def DemoOrderId.symbol : DemoOrderId → Symbol
  | .entry symbol _ | .scale symbol _ | .manual symbol _ => symbol

/-- The second an id was made in. -/
def DemoOrderId.second : DemoOrderId → ℤ
  | .entry _ second | .scale _ second | .manual _ second => second

/-- A second since the epoch, and a symbol that does not begin with `scale-`. -/
structure DemoOrderId.Plain (i : DemoOrderId) : Prop where
  second : 0 ≤ i.second
  symbol : ¬ "scale-".toList <+: i.symbol.toList

theorem dash_notMem_digits (n : ℕ) : '-' ∉ Nat.toDigits 10 n := fun h =>
  absurd (Nat.isDigit_of_mem_toDigits (by decide) (by decide) h) (by decide)

/-- What comes before the first dash ends there. -/
theorem append_dash_inj {d e a b : List Char} (hd : '-' ∉ d) (he : '-' ∉ e)
    (h : d ++ '-' :: a = e ++ '-' :: b) : d = e ∧ a = b := by
  induction d generalizing e with
  | nil =>
      cases e with
      | nil => exact ⟨rfl, (List.cons.inj h).2⟩
      | cons c e => exact absurd ((List.cons.inj h).1 ▸ List.mem_cons_self) he
  | cons c d ih =>
      cases e with
      | nil => exact absurd ((List.cons.inj h).1 ▸ List.mem_cons_self) hd
      | cons c' e =>
          obtain ⟨hc, htail⟩ := List.cons.inj h
          obtain ⟨hde, hab⟩ := ih (fun hm => hd (List.mem_cons_of_mem _ hm))
            (fun hm => he (List.mem_cons_of_mem _ hm)) htail
          exact ⟨by rw [hc, hde], hab⟩

/-- The last dash of an id comes before its second. -/
theorem dashed_inj {s s' : String} {t u : ℤ} (ht : 0 ≤ t) (hu : 0 ≤ u)
    (h : s ++ "-" ++ toString t = s' ++ "-" ++ toString u) : s = s' ∧ t = u := by
  obtain ⟨m, rfl⟩ := Int.eq_ofNat_of_zero_le ht
  obtain ⟨n, rfl⟩ := Int.eq_ofNat_of_zero_le hu
  have hdigits : ∀ k : ℕ, (toString (k : ℤ)).toList = Nat.toDigits 10 k := fun k =>
    Nat.toList_repr
  have hrev := congrArg (fun text => text.toList.reverse) h
  simp only [String.toList_append, hdigits, List.reverse_append, List.append_assoc] at hrev
  obtain ⟨htime, hname⟩ := append_dash_inj (by simpa using dash_notMem_digits m)
    (by simpa using dash_notMem_digits n) hrev
  have htime : Nat.toDigits 10 m = Nat.toDigits 10 n := List.reverse_injective htime
  refine ⟨String.toList_inj.mp (List.reverse_injective hname), ?_⟩
  rw [← Nat.ofDigitChars_ten_toDigits (n := m), htime, Nat.ofDigitChars_ten_toDigits]

/-- **Different ids are sent as different texts.** -/
theorem DemoOrderId.text_inj {i j : DemoOrderId} (hi : i.Plain) (hj : j.Plain) :
    i.text = j.text ↔ i = j := by
  refine ⟨fun h => ?_, fun h => h ▸ rfl⟩
  -- an automatic entry is no scale-out
  have hscale : ∀ {s s' : String}, ¬ "scale-".toList <+: s.toList →
      "demo-" ++ s ≠ "demo-scale-" ++ s' := by
    intro s s' hs hh
    have hh := congrArg String.toList hh
    rw [String.toList_append, String.toList_append,
      show "demo-scale-".toList = "demo-".toList ++ "scale-".toList from rfl, List.append_assoc,
      List.append_cancel_left_eq] at hh
    exact hs ⟨s'.toList, hh.symm⟩
  -- nor is either the operator's
  have hmanual : ∀ {p s s' : String}, p.toList.head? = some 'd' → p ++ s ≠ "manual-" ++ s' := by
    intro p s s' hp hh
    have hh := congrArg (fun text => text.toList.head?) hh
    rw [String.toList_append, String.toList_append, List.head?_append, List.head?_append, hp] at hh
    have hh : some 'd' = some 'm' := hh
    exact absurd hh (by decide)
  cases i <;> cases j <;> obtain ⟨hname, hsecond⟩ := dashed_inj hi.second hj.second h
  case entry.entry | scale.scale | manual.manual =>
    rw [(String.append_right_inj _).mp hname]
    exact congrArg _ hsecond
  case entry.scale => exact absurd hname (hscale hi.symbol)
  case scale.entry => exact absurd hname.symm (hscale hj.symbol)
  case entry.manual | scale.manual => exact absurd hname (hmanual rfl)
  case manual.entry | manual.scale => exact absurd hname.symm (hmanual rfl)

/-! ## What an order is made for -/

/-- The kinds of orders that have an id. -/
inductive OrderKind where
  | entry
  | scale
  | manual
  deriving DecidableEq, Repr

/-- The kind of an order, its symbol, and the second it is dated. -/
structure OrderMark where
  kind : OrderKind
  symbol : Symbol
  second : ℤ
  deriving DecidableEq, Repr

/-- The id is made of these, and of nothing else. -/
def OrderMark.id (k : OrderMark) : DemoOrderId :=
  match k.kind with
  | .entry => .entry k.symbol k.second
  | .scale => .scale k.symbol k.second
  | .manual => .manual k.symbol k.second

theorem OrderMark.id_injective : Function.Injective OrderMark.id := by
  rintro ⟨kind, symbol, second⟩ ⟨kind', symbol', second'⟩ h
  cases kind <;> cases kind' <;> simp_all [id]

/-- What the order of a step would be made for: an approved entry, dated as the iteration that
approved it; a scale-out, dated as the iteration or the request it is of; or an order of the
operator's, dated now. -/
def Desk.mark (s : Desk) : DeskLabel → Option OrderMark
  | .resume =>
      match s.engine with
      | .awaitSignal now symbol _ _ _ _ => some ⟨.entry, symbol, roundDown now⟩
      | _ => none
  | .exitQuote _ =>
      match s.engine with
      | .exitQuote now symbol _ _ => some ⟨.scale, symbol, roundDown now⟩
      | _ => none
  | .taskQuote i _ =>
      match s.tasks i with
      | .scaleQuote symbol _ now => some ⟨.scale, symbol, roundDown now⟩
      | _ => none
  | .request _ q => q.ordered.map fun symbol => ⟨.manual, symbol, roundDown s.clock⟩
  | _ => none

/-! ## Who has an order out -/

/-- Who waits for the broker: the loop, or a handler. -/
inductive Caller where
  | loop
  | handler (i : ℕ)
  deriving DecidableEq

/-- The order of `_scale_out`. -/
def PendingExit.order (exit : PendingExit) (half : ℤ) : DemoOrder where
  clientOrderId := .scale exit.symbol (roundDown exit.now)
  symbol := exit.symbol
  side := .sell
  qty := half
  limitPrice := quantize2 exit.price

/-- The order the loop has with the broker. -/
def EngineTask.placing : EngineTask → Option DemoOrder
  | .awaitEntryAck now order _ => some (Desk.entryOrder now order)
  | .awaitScaleAck exit half _ => some (exit.order half)
  | _ => none

/-- The order a handler has with the broker. -/
def OperatorTask.placing : OperatorTask → Option DemoOrder
  | .scaleAck exit half => some (exit.order half)
  | .orderAck symbol side qty limitPrice now _ =>
      some ⟨.manual symbol (roundDown now), symbol, side, qty, limitPrice⟩
  | _ => none

namespace Desk

/-- The orders sent so far. -/
def sent (s : Desk) : List DemoOrder := s.log.filterMap DemoEvent.sent

/-- The order somebody has with the broker. -/
def pending (s : Desk) : Caller → Option DemoOrder
  | .loop => s.engine.placing
  | .handler i => (s.tasks i).placing

/-- The answer to an order that a step delivers, and to whom. -/
def delivered (s : Desk) : DeskLabel → Option (Caller × OrderAck)
  | .ack ack => if s.engine.placing.isSome then some (.loop, ack) else none
  | .taskAck i ack => if (s.tasks i).placing.isSome then some (.handler i, ack) else none
  | _ => none

variable {env : DemoEnv} {s s' t : Desk}

/-! ## Steps that send nothing -/

/-- Nothing is sent, and nobody waits for more than before. -/
structure Calm (s s' : Desk) : Prop where
  sent : s'.sent = s.sent
  pending : ∀ c o, s'.pending c = some o → s.pending c = some o

theorem Calm.refl (s : Desk) : s.Calm s := ⟨rfl, fun _ _ h => h⟩

theorem Calm.trans (h : s.Calm s') (h' : s'.Calm t) : s.Calm t :=
  ⟨h'.sent.trans h.sent, fun c o ho => h.pending c o (h'.pending c o ho)⟩

theorem Calm.of_eq (hl : s'.log = s.log) (he : s'.engine = s.engine) (hk : s'.tasks = s.tasks) :
    s.Calm s' := by
  refine ⟨by rw [Desk.sent, Desk.sent, hl], fun c o ho => ?_⟩
  cases c with
  | loop => rwa [Desk.pending, he] at ho
  | handler i => rwa [Desk.pending, hk] at ho

/-- What is logged is not an order. -/
theorem Calm.toLog (h : s.Calm s') (es : List DemoEvent) (hl : t.log = s'.log ++ es)
    (hes : ∀ e ∈ es, e.sent = none) (he : t.engine = s'.engine) (hk : t.tasks = s'.tasks) :
    s.Calm t := by
  have hcalm : s'.Calm { t with log := s'.log } := .of_eq rfl he hk
  refine ⟨?_, (h.trans hcalm).pending⟩
  rw [Desk.sent, hl, List.filterMap_append, List.filterMap_eq_nil_iff.mpr hes, List.append_nil]
  exact h.sent

theorem Calm.toNote (h : s.Calm s') {e : DemoEvent} (he : e.sent = none) : s.Calm (s'.note e) :=
  h.toLog [e] rfl (by simpa using he) rfl rfl

/-- The loop has no order with the broker. -/
theorem Calm.toEngine (h : s.Calm s') {e : EngineTask} (he : e.placing = none) :
    s.Calm { s' with engine := e } := by
  refine ⟨h.sent, fun c o ho => ?_⟩
  cases c with
  | loop => exact absurd (he.symm.trans ho) (by simp)
  | handler i => exact h.pending (.handler i) o ho

theorem placing_of_waits {e : EngineTask} (h : e.waits = true) : e.placing = none := by
  cases e <;> first | rfl | exact absurd h (by simp [EngineTask.waits])

theorem placing_of_task_waits {k : OperatorTask} (h : k.waits = true) : k.placing = none := by
  cases k <;> first | rfl | exact absurd h (by simp [OperatorTask.waits])

theorem Calm.toWait (h : s.Calm s') {e : EngineTask} (he : e.waits = true) :
    s.Calm { s' with engine := e } := h.toEngine (placing_of_waits he)

/-- A handler has no order with the broker. -/
theorem Calm.toTask (h : s.Calm s') (i : ℕ) {k : OperatorTask} (hk : k.placing = none) :
    s.Calm (s'.setTask i k) := by
  refine ⟨h.sent, fun c o ho => ?_⟩
  cases c with
  | loop => exact h.pending .loop o ho
  | handler j =>
      rw [Desk.pending, tasks_setTask] at ho
      split at ho
      · exact absurd (hk.symm.trans ho) (by simp)
      · exact h.pending (.handler j) o ho

theorem Calm.openPosition (h : s.Calm s') (pos : DemoPosition) : s.Calm (s'.openPosition pos) :=
  h.toLog [.opened s'.nextRef pos] rfl (by simp [DemoEvent.sent]) rfl rfl

theorem Calm.bookExit (h : s.Calm s') (exit : PendingExit) (reason : DemoExit) :
    s.Calm (s'.bookExit exit reason) := by
  obtain ⟨pnl, hlog⟩ := log_bookExit (s := s') exit reason
  exact h.toLog _ hlog (by simp [DemoEvent.sent]) rfl rfl

theorem Calm.bookScaleOut (h : s.Calm s') (exit : PendingExit) (half : ℤ) :
    s.Calm (s'.bookScaleOut exit half) := by
  obtain ⟨pnl, hlog⟩ := log_bookScaleOut (s := s') exit half
  exact h.toLog _ hlog (by simp [DemoEvent.sent]) rfl rfl

theorem Calm.forget (h : s.Calm s') {symbol : Symbol} (hf : s'.forget symbol = some t) :
    s.Calm t := by
  obtain ⟨-, rfl⟩ := forget_some hf
  exact h.trans (.of_eq rfl rfl rfl)

/-! ## What a step places -/

/-- **What a step can do to the orders on their way.** -/
inductive Places (s : Desk) (l : DeskLabel) (s' : Desk) : Prop where
  /-- None is sent; one that is answered is no longer on its way. -/
  | none : s.Calm s' → (∀ c ack, s.delivered l = some (c, ack) → s'.pending c = Option.none) →
      Places s l s'
  /-- One is sent, for somebody who had none. -/
  | sends (c : Caller) (o : DemoOrder) : s.delivered l = Option.none → s'.sent = s.sent ++ [o] →
      s.pending c = Option.none → s'.pending c = some o →
      (∀ c', c' ≠ c → s'.pending c' = s.pending c') →
      (s.mark l).map OrderMark.id = some o.clientOrderId → Places s l s'

/-- A step that delivers nothing and sends nothing. -/
theorem Calm.places {l : DeskLabel} (h : s.Calm s') (hd : s.delivered l = none) : Places s l s' :=
  .none h fun c ack hc => absurd (hd.symm.trans hc) (by simp)

theorem sent_note (o : DemoOrder) : (s.note (.orderSent o)).sent = s.sent ++ [o] := by
  rw [sent, note, List.filterMap_append]; rfl

/-- The loop sends an order. -/
theorem places_engine {l : DeskLabel} {o : DemoOrder} {e : EngineTask}
    (hd : s.delivered l = none) (hs : s.engine.placing = none) (he : e.placing = some o)
    (hm : (s.mark l).map OrderMark.id = some o.clientOrderId) :
    Places s l { s.note (.orderSent o) with engine := e } := by
  refine .sends .loop o hd (sent_note o) hs he (fun c' hc' => ?_) hm
  cases c' with
  | loop => exact absurd rfl hc'
  | handler i => rfl

/-- A handler sends an order. -/
theorem places_task {l : DeskLabel} {o : DemoOrder} {i : ℕ} {k : OperatorTask}
    (hd : s.delivered l = none) (hs : (s.tasks i).placing = none) (hk : k.placing = some o)
    (hm : (s.mark l).map OrderMark.id = some o.clientOrderId) :
    Places s l ((s.note (.orderSent o)).setTask i k) := by
  refine .sends (.handler i) o hd (sent_note o) hs ?_ (fun c' hc' => ?_) hm
  · rw [pending, tasks_setTask, if_pos rfl]; exact hk
  · cases c' with
    | loop => rfl
    | handler j =>
        rw [pending, tasks_setTask, if_neg fun hj => hc' (by rw [hj])]; rfl

theorem calm_killHalt : s.Calm s.killHalt := by
  have hhalt : s.Calm ({ s with svc := { s.svc with
      riskManager := s.svc.riskManager.map fun _ => true } }.halt .manualKillSwitch) :=
    .of_eq rfl rfl rfl
  exact hhalt.toNote rfl

/-- Posting sends nothing. -/
theorem calm_post (p : Posting) : s.Calm (s.post p) := by
  have hself := Calm.refl s
  cases p with
  | nothing => exact hself
  | opens pos => exact hself.openPosition pos
  | scales exit half => exact hself.bookScaleOut exit half
  | closes exit reason => exact (hself.bookExit exit reason).trans (.of_eq rfl rfl rfl)
  | replays => exact hself.toLog [_, _] (List.append_assoc ..) (by simp [DemoEvent.sent]) rfl rfl
  | clears | restops => exact .of_eq rfl rfl rfl

theorem Posted.calm {l : DeskLabel} (h : s.Posted env l t) : s.Calm t := by
  rcases h with rfl | ⟨symbol, rfl⟩
  · exact calm_post _
  · exact (calm_post _).toNote rfl

theorem delivered_of_loops {l : DeskLabel} (h : l.loops = true) : s.delivered l = none := by
  cases l <;> first | rfl | exact absurd h (by simp [DeskLabel.loops])

/-- The loop that is answered goes on, and has nothing on its way. -/
theorem pending_of_books {l : DeskLabel} {e : EngineTask} (hl : l.books = true)
    (he : e.placing = none) (t : Desk) (c : Caller) (ack : OrderAck)
    (hd : s.delivered l = some (c, ack)) : { t with engine := e }.pending c = none := by
  cases l with
  | ack a =>
      rw [delivered] at hd
      split at hd
      · rw [← (Prod.mk.inj (Option.some.inj hd)).1]; exact he
      · exact absurd hd (by simp)
  | replayClose => exact absurd hd (by simp [delivered])
  | _ => exact absurd hl (by simp [DeskLabel.books])

/-- A handler that is answered goes on, and has nothing on its way. -/
theorem pending_of_finishes {l : DeskLabel} {i : ℕ} {k : OperatorTask} (hl : l.finishes = some i)
    (hk : k.placing = none) (t : Desk) (c : Caller) (ack : OrderAck)
    (hd : s.delivered l = some (c, ack)) : (t.setTask i k).pending c = none := by
  cases l with
  | taskAck j a =>
      rw [delivered] at hd
      split at hd
      · rw [← (Prod.mk.inj (Option.some.inj hd)).1, Option.some.inj hl, pending, tasks_setTask,
          if_pos rfl]
        exact hk
      · exact absurd hd (by simp)
  | ack => exact absurd hl (by simp [DeskLabel.finishes])
  | _ => exact absurd hd (by simp [delivered])

/--
**What every step does to the orders on their way.**

An order is sent by the loop, for an entry or a scale-out, or by a handler, for its
operator; each of the three makes its id of its own prefix, the symbol and the second.
Whoever is sent an answer had an order on its way, and has none after the step.
-/
theorem places_step {l : DeskLabel} (hs : s.step env l = some s') : Places s l s' := by
  have hself := Calm.refl s
  cases step_cases hs with
  | ticks | switches => exact Calm.places (.of_eq rfl rfl rfl) rfl
  -- a place where the loop waits has no order on its way
  | waits r tierB hl he =>
      have hcalm : s.Calm { s with risk := r, tierB := tierB } := .of_eq rfl rfl rfl
      exact (hcalm.toWait he).places (delivered_of_loops hl)
  | approves => exact (hself.toEngine rfl).places rfl
  -- the three places where the loop sends, each with its own prefix
  | sendsEntry _ _ _ heng =>
      obtain ⟨ask, heng⟩ := heng
      exact places_engine rfl (by rw [heng]; rfl) rfl (by rw [mark, heng]; rfl)
  | sendsScale heng =>
      exact places_engine rfl (by rw [heng]; rfl) rfl (by rw [mark, heng]; rfl)
  | sendsExit => exact ((hself.toNote rfl).toEngine rfl).places rfl
  -- what the broker answered was waited for, and is no longer
  | booksLoop hl hp he =>
      exact .none (hp.calm.toWait he) (pending_of_books hl (placing_of_waits he) _)
  | @settles i q r svc overrides =>
      have hcalm : s.Calm { s.post (s.requested env q) with
          risk := r, svc := svc, overrides := overrides } := (calm_post _).trans (.of_eq rfl rfl rfl)
      exact hcalm.places rfl
  | asks _ hk => exact (hself.toTask _ (placing_of_task_waits hk)).places rfl
  -- the handler's own order, under `manual-`
  | sendsManual hfree _ _ hq =>
      exact places_task rfl (by rw [hfree]; rfl) rfl (by rw [mark, hq]; rfl)
  | flattens => exact ((hself.toNote rfl).toTask _ rfl).places rfl
  | haltsDay reason =>
      have hhalt : s.Calm (s.halt (.haltDay reason)) := .of_eq rfl rfl rfl
      exact (hhalt.toNote rfl).places rfl
  | kills => exact ((calm_killHalt.toNote rfl).toTask _ rfl).places rfl
  | killsOffline =>
      have hclear : s.Calm { s.killHalt with positions := ∅ } :=
        calm_killHalt.trans (.of_eq rfl rfl rfl)
      exact (hclear.toNote rfl).places rfl
  | taskCloses => exact ((hself.toNote rfl).toTask _ rfl).places rfl
  | taskScales htask =>
      exact places_task rfl (by rw [htask]; rfl) rfl (by rw [mark, htask]; rfl)
  -- a handler that finishes waits for nobody
  | @finishes l i t k tierB hl hp hk =>
      have hcalm : s.Calm { t with tierB := tierB } := hp.calm.trans (.of_eq rfl rfl rfl)
      exact .none (hcalm.toTask i (placing_of_task_waits hk))
        (pending_of_finishes hl (placing_of_task_waits hk) _)
  | killReturns =>
      have hclear : s.Calm { s with positions := ∅ } := .of_eq rfl rfl rfl
      exact ((hclear.toNote rfl).toTask _ rfl).places rfl

end Desk

end RossBot
