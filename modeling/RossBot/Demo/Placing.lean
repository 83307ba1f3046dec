import RossBot.Alpaca
import RossBot.Demo.Halt
import RossBot.Demo.Ledger
import RossBot.Demo.Orders

/-!
# The orders and the broker

`AlpacaBrokerAdapter._place_limit` takes a rejection for a repeated
`client_order_id` to mean that its own order is there already, and reports that
order. The broker keeps one order for each id. So the answers are right as long as
the ids are the orders' own, and those are made of a prefix, the symbol and a
second (`own_orders_iff`).
-/

namespace RossBot

open Lib

/-- What `_place_limit` returns, and whether the broker created the order of this very call. -/
structure Answer where
  ack : OrderAck
  created : Bool

/-- The engine, the adapter and the broker. -/
structure Venue where
  desk : Desk
  /-- The orders the broker created. -/
  orders : List DemoOrder
  /-- What `_place_limit` will return to each caller. -/
  answers : Caller → Option Answer
  /-- The positions opened, and whether the broker created the order of each. -/
  tracked : List (ℕ × Bool)

/-- What the broker does with an order; an order is known by its id and status. -/
inductive Reply where
  /-- `submit_order` returns a new order. -/
  | creates (brokerId status : String)
  /-- `submit_order` raises, and `get_order_by_id` finds an order or not; the order may have been
  created nevertheless. -/
  | raises (message : String) (created : Bool) (found : Option (String × String))

/-- What can happen to an order: a new id is taken, lost or refused; a repeated one is rejected as
such, and the existing order is returned. -/
def Reply.fits (known : Bool) : Reply → Bool
  | .creates _ _ => !known
  | .raises message created found =>
      if known then isDuplicateIdError message && !created && found.isSome
      else created || found.isNone

/-- The answer `_place_limit` makes of it. -/
def Reply.answer (o : DemoOrder) : Reply → Answer
  | .creates brokerId status =>
      ⟨placeLimit o.clientOrderId.text (.ok (brokerId, status)) none, true⟩
  | .raises message created found =>
      ⟨placeLimit o.clientOrderId.text (.error message) found, created⟩

namespace Venue

/-- The broker has an order of that id. -/
def knows (v : Venue) (o : DemoOrder) : Bool :=
  v.orders.any fun o' => o'.clientOrderId = o.clientOrderId

/-- The broker takes up somebody's order. -/
def place (c : Caller) (r : Reply) (v : Venue) : Option Venue :=
  match v.desk.pending c, v.answers c with
  | some o, none =>
      if r.fits (v.knows o) then
        let a := r.answer o
        some { v with
          orders := if a.created then v.orders ++ [o] else v.orders
          answers := Function.update v.answers c (some a) }
      else none
  | _, _ => none

/-- The position a step opens. -/
def opened (env : DemoEnv) (s : Desk) (l : DeskLabel) : Option ℕ :=
  match s.posting env l with
  | .opens _ => some s.nextRef
  | _ => none

/-- The engine or the dashboard moves; the answer to an order is the one `_place_limit` returns. -/
def move (env : DemoEnv) (l : DeskLabel) (v : Venue) : Option Venue :=
  match v.desk.delivered l with
  | none => (v.desk.step env l).map fun desk => { v with desk := desk }
  | some (c, ack) =>
      match v.answers c with
      | none => none
      | some a =>
          if a.ack = ack then
            (v.desk.step env l).map fun desk =>
              { v with
                desk := desk
                answers := Function.update v.answers c none
                tracked := v.tracked ++ ((opened env v.desk l).map (·, a.created)).toList }
          else none

/-- Nothing has been sent yet. -/
def init (env : DemoEnv) : Venue := ⟨Desk.init env, [], fun _ => none, []⟩

end Venue

/-- What can happen next. -/
inductive VenueLabel where
  | move (l : DeskLabel)
  | place (c : Caller) (r : Reply)

/-- One step of the three. -/
def Venue.step (env : DemoEnv) (v : Venue) : VenueLabel → Option Venue
  | .move l => v.move env l
  | .place c r => v.place c r

/-- Any interleaving of the engine, the dashboard and the broker. -/
abbrev VenueRun (env : DemoEnv) := Execution (Venue.step env) (Venue.init env)

/-- **The answers are the orders' own**: no two orders have one id (nor one text of an id, of plain
ones), an order is reported as accepted only if the broker created it, and so is every position
tracked. -/
structure OwnOrders (v : Venue) : Prop where
  distinct : (v.desk.sent.map DemoOrder.clientOrderId).Nodup
  texts : (∀ o ∈ v.desk.sent, o.clientOrderId.Plain) →
    (v.desk.sent.map fun o => o.clientOrderId.text).Nodup
  own : ∀ c a, v.answers c = some a → a.ack.accepted = true → a.created = true
  tracked : ∀ b ∈ v.tracked, b.2 = true

/-- What the order that a step sends is made for, if it sends one. -/
def sentMark (m : Move Venue VenueLabel) : Option OrderMark :=
  match m.label with
  | .move l => if m.post.desk.sent = m.pre.desk.sent then none else m.pre.desk.mark l
  | .place _ _ => none

/-- An order of a new id is accepted only if it is created. -/
theorem Reply.own {r : Reply} {o : DemoOrder} (hf : r.fits false = true)
    (hacc : (r.answer o).ack.accepted = true) : (r.answer o).created = true := by
  cases r with
  | creates brokerId status => rfl
  | raises message created found =>
      cases created with
      | true => rfl
      | false =>
          cases found with
          | some order => exact absurd hf (by simp [fits])
          | none => exact absurd (placeLimit_error_none ..) (by simpa [answer] using hacc)

namespace Venue

variable {env : DemoEnv} {v v' : Venue}

/-! ## What holds while the ids are distinct -/

/-- What is sent, what is on its way and what the broker has. -/
structure Ids (v : Venue) : Prop where
  created : ∀ o ∈ v.orders, o ∈ v.desk.sent
  pending : ∀ c o, v.desk.pending c = some o → o ∈ v.desk.sent
  /-- No two callers wait for one id. -/
  apart : ∀ c c' o o', v.desk.pending c = some o → v.desk.pending c' = some o' →
    o.clientOrderId = o'.clientOrderId → c = c'
  /-- What the broker has not answered, it does not know. -/
  fresh : ∀ c o, v.desk.pending c = some o → v.answers c = none → v.knows o = false
  own : ∀ c a, v.answers c = some a → a.ack.accepted = true → a.created = true
  tracked : ∀ b ∈ v.tracked, b.2 = true

theorem ids_init : (init env).Ids where
  created o ho := absurd ho (by simp [init])
  pending c o ho := by cases c <;> exact absurd ho (by simp [init, Desk.init, Desk.pending,
    EngineTask.placing, OperatorTask.placing])
  apart c c' o o' ho := by cases c <;> exact absurd ho (by simp [init, Desk.init, Desk.pending,
    EngineTask.placing, OperatorTask.placing])
  fresh c o ho := by cases c <;> exact absurd ho (by simp [init, Desk.init, Desk.pending,
    EngineTask.placing, OperatorTask.placing])
  own c a h := absurd h (by simp [init])
  tracked b hb := absurd hb (by simp [init])

theorem knows_iff {o : DemoOrder} :
    v.knows o = true ↔ ∃ o' ∈ v.orders, o'.clientOrderId = o.clientOrderId := by
  simp [knows]

/--
**The broker takes up an order of its own id.**

It does not know the id, so it creates the order or does not; it is not asked for one it
has already. The other orders on their way stay unknown to it, since their ids are
others.
-/
theorem Ids.place {c : Caller} {r : Reply} (h : v.Ids) (hs : v.place c r = some v') : v'.Ids := by
  unfold Venue.place at hs
  split at hs
  swap
  · exact absurd hs (by simp)
  rename_i o hpend hans
  split at hs
  swap
  · exact absurd hs (by simp)
  rename_i hf
  obtain rfl := Option.some.inj hs
  rw [h.fresh c o hpend hans] at hf
  refine ⟨fun o' ho' => ?_, h.pending, h.apart, fun c' o' hp ha => ?_, fun c' a ha hacc => ?_,
    h.tracked⟩
  · dsimp only at ho'
    split at ho'
    · rcases List.mem_append.mp ho' with ho' | ho'
      · exact h.created o' ho'
      · rw [List.mem_singleton.mp ho']
        exact h.pending c o hpend
    · exact h.created o' ho'
  · -- another caller's id is another id
    change Function.update v.answers c _ c' = none at ha
    by_cases hc : c' = c
    · rw [hc, Function.update_self] at ha
      exact absurd ha (by simp)
    rw [Function.update_of_ne hc] at ha
    have hids : o.clientOrderId ≠ o'.clientOrderId := fun hid =>
      hc (h.apart c c' o o' hpend hp hid).symm
    have hunknown := h.fresh c' o' hp ha
    unfold knows at hunknown ⊢
    dsimp only
    split
    · rw [List.any_append, hunknown]
      simpa using hids
    · exact hunknown
  · change Function.update v.answers c _ c' = some a at ha
    by_cases hc : c' = c
    · rw [hc, Function.update_self] at ha
      rw [← Option.some.inj ha] at hacc ⊢
      exact Reply.own hf hacc
    · rw [Function.update_of_ne hc] at ha
      exact h.own c' a ha hacc

/-- A position is opened by an acceptance. -/
theorem accepted_of_opened {s : Desk} {l : DeskLabel} {c : Caller} {ack : OrderAck} {ref : ℕ}
    (ho : opened env s l = some ref) (hd : s.delivered l = some (c, ack)) :
    ack.accepted = true := by
  have hposts := Desk.posting_cases env s l
  unfold opened at ho
  split at ho
  swap
  · exact absurd ho (by simp)
  rename_i pos hpost
  rw [hpost] at hposts
  cases hposts with
  | @opensEntry a now order rest heng hacc =>
      have hloop : (if s.engine.placing.isSome then some (Caller.loop, a) else none)
          = some (c, ack) := hd
      obtain ⟨-, ha⟩ := Option.ite_none_right_eq_some.mp hloop
      obtain ⟨-, rfl⟩ := Prod.mk.inj (Option.some.inj ha)
      exact hacc
  | @opensManual i a _ _ _ _ _ htask hacc =>
      have hhandler : (if (s.tasks i).placing.isSome then some (Caller.handler i, a) else none)
          = some (c, ack) := hd
      obtain ⟨-, ha⟩ := Option.ite_none_right_eq_some.mp hhandler
      obtain ⟨-, rfl⟩ := Prod.mk.inj (Option.some.inj ha)
      exact hacc

/-- Nothing is sent, and nothing is answered. -/
theorem Ids.calm {desk : Desk} (h : v.Ids) (hc : v.desk.Calm desk) :
    { v with desk := desk }.Ids where
  created o ho := by
    change o ∈ desk.sent
    rw [hc.sent]
    exact h.created o ho
  pending c o ho := by
    change o ∈ desk.sent
    rw [hc.sent]
    exact h.pending c o (hc.pending c o ho)
  apart c c' o o' ho ho' hid := h.apart c c' o o' (hc.pending c o ho) (hc.pending c' o' ho') hid
  fresh c o ho ha := h.fresh c o (hc.pending c o ho) ha
  own := h.own
  tracked := h.tracked

/-- An order is sent whose id is new. -/
theorem Ids.sends {desk : Desk} {c : Caller} {o : DemoOrder} (h : v.Ids)
    (hsent : desk.sent = v.desk.sent ++ [o]) (hpend : desk.pending c = some o)
    (hothers : ∀ c', c' ≠ c → desk.pending c' = v.desk.pending c')
    (hnew : ∀ o' ∈ v.desk.sent, o'.clientOrderId ≠ o.clientOrderId) :
    { v with desk := desk }.Ids := by
  -- whoever has an order on its way has this one, or has had it there before
  have hcases : ∀ c' o', desk.pending c' = some o' →
      (c' = c ∧ o' = o) ∨ v.desk.pending c' = some o' := by
    intro c' o' ho'
    by_cases hc : c' = c
    · rw [hc, hpend] at ho'
      exact Or.inl ⟨hc, (Option.some.inj ho').symm⟩
    · rw [hothers c' hc] at ho'
      exact Or.inr ho'
  refine ⟨fun o' ho' => ?_, fun c' o' ho' => ?_, fun c₁ c₂ o₁ o₂ h₁ h₂ hid => ?_,
    fun c' o' ho' ha => ?_, h.own, h.tracked⟩
  · change o' ∈ desk.sent
    rw [hsent]
    exact List.mem_append_left _ (h.created o' ho')
  · change o' ∈ desk.sent
    rw [hsent]
    rcases hcases c' o' ho' with ⟨-, rfl⟩ | hold
    · exact List.mem_append_right _ (List.mem_singleton.mpr rfl)
    · exact List.mem_append_left _ (h.pending c' o' hold)
  · rcases hcases c₁ o₁ h₁ with ⟨rfl, rfl⟩ | h₁ <;> rcases hcases c₂ o₂ h₂ with ⟨rfl, rfl⟩ | h₂
    · rfl
    · exact absurd hid.symm (hnew o₂ (h.pending c₂ o₂ h₂))
    · exact absurd hid (hnew o₁ (h.pending c₁ o₁ h₁))
    · exact h.apart c₁ c₂ o₁ o₂ h₁ h₂ hid
  · rcases hcases c' o' ho' with ⟨-, rfl⟩ | hold
    · by_contra hk
      obtain ⟨o₁, hmem, hid⟩ := knows_iff.mp (Bool.not_eq_false _ ▸ hk)
      exact hnew o₁ (h.created o₁ hmem) hid
    · exact h.fresh c' o' hold ha

/--
**The engine or the dashboard moves, and sends no id again.**

A step that sends an order adds it to the orders sent, under an id that none of them
has, so the broker cannot know it. A step that reads an answer takes it out of
`answers`; the position it may open is opened by an acceptance, and what was accepted
was created.
-/
theorem Ids.move {l : DeskLabel} (h : v.Ids) (hs : v.move env l = some v')
    (hnodup : (v'.desk.sent.map DemoOrder.clientOrderId).Nodup) : v'.Ids := by
  -- `Venue.move`: a step that reads no answer of a broker, or one that does
  unfold Venue.move at hs
  split at hs
  · rename_i hd
    obtain ⟨desk, hstep, rfl⟩ := Option.map_eq_some_iff.mp hs
    cases Desk.places_step hstep with
    -- a calm step leaves the orders and those waiting as they were
    | none hc => exact h.calm hc
    -- otherwise one order is sent, and its id is none of those sent before
    | sends c o _ hsent _ hpend hothers =>
        refine h.sends hsent hpend hothers fun o' ho' hid => ?_
        change (desk.sent.map _).Nodup at hnodup
        rw [hsent, List.map_append, List.nodup_append] at hnodup
        exact hnodup.2.2 _ (List.mem_map.mpr ⟨o', ho', rfl⟩) _ (List.mem_singleton.mpr rfl) hid
  · rename_i c ack hd
    -- the answer read must be there already, and be the one `_place_limit` returned
    split at hs
    · exact absurd hs (by simp)
    rename_i a ha
    split at hs
    swap
    · exact absurd hs (by simp)
    rename_i hack
    obtain ⟨desk, hstep, rfl⟩ := Option.map_eq_some_iff.mp hs
    cases Desk.places_step hstep with
    -- a step that reads an answer sends nothing
    | sends _ _ hnone => exact absurd (hnone.symm.trans hd) (by simp)
    | none hc hgone =>
        have hcalm := h.calm hc
        refine ⟨hcalm.created, hcalm.pending, hcalm.apart, fun c' o ho hn => ?_,
          fun c' a' ha' hacc => ?_, fun b hb => ?_⟩
        · -- the caller is done, so its order is no longer waited for
          change Function.update v.answers c none c' = none at hn
          by_cases hcc : c' = c
          · rw [hcc] at ho
            exact absurd ((hgone c ack hd).symm.trans ho) (by simp)
          · rw [Function.update_of_ne hcc] at hn
            exact hcalm.fresh c' o ho hn
        · -- its answer is gone with it, and the others keep theirs
          change Function.update v.answers c none c' = some a' at ha'
          by_cases hcc : c' = c
          · rw [hcc, Function.update_self] at ha'
            exact absurd ha' (by simp)
          · rw [Function.update_of_ne hcc] at ha'
            exact h.own c' a' ha' hacc
        · rcases List.mem_append.mp hb with hb | hb
          · exact h.tracked b hb
          · -- what is tracked was accepted, and so created
            rw [Option.mem_toList, Option.map_eq_some_iff] at hb
            obtain ⟨ref, ho, rfl⟩ := hb
            exact h.own c a ha (by rw [hack]; exact accepted_of_opened ho hd)

/-- The engine takes a step of its own, or the broker takes up an order. -/
theorem desk_cases {l : VenueLabel} (hs : v.step env l = some v') :
    (∃ l', l = .move l' ∧ v.desk.step env l' = some v'.desk)
      ∨ ((∃ c r, l = .place c r) ∧ v'.desk = v.desk) := by
  cases l with
  | move l =>
      refine Or.inl ⟨l, rfl, ?_⟩
      rw [Venue.step, Venue.move] at hs
      split at hs
      · obtain ⟨desk, hstep, rfl⟩ := Option.map_eq_some_iff.mp hs
        exact hstep
      · split at hs
        · exact absurd hs (by simp)
        · split at hs
          · obtain ⟨desk, hstep, rfl⟩ := Option.map_eq_some_iff.mp hs
            exact hstep
          · exact absurd hs (by simp)
  | place c r =>
      refine Or.inr ⟨⟨c, r, rfl⟩, ?_⟩
      rw [Venue.step, Venue.place] at hs
      split at hs
      · split at hs
        · obtain rfl := Option.some.inj hs
          rfl
        · exact absurd hs (by simp)
      · exact absurd hs (by simp)

/-- Orders are sent one after the other. -/
theorem sent_step {l : VenueLabel} (hs : v.step env l = some v') :
    v.desk.sent <+: v'.desk.sent := by
  rcases desk_cases hs with ⟨l, -, hstep⟩ | ⟨-, hsame⟩
  · cases Desk.places_step hstep with
    | none hc => exact ⟨[], by rw [hc.sent, List.append_nil]⟩
    | sends _ _ _ hsent => rw [hsent]; exact List.prefix_append ..
  · rw [hsame]

/-- **While no id is sent twice**, every answer is the order's own. -/
theorem ids_of_reachable (h : Reachable (Venue.step env) (init env) v)
    (hnodup : (v.desk.sent.map DemoOrder.clientOrderId).Nodup) : v.Ids := by
  refine h.invariant (I := fun v => (v.desk.sent.map DemoOrder.clientOrderId).Nodup → v.Ids)
    (fun _ => ids_init) ?_ hnodup
  intro v l v' _ ih hs hn
  have hbefore : v.Ids := ih (hn.sublist ((sent_step hs).map _).sublist)
  cases l with
  | move l => exact hbefore.move hs hn
  | place c r => exact hbefore.place hs

end Venue

/-! ## What the ids are made of -/

/-- Different ids are sent as different texts. -/
theorem nodup_texts {os : List DemoOrder} (hplain : ∀ o ∈ os, o.clientOrderId.Plain)
    (h : (os.map DemoOrder.clientOrderId).Nodup) :
    (os.map fun o => o.clientOrderId.text).Nodup := by
  rw [List.Nodup, List.pairwise_map] at h ⊢
  refine h.imp_of_mem fun ho ho' hne htext => hne ?_
  exact (DemoOrderId.text_inj (hplain _ ho) (hplain _ ho')).mp htext

/-- A step sends the order its mark says, or none. -/
theorem sent_marked {env : DemoEnv} {v v' : Venue} {l : VenueLabel}
    (hs : v.step env l = some v') :
    v'.desk.sent.map DemoOrder.clientOrderId = v.desk.sent.map DemoOrder.clientOrderId
      ++ ((sentMark ⟨v, l, v'⟩).map OrderMark.id).toList := by
  rcases Venue.desk_cases hs with ⟨l, rfl, hstep⟩ | ⟨⟨c, r, rfl⟩, hsame⟩
  · rw [sentMark]
    dsimp only
    cases Desk.places_step hstep with
    | none hc => rw [if_pos hc.sent, hc.sent]; exact (List.append_nil _).symm
    | sends c o _ hsent _ _ _ hmark =>
        have hone : v.desk.sent ++ [o] ≠ v.desk.sent := by simp
        rw [hsent, if_neg hone, hmark, List.map_append]
        rfl
  · rw [hsame]
    exact (List.append_nil _).symm

/-- **The ids of a run are made of what its steps send.** -/
theorem sent_marks {env : DemoEnv} (x : VenueRun env) :
    x.final.desk.sent.map DemoOrder.clientOrderId
      = (x.moves.filterMap sentMark).map OrderMark.id := by
  refine x.run.history_of (C := fun _ => True) (I := fun ms v =>
    v.desk.sent.map DemoOrder.clientOrderId = (ms.filterMap sentMark).map OrderMark.id) rfl ?_
    fun _ _ => trivial
  intro ms v l v' h hs _
  rw [sent_marked hs, h, List.filterMap_append, List.map_append, List.filterMap_cons,
    List.filterMap_nil]
  cases sentMark ⟨v, l, v'⟩ <;> rfl

/-- **An order is known by the second it was made in**: in a run of the engine, the dashboard and a
broker that keeps one order for each id, all ids are distinct, only an order's own acceptance is
reported, and each position tracked has an order of its own, if and only if no two steps send an
order of one kind, for one symbol, that is dated the same second. -/
theorem own_orders_iff (env : DemoEnv) (x : VenueRun env) :
    (∀ v, x.Visits v → OwnOrders v) ↔ (x.moves.filterMap sentMark).Nodup := by
  rw [← List.nodup_map_iff OrderMark.id_injective, ← sent_marks]
  constructor
  · intro h
    exact (h x.final x.visits_final).distinct
  · intro hnodup v hv
    have htrans : ∀ {a b c : Venue}, a.desk.sent <+: b.desk.sent → b.desk.sent <+: c.desk.sent →
        a.desk.sent <+: c.desk.sent := fun h h' => List.IsPrefix.trans h h'
    have hsent : v.desk.sent <+: x.final.desk.sent :=
      x.rel (R := fun v v' => v.desk.sent <+: v'.desk.sent) (fun _ => List.prefix_refl _)
        htrans (fun _ _ _ _ hs => Venue.sent_step hs) hv
    have hdistinct : (v.desk.sent.map DemoOrder.clientOrderId).Nodup :=
      hnodup.sublist (hsent.map _).sublist
    have hids := Venue.ids_of_reachable (x.reachable hv) hdistinct
    exact ⟨hdistinct, fun hplain => nodup_texts hplain hdistinct, hids.own, hids.tracked⟩

/-- The operator buys a hundred shares, and fifty more within the second. -/
def twoInASecond : List VenueLabel :=
  let taken : OrderAck := ⟨"manual-TEST-1767709800", some "1", true, "accepted", none⟩
  [.move (.request 0 (.manualOrder "TEST" .buy 100 10)), .place (.handler 0) (.creates "1" "accepted"),
    .move (.taskAck 0 taken), .move (.request 1 (.manualOrder "TEST" .buy 50 10)),
    .place (.handler 1)
      (.raises "422: client_order_id already exists" false (some ("1", "accepted"))),
    .move (.taskAck 1 taken)]

/-- The second order is reported as accepted, and its fifty shares are tracked; the broker has the
first only. -/
theorem second_order_borrowed :
    ¬ ∀ (env : DemoEnv) (x : VenueRun env) v, x.Visits v → OwnOrders v := by
  intro h
  let x : VenueRun deskDay := (Execution.start _ _).play twoInASecond
  have htracked := (h deskDay x x.final x.visits_final).tracked
  exact absurd htracked (by decide +kernel)

end RossBot
