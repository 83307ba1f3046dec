import RossBot.Live.Book

/-!
# Flattening

`cancel_all_flatten` can fail in three ways: it raises, it answers with an empty
list, or it answers with a rejected acknowledgement (`AlpacaBrokerAdapter` turns
its own exceptions into one). `_handle_disconnect` takes any non-empty answer
for success, and `_eod_flatten_loop` does not look at the answer at all.
-/

namespace RossBot

open Lib World

/-- Tracked positions, engine positions and the risk manager's positions stay what they were. -/
structure KeepsBook (w w' : World) : Prop where
  opens : w'.opens = w.opens
  engine : ∀ s, w'.engine.position s = w.engine.position s
  risk : w'.risk.openPositions = w.risk.openPositions

/-- The answer to a flatten that this move learns of. -/
def flattenReply (m : Move World Label) : Option (Option (List OrderAck)) :=
  match m.label with
  | .eodResume _ =>
      match m.pre.eodTask with
      | .awaitFlatten (.answered reply) => some reply
      | _ => none
  | .watchdogResume _ =>
      match m.pre.watchdogTask with
      | .awaitFlatten _ (.answered reply) => some reply
      | _ => none
  | _ => none

/-- The loop that learns of the answer goes on. -/
def goesOn (m : Move World Label) : Prop :=
  match m.label with
  | .eodResume _ => m.post.eodTask ≠ .ended
  | .watchdogResume _ => m.post.watchdogTask ≠ .ended
  | _ => True

/-- Positions are dropped only on an accepted flatten; otherwise everything stays, and the
loop goes on to try again. -/
structure Honest (m : Move World Label) : Prop where
  drops : ∀ reply, flattenReply m = some reply → ∀ s p, m.pre.opens.get? s = some p →
    m.post.opens.get? s = none → flattenAccepted reply = true
  keeps : ∀ reply, flattenReply m = some reply → flattenAccepted reply = false →
    KeepsBook m.pre m.post ∧ goesOn m

/-- **Both loops that flatten are honest about every answer they get.** -/
def HonestFlatten {env : Env} (x : LiveRun env) : Prop := ∀ m ∈ x.moves, Honest m

/-- A loop takes an answer that accepts nothing for a success, or is ended by it. -/
def misreadsFlatten (m : Move World Label) : Bool :=
  match m.label with
  | .eodResume _ =>
      match m.pre.eodTask with
      | .awaitFlatten (.answered reply) => !flattenAccepted reply
      | _ => false
  | .watchdogResume _ =>
      match m.pre.watchdogTask with
      | .awaitFlatten _ (.answered (some (ack :: acks))) =>
          !flattenAccepted (some (ack :: acks))
            && (!m.pre.opens.items.isEmpty || m.pre.stopEvent)
      | _ => false
  | _ => false

/-- A move that learns of no answer is honest. -/
theorem Honest.of_unanswered {m : Move World Label} (h : flattenReply m = none) : Honest m := by
  refine ⟨?_, ?_⟩
  · intro r hr
    exact absurd (h.symm.trans hr) (by simp)
  · intro r hr
    exact absurd (h.symm.trans hr) (by simp)

/-- Whatever is done about an accepted flatten is honest. -/
theorem Honest.of_accepted {m : Move World Label} {reply : Option (List OrderAck)}
    (h : flattenReply m = some reply) (hacc : flattenAccepted reply = true) : Honest m := by
  refine ⟨?_, ?_⟩
  · intro r hr _ _ _ _
    rw [← Option.some.inj (h.symm.trans hr)]
    exact hacc
  · intro r hr hrej
    rw [← Option.some.inj (h.symm.trans hr), hacc] at hrej
    exact absurd hrej (by simp)

namespace World

variable {env : Env} {w w' : World}

/-- The EOD loop is honest exactly about an accepted flatten: it never goes on. -/
theorem eodResume_honest {price : Symbol → ℚ} (hs : step env w (.eodResume price) = some w') :
    Honest ⟨w, .eodResume price, w'⟩ ↔ misreadsFlatten ⟨w, .eodResume price, w'⟩ = false := by
  obtain ⟨reply, hb, hcase⟩ := eodResume_cases (task_some hs).2
  have hend : w'.eodTask = .ended := by
    rcases hcase with ⟨-, rfl⟩ | ⟨acks, -, rfl⟩ <;> rfl
  have hreply : flattenReply ⟨w, .eodResume price, w'⟩ = some reply := by simp [flattenReply, hb]
  have hmis : misreadsFlatten ⟨w, .eodResume price, w'⟩ = !flattenAccepted reply := by
    simp [misreadsFlatten, hb]
  rw [hmis]
  cases hacc : flattenAccepted reply with
  | true => exact ⟨fun _ => rfl, fun _ => .of_accepted hreply hacc⟩
  | false =>
      -- the loop ends on any answer
      refine ⟨?_, fun h => absurd h (by simp)⟩
      intro h
      exact absurd hend (h.keeps reply hreply hacc).2

/--
**The watchdog misreads exactly a non-empty answer that accepts nothing, with something to
lose.**

No answer and an empty one are retried and lose nothing. Any other closes everything
that is tracked, and with the event set it ends the loop. When no ack accepts, that is
honest only if nothing is tracked and the loop goes on.
-/
theorem watchdogResume_honest {price : Symbol → ℚ}
    (hs : step env w (.watchdogResume price) = some w') :
    Honest ⟨w, .watchdogResume price, w'⟩
      ↔ misreadsFlatten ⟨w, .watchdogResume price, w'⟩ = false := by
  obtain ⟨attempt, reply, hb, hcase⟩ := watchdogResume_cases (task_some hs).2
  have hreply : flattenReply ⟨w, .watchdogResume price, w'⟩ = some reply := by
    simp [flattenReply, hb]
  rcases hcase with ⟨hnone, rfl⟩ | ⟨ack, acks, rfl, rfl⟩
  · -- it raised, or the list was empty: nothing changes, and there is a next attempt
    refine ⟨?_, fun _ => ⟨?_, ?_⟩⟩
    · intro _
      rcases hnone with rfl | rfl <;> simp [misreadsFlatten, hb]
    · intro r _ s p hp hp'
      exact absurd (hp.symm.trans hp') (by simp)
    · intro r _ _
      exact ⟨⟨rfl, fun _ => rfl, rfl⟩, by simp [goesOn]⟩
  · have hmis : misreadsFlatten ⟨w, .watchdogResume price,
        { retireAll env price w w.opens.items with watchdogTask := w.watchdogLoop env }⟩
        = (!flattenAccepted (some (ack :: acks)) && (!w.opens.items.isEmpty || w.stopEvent)) := by
      simp [misreadsFlatten, hb]
    rw [hmis]
    cases hacc : flattenAccepted (some (ack :: acks)) with
    | true => exact ⟨fun _ => rfl, fun _ => .of_accepted hreply hacc⟩
    | false =>
        cases hitems : w.opens.items with
        | cons b bs =>
            -- something was tracked, and it is gone
            refine ⟨?_, fun h => absurd h (by simp)⟩
            intro h
            have hb' : w.opens.get? b.1 = some b.2 :=
              Dict.mem_items.mp (by rw [hitems]; exact List.mem_cons_self)
            have hgone : (retireAll env price w w.opens.items).opens.get? b.1 = none :=
              retireAll_items price b.1
            rw [hitems] at hgone
            have hdrop := h.drops _ hreply b.1 b.2 hb' hgone
            rw [hacc] at hdrop
            exact absurd hdrop (by simp)
        | nil =>
            -- nothing was tracked: only a session told to stop does not go on
            constructor
            · intro h
              cases hstop : w.stopEvent with
              | false => rfl
              | true =>
                  have hgo := (h.keeps _ hreply hacc).2
                  simp [goesOn, watchdogLoop, hstop] at hgo
            · intro h
              have hstop : w.stopEvent = false := by simpa using h
              refine ⟨?_, ?_⟩
              · intro r _ s p hp _
                rw [Dict.items_eq_nil.mp hitems s] at hp
                exact absurd hp (by simp)
              · intro r _ _
                refine ⟨?_, by simp [goesOn, watchdogLoop, hstop]⟩
                exact ⟨rfl, fun _ => rfl, rfl⟩

end World

/-- **The loops are honest exactly in the runs in which the EOD loop only ever learns of an
accepted flatten, and the watchdog of no refusal inside a non-empty answer while positions are
tracked (or the session is stopping).** -/
theorem honestFlatten_iff {env : Env} (x : LiveRun env) :
    HonestFlatten x ↔ ∀ m ∈ x.moves, misreadsFlatten m = false := by
  refine forall₂_congr fun m hm => ?_
  obtain ⟨w, l, w'⟩ := m
  have hs := x.step_of_mem hm
  cases l with
  | eodResume price => exact eodResume_honest hs
  | watchdogResume price => exact watchdogResume_honest hs
  | _ => exact ⟨fun _ => rfl, fun _ => .of_unanswered rfl⟩

/-- The position is still held at 15:55, and the broker cannot be reached: the adapter answers
with one rejected acknowledgement. -/
def unreachableAtClose : LiveRun tradingDay :=
  play (beforeBreakout ++ breakout 100 ++
    [.tick 23100, .eodWake, .eodAnswer (some (cancelAllFlatten (.error "unreachable"))) [],
      .eodResume fun _ => 0])

/-- The position is dropped, while the broker holds its hundred shares. -/
theorem honestFlatten_unreachableAtClose :
    unreachableAtClose.final.holding "TEST" = 100 ∧ ¬ HonestFlatten unreachableAtClose := by
  refine ⟨by decide +kernel, ?_⟩
  intro h
  have hbad : unreachableAtClose.moves.any (fun m => m.pre.opens.contains "TEST"
      && !m.post.opens.contains "TEST"
      && (flattenReply m).any fun reply => !flattenAccepted reply) = true := by decide +kernel
  obtain ⟨m, hm, hm'⟩ := List.any_eq_true.mp hbad
  rw [Bool.and_eq_true, Bool.and_eq_true, Option.any_eq_true] at hm'
  obtain ⟨⟨hpre, hpost⟩, reply, hreply, hacc⟩ := hm'
  obtain ⟨p, hp⟩ := Dict.contains_iff.mp hpre
  have hnone := Dict.contains_eq_false.mp (by simpa using hpost)
  have hdrop := (h m hm).drops reply hreply "TEST" p hp hnone
  rw [hdrop] at hacc
  exact absurd hacc (by simp)

end RossBot
