import RossBot.Demo.Halt
import RossBot.Demo.Ledger

/-!
# Exits the broker rejects

`_scale_out`, `_exit_full` and `close_position` wait for the broker's answer and
then only report it: the position, the journal and the day's counters change as
if the exit had been filled.
-/

namespace RossBot

open Lib

/-- The loop waits for the answer to an exit. -/
def EngineTask.exiting : EngineTask → Bool
  | .awaitScaleAck _ _ _ | .awaitExitAck _ _ _ => true
  | _ => false

/-- The handler waits for the answer to an exit. -/
def OperatorTask.exiting : OperatorTask → Bool
  | .closeAck _ _ _ _ | .scaleAck _ _ => true
  | _ => false

namespace Desk

/-- The answer to an exit, of `partial_sell` or `flatten_symbol`, that a step delivers. -/
def exitAck (s : Desk) : DeskLabel → Option OrderAck
  | .ack ack => if s.engine.exiting then some ack else none
  | .taskAck i ack => if (s.tasks i).exiting then some ack else none
  | _ => none

/-- The answer is to a `close_position` of a symbol that was not tracked. -/
def ClosesUntracked (s : Desk) (l : DeskLabel) : Prop :=
  ∃ i ack symbol price now, l = .taskAck i ack ∧ s.tasks i = .closeAck symbol none price now

/-- Positions, journal and risk are exactly as before. -/
structure Unchanged (s s' : Desk) : Prop where
  positions : s'.positions = s.positions
  objects : s'.objects = s.objects
  closedTrades : s'.closedTrades = s.closedTrades
  risk : s'.risk = s.risk

variable {env : DemoEnv} {s s' : Desk} {l : DeskLabel} {ack : OrderAck}

/-- An answered exit is journaled, unless there was nothing to close. -/
theorem journals_of_exitAck (env : DemoEnv) (ha : s.exitAck l = some ack) :
    s.ClosesUntracked l ∨ s.journals (s.posting env l) ≠ [] := by
  cases l with
  | ack a =>
      right
      cases heng : s.engine with
      | awaitScaleAck | awaitExitAck => simp [posting, heng, EngineTask.acked, journals]
      | _ => simp [exitAck, heng, EngineTask.exiting] at ha
  | taskAck i a =>
      cases htask : s.tasks i with
      | closeAck symbol ref price now =>
          cases ref with
          | none => exact Or.inl ⟨i, a, symbol, price, now, rfl, htask⟩
          | some ref => right; simp [posting, htask, OperatorTask.acked, journals]
      | scaleAck => right; simp [posting, htask, OperatorTask.acked, journals]
      | _ => simp [exitAck, htask, OperatorTask.exiting] at ha
  | _ => simp [exitAck] at ha

/-- What is journaled shows. -/
theorem not_unchanged (hs : s.step env l = some s') (hj : s.journals (s.posting env l) ≠ []) :
    ¬ s.Unchanged s' := by
  intro h
  have hrows : s'.closedTrades
      = s.closedTrades ++ (s.journals (s.posting env l)).map JournalCall.row := by
    rw [(step_posts hs).closedTrades, closedTrades_post]
  rw [h.closedTrades, List.self_eq_append_right, List.map_eq_nil_iff] at hrows
  exact hj hrows

/-- Closing what was not tracked changes nothing. -/
theorem unchanged_of_untracked (hs : s.step env l = some s') (hc : s.ClosesUntracked l) :
    s.Unchanged s' := by
  obtain ⟨i, ack, symbol, price, now, rfl, htask⟩ := hc
  simp only [step, taskAck, htask, Option.some.injEq] at hs
  subst hs
  exact ⟨rfl, rfl, rfl, rfl⟩

end Desk

/-- **A rejected exit is booked like any other**: the answer to an exit leaves everything as it was
when it is a rejection, exactly if it is none, or nothing was tracked to be closed. -/
theorem rejected_unchanged_iff (env : DemoEnv) (s s' : Desk) (l : DeskLabel) (ack : OrderAck)
    (hs : s.step env l = some s') (ha : s.exitAck l = some ack) :
    (ack.accepted = false → s.Unchanged s') ↔ ack.accepted = true ∨ s.ClosesUntracked l := by
  constructor
  · intro h
    rcases Desk.journals_of_exitAck env ha with hc | hj
    · exact Or.inr hc
    · left
      by_contra hacc
      exact Desk.not_unchanged hs hj (h (Bool.not_eq_true _ ▸ hacc))
  · rintro (hacc | hc) hrej
    · exact absurd (hacc.symm.trans hrej) (by simp)
    · exact Desk.unchanged_of_untracked hs hc

/-- A hundred shares at ten dollars are tracked, and their exit at 9.70 is with the broker. -/
def exitSent : Desk :=
  { (Desk.init deskDay).openPosition ⟨"TEST", 100, 10, 98 / 10, openingBell, false, .manual⟩ with
    engine := .awaitExitAck ⟨"TEST", 0, 97 / 10, openingBell⟩ .p1HardStop [] }

/-- The exit is booked, and the position is gone. -/
def exitBooked : Desk :=
  { exitSent.bookExit ⟨"TEST", 0, 97 / 10, openingBell⟩ .p1HardStop with
    positions := exitSent.positions.erase "TEST"
    engine := .exitReported openingBell [] }

/-- `flatten_symbol`'s answer when `close_position` raises. -/
def flattenError : OrderAck := ⟨"flatten_TEST", none, false, "error", some "timeout"⟩

/-- The exit of the hundred shares, when the broker's `close_position` raises. -/
theorem rejected_unchanged_error :
    (flattenError.accepted = false → exitSent.Unchanged exitBooked)
      ↔ flattenError.accepted = true ∨ exitSent.ClosesUntracked (.ack flattenError) :=
  rejected_unchanged_iff deskDay exitSent exitBooked (.ack flattenError) flattenError rfl rfl

/-- The operator buys a hundred shares and closes them; the broker's `close_position` raises. -/
def closeRejected : List DeskLabel :=
  [.request 0 (.manualOrder "TEST" .buy 100 10), .taskAck 0 orderTaken,
    .request 1 (.closePosition "TEST"), .taskQuote 1 (some ⟨cents 970, cents 975⟩),
    .taskAck 1 flattenError]

/-- They are not sold, and no longer watched. -/
theorem rejected_close_booked :
    ¬ ∀ (env : DemoEnv) (x : DeskRun env), ∀ m ∈ x.moves, ∀ ack,
      m.pre.exitAck m.label = some ack → ack.accepted = false → m.pre.Unchanged m.post := by
  intro h
  have hbooked : ∃ m ∈ ((Execution.start (Desk.step deskDay) (Desk.init deskDay)).play
      closeRejected).moves, m.pre.exitAck m.label = some flattenError
        ∧ m.post.closedTrades ≠ m.pre.closedTrades := by decide +kernel
  obtain ⟨m, hm, hack, hrows⟩ := hbooked
  exact hrows (h deskDay _ m hm flattenError hack rfl).closedTrades

end RossBot
