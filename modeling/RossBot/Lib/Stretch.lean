import Mathlib.Data.List.DropRight

/-!
# The run a list ends with

A backward scan reads a list from its right end for as long as a test holds. What
it reads is the longest run of elements that pass the test and end the list
(`LongestRun`). With a cap on how far it goes, the scan stops inside a run that
is longer (`LongestRun.takeWhile_take`), and the next element still passes
(`LongestRun.drop_of_capped`).
-/

namespace RossBot.Lib

universe u

variable {α : Type u} {p : α → Bool} {before run : List α}

/-- The list `before ++ run` ends with the elements `run` that pass the test, and no longer run
of such elements ends it. -/
structure LongestRun (p : α → Bool) (before run : List α) : Prop where
  /-- The run passes the test. -/
  all : ∀ x ∈ run, p x
  /-- What stands right before it does not. -/
  stops : ∀ x ∈ before.getLast?, p x = false

/-- Every list ends with a longest run. -/
theorem longestRun_split (p : α → Bool) (l : List α) :
    LongestRun p (l.rdropWhile p) (l.rtakeWhile p) where
  all := fun _ => List.mem_rtakeWhile_imp
  stops := by
    intro x hx
    have hne : l.rdropWhile p ≠ [] := by
      intro hnil
      rw [hnil] at hx
      exact absurd hx (by simp)
    have hlast := List.rdropWhile_last_not p l hne
    rw [List.getLast?_eq_some_getLast hne, Option.mem_some_iff] at hx
    rw [← hx]
    simpa using hlast

namespace LongestRun

/-- What the scan meets after the run fails the test. -/
theorem takeWhile_before (h : LongestRun p before run) : before.reverse.takeWhile p = [] := by
  rcases List.eq_nil_or_concat before with rfl | ⟨front, x, rfl⟩
  · rfl
  · have hx : p x = false := h.stops x (by simp)
    rw [List.concat_eq_append, List.reverse_concat, List.takeWhile_cons_of_neg (by simp [hx])]

/-- The scan reads the run. -/
theorem takeWhile_reverse (h : LongestRun p before run) :
    (before ++ run).reverse.takeWhile p = run.reverse := by
  rw [List.reverse_append, List.takeWhile_append_of_pos (by simpa using h.all), h.takeWhile_before,
    List.append_nil]

/-- A capped scan reads the end of the run. -/
theorem takeWhile_take (h : LongestRun p before run) (n : ℕ) :
    ((before ++ run).reverse.take n).takeWhile p = run.reverse.take n := by
  rw [← h.takeWhile_reverse]
  generalize (before ++ run).reverse = l
  induction l generalizing n with
  | nil => simp
  | cons x l ih =>
      cases n with
      | zero => simp
      | succ n =>
          rw [List.take_succ_cons, List.takeWhile_cons, List.takeWhile_cons]
          split
          · rw [ih, List.take_succ_cons]
          · rfl

/-- A scan that was capped inside the run has a passing element ahead. -/
theorem drop_of_capped (h : LongestRun p before run) {n : ℕ} (hn : n < run.length) :
    ∃ x rest, (before ++ run).reverse.drop n = x :: rest ∧ p x := by
  have hlen : n < run.reverse.length := by simpa using hn
  refine ⟨run.reverse[n], run.reverse.drop (n + 1) ++ before.reverse, ?_, ?_⟩
  · rw [List.reverse_append, List.drop_append_of_le_length hlen.le, List.drop_eq_getElem_cons hlen,
      List.cons_append]
  · exact h.all _ (List.mem_reverse.mp (List.getElem_mem hlen))

end LongestRun

end RossBot.Lib
