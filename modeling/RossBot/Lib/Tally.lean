import Mathlib.Algebra.BigOperators.Group.List.Basic
import Mathlib.Algebra.Order.Field.Basic
import Mathlib.Algebra.Order.Group.Defs
import Mathlib.Algebra.Order.Monoid.Unbundled.MinMax
import Mathlib.Data.List.Induction
import Mathlib.Order.Bounds.Basic

/-!
# Running statistics of a list of amounts

What a day's ledger is summed up to: the highest value the running total ever
had (`peak`), how many of the last amounts in a row were negative
(`losingRun`), and how far the total ever fell below the peak (`drawdowns`). Each is defined on the whole list;
the `_snoc` lemmas say how one more amount changes it, which is what a component
that keeps the number up to date amount by amount relies on.
-/

namespace RossBot.Lib

variable {α : Type} [AddCommGroup α] [LinearOrder α]

/-- The highest running total, counting the empty one. -/
def peak : List α → α
  | [] => 0
  | x :: xs => max 0 (x + peak xs)

/-- How many amounts at the end of the list are negative, with none between them that is not. -/
def losingRun (l : List α) : ℕ := (l.reverse.takeWhile fun x => decide (x < 0)).length

theorem peak_nonneg (l : List α) : 0 ≤ peak l := by
  cases l with
  | nil => exact le_refl 0
  | cons x xs => exact le_max_left ..

/-- A loss lengthens the losing run, anything else ends it. -/
theorem losingRun_snoc (l : List α) (x : α) :
    losingRun (l ++ [x]) = if x < 0 then losingRun l + 1 else 0 := by
  unfold losingRun
  rw [List.reverse_append, List.reverse_singleton, List.singleton_append]
  split
  · rename_i h
    rw [List.takeWhile_cons_of_pos (by simpa using h), List.length_cons]
  · rename_i h
    rw [List.takeWhile_cons_of_neg (by simpa using h), List.length_nil]

/-- A list that ends in losses has a losing run at least that long. -/
theorem le_losingRun_append (l w : List α) (hw : ∀ x ∈ w, x < 0) :
    w.length ≤ losingRun (l ++ w) := by
  induction w using List.reverseRecOn with
  | nil => simp
  | append_singleton w x ih =>
      have hx : x < 0 := hw x (by simp)
      rw [← List.append_assoc, losingRun_snoc, if_pos hx, List.length_append,
        List.length_singleton]
      exact Nat.succ_le_succ (ih fun y hy => hw y (List.mem_append_left _ hy))

/-! ## The peak -/

variable [IsOrderedAddMonoid α]

/-- One more amount raises the peak to the new total, if that is higher. -/
theorem peak_snoc (l : List α) (x : α) : peak (l ++ [x]) = max (peak l) (l.sum + x) := by
  induction l with
  | nil => simp [peak]
  | cons y l ih =>
      rw [List.cons_append, peak, peak, ih, List.sum_cons, ← max_add_add_left, max_assoc,
        add_assoc]

/-- **The peak is the greatest of the running totals.** -/
theorem isGreatest_peak (l : List α) : IsGreatest { t | ∃ p, p <+: l ∧ t = p.sum } (peak l) := by
  induction l with
  | nil =>
      refine ⟨⟨[], List.prefix_refl _, rfl⟩, ?_⟩
      rintro t ⟨p, hp, rfl⟩
      rw [List.prefix_nil.mp hp]
      exact le_refl _
  | cons x l ih =>
      constructor
      · rcases le_total (x + peak l) 0 with h | h
        · exact ⟨[], List.nil_prefix, by rw [peak, max_eq_left h, List.sum_nil]⟩
        · obtain ⟨p, hp, hsum⟩ := ih.1
          refine ⟨x :: p, List.cons_prefix_cons.mpr ⟨rfl, hp⟩, ?_⟩
          rw [peak, max_eq_right h, List.sum_cons, hsum]
      · rintro t ⟨p, hp, rfl⟩
        rcases List.prefix_cons_iff.mp hp with rfl | ⟨q, rfl, hq⟩
        · exact peak_nonneg _
        · rw [List.sum_cons, peak]
          exact le_trans (add_le_add_right (ih.2 ⟨q, hq, rfl⟩) x) (le_max_right ..)

/-! ## Drawdowns -/

section Drawdown

variable {K : Type} [Field K] [LinearOrder K]

/-- How far the total lies below the peak, as a share of it. -/
def drop (l : List K) : K := (peak l - l.sum) / peak l

/-- The drops at all points where the peak is positive, and none at all. -/
def drawdowns (l : List K) : Set K := { d | d = 0 ∨ ∃ p, p <+: l ∧ 0 < peak p ∧ d = drop p }

theorem drawdowns_snoc (l : List K) (x : K) :
    drawdowns (l ++ [x]) = { d | d ∈ drawdowns l ∨ 0 < peak (l ++ [x]) ∧ d = drop (l ++ [x]) } := by
  ext d
  constructor
  · rintro (h | ⟨p, hp, hd⟩)
    · exact Or.inl (Or.inl h)
    · rcases List.prefix_concat_iff.mp hp with rfl | hp
      · exact Or.inr hd
      · exact Or.inl (Or.inr ⟨p, hp, hd⟩)
  · rintro ((h | ⟨p, hp, hd⟩) | hd)
    · exact Or.inl h
    · exact Or.inr ⟨p, hp.trans (List.prefix_append l [x]), hd⟩
    · exact Or.inr ⟨l ++ [x], List.prefix_refl _, hd⟩

theorem isGreatest_drawdowns_nil : IsGreatest (drawdowns ([] : List K)) 0 := by
  refine ⟨Or.inl rfl, ?_⟩
  rintro d (h | ⟨p, hp, hpos, -⟩)
  · exact h.le
  · rw [List.prefix_nil.mp hp] at hpos
    exact absurd hpos (lt_irrefl _)

/-- **One more amount deepens the greatest drawdown to the new drop, if that is deeper.** -/
theorem isGreatest_drawdowns_snoc {l : List K} {m : K} (h : IsGreatest (drawdowns l) m) (x : K) :
    IsGreatest (drawdowns (l ++ [x]))
      (if 0 < peak (l ++ [x]) then max m (drop (l ++ [x])) else m) := by
  rw [drawdowns_snoc]
  split
  · rename_i hpos
    constructor
    · rcases max_cases m (drop (l ++ [x])) with ⟨hmax, -⟩ | ⟨hmax, -⟩
      · rw [hmax]
        exact Or.inl h.1
      · rw [hmax]
        exact Or.inr ⟨hpos, rfl⟩
    · rintro d (hd | ⟨-, rfl⟩)
      · exact (h.2 hd).trans (le_max_left _ _)
      · exact le_max_right _ _
  · rename_i hflat
    refine ⟨Or.inl h.1, ?_⟩
    rintro d (hd | ⟨hpos, -⟩)
    · exact h.2 hd
    · exact absurd hpos hflat

end Drawdown

end RossBot.Lib
