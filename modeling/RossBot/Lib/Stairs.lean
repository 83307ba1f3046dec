import Mathlib.Order.Basic

/-!
# Staircases

A table of thresholds is read from the top: the first condition that holds gives the
value. Such a table is ordered with its argument when each condition stays true as
the argument gets better and no value is below the next one (`Stairs.step`). What
"better" means is any relation `r`, so rising and falling tables are one case.
-/

namespace RossBot.Lib

universe u v

variable {α : Type u} {β : Type v} [Preorder β] {r : α → α → Prop} {f : α → β} {a b : β}

/-- `f` does not fall as its argument gets better, and is at most `top`. -/
structure Stairs (r : α → α → Prop) (f : α → β) (top : β) : Prop where
  mono : ∀ x y, r x y → f x ≤ f y
  le_top : ∀ x, f x ≤ top

/-- The last line of the table. -/
theorem Stairs.floor (b : β) : Stairs r (fun _ => b) b where
  mono := fun _ _ _ => le_refl b
  le_top := fun _ => le_refl b

/-- **One more line on top.** -/
theorem Stairs.step (h : Stairs r f b) {p : α → Prop} [DecidablePred p]
    (hp : ∀ x y, r x y → p x → p y) (hab : b ≤ a) :
    Stairs r (fun x => if p x then a else f x) a where
  mono := by
    intro x y hxy
    by_cases hy : p y
    · rw [if_pos hy]
      split
      · exact le_refl a
      · exact (h.le_top x).trans hab
    · rw [if_neg hy, if_neg fun hx => hy (hp x y hxy hx)]
      exact h.mono x y hxy
  le_top := by
    intro x
    split
    · exact le_refl a
    · exact (h.le_top x).trans hab

end RossBot.Lib
