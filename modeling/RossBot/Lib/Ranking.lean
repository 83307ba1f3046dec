import Mathlib.Data.List.Sort
import Mathlib.Order.Defs.LinearOrder

/-!
# Rankings

A stable sort with the greatest key first. What a ranking may be filtered by, it may
be filtered by before: the two orders of work give the same list (`filter_ranked`).
Stability is that statement for one key (`ranked_ties`).
-/

namespace RossBot.Lib

variable {α β κ : Type*} [LinearOrder κ]

/-- The elements by their key, greatest first; those of one key stay in the order they came in. -/
def ranked (f : α → κ) (l : List α) : List α := l.insertionSort fun a b => f b ≤ f a

private instance total_ranked (f : α → κ) : Std.Total fun a b => f b ≤ f a :=
  ⟨fun a b => le_total (f b) (f a)⟩

private instance trans_ranked (f : α → κ) : IsTrans α fun a b => f b ≤ f a :=
  ⟨fun _ _ _ hab hbc => hbc.trans hab⟩

@[simp] theorem ranked_nil (f : α → κ) : ranked f [] = [] := rfl

theorem ranked_perm (f : α → κ) (l : List α) : (ranked f l).Perm l := List.perm_insertionSort _ l

@[simp] theorem mem_ranked {f : α → κ} {l : List α} {x : α} : x ∈ ranked f l ↔ x ∈ l :=
  (ranked_perm f l).mem_iff

theorem ranked_sorted (f : α → κ) (l : List α) :
    (ranked f l).Pairwise fun a b => f b ≤ f a := List.pairwise_insertionSort _ l

/-- What is ranked already stays as it is. -/
theorem ranked_of_sorted {f : α → κ} {l : List α} (h : l.Pairwise fun a b => f b ≤ f a) :
    ranked f l = l := h.insertionSort_eq

/-- Putting an element in its place, and dropping some of the others. -/
private theorem filter_orderedInsert (f : α → κ) (p : α → Bool) (a : α) {l : List α}
    (h : l.Pairwise fun x y => f y ≤ f x) :
    (l.orderedInsert (fun x y => f y ≤ f x) a).filter p
      = if p a then (l.filter p).orderedInsert (fun x y => f y ≤ f x) a else l.filter p := by
  induction l with
  | nil => by_cases ha : p a = true <;> simp [ha]
  | cons b l ih =>
      obtain ⟨hb, hl⟩ := List.pairwise_cons.mp h
      rw [List.orderedInsert_cons]
      by_cases hab : f b ≤ f a
      · rw [if_pos hab]
        by_cases ha : p a = true
        · rw [List.filter_cons_of_pos ha, if_pos ha]
          -- `a` goes before all that is left, so also before the first that passes
          cases hrest : (b :: l).filter p with
          | nil => rfl
          | cons c rest =>
              have hc : c ∈ b :: l := List.mem_of_mem_filter (hrest ▸ List.mem_cons_self)
              have hca : f c ≤ f a := by
                rcases List.mem_cons.mp hc with rfl | hc
                · exact hab
                · exact (hb c hc).trans hab
              rw [List.orderedInsert_cons, if_pos hca]
        · rw [List.filter_cons_of_neg ha, if_neg ha]
      · rw [if_neg hab]
        by_cases hpb : p b = true
        · rw [List.filter_cons_of_pos hpb, List.filter_cons_of_pos hpb, ih hl]
          split
          · rw [List.orderedInsert_cons, if_neg hab]
          · rfl
        · rw [List.filter_cons_of_neg hpb, List.filter_cons_of_neg hpb, ih hl]

/-- **Ranking and filtering commute.** -/
theorem filter_ranked (f : α → κ) (p : α → Bool) (l : List α) :
    (ranked f l).filter p = ranked f (l.filter p) := by
  induction l with
  | nil => rfl
  | cons a l ih =>
      have hcons : ranked f (a :: l)
          = (ranked f l).orderedInsert (fun x y => f y ≤ f x) a := List.insertionSort_cons ..
      rw [hcons, filter_orderedInsert f p a (ranked_sorted f l), ih]
      split
      · rename_i ha
        rw [List.filter_cons_of_pos ha]
        exact (List.insertionSort_cons ..).symm
      · rename_i ha
        rw [List.filter_cons_of_neg ha]

/-- **A ranking is stable**: those of one key are in the order they came in. -/
theorem ranked_ties (f : α → κ) (k : κ) (l : List α) :
    (ranked f l).filter (fun x => f x = k) = l.filter fun x => f x = k := by
  rw [filter_ranked]
  refine ranked_of_sorted ?_
  refine List.Pairwise.imp_of_mem (R := fun _ _ => True) ?_ (List.pairwise_of_forall fun _ _ =>
    trivial)
  intro x y hx hy _
  have hx : f x = k := by simpa using (List.mem_filter.mp hx).2
  have hy : f y = k := by simpa using (List.mem_filter.mp hy).2
  exact (hy.trans hx.symm).le

/-- What is made of the elements, keys and all, is ranked as they are. -/
theorem ranked_map (f : β → κ) (g : α → β) (l : List α) :
    ranked f (l.map g) = (ranked (fun x => f (g x)) l).map g :=
  (List.map_insertionSort (fun a b => f (g b) ≤ f (g a)) (fun a b => f b ≤ f a) g l
    fun _ _ _ _ => Iff.rfl).symm

end RossBot.Lib
