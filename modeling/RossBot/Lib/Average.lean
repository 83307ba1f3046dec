import Mathlib.Analysis.Convex.Basic
import Mathlib.Data.List.Induction

/-!
# Averages that are kept up

An average moves towards each new value by a share between none and all of the way,
so it stays in any convex set that holds the values: the smoothed average
(`smooth_mem`), the weighted one kept as a sum and a total weight (`weighted_mem`), and
so the mean of a list (`mean_mem`).
-/

namespace RossBot.Lib

universe u

variable {K : Type u} [Field K] [LinearOrder K] [IsStrictOrderedRing K] {s : Set K}

/-- One step of exponential smoothing. -/
theorem smooth_mem (hs : Convex K s) {e x k : K} (he : e ∈ s) (hx : x ∈ s)
    (hk : k ∈ Set.Icc 0 1) : (x - e) * k + e ∈ s := by
  have hmem := hs.add_smul_sub_mem he hx hk
  rwa [smul_eq_mul, mul_comm, add_comm] at hmem

/-- One more value with its weight; a value without weight need not be in the set. -/
theorem weighted_mem (hs : Convex K s) {sum weight x w : K} (hweight : 0 ≤ weight) (hw : 0 ≤ w)
    (hzero : weight = 0 → sum = 0) (hold : weight ≠ 0 → sum / weight ∈ s)
    (hx : w ≠ 0 → x ∈ s) (htotal : weight + w ≠ 0) : (sum + x * w) / (weight + w) ∈ s := by
  by_cases hw0 : w = 0
  · -- nothing is added
    rw [hw0, add_zero] at htotal
    rw [hw0, mul_zero, add_zero, add_zero]
    exact hold htotal
  · by_cases hweight0 : weight = 0
    · rw [hweight0, hzero hweight0, zero_add, zero_add, mul_div_cancel_right₀ x hw0]
      exact hx hw0
    · have hshare : w / (weight + w) ∈ Set.Icc 0 1 :=
        ⟨div_nonneg hw (add_nonneg hweight hw),
          div_le_one_of_le₀ (le_add_of_nonneg_left hweight) (add_nonneg hweight hw)⟩
      have hmem := smooth_mem hs (hold hweight0) (hx hw0) hshare
      have heq : (x - sum / weight) * (w / (weight + w)) + sum / weight =
          (sum + x * w) / (weight + w) := by
        field_simp
        ring
      rwa [heq] at hmem

/-- The mean of a list. -/
theorem mean_mem (hs : Convex K s) {l : List K} (hne : l ≠ []) (h : ∀ x ∈ l, x ∈ s) :
    l.sum / l.length ∈ s := by
  induction l using List.reverseRecOn with
  | nil => exact absurd rfl hne
  | append_singleton l x ih =>
      have hlast : x ∈ s := h x (by simp)
      rw [List.sum_append, List.sum_singleton, List.length_append, List.length_singleton,
        Nat.cast_add, Nat.cast_one, ← mul_one x]
      refine weighted_mem hs (Nat.cast_nonneg _) zero_le_one ?_ ?_ (fun _ => hlast) ?_
      · intro hlen
        rw [List.length_eq_zero_iff.mp (Nat.cast_eq_zero.mp hlen), List.sum_nil]
      · intro hlen
        refine ih ?_ fun y hy => h y (List.mem_append_left _ hy)
        rintro rfl
        exact hlen Nat.cast_zero
      · exact Nat.cast_add_one_ne_zero _

end RossBot.Lib
