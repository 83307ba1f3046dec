import RossBot.Lib.Dict

/-!
# Asking in batches

A question about many keys may be put a few keys at a time, and the answers collected.
Where an answer says of a key what it would say of it alone, the size of the batches
makes no difference.
-/

namespace RossBot.Lib

variable {κ α : Type}

/-- `l[i : i + b]` for `i` in `range(0, len(l), b)`. -/
def batches (b : ℕ) (l : List κ) : List (List κ) :=
  (List.range ((l.length + b - 1) / b)).map fun i => (l.drop (i * b)).take b

/-- Every element is in one batch, in its order. -/
theorem flatten_batches {b : ℕ} (hb : 0 < b) (l : List κ) : (batches b l).flatten = l := by
  have htake : ∀ n, ((List.range n).map fun i => (l.drop (i * b)).take b).flatten
      = l.take (n * b) := by
    intro n
    induction n with
    | zero => simp
    | succ n ih =>
        rw [List.range_succ, List.map_append, List.flatten_append, ih, Nat.succ_mul, List.take_add]
        simp
  have hall : l.length ≤ (l.length + b - 1) / b * b := by
    have hdiv := Nat.div_add_mod (l.length + b - 1) b
    have hmod := Nat.mod_lt (l.length + b - 1) hb
    rw [Nat.mul_comm] at hdiv
    omega
  rw [batches, htake, List.take_of_length_le hall]

variable [DecidableEq κ]

/-- The answers for all keys, `b` of them at a time. -/
def gather (ask : List κ → Dict κ α) (b : ℕ) (keys : List κ) : Dict κ α :=
  (batches b keys).foldl (fun d ks => d.update (ask ks)) ∅

/-- **The batches make no difference.** -/
theorem get?_gather {ask : List κ → Dict κ α} {g : κ → Option α}
    (hask : ∀ ks k, (ask ks).get? k = if k ∈ ks then g k else none) {b : ℕ} (hb : 0 < b)
    (keys : List κ) (k : κ) :
    (gather ask b keys).get? k = if k ∈ keys then g k else none := by
  have hfold : ∀ (kss : List (List κ)) (d : Dict κ α),
      (kss.foldl (fun d ks => d.update (ask ks)) d).get? k
        = if k ∈ kss.flatten then (g k).or (d.get? k) else d.get? k := by
    intro kss
    induction kss with
    | nil => exact fun d => rfl
    | cons ks kss ih =>
        intro d
        rw [List.foldl_cons, ih, Dict.get?_update, hask, List.flatten_cons]
        by_cases hk : k ∈ ks <;> by_cases hr : k ∈ kss.flatten <;> simp [hk, hr]
        cases g k <;> rfl
  rw [gather, hfold, flatten_batches hb]
  simp

end RossBot.Lib
