import Mathlib.Order.BoundedOrder.Lattice
import Mathlib.Order.MinMax
import Mathlib.Data.List.Count
import Mathlib.Data.List.DropRight
import Mathlib.Data.List.Perm.Basic

/-!
# Windows: the last elements, a bounded deque, a window in time

How long a run of elements ends a list is read off its last elements, as far as
they reach (`trailing_rtake`, `le_trailing_iff`).

A deque of bounded length that is filled from the left keeps the latest elements
(`foldl_appendleft`). What it loses matters to a verdict that is the strongest of
all elements' ranks exactly when something lost outranks everything kept
(`strongest_left_iff`), and it can matter in some order of arrival exactly when
the weaker elements alone fill the deque (`latest_every_order_iff`).

A window in time lets its oldest elements fall out at the front until one is
recent enough. Those that stay are the recent ones unless an old one stands behind a
recent one (`dropWhile_eq_filter_not_iff`), as none does when they came in order
(`dropWhile_eq_filter`). It makes no difference that some fell out at an earlier
instant (`LeftOf.dropWhile_eq`). A list handed out page by page is handed out once
(`flatMap_pages`).
-/

namespace RossBot.Lib

universe u v w

variable {α : Type u} {β : Type v} {ι : Type w}

/-- The `n` latest elements, latest first. -/
def latest (n : ℕ) (l : List α) : List α := l.reverse.take n

/-- The elements before those, latest first. -/
def older (n : ℕ) (l : List α) : List α := l.reverse.drop n

/-- Every element is one or the other. -/
theorem mem_latest_or_older {n : ℕ} {l : List α} {x : α} :
    x ∈ l ↔ x ∈ latest n l ∨ x ∈ older n l := by
  rw [latest, older, ← List.mem_append, List.take_append_drop, List.mem_reverse]

/-- When the last elements are enough, the first are not among the latest. -/
theorem mem_of_mem_latest_append {n : ℕ} {first last : List α} {x : α} (hn : n ≤ last.length)
    (hx : x ∈ latest n (first ++ last)) : x ∈ last := by
  rw [latest, List.reverse_append, List.take_append_of_le_length (by simpa using hn)] at hx
  exact List.mem_reverse.mp (List.mem_of_mem_take hx)

/-- The latest of the latest and one more. -/
theorem take_cons_latest (n : ℕ) (l : List α) (x : α) : (x :: latest n l).take n = latest n (l ++ [x]) := by
  rw [latest, latest, List.reverse_append, List.reverse_singleton, List.singleton_append]
  cases n with
  | zero => rfl
  | succ n => rw [List.take_succ_cons, List.take_succ_cons, List.take_take, Nat.min_eq_left n.le_succ]

/-- A list filled from the right keeps its last elements, as many as there are. -/
theorem length_rtake (n : ℕ) (l : List α) : (l.rtake n).length = min n l.length := by
  rw [List.rtake, List.length_drop]
  omega

/-- **Pushing onto the end, and dropping the first when there are too many**, keeps the last. -/
theorem rtake_push (n : ℕ) (l : List α) (x : α) :
    (if n < (l.rtake n ++ [x]).length then (l.rtake n ++ [x]).tail else l.rtake n ++ [x])
      = (l ++ [x]).rtake n := by
  rw [List.length_append, length_rtake, List.length_singleton]
  cases n with
  | zero => simp
  | succ n =>
      rw [List.rtake_concat_succ]
      split
      · rename_i hfull
        have hne : l.drop (l.length - (n + 1)) ≠ [] := by
          rw [ne_eq, List.drop_eq_nil_iff]
          omega
        have hstep : l.length - (n + 1) + 1 = l.length - n := by omega
        rw [List.rtake, List.tail_append_of_ne_nil hne, List.tail_drop, hstep, List.rtake]
      · rename_i hroom
        have hall : l.length ≤ n := by omega
        rw [List.rtake, List.rtake, Nat.sub_eq_zero_of_le hall,
          Nat.sub_eq_zero_of_le (Nat.le_succ_of_le hall)]

/-! ## The run at the end -/

/-- How many elements at the end of the list meet `p`, with none between them that does not. -/
def trailing (p : α → Bool) (l : List α) : ℕ := (l.reverse.takeWhile p).length

theorem trailing_snoc (p : α → Bool) (l : List α) (x : α) :
    trailing p (l ++ [x]) = if p x then trailing p l + 1 else 0 := by
  unfold trailing
  rw [List.reverse_append, List.reverse_singleton, List.singleton_append]
  by_cases hx : p x
  · rw [List.takeWhile_cons_of_pos hx, List.length_cons, if_pos hx]
  · rw [List.takeWhile_cons_of_neg hx, List.length_nil, if_neg hx]

/-- A list cut to its last `n` elements shows at most `n` of the run. -/
theorem trailing_rtake (p : α → Bool) (n : ℕ) (l : List α) :
    trailing p (l.rtake n) = min n (trailing p l) := by
  unfold trailing
  rw [List.rtake_eq_reverse_take_reverse, List.reverse_reverse, ← List.take_takeWhile,
    List.length_take]

theorem trailing_le_length (p : α → Bool) (l : List α) : trailing p l ≤ l.length := by
  have hlen := (List.takeWhile_sublist (l := l.reverse) p).length_le
  rwa [List.length_reverse] at hlen

/-- The run takes in the whole list when every element meets `p`. -/
theorem trailing_eq_length_iff (p : α → Bool) (l : List α) :
    trailing p l = l.length ↔ ∀ x ∈ l, p x := by
  have hlen : l.length = l.reverse.length := List.length_reverse.symm
  rw [trailing, hlen, (List.takeWhile_sublist p).length_eq, List.takeWhile_eq_self_iff]
  simp

/-- **The run is at least `n` long when the list is and its last `n` elements meet `p`.** -/
theorem le_trailing_iff (p : α → Bool) (n : ℕ) (l : List α) :
    n ≤ trailing p l ↔ n ≤ l.length ∧ ∀ x ∈ l.rtake n, p x := by
  have hlen := trailing_le_length p l
  rw [← trailing_eq_length_iff, trailing_rtake, length_rtake]
  omega

/-- A deque of at most `n` elements, left end first. -/
structure Deque (α : Type u) (n : ℕ) where
  /-- The elements, left end first. -/
  items : List α
  /-- There are at most `n`. -/
  bounded : items.length ≤ n

namespace Deque

variable {n : ℕ}

/-- The empty deque. -/
def empty : Deque α n := ⟨[], Nat.zero_le n⟩

/-- Put `x` at the left end; when the deque is full the right end falls out. -/
def appendleft (q : Deque α n) (x : α) : Deque α n :=
  ⟨(x :: q.items).take n, List.length_take_le n _⟩

/-- **The deque keeps the latest elements.** -/
theorem foldl_appendleft (l : List α) (q : Deque α n) :
    (l.foldl appendleft q).items = (l.reverse ++ q.items).take n := by
  induction l generalizing q with
  | nil => exact (List.take_of_length_le q.bounded).symm
  | cons x l ih =>
      rw [List.foldl_cons, ih, appendleft, List.reverse_cons, List.append_assoc,
        List.singleton_append, List.take_append, List.take_append]
      rcases Nat.le_total n l.reverse.length with hn | hn
      · rw [Nat.sub_eq_zero_of_le hn, List.take_zero, List.take_zero]
      · rw [List.take_take, Nat.min_eq_left (Nat.sub_le n _)]

theorem items_foldl_empty (l : List α) :
    (l.foldl appendleft (empty : Deque α n)).items = latest n l := by
  rw [foldl_appendleft, empty, List.append_nil, latest]

end Deque

section Strongest

variable [LinearOrder β] [OrderBot β] {r : α → β}

/-- The strongest rank in a list; nothing is weaker than an empty one. -/
def strongest (r : α → β) : List α → β
  | [] => ⊥
  | x :: l => max (r x) (strongest r l)

@[simp] theorem strongest_nil : strongest r [] = ⊥ := rfl

theorem strongest_le_iff {l : List α} {b : β} : strongest r l ≤ b ↔ ∀ x ∈ l, r x ≤ b := by
  induction l with
  | nil => simp
  | cons x l ih => rw [strongest, max_le_iff, ih, List.forall_mem_cons]

theorem le_strongest_iff {l : List α} {b : β} : b ≤ strongest r l ↔ b = ⊥ ∨ ∃ x ∈ l, b ≤ r x := by
  induction l with
  | nil => simp
  | cons x l ih =>
      rw [strongest, le_max_iff, ih, List.exists_mem_cons_iff]
      tauto

theorem le_strongest {l : List α} {x : α} (h : x ∈ l) : r x ≤ strongest r l :=
  strongest_le_iff.mp (le_refl _) x h

/-- More elements are stronger. -/
theorem strongest_mono {l l' : List α} (h : l ⊆ l') : strongest r l ≤ strongest r l' :=
  strongest_le_iff.mpr fun _ hx => le_strongest (h hx)

/-- The order does not matter. -/
theorem strongest_perm {l l' : List α} (h : l.Perm l') : strongest r l = strongest r l' :=
  le_antisymm (strongest_mono h.subset) (strongest_mono h.symm.subset)

/-- **What is lost matters if it outranks all that is kept.** -/
theorem strongest_left_iff {kept lost all : List α} (hall : ∀ x, x ∈ all ↔ x ∈ kept ∨ x ∈ lost) :
    strongest r kept = strongest r all ↔ ∀ x ∈ lost, r x = ⊥ ∨ ∃ k ∈ kept, r x ≤ r k := by
  have hsub : strongest r kept ≤ strongest r all := strongest_mono fun x hx => (hall x).mpr (Or.inl hx)
  constructor
  · intro h x hx
    have hx : r x ≤ strongest r kept := h ▸ le_strongest ((hall x).mpr (Or.inr hx))
    exact le_strongest_iff.mp hx
  · intro h
    refine le_antisymm hsub (strongest_le_iff.mpr fun x hx => ?_)
    rcases (hall x).mp hx with hx | hx
    · exact le_strongest hx
    · exact le_strongest_iff.mpr (h x hx)

theorem strongest_latest_iff {n : ℕ} {l : List α} :
    strongest r (latest n l) = strongest r l
      ↔ ∀ x ∈ older n l, r x = ⊥ ∨ ∃ k ∈ latest n l, r x ≤ r k :=
  strongest_left_iff fun _ => mem_latest_or_older

/-! ## Every order of arrival -/

/-- How many elements fall short of the strongest. -/
def weaker (r : α → β) (l : List α) : ℕ := l.countP fun x => decide (r x ≠ strongest r l)

/-- Too few weaker elements to fill the deque leave room for a strongest one. -/
theorem strongest_latest_of_weaker {n : ℕ} {l : List α} (h : weaker r l < n) :
    strongest r (latest n l) = strongest r l := by
  by_cases hn : l.length ≤ n
  · rw [latest, List.take_of_length_le (by simpa using hn)]
    exact strongest_perm l.reverse_perm
  · have hlen : (latest n l).length = n := by
      rw [latest, List.length_take, List.length_reverse]; omega
    have hcount : (latest n l).countP (fun x => decide (r x ≠ strongest r l)) ≤ weaker r l :=
      le_of_le_of_eq (List.take_sublist n _).countP_le (l.reverse_perm.countP_eq _)
    obtain ⟨x, hx, hr⟩ := List.countP_lt_length_iff.mp (hcount.trans_lt (h.trans_eq hlen.symm))
    have hr : r x = strongest r l := by simpa using hr
    refine le_antisymm (strongest_mono fun y hy => mem_latest_or_older.mpr (Or.inl hy)) ?_
    rw [← hr]
    exact le_strongest hx

variable {f : ι → List α} {is : List ι}

/-- **The deque shows the strongest in every order of arrival if there is nothing to show, or
the weaker elements do not fill it.** An arrival may bring several elements, all of one rank. -/
theorem latest_every_order_iff {n : ℕ} (hf : ∀ i, ∀ x ∈ f i, ∀ y ∈ f i, r x = r y) :
    (∀ js : List ι, js.Perm is →
        strongest r (latest n (js.flatMap f)) = strongest r (js.flatMap f))
      ↔ strongest r (is.flatMap f) = ⊥ ∨ weaker r (is.flatMap f) < n := by
  constructor
  · intro h
    by_contra hno
    obtain ⟨hbot, hfull⟩ := not_or.mp hno
    -- the arrivals with a strongest element first
    let top : ι → Bool := fun i => (f i).any fun x => decide (r x = strongest r (is.flatMap f))
    let js := is.filter top ++ is.filter (fun i => !top i)
    have hperm : js.Perm is := List.filter_append_perm top is
    have hs : strongest r (js.flatMap f) = strongest r (is.flatMap f) :=
      strongest_perm (hperm.flatMap_right f)
    have hfirst : ∀ x ∈ (is.filter top).flatMap f, r x = strongest r (is.flatMap f) := by
      intro x hx
      obtain ⟨i, hi, hx⟩ := List.mem_flatMap.mp hx
      obtain ⟨y, hy, hr⟩ := List.any_eq_true.mp (List.mem_filter.mp hi).2
      exact (hf i x hx y hy).trans (of_decide_eq_true hr)
    have hlast : ∀ x ∈ (is.filter fun i => !top i).flatMap f, r x < strongest r (is.flatMap f) := by
      intro x hx
      obtain ⟨i, hi, hxi⟩ := List.mem_flatMap.mp hx
      have htop : top i = false := by simpa using (List.mem_filter.mp hi).2
      have hne : r x ≠ strongest r (is.flatMap f) := fun hr =>
        absurd (htop.symm.trans (List.any_eq_true.mpr ⟨x, hxi, decide_eq_true hr⟩)) (by simp)
      refine lt_of_le_of_ne (le_strongest (List.mem_flatMap.mpr ⟨i, ?_, hxi⟩)) hne
      exact List.mem_of_mem_filter hi
    have hn : n ≤ ((is.filter fun i => !top i).flatMap f).length := by
      have hc : weaker r (is.flatMap f)
          = (js.flatMap f).countP fun x => decide (r x ≠ strongest r (is.flatMap f)) :=
        ((hperm.flatMap_right f).countP_eq _).symm
      rw [List.flatMap_append, List.countP_append,
        List.countP_eq_zero.mpr fun x hx => by simpa using hfirst x hx, Nat.zero_add] at hc
      exact (not_lt.mp hfull).trans (hc ▸ List.countP_le_length)
    have hle : strongest r (is.flatMap f) ≤ strongest r (latest n (js.flatMap f)) :=
      ((h js hperm).trans hs).ge
    rcases le_strongest_iff.mp hle with hb | ⟨x, hx, hle⟩
    · exact hbot hb
    · rw [List.flatMap_append] at hx
      exact absurd hle (not_le.mpr (hlast x (mem_of_mem_latest_append hn hx)))
  · intro h js hjs
    have hperm : (js.flatMap f).Perm (is.flatMap f) := hjs.flatMap_right f
    have hs : strongest r (js.flatMap f) = strongest r (is.flatMap f) := strongest_perm hperm
    rcases h with h | h
    · refine le_antisymm (strongest_mono fun x hx => mem_latest_or_older.mpr (Or.inl hx)) ?_
      rw [hs, h]
      exact bot_le
    · refine strongest_latest_of_weaker (lt_of_eq_of_lt ?_ h)
      rw [weaker, hs]
      exact hperm.countP_eq _

end Strongest

/-! ## Pages -/

/-- **Pages of `n` elements, one after another, are the list** as far as they reach. -/
theorem flatMap_pages (l : List α) (n count : ℕ) :
    ((List.range count).flatMap fun k => (l.drop (k * n)).take n) = l.take (count * n) := by
  induction count with
  | zero => simp
  | succ count ih =>
      rw [List.range_succ, List.flatMap_append, ih, Nat.succ_mul, List.take_add]
      simp

/-- There are pages enough. -/
theorem length_le_pages (l : List α) {n : ℕ} (hn : 1 ≤ n) :
    l.length ≤ max 1 ((l.length + n - 1) / n) * n := by
  have hdiv : n * ((l.length + n - 1) / n) + (l.length + n - 1) % n = l.length + n - 1 :=
    Nat.div_add_mod _ _
  have hmod : (l.length + n - 1) % n < n := Nat.mod_lt _ hn
  calc l.length ≤ (l.length + n - 1) / n * n := by
        rw [Nat.mul_comm]
        omega
    _ ≤ max 1 ((l.length + n - 1) / n) * n := Nat.mul_le_mul_right n (le_max_right _ _)

/-! ## What falls out at the front -/

section Front

variable {p : α → Bool} {l : List α}

/-- What falls out at the front fails `p`, so what meets it is all left. -/
theorem filter_dropWhile_not :
    (l.dropWhile p).filter (fun x => !p x) = l.filter fun x => !p x := by
  have hgone : (l.takeWhile p).filter (fun x => !p x) = [] :=
    List.filter_eq_nil_iff.mpr fun x hx => by simp [List.mem_takeWhile_imp hx]
  have hsplit := congrArg (List.filter fun x => !p x)
    (List.takeWhile_append_dropWhile (p := p) (l := l))
  rwa [List.filter_append, hgone, List.nil_append] at hsplit

/-- **Exactly what meets `p` falls out** when nothing that meets it stands behind something
that does not. -/
theorem dropWhile_eq_filter_not_iff :
    l.dropWhile p = l.filter (fun x => !p x) ↔ l.Pairwise fun x y => p y = true → p x = true := by
  induction l with
  | nil => simp
  | cons x l ih =>
      rw [List.pairwise_cons]
      by_cases hx : p x = true
      · rw [List.dropWhile_cons_of_pos hx, List.filter_cons_of_neg (by simp [hx]), ih]
        simp [hx]
      · have hkeep : l = l.filter (fun x => !p x) ↔ ∀ y ∈ l, ¬ p y = true := by
          rw [eq_comm, List.filter_eq_self]
          simp
        rw [List.dropWhile_cons_of_neg hx, List.filter_cons_of_pos (by simp [hx]),
          List.cons.injEq, and_iff_right rfl, hkeep]
        constructor
        · intro hall
          exact ⟨fun y hy hpy => absurd hpy (hall y hy),
            List.pairwise_of_forall_mem_list fun y hy z hz hpz => absurd hpz (hall z hz)⟩
        · rintro ⟨hfirst, -⟩ y hy hpy
          exact hx (hfirst y hy hpy)

/-- And the number left tells whether it did. -/
theorem length_dropWhile_eq_iff :
    (l.dropWhile p).length = (l.filter fun x => !p x).length ↔
      l.Pairwise fun x y => p y = true → p x = true := by
  rw [← dropWhile_eq_filter_not_iff]
  constructor
  · intro hlen
    rw [← filter_dropWhile_not, eq_comm, List.length_filter_eq_length_iff] at hlen
    rw [← filter_dropWhile_not, List.filter_eq_self.mpr hlen]
  · intro heq
    rw [heq]

variable {Q Q' : α → Prop} {all kept : List α}

/-- `kept` is what is left of `all`: only a front, all of `Q`, has fallen out. -/
def LeftOf (Q : α → Prop) (all kept : List α) : Prop :=
  ∃ gone, all = gone ++ kept ∧ ∀ x ∈ gone, Q x

theorem LeftOf.refl (Q : α → Prop) (l : List α) : LeftOf Q l l := ⟨[], rfl, by simp⟩

theorem LeftOf.mono (h : LeftOf Q all kept) (hQ : ∀ x, Q x → Q' x) : LeftOf Q' all kept := by
  obtain ⟨gone, hsplit, hgone⟩ := h
  exact ⟨gone, hsplit, fun x hx => hQ x (hgone x hx)⟩

/-- What arrives at the back stays. -/
theorem LeftOf.append (h : LeftOf Q all kept) (l : List α) : LeftOf Q (all ++ l) (kept ++ l) := by
  obtain ⟨gone, hsplit, hgone⟩ := h
  exact ⟨gone, by rw [hsplit, List.append_assoc], hgone⟩

/-- More falls out. -/
theorem LeftOf.dropWhile (h : LeftOf Q all kept) (hp : ∀ x, p x = true → Q x) :
    LeftOf Q all (kept.dropWhile p) := by
  obtain ⟨gone, hsplit, hgone⟩ := h
  refine ⟨gone ++ kept.takeWhile p, ?_, ?_⟩
  · rw [List.append_assoc, List.takeWhile_append_dropWhile]
    exact hsplit
  · intro x hx
    rcases List.mem_append.mp hx with hx | hx
    · exact hgone x hx
    · exact hp x (List.mem_takeWhile_imp hx)

/-- **What fell out before makes no difference** to an eviction that it would not have survived. -/
theorem LeftOf.dropWhile_eq (h : LeftOf Q all kept) (hQ : ∀ x, Q x → p x = true) :
    kept.dropWhile p = all.dropWhile p := by
  obtain ⟨gone, hsplit, hgone⟩ := h
  rw [hsplit, List.dropWhile_append_of_pos fun x hx => hQ x (hgone x hx)]

end Front

section InTime

variable [LinearOrder β] {f : α → β} {l : List α}

/-- **A window in time keeps the recent elements**, when they came in order. -/
theorem dropWhile_eq_filter (hl : l.Pairwise fun x y => f x ≤ f y) (cutoff : β) :
    l.dropWhile (fun x => decide (f x < cutoff)) = l.filter fun x => decide (cutoff ≤ f x) := by
  have hrecent : (fun x => decide (cutoff ≤ f x)) = fun x => !decide (f x < cutoff) := by
    funext x
    simp only [← not_lt, decide_not]
  rw [hrecent]
  refine dropWhile_eq_filter_not_iff.mpr (hl.imp ?_)
  intro x y hle hold
  exact decide_eq_true (hle.trans_lt (of_decide_eq_true hold))

end InTime

end RossBot.Lib
