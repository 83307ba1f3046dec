import Mathlib.Algebra.BigOperators.Group.List.Basic
import Mathlib.Data.List.Induction
import Mathlib.Order.Bounds.Basic

/-!
# Grouping a stream by a key that must not go back

A stream is read once. An element whose key lies below a key already seen comes
too late and is dropped (`onTime`); what is left is cut wherever the key moves on,
and each stretch is summed up by one value. `GroupedBy` says what such a reader
has put out. Whatever the summaries are, their labels increase (`increasing`),
there is one for each key that was on time (`mem_labels`), each sums up all
elements of its key (`sums_filter`); the extremes are those of the stream
(`isGreatest_iff`), and nothing additive is lost (`sum_eq`).
-/

namespace RossBot.Lib

universe u v w

variable {α : Type u} {β : Type v} {κ : Type w} [LinearOrder κ]

/-- The elements whose key is at least every key before them, `seen` counted with. -/
def onTimeAfter (key : α → κ) (seen : List κ) : List α → List α
  | [] => []
  | x :: xs =>
      if ∀ k ∈ seen, k ≤ key x then x :: onTimeAfter key (key x :: seen) xs
      else onTimeAfter key (key x :: seen) xs

/-- The elements whose key is at least every key before them. -/
def onTime (key : α → κ) (xs : List α) : List α := onTimeAfter key [] xs

variable {key : α → κ}

theorem le_of_mem_onTimeAfter {seen : List κ} {xs : List α} {x : α} {k : κ}
    (hx : x ∈ onTimeAfter key seen xs) (hk : k ∈ seen) : k ≤ key x := by
  induction xs generalizing seen with
  | nil => exact absurd hx List.not_mem_nil
  | cons y ys ih =>
      rw [onTimeAfter] at hx
      split at hx
      · rename_i hy
        rcases List.mem_cons.mp hx with rfl | hx
        · exact hy k hk
        · exact ih hx (List.mem_cons_of_mem _ hk)
      · exact ih hx (List.mem_cons_of_mem _ hk)

/-- Only the greatest key seen matters: an element is on time when it does not lie below it. -/
theorem onTimeAfter_cons_of_le {seen : List κ} {xs : List α} {x : α} {k : κ}
    (hgreatest : ∀ j ∈ seen, j ≤ k) (hx : k ≤ key x) :
    onTimeAfter key seen (x :: xs) = x :: onTimeAfter key (key x :: seen) xs := by
  rw [onTimeAfter, if_pos]
  intro j hj
  exact (hgreatest j hj).trans hx

theorem onTimeAfter_cons_of_lt {seen : List κ} {xs : List α} {x : α} {k : κ} (hk : k ∈ seen)
    (hx : key x < k) :
    onTimeAfter key seen (x :: xs) = onTimeAfter key (key x :: seen) xs := by
  rw [onTimeAfter, if_neg]
  intro hall
  exact absurd (hall k hk) (not_le_of_gt hx)

theorem onTimeAfter_append (seen : List κ) (xs ys : List α) :
    onTimeAfter key seen (xs ++ ys) =
      onTimeAfter key seen xs ++ onTimeAfter key ((xs.map key).reverse ++ seen) ys := by
  induction xs generalizing seen with
  | nil => rfl
  | cons x xs ih =>
      have hseen : ((x :: xs).map key).reverse ++ seen = (xs.map key).reverse ++ key x :: seen := by
        rw [List.map_cons, List.reverse_cons, List.append_assoc, List.singleton_append]
      rw [List.cons_append, onTimeAfter, onTimeAfter, hseen, ih]
      split
      · rw [List.cons_append]
      · rfl

/-- One more element is on time when no key before it is greater. -/
theorem onTime_snoc (xs : List α) (x : α) :
    onTime key (xs ++ [x]) = onTime key xs ++ if ∀ y ∈ xs, key y ≤ key x then [x] else [] := by
  have hall : (∀ k ∈ (xs.map key).reverse ++ [], k ≤ key x) ↔ ∀ y ∈ xs, key y ≤ key x := by
    simp only [List.append_nil, List.mem_reverse, List.forall_mem_map]
  rw [onTime, onTime, onTimeAfter_append, onTimeAfter, onTimeAfter]
  simp only [hall]

/-- A stream whose keys do not go back is on time. -/
theorem onTime_eq_self {xs : List α} (h : xs.Pairwise fun x y => key x ≤ key y) :
    onTime key xs = xs := by
  induction xs using List.reverseRecOn with
  | nil => rfl
  | append_singleton xs x ih =>
      obtain ⟨hxs, -, hlast⟩ := List.pairwise_append.mp h
      rw [onTime_snoc, ih hxs, if_pos fun y hy => hlast y hy x (List.mem_singleton.mpr rfl)]

/--
`ys` is cut into stretches of one key, the keys increasing, and `bs` are their
summaries: `b` is labelled with the key of its stretch `c`, and `Sums c b`.
-/
inductive GroupedBy (key : α → κ) (label : β → κ) (Sums : List α → β → Prop) :
    List α → List β → Prop where
  | nil : GroupedBy key label Sums [] []
  | cons {c ys : List α} {b : β} {bs : List β} :
      c ≠ [] → (∀ x ∈ c, key x = label b) → (∀ y ∈ ys, label b < key y) → Sums c b →
      GroupedBy key label Sums ys bs → GroupedBy key label Sums (c ++ ys) (b :: bs)

namespace GroupedBy

variable {label : β → κ} {Sums : List α → β → Prop} {ys : List α} {bs : List β}

/-- One summary for each key. -/
theorem mem_labels (h : GroupedBy key label Sums ys bs) {k : κ} :
    k ∈ bs.map label ↔ k ∈ ys.map key := by
  induction h with
  | nil => simp
  | @cons c ys b bs hne hc _ _ _ ih =>
      have hkeys : k ∈ c.map key ↔ k = label b := by
        obtain ⟨x, hx⟩ := List.exists_mem_of_ne_nil c hne
        constructor
        · intro hk
          obtain ⟨y, hy, rfl⟩ := List.mem_map.mp hk
          exact hc y hy
        · rintro rfl
          exact List.mem_map.mpr ⟨x, hx, hc x hx⟩
      rw [List.map_cons, List.mem_cons, List.map_append, List.mem_append, hkeys, ih]

/-- The labels increase. -/
theorem increasing (h : GroupedBy key label Sums ys bs) :
    (bs.map label).Pairwise (· < ·) := by
  induction h with
  | nil => exact List.Pairwise.nil
  | cons _ _ hlater _ hrest ih =>
      rw [List.map_cons, List.pairwise_cons]
      refine ⟨fun k hk => ?_, ih⟩
      obtain ⟨y, hy, rfl⟩ := List.mem_map.mp (hrest.mem_labels.mp hk)
      exact hlater y hy

/-- A summary sums up all elements of its key. -/
theorem sums_filter (h : GroupedBy key label Sums ys bs) {b : β} (hb : b ∈ bs) :
    Sums (ys.filter fun y => key y = label b) b := by
  induction h with
  | nil => exact absurd hb List.not_mem_nil
  | @cons c ys b' bs _ hc hlater hsums hrest ih =>
      rw [List.filter_append]
      rcases List.mem_cons.mp hb with rfl | hb
      · -- its own stretch, and none of the later elements
        have hall : (c.filter fun y => key y = label b) = c :=
          List.filter_eq_self.mpr fun x hx => decide_eq_true (hc x hx)
        have hnone : (ys.filter fun y => key y = label b) = [] :=
          List.filter_eq_nil_iff.mpr fun y hy => by simpa using (hlater y hy).ne'
        rw [hall, hnone, List.append_nil]
        exact hsums
      · have hkey : label b ∈ ys.map key := hrest.mem_labels.mp (List.mem_map_of_mem hb)
        obtain ⟨y, hy, hylabel⟩ := List.mem_map.mp hkey
        have hnone : (c.filter fun x => key x = label b) = [] := by
          rw [List.filter_eq_nil_iff]
          intro x hx
          have hlt : label b' < label b := hylabel ▸ hlater y hy
          simpa [hc x hx] using hlt.ne
        rw [hnone, List.nil_append]
        exact ih hb

/-- A part that is told by the key is grouped by the summaries of that part. -/
theorem filter (h : GroupedBy key label Sums ys bs) (p : κ → Bool) :
    GroupedBy key label Sums (ys.filter fun y => p (key y)) (bs.filter fun b => p (label b)) := by
  induction h with
  | nil => exact .nil
  | @cons c ys b bs hne hc hlater hsums _ ih =>
      have hlater' : ∀ y ∈ ys.filter fun y => p (key y), label b < key y :=
        fun y hy => hlater y (List.mem_of_mem_filter hy)
      rw [List.filter_append]
      by_cases hp : p (label b) = true
      · have hall : (c.filter fun y => p (key y)) = c :=
          List.filter_eq_self.mpr fun x hx => by rw [hc x hx]; exact hp
        rw [hall, List.filter_cons_of_pos (p := fun b => p (label b)) hp]
        exact .cons hne hc hlater' hsums ih
      · have hnone : (c.filter fun y => p (key y)) = [] :=
          List.filter_eq_nil_iff.mpr fun x hx => by rw [hc x hx]; exact hp
        rw [hnone, List.filter_cons_of_neg (p := fun b => p (label b)) hp, List.nil_append]
        exact ih

/-- The first summary is of the first elements. -/
theorem head_eq {γ : Type*} {f : α → γ} {g : β → γ}
    (hhead : ∀ c b, Sums c b → c.head?.map f = some (g b)) (h : GroupedBy key label Sums ys bs) :
    ys.head?.map f = bs.head?.map g := by
  cases h with
  | nil => rfl
  | @cons c ys b bs hne _ _ hsums _ =>
      rw [List.head?_append_of_ne_nil _ hne]
      exact hhead c b hsums

/-- The last summary is of the last elements. -/
theorem getLast_eq {γ : Type*} {f : α → γ} {g : β → γ}
    (hlast : ∀ c b, Sums c b → c.getLast?.map f = some (g b))
    (h : GroupedBy key label Sums ys bs) : ys.getLast?.map f = bs.getLast?.map g := by
  induction h with
  | nil => rfl
  | @cons c ys b bs _ _ _ hsums hrest ih =>
      cases hrest with
      | nil =>
          rw [List.append_nil]
          exact hlast c b hsums
      | @cons c' ys' b' bs' hne _ _ _ _ =>
          have hys : c' ++ ys' ≠ [] := List.append_ne_nil_of_left_ne_nil hne ys'
          rw [List.getLast?_append_of_ne_nil _ hys, List.getLast?_cons_cons]
          exact ih

/-- The greatest of the stretches is the greatest of the stream. -/
theorem isGreatest_iff {γ : Type*} [PartialOrder γ] {f : α → γ} {g : β → γ}
    (hgreatest : ∀ c b, Sums c b → IsGreatest {v | ∃ x ∈ c, f x = v} (g b))
    (h : GroupedBy key label Sums ys bs) (m : γ) :
    IsGreatest {v | ∃ y ∈ ys, f y = v} m ↔ IsGreatest {v | ∃ b ∈ bs, g b = v} m := by
  -- a summary is of an element, and an element is at most the summary of its stretch
  have hof : ∀ b ∈ bs, ∃ y ∈ ys, f y = g b := by
    intro b hb
    obtain ⟨y, hy, hv⟩ := (hgreatest _ b (h.sums_filter hb)).1
    exact ⟨y, List.mem_of_mem_filter hy, hv⟩
  have hle : ∀ y ∈ ys, ∃ b ∈ bs, f y ≤ g b := by
    intro y hy
    obtain ⟨b, hb, hkey⟩ := List.mem_map.mp (h.mem_labels.mpr (List.mem_map_of_mem hy))
    have hin : y ∈ ys.filter fun z => key z = label b :=
      List.mem_filter.mpr ⟨hy, decide_eq_true hkey.symm⟩
    exact ⟨b, hb, (hgreatest _ b (h.sums_filter hb)).2 ⟨y, hin, rfl⟩⟩
  constructor
  · rintro ⟨⟨y, hy, rfl⟩, hupper⟩
    have hbelow : ∀ b ∈ bs, g b ≤ f y := by
      intro b hb
      obtain ⟨z, hz, hv⟩ := hof b hb
      exact hupper ⟨z, hz, hv⟩
    obtain ⟨b, hb, hyb⟩ := hle y hy
    refine ⟨⟨b, hb, le_antisymm (hbelow b hb) hyb⟩, ?_⟩
    rintro v ⟨b', hb', rfl⟩
    exact hbelow b' hb'
  · rintro ⟨⟨b, hb, rfl⟩, hupper⟩
    refine ⟨hof b hb, ?_⟩
    rintro v ⟨y, hy, rfl⟩
    obtain ⟨b', hb', hyb⟩ := hle y hy
    exact hyb.trans (hupper ⟨b', hb', rfl⟩)

/-- And so for the least, in the order turned round. -/
theorem isLeast_iff {γ : Type*} [PartialOrder γ] {f : α → γ} {g : β → γ}
    (hleast : ∀ c b, Sums c b → IsLeast {v | ∃ x ∈ c, f x = v} (g b))
    (h : GroupedBy key label Sums ys bs) (m : γ) :
    IsLeast {v | ∃ y ∈ ys, f y = v} m ↔ IsLeast {v | ∃ b ∈ bs, g b = v} m := by
  have hdual : ∀ c b, Sums c b →
      IsGreatest {v | ∃ x ∈ c, OrderDual.toDual (f x) = v} (OrderDual.toDual (g b)) := hleast
  exact isGreatest_iff hdual h (OrderDual.toDual m)

/-- What adds up over a stretch adds up over the stream. -/
theorem sum_eq {M : Type*} [AddMonoid M] {f : α → M} {g : β → M}
    (hsum : ∀ c b, Sums c b → g b = (c.map f).sum) (h : GroupedBy key label Sums ys bs) :
    (bs.map g).sum = (ys.map f).sum := by
  induction h with
  | nil => rfl
  | @cons c ys b bs _ _ _ hsums _ ih =>
      rw [List.map_cons, List.sum_cons, List.map_append, List.sum_append, ih, hsum c b hsums]

end GroupedBy

end RossBot.Lib
