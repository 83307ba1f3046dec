import Mathlib.Data.List.DropRight
import RossBot.Lib.Groups
import RossBot.Lib.Runs

/-!
# Grouping a stream that is also cut from outside

A reader groups elements by a key that must not go back, and hands out the stretch
it is collecting when a later key comes or when it is told to (`none` in the feed).
The elements on time are always those of the stretches handed out and of the one
being collected (`flatten_after`). But a cut does not move the key on, so a key that
is collected on both sides of a cut is handed out twice: the keys handed out increase
as long as no stretch is closed while that is so (`increasing_iff`).
-/

namespace RossBot.Lib

universe u w

variable {α : Type u} {κ : Type w}

/-- The reader: the key it is at, the stretches handed out, the one being collected. -/
structure Cutter (α : Type u) (κ : Type w) where
  /-- The latest key. -/
  last : Option κ
  /-- What has been handed out, each stretch with its key. -/
  groups : List (κ × List α)
  /-- What is being collected. -/
  current : List α

namespace Cutter

/-- The stretches, the one being collected with them if there is anything in it. -/
def closed (s : Cutter α κ) : List (κ × List α) :=
  match s.last with
  | some k => if s.current.isEmpty then s.groups else s.groups ++ [(k, s.current)]
  | none => s.groups

variable {s : Cutter α κ} {k : κ}

theorem closed_of_nil (h : s.last = some k) (hcurrent : s.current = []) :
    s.closed = s.groups := by
  rw [closed, h, hcurrent]
  rfl

theorem closed_of_ne_nil (h : s.last = some k) (hcurrent : s.current ≠ []) :
    s.closed = s.groups ++ [(k, s.current)] := by
  rw [closed, h]
  exact if_neg (by simpa using hcurrent)

/-- Nothing is lost when a stretch is closed. -/
theorem flatten_closed (h : s.last = some k) :
    (s.closed.map Prod.snd).flatten = (s.groups.map Prod.snd).flatten ++ s.current := by
  by_cases hcurrent : s.current = []
  · rw [closed_of_nil h hcurrent, hcurrent, List.append_nil]
  · rw [closed_of_ne_nil h hcurrent, List.map_append, List.flatten_append]
    simp

/-- The keys then are those before, and the latest one if there was something to close. -/
theorem mem_labels_closed (h : s.last = some k) {j : κ} :
    j ∈ s.closed.map Prod.fst ↔ j ∈ s.groups.map Prod.fst ∨ s.current ≠ [] ∧ j = k := by
  by_cases hcurrent : s.current = []
  · rw [closed_of_nil h hcurrent]
    simp [hcurrent]
  · rw [closed_of_ne_nil h hcurrent, List.map_append, List.mem_append]
    simp [hcurrent]

variable [LinearOrder κ]

/-- One element, or a cut. -/
def step (key : α → κ) (s : Cutter α κ) : Option α → Cutter α κ
  | none => { s with groups := s.closed, current := [] }
  | some x =>
      match s.last with
      | none => { s with last := some (key x), current := [x] }
      | some k =>
          if k < key x then ⟨some (key x), s.closed, [x]⟩
          else if key x < k then s
          else { s with current := s.current ++ [x] }

/-- Before anything has come. -/
def start : Cutter α κ := ⟨none, [], []⟩

/-- After a feed of elements and cuts. -/
def after (key : α → κ) (feed : List (Option α)) : Cutter α κ := feed.foldl (step key) start

end Cutter

variable [LinearOrder κ]

/-- The elements of a feed. -/
def elements (feed : List (Option α)) : List α := feed.filterMap id

/-- Those before the last cut. -/
def beforeCut (feed : List (Option α)) : List α := elements (feed.rdropWhile Option.isSome)

/-- Those since. -/
def sinceCut (feed : List (Option α)) : List α := elements (feed.rtakeWhile Option.isSome)

/-- The greatest key has elements before the last cut and since. -/
def Straddles (key : α → κ) (feed : List (Option α)) : Prop :=
  ∃ x ∈ beforeCut feed, ∃ y ∈ sinceCut feed, key x = key y ∧ ∀ z ∈ elements feed, key z ≤ key y

/-- What comes next closes the stretch: it is a cut, or an element of a key later than all. -/
def Closes (key : α → κ) (feed : List (Option α)) (c : Option α) : Prop :=
  ∀ x, c = some x → ∀ z ∈ elements feed, key z < key x

instance (key : α → κ) (feed : List (Option α)) : Decidable (Straddles key feed) :=
  inferInstanceAs (Decidable (∃ x ∈ beforeCut feed, _))

instance (key : α → κ) (feed : List (Option α)) (c : Option α) : Decidable (Closes key feed c) :=
  inferInstanceAs (Decidable (∀ x ∈ c, ∀ z ∈ elements feed, key z < key x))

section Feeds

variable {key : α → κ} {feed : List (Option α)} {x : α}

theorem elements_some (feed : List (Option α)) (x : α) :
    elements (feed ++ [some x]) = elements feed ++ [x] := by
  rw [elements, List.filterMap_append, elements]
  rfl

theorem elements_none (feed : List (Option α)) : elements (feed ++ [none]) = elements feed := by
  rw [elements, List.filterMap_append, elements]
  exact List.append_nil _

theorem forall_elements_some {P : α → Prop} :
    (∀ z ∈ elements (feed ++ [some x]), P z) ↔ (∀ z ∈ elements feed, P z) ∧ P x := by
  rw [elements_some, List.forall_mem_append, List.forall_mem_singleton]

theorem beforeCut_some (feed : List (Option α)) (x : α) :
    beforeCut (feed ++ [some x]) = beforeCut feed := by
  rw [beforeCut, List.rdropWhile_concat_pos _ _ _ rfl, beforeCut]

theorem beforeCut_none (feed : List (Option α)) : beforeCut (feed ++ [none]) = elements feed := by
  rw [beforeCut, List.rdropWhile_concat_neg _ _ _ (by simp), elements_none]

theorem sinceCut_some (feed : List (Option α)) (x : α) :
    sinceCut (feed ++ [some x]) = sinceCut feed ++ [x] := by
  rw [sinceCut, List.rtakeWhile_concat_pos _ _ _ rfl, elements_some, sinceCut]

theorem sinceCut_none (feed : List (Option α)) : sinceCut (feed ++ [none]) = [] := by
  rw [sinceCut, List.rtakeWhile_concat_neg _ _ _ (by simp)]
  rfl

/-- Every element came before the last cut or since. -/
theorem beforeCut_append_sinceCut (feed : List (Option α)) :
    beforeCut feed ++ sinceCut feed = elements feed := by
  rw [beforeCut, sinceCut, elements, elements, ← List.filterMap_append,
    List.rdropWhile_append_rtakeWhile, elements]

/-! ## What the reader has -/

/-- The reader has read `feed` and is at the key `k`. -/
structure Cutter.At (s : Cutter α κ) (key : α → κ) (feed : List (Option α)) (k : κ) : Prop where
  last_eq : s.last = some k
  seen : ∃ z ∈ elements feed, key z = k
  greatest : ∀ z ∈ elements feed, key z ≤ k
  keys : ∀ g ∈ s.groups, g.2 ≠ [] ∧ (∀ x ∈ g.2, key x = g.1) ∧ g.1 ≤ k
  current_keys : ∀ x ∈ s.current, key x = k
  flatten : (s.groups.map Prod.snd).flatten ++ s.current = onTime key (elements feed)
  label_iff : k ∈ s.groups.map Prod.fst ↔ ∃ x ∈ beforeCut feed, key x = k
  current_iff : s.current ≠ [] ↔ ∃ y ∈ sinceCut feed, key y = k

namespace Cutter

variable {s : Cutter α κ} {k : κ}

theorem At.keys_closed (h : s.At key feed k) :
    ∀ g ∈ s.closed, g.2 ≠ [] ∧ (∀ x ∈ g.2, key x = g.1) ∧ g.1 ≤ k := by
  by_cases hcurrent : s.current = []
  · rw [closed_of_nil h.last_eq hcurrent]
    exact h.keys
  · rw [closed_of_ne_nil h.last_eq hcurrent]
    intro g hg
    rcases List.mem_append.mp hg with hg | hg
    · exact h.keys g hg
    · rw [List.mem_singleton.mp hg]
      exact ⟨hcurrent, h.current_keys, le_refl k⟩

/-- Closing keeps the keys increasing exactly when the latest one has not been handed out. -/
theorem At.increasing_closed (h : s.At key feed k) :
    (s.closed.map Prod.fst).Pairwise (· < ·) ↔
      (s.groups.map Prod.fst).Pairwise (· < ·) ∧
        ¬ (k ∈ s.groups.map Prod.fst ∧ s.current ≠ []) := by
  by_cases hcurrent : s.current = []
  · rw [closed_of_nil h.last_eq hcurrent]
    simp [hcurrent]
  · have hbelow : (∀ j ∈ s.groups.map Prod.fst, j < k) ↔ k ∉ s.groups.map Prod.fst := by
      constructor
      · intro hall hk
        exact lt_irrefl k (hall k hk)
      · intro hk j hj
        obtain ⟨g, hg, rfl⟩ := List.mem_map.mp hj
        exact lt_of_le_of_ne (h.keys g hg).2.2 fun he => hk (he ▸ hj)
    rw [closed_of_ne_nil h.last_eq hcurrent, List.map_append, List.pairwise_append]
    simp only [List.map_cons, List.map_nil, List.pairwise_singleton, true_and,
      List.mem_singleton, forall_eq, ne_eq, hcurrent, not_false_eq_true, and_true, hbelow]

/-! ## One step -/

theorem step_first (h : s.last = none) :
    s.step key (some x) = { s with last := some (key x), current := [x] } := by
  rw [step, h]

theorem step_later (h : s.last = some k) (hx : k < key x) :
    s.step key (some x) = ⟨some (key x), s.closed, [x]⟩ := by
  rw [step, h]
  exact if_pos hx

theorem step_same (h : s.last = some k) (hx : key x = k) :
    s.step key (some x) = { s with current := s.current ++ [x] } := by
  rw [step, h]
  simp [hx]

theorem step_late (h : s.last = some k) (hx : key x < k) : s.step key (some x) = s := by
  rw [step, h]
  simp [hx, hx.not_gt]

/-- A cut. -/
theorem At.cut (h : s.At key feed k) : (s.step key none).At key (feed ++ [none]) k := by
  have helements := elements_none feed
  refine ⟨h.last_eq, helements ▸ h.seen, helements ▸ h.greatest, h.keys_closed, by simp [step], ?_,
    ?_, ?_⟩
  · rw [helements, ← h.flatten, ← flatten_closed h.last_eq]
    exact List.append_nil _
  · rw [beforeCut_none, ← beforeCut_append_sinceCut]
    show k ∈ s.closed.map Prod.fst ↔ _
    rw [mem_labels_closed h.last_eq, h.label_iff, h.current_iff]
    simp only [List.mem_append, and_true, or_and_right, exists_or]
  · rw [sinceCut_none]
    simp [step]

/-- An element of a later key. -/
theorem At.take_later (h : s.At key feed k) (hx : k < key x) :
    (s.step key (some x)).At key (feed ++ [some x]) (key x) := by
  -- nothing came later than the new greatest key
  have hlater : ∀ z ∈ elements feed, key z < key x := fun z hz => (h.greatest z hz).trans_lt hx
  rw [step_later h.last_eq hx]
  refine ⟨rfl, ⟨x, by simp [elements_some], rfl⟩,
    forall_elements_some.mpr ⟨fun z hz => (hlater z hz).le, le_refl _⟩, ?_, by simp, ?_, ?_, ?_⟩
  · intro g hg
    obtain ⟨hne, hkeys, hle⟩ := h.keys_closed g hg
    exact ⟨hne, hkeys, hle.trans hx.le⟩
  · -- the stretches in one are still all that came in time
    rw [elements_some, onTime_snoc, if_pos fun z hz => (hlater z hz).le, ← h.flatten,
      -- a group of the new key would have been cut before it came
      ← flatten_closed h.last_eq]
  · rw [beforeCut_some]
    -- and it came just now
    constructor
    · intro hmem
      obtain ⟨g, hg, hkey⟩ := List.mem_map.mp hmem
      exact absurd (hkey ▸ (h.keys_closed g hg).2.2) (not_le.mpr hx)
    · rintro ⟨z, hz, hkey⟩
      have hmem : z ∈ elements feed := by
        rw [← beforeCut_append_sinceCut]
        exact List.mem_append_left _ hz
      exact absurd hkey (hlater z hmem).ne
  · rw [sinceCut_some]
    simp

/-- An element of the latest key. -/
theorem At.take_same (h : s.At key feed k) (hx : key x = k) :
    (s.step key (some x)).At key (feed ++ [some x]) k := by
  rw [step_same h.last_eq hx]
  refine ⟨h.last_eq, ⟨x, by simp [elements_some], hx⟩,
    forall_elements_some.mpr ⟨h.greatest, hx.le⟩, h.keys, ?_, ?_, ?_, ?_⟩
  · intro z hz
    rcases List.mem_append.mp hz with hz | hz
    · exact h.current_keys z hz
    · rw [List.mem_singleton.mp hz, hx]
  · rw [elements_some, onTime_snoc, if_pos fun z hz => hx ▸ h.greatest z hz, ← h.flatten,
      List.append_assoc]
  · rw [beforeCut_some]
    exact h.label_iff
  · rw [sinceCut_some]
    simp [hx]

/-- An element that comes too late. -/
theorem At.take_late (h : s.At key feed k) (hx : key x < k) :
    (s.step key (some x)).At key (feed ++ [some x]) k := by
  obtain ⟨z, hz, hkey⟩ := h.seen
  rw [step_late h.last_eq hx]
  refine ⟨h.last_eq, ⟨z, by simp [elements_some, hz], hkey⟩,
    forall_elements_some.mpr ⟨h.greatest, hx.le⟩, h.keys, h.current_keys, ?_, ?_, ?_⟩
  · have hlate : ¬ ∀ z ∈ elements feed, key z ≤ key x := fun hall =>
      absurd (hkey ▸ hall z hz) (not_le.mpr hx)
    rw [elements_some, onTime_snoc, if_neg hlate, List.append_nil]
    exact h.flatten
  · rw [beforeCut_some]
    exact h.label_iff
  · rw [sinceCut_some, h.current_iff]
    simp [hx.ne]

/-- The first element. -/
theorem at_first (h : elements feed = []) :
    (start.step key (some x)).At key (feed ++ [some x]) (key x) := by
  have helements : elements (feed ++ [some x]) = [x] := by
    rw [elements_some, h, List.nil_append]
  -- before the first element nothing was cut
  have hbefore : beforeCut feed = [] := by
    rw [← beforeCut_append_sinceCut] at h
    exact (List.append_eq_nil_iff.mp h).1
  refine ⟨rfl, ⟨x, by simp [helements], rfl⟩, ?_, by simp [step, start], by simp [step, start], ?_,
    ?_, ?_⟩
  · intro z hz
    rw [helements, List.mem_singleton] at hz
    rw [hz]
  · rw [helements, onTime_eq_self (List.pairwise_singleton _ _)]
    rfl
  · rw [beforeCut_some, hbefore]
    simp [step, start]
  · rw [sinceCut_some]
    simp [step, start]

theorem after_snoc (feed : List (Option α)) (c : Option α) :
    after key (feed ++ [c]) = (after key feed).step key c := by
  rw [after, List.foldl_append, List.foldl_cons, List.foldl_nil, after]

/-- Either nothing has come yet, or the reader is at some key. -/
theorem after_cases (key : α → κ) (feed : List (Option α)) :
    (elements feed = [] ∧ after key feed = start) ∨ ∃ k, (after key feed).At key feed k := by
  induction feed using List.reverseRecOn with
  | nil => exact Or.inl ⟨rfl, rfl⟩
  | append_singleton feed c ih =>
      rw [after_snoc]
      rcases ih with ⟨hnone, hstart⟩ | ⟨k, hk⟩
      · -- a cut of nothing, or the first element
        cases c with
        | none =>
            exact Or.inl ⟨(elements_none feed).trans hnone, by rw [hstart]; rfl⟩
        | some x =>
            rw [hstart]
            exact Or.inr ⟨key x, at_first hnone⟩
      · right
        cases c with
        | none => exact ⟨k, hk.cut⟩
        | some x =>
            -- late, of the same key, or later
            rcases lt_trichotomy (key x) k with hlate | hsame | hlater
            · exact ⟨k, hk.take_late hlate⟩
            · exact ⟨k, hk.take_same hsame⟩
            · exact ⟨key x, hk.take_later hlater⟩

/-- A stretch handed out is one of elements of its key. -/
theorem keys_after (key : α → κ) (feed : List (Option α)) :
    ∀ g ∈ (after key feed).groups, g.2 ≠ [] ∧ ∀ x ∈ g.2, key x = g.1 := by
  rcases after_cases key feed with ⟨-, hstart⟩ | ⟨k, hk⟩
  · rw [hstart]
    simp [start]
  · intro g hg
    obtain ⟨hne, hkeys, -⟩ := hk.keys g hg
    exact ⟨hne, hkeys⟩

/-- What was on time is in a stretch handed out or in the one being collected. -/
theorem flatten_after (key : α → κ) (feed : List (Option α)) :
    ((after key feed).groups.map Prod.snd).flatten ++ (after key feed).current =
      onTime key (elements feed) := by
  rcases after_cases key feed with ⟨hnone, hstart⟩ | ⟨k, hk⟩
  · rw [hstart, hnone]
    rfl
  · exact hk.flatten

/-! ## When the keys increase -/

theorem At.straddles_iff (h : s.At key feed k) :
    Straddles key feed ↔ k ∈ s.groups.map Prod.fst ∧ s.current ≠ [] := by
  rw [h.label_iff, h.current_iff]
  have hmem : ∀ z, z ∈ beforeCut feed ∨ z ∈ sinceCut feed → z ∈ elements feed := by
    intro z hz
    rw [← beforeCut_append_sinceCut]
    exact List.mem_append.mpr hz
  constructor
  · rintro ⟨x, hx, y, hy, hxy, hgreatest⟩
    -- the greatest key is the one the reader is at
    obtain ⟨z, hz, hkey⟩ := h.seen
    have hyk : key y = k := le_antisymm (h.greatest y (hmem y (Or.inr hy))) (hkey ▸ hgreatest z hz)
    exact ⟨⟨x, hx, hxy.trans hyk⟩, ⟨y, hy, hyk⟩⟩
  · rintro ⟨⟨x, hx, hxk⟩, ⟨y, hy, hyk⟩⟩
    exact ⟨x, hx, y, hy, hxk.trans hyk.symm, fun z hz => hyk ▸ h.greatest z hz⟩

theorem At.closes_iff (h : s.At key feed k) : Closes key feed (some x) ↔ k < key x := by
  constructor
  · intro hcloses
    obtain ⟨z, hz, hkey⟩ := h.seen
    exact hkey ▸ hcloses x rfl z hz
  · rintro hlater y hy z hz
    obtain rfl : x = y := Option.some.inj hy
    exact (h.greatest z hz).trans_lt hlater

theorem closes_none : Closes key feed none := fun _ hx => absurd hx (by simp)

/-- One step keeps the keys increasing unless it closes a stretch that was cut before. -/
theorem At.increasing_step (h : s.At key feed k) (c : Option α) :
    ((s.step key c).groups.map Prod.fst).Pairwise (· < ·) ↔
      (s.groups.map Prod.fst).Pairwise (· < ·) ∧ (Closes key feed c → ¬ Straddles key feed) := by
  rw [h.straddles_iff]
  cases c with
  | none =>
      simp only [closes_none, forall_const]
      exact h.increasing_closed
  | some x =>
      rw [h.closes_iff, step, h.last_eq]
      by_cases hlater : k < key x
      · simp only [hlater, forall_const]
        exact h.increasing_closed
      · -- nothing is closed
        simp only [hlater, if_false, false_imp_iff, and_true]
        by_cases hlate : key x < k <;> simp only [hlate, if_true, if_false]

/--
**The keys handed out increase exactly when no stretch is closed that was cut before.**
-/
theorem increasing_iff (feed : List (Option α)) :
    ((after key feed).groups.map Prod.fst).Pairwise (· < ·) ↔
      EachAt (fun before c => Closes key before c → ¬ Straddles key before) feed := by
  induction feed using List.reverseRecOn with
  | nil => simp [after, start]
  | append_singleton feed c ih =>
      rw [after_snoc, eachAt_snoc, ← ih]
      rcases after_cases key feed with ⟨hnone, hstart⟩ | ⟨k, hk⟩
      · have hstraddles : ¬ Straddles key feed := by
          rintro ⟨x, hx, -⟩
          rw [← beforeCut_append_sinceCut] at hnone
          rw [(List.append_eq_nil_iff.mp hnone).1] at hx
          exact absurd hx List.not_mem_nil
        rw [hstart]
        cases c <;> simp [step, start, closed, hstraddles]
      · exact hk.increasing_step c

end Cutter

end Feeds

end RossBot.Lib
