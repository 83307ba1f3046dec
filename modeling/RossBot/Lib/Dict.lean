import Mathlib.Data.List.Basic
import Mathlib.Data.Finset.Dedup

/-!
# Insertion-ordered dictionaries

A dictionary in the sense of the source language: keys are distinct, iteration
goes in insertion order, and assigning to a key that is already there keeps its
place. `AList.insert` moves the key to the front, so it cannot stand in where a
loop walks `d.items()`; here a `Dict` is the list of its items together with the
proof that no key occurs twice.
-/

namespace RossBot.Lib

/-- A finite map that remembers the order in which its keys were first inserted. -/
structure Dict (κ α : Type) where
  /-- The bindings, oldest first. -/
  items : List (κ × α)
  /-- No key is bound twice. -/
  nodup : (items.map Prod.fst).Nodup

namespace Dict

variable {κ α β : Type}

/-- The empty dictionary. -/
def empty : Dict κ α := ⟨[], List.nodup_nil⟩

instance : EmptyCollection (Dict κ α) := ⟨empty⟩

@[simp] theorem items_empty : (∅ : Dict κ α).items = [] := rfl

/-- The keys, oldest first. -/
def keys (d : Dict κ α) : List κ := d.items.map Prod.fst

/-- Apply `f` to every value, keeping the keys and their order. -/
def mapValues (f : α → β) (d : Dict κ α) : Dict κ β where
  items := d.items.map fun b => (b.1, f b.2)
  nodup := by
    have h : (d.items.map fun b => (b.1, f b.2)).map Prod.fst = d.items.map Prod.fst := by
      simp [List.map_map, Function.comp_def]
    rw [h]; exact d.nodup

variable [DecidableEq κ]

/-- The value bound to `k`, if any. -/
def get? (d : Dict κ α) (k : κ) : Option α :=
  (d.items.find? fun b => b.1 = k).map Prod.snd

/-- Whether `k` is bound. -/
def contains (d : Dict κ α) (k : κ) : Bool := (d.get? k).isSome

/-- Remove `k`; nothing happens when it is not bound. -/
def erase (d : Dict κ α) (k : κ) : Dict κ α where
  items := d.items.filter fun b => b.1 ≠ k
  nodup := (List.filter_sublist.map Prod.fst).nodup d.nodup

/-- Replace the value in the binding of `k`. -/
private def replaceAt (k : κ) (v : α) (b : κ × α) : κ × α := if b.1 = k then (k, v) else b

private theorem replaceAt_fst (k : κ) (v : α) (b : κ × α) : (replaceAt k v b).1 = b.1 := by
  unfold replaceAt
  split
  · rename_i h; exact h.symm
  · rfl

/-- Bind `k` to `v`: in place when `k` is already bound, at the end otherwise. -/
def set (d : Dict κ α) (k : κ) (v : α) : Dict κ α :=
  if h : k ∈ d.items.map Prod.fst then
    { items := d.items.map (replaceAt k v)
      nodup := by
        have hk : (d.items.map (replaceAt k v)).map Prod.fst = d.items.map Prod.fst := by
          simp [List.map_map, Function.comp_def, replaceAt_fst]
        rw [hk]; exact d.nodup }
  else
    { items := d.items ++ [(k, v)]
      nodup := by
        rw [List.map_append, List.nodup_append]
        refine ⟨d.nodup, List.nodup_singleton k, ?_⟩
        intro a ha b hb hab
        rw [List.map_singleton, List.mem_singleton] at hb
        subst hab; subst hb
        exact h ha }

/-! ## Lookup -/

@[simp] theorem get?_empty (k : κ) : (∅ : Dict κ α).get? k = none := rfl

theorem find?_key {l : List (κ × α)} (hl : (l.map Prod.fst).Nodup) {k : κ} {v : α} :
    (l.find? fun b => b.1 = k) = some (k, v) ↔ (k, v) ∈ l := by
  induction l with
  | nil => simp
  | cons b l ih =>
      rw [List.map_cons, List.nodup_cons] at hl
      by_cases hb : b.1 = k
      · rw [List.find?_cons_of_pos (by simpa using hb)]
        constructor
        · intro h
          rw [Option.some.inj h]
          exact List.mem_cons_self
        · intro h
          rcases List.mem_cons.mp h with h | h
          · rw [h]
          · exact absurd (List.mem_map.mpr ⟨(k, v), h, rfl⟩) (hb ▸ hl.1)
      · rw [List.find?_cons_of_neg (by simpa using hb), ih hl.2, List.mem_cons]
        constructor
        · exact Or.inr
        · rintro (h | h)
          · exact absurd (congrArg Prod.fst h).symm hb
          · exact h

/-- Iteration and lookup see the same bindings. -/
theorem mem_items {d : Dict κ α} {k : κ} {v : α} : (k, v) ∈ d.items ↔ d.get? k = some v := by
  rw [← find?_key d.nodup, get?]
  constructor
  · intro h; rw [h]; rfl
  · intro h
    obtain ⟨b, hb, hv⟩ := Option.map_eq_some_iff.mp h
    have hk : b.1 = k := by simpa using List.find?_some hb
    rw [hb, ← hk, ← hv]

theorem mem_keys {d : Dict κ α} {k : κ} : k ∈ d.keys ↔ ∃ v, d.get? k = some v := by
  unfold keys
  constructor
  · intro h
    obtain ⟨⟨k', v⟩, hb, hk⟩ := List.mem_map.mp h
    simp only at hk
    subst hk
    exact ⟨v, mem_items.mp hb⟩
  · rintro ⟨v, hv⟩
    exact List.mem_map.mpr ⟨(k, v), mem_items.mpr hv, rfl⟩

theorem contains_iff {d : Dict κ α} {k : κ} : d.contains k = true ↔ ∃ v, d.get? k = some v :=
  Option.isSome_iff_exists

theorem contains_eq_false {d : Dict κ α} {k : κ} : d.contains k = false ↔ d.get? k = none := by
  unfold contains
  cases d.get? k <;> simp

theorem get?_eq_of_items {d : Dict κ α} {k : κ} {o : Option α}
    (h : ∀ v, (k, v) ∈ d.items ↔ o = some v) : d.get? k = o := by
  apply Option.ext
  intro v
  rw [← mem_items]
  exact h v

/-! ## Lookup after an update -/

theorem get?_erase (d : Dict κ α) (k k' : κ) :
    (d.erase k).get? k' = if k' = k then none else d.get? k' := by
  apply get?_eq_of_items
  intro v
  simp only [erase, List.mem_filter, decide_eq_true_eq, ne_eq]
  by_cases hk : k' = k
  · simp [hk]
  · simp [hk, mem_items]

/-- Erasing what is not bound changes nothing. -/
theorem erase_of_get?_none {d : Dict κ α} {k : κ} (h : d.get? k = none) : d.erase k = d := by
  have hall : ∀ b ∈ d.items, decide (b.1 ≠ k) = true := by
    rintro ⟨k', v⟩ hb
    refine decide_eq_true ?_
    rintro rfl
    exact absurd ((mem_items.mp hb).symm.trans h) (by simp)
  have hitems : (d.erase k).items = d.items := List.filter_eq_self.mpr hall
  cases d
  rw [erase, mk.injEq]
  exact hitems

@[simp] theorem get?_erase_self (d : Dict κ α) (k : κ) : (d.erase k).get? k = none := by
  rw [get?_erase, if_pos rfl]

theorem get?_erase_ne (d : Dict κ α) {k k' : κ} (h : k' ≠ k) :
    (d.erase k).get? k' = d.get? k' := by
  rw [get?_erase, if_neg h]

theorem get?_set (d : Dict κ α) (k : κ) (v : α) (k' : κ) :
    (d.set k v).get? k' = if k' = k then some v else d.get? k' := by
  apply get?_eq_of_items
  intro u
  unfold set
  by_cases h : k ∈ d.items.map Prod.fst
  · rw [dif_pos h]
    simp only [List.mem_map]
    by_cases hk : k' = k
    · subst hk
      rw [if_pos rfl]
      constructor
      · rintro ⟨b, _, hbu⟩
        unfold replaceAt at hbu
        split at hbu
        · exact congrArg some (Prod.mk.inj hbu).2
        · rename_i hne
          exact absurd (congrArg Prod.fst hbu) hne
      · intro hv
        obtain ⟨b, hb, hbk⟩ := List.mem_map.mp h
        refine ⟨b, hb, ?_⟩
        rw [replaceAt, if_pos hbk, Option.some.inj hv]
    · rw [if_neg hk, ← mem_items]
      constructor
      · rintro ⟨b, hb, hbu⟩
        unfold replaceAt at hbu
        split at hbu
        · exact absurd (congrArg Prod.fst hbu).symm hk
        · exact hbu ▸ hb
      · intro hb
        exact ⟨(k', u), hb, by rw [replaceAt, if_neg hk]⟩
  · rw [dif_neg h]
    simp only [List.mem_append, List.mem_singleton]
    by_cases hk : k' = k
    · subst hk
      rw [if_pos rfl]
      constructor
      · rintro (hb | hb)
        · exact absurd (List.mem_map.mpr ⟨(k', u), hb, rfl⟩) h
        · exact congrArg some (Prod.mk.inj hb).2.symm
      · intro hv; exact Or.inr (by rw [Option.some.inj hv])
    · rw [if_neg hk, ← mem_items]
      constructor
      · rintro (hb | hb)
        · exact hb
        · exact absurd (congrArg Prod.fst hb) hk
      · exact Or.inl

@[simp] theorem get?_set_self (d : Dict κ α) (k : κ) (v : α) : (d.set k v).get? k = some v := by
  rw [get?_set, if_pos rfl]

theorem get?_set_ne (d : Dict κ α) {k k' : κ} (v : α) (h : k' ≠ k) :
    (d.set k v).get? k' = d.get? k' := by
  rw [get?_set, if_neg h]

/-- `d.update(e)`. -/
def update (d e : Dict κ α) : Dict κ α := e.items.foldl (fun d b => d.set b.1 b.2) d

/-- What is updated is looked up in the update first. -/
theorem get?_update (d e : Dict κ α) (k : κ) :
    (d.update e).get? k = (e.get? k).or (d.get? k) := by
  have hfold : ∀ (l : List (κ × α)) (d : Dict κ α), (l.map Prod.fst).Nodup →
      (l.foldl (fun d b => d.set b.1 b.2) d).get? k
        = ((l.find? fun b => b.1 = k).map Prod.snd).or (d.get? k) := by
    intro l
    induction l with
    | nil => exact fun d _ => rfl
    | cons b l ih =>
        intro d hl
        obtain ⟨hb, hl⟩ := List.nodup_cons.mp hl
        rw [List.foldl_cons, ih _ hl, get?_set]
        by_cases hk : b.1 = k
        · -- no later binding of the key
          have hnone : (l.find? fun b => b.1 = k) = none := by
            rw [List.find?_eq_none]
            intro b' hb' hb'k
            exact hb (List.mem_map.mpr ⟨b', hb', (of_decide_eq_true hb'k).trans hk.symm⟩)
          rw [hnone, if_pos hk.symm, List.find?_cons_of_pos (by simpa using hk)]
          rfl
        · rw [if_neg fun h => hk h.symm, List.find?_cons_of_neg (by simpa using hk)]
  exact hfold e.items d e.nodup

theorem get?_mapValues (f : α → β) (d : Dict κ α) (k : κ) :
    (d.mapValues f).get? k = (d.get? k).map f := by
  apply get?_eq_of_items
  intro v
  simp only [mapValues, List.mem_map, Option.map_eq_some_iff]
  constructor
  · rintro ⟨b, hb, hbv⟩
    obtain ⟨hk, hv⟩ := Prod.mk.inj hbv
    subst hk
    exact ⟨b.2, mem_items.mp hb, hv⟩
  · rintro ⟨u, hu, huv⟩
    exact ⟨(k, u), mem_items.mpr hu, by rw [huv]⟩

/-- Of what each binding gives, labelled with its key, the part with the label `k` is of `k`. -/
theorem filter_filterMap {label : β → κ} {f : κ × α → Option β} {d : Dict κ α} {k : κ} {v : α}
    (hlabel : ∀ b ∈ d.items, ∀ x, f b = some x → label x = b.1) (h : d.get? k = some v) :
    (d.items.filterMap f).filter (label · = k) = (f (k, v)).toList := by
  have hnone : ∀ l : List (κ × α), (∀ b ∈ l, b ∈ d.items) → k ∉ l.map Prod.fst →
      (l.filterMap f).filter (label · = k) = [] := by
    intro l hl hk
    rw [List.filter_eq_nil_iff]
    intro x hx hxk
    obtain ⟨b, hb, hbx⟩ := List.mem_filterMap.mp hx
    have hkey : b.1 = k := (hlabel b (hl b hb) x hbx).symm.trans (of_decide_eq_true hxk)
    exact hk (hkey ▸ List.mem_map_of_mem hb)
  obtain ⟨before, after, hitems⟩ := List.append_of_mem (mem_items.mpr h)
  have hnodup := d.nodup
  rw [hitems, List.map_append, List.map_cons] at hnodup
  obtain ⟨-, hafter, hdisjoint⟩ := List.nodup_append.mp hnodup
  have hbefore : k ∉ before.map Prod.fst := fun hk => hdisjoint k hk k List.mem_cons_self rfl
  rw [hitems] at hnone ⊢
  rw [List.filterMap_append, List.filter_append, hnone before (by simp +contextual) hbefore,
    List.nil_append, ← List.singleton_append, List.filterMap_append, List.filter_append,
    hnone after (by simp +contextual) (List.nodup_cons.mp hafter).1, List.append_nil]
  cases hf : f (k, v) with
  | none => simp [hf]
  | some x =>
      have hx : label x = k := hlabel (k, v) (mem_items.mpr h) x hf
      simp [hf, hx]

/-! ## How many bindings there are -/

/-- An update adds at most one binding. -/
theorem length_set_le (d : Dict κ α) (k : κ) (v : α) :
    (d.set k v).items.length ≤ d.items.length + 1 := by
  unfold set
  split
  · rw [List.length_map]
    omega
  · rw [List.length_append, List.length_singleton]

theorem length_set_of_contains {d : Dict κ α} {k : κ} {u : α} (h : d.get? k = some u) (v : α) :
    (d.set k v).items.length = d.items.length := by
  have hk : k ∈ d.items.map Prod.fst := mem_keys.mpr ⟨u, h⟩
  rw [set, dif_pos hk, List.length_map]

/-- A binding that is there goes. -/
theorem length_erase_lt {d : Dict κ α} {k : κ} {v : α} (h : d.get? k = some v) :
    (d.erase k).items.length < d.items.length :=
  List.length_filter_lt_length_iff_exists.mpr ⟨(k, v), mem_items.mpr h, by simp⟩

/-- Fewer keys, fewer bindings. -/
theorem length_le_of_get? {d : Dict κ α} {d' : Dict κ β}
    (h : ∀ k v, d'.get? k = some v → ∃ u, d.get? k = some u) :
    d'.items.length ≤ d.items.length := by
  have hsub : d'.items.map Prod.fst ⊆ d.items.map Prod.fst := by
    intro k hk
    obtain ⟨v, hv⟩ := mem_keys.mp hk
    exact mem_keys.mpr (h k v hv)
  have hlen := (List.subperm_of_subset d'.nodup hsub).length_le
  rwa [List.length_map, List.length_map] at hlen

/-- The keys as a set. -/
def keySet (d : Dict κ α) : Finset κ := d.keys.toFinset

theorem mem_keySet {d : Dict κ α} {k : κ} : k ∈ d.keySet ↔ ∃ v, d.get? k = some v := by
  rw [keySet, List.mem_toFinset, mem_keys]

/-- Nothing is bound exactly when there are no items. -/
theorem items_eq_nil {d : Dict κ α} : d.items = [] ↔ ∀ k, d.get? k = none := by
  constructor
  · intro h k
    rw [get?, h]; rfl
  · intro h
    cases hi : d.items with
    | nil => rfl
    | cons b l =>
        exfalso
        have hb : (b.1, b.2) ∈ d.items := by rw [hi]; exact List.mem_cons_self
        rw [mem_items, h] at hb
        simp at hb

end Dict

end RossBot.Lib
