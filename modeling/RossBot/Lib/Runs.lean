import Mathlib.Algebra.Ring.Nat
import Mathlib.Data.List.Induction

/-!
# Runs of a labelled transition system

A system is a partial step function: in state `s`, label `l` either cannot
happen (`none`) or leads to one state. Everything nondeterministic (which task
moves, what the outside answers, when) is in the label, so a run is the list of
its moves, and "for every interleaving" is "for every run".

Two shapes of statement need two rules. A *state* property that every step
preserves holds in every state of a run (`Reachable.invariant`), also when the step
is only known to preserve it under a side condition that all moves of the run
meet (`Run.invariant_of`). A property of a *history* is checked at each event
against what came before it (`EachAt`), and such a property grows with the
history one event at a time (`eachAt_snoc`).
-/

namespace RossBot.Lib

universe u v

/-- One transition: the state before, the label, the state after. -/
structure Move (σ : Type u) (ℓ : Type v) where
  /-- The state the label was taken in. -/
  pre : σ
  /-- What happened. -/
  label : ℓ
  /-- The state it led to. -/
  post : σ

variable {σ : Type u} {ℓ : Type v} {step : σ → ℓ → Option σ} {s₀ : σ}

/-- `Run step s₀ ms s`: the moves `ms`, in order, lead from `s₀` to `s`. -/
inductive Run (step : σ → ℓ → Option σ) (s₀ : σ) : List (Move σ ℓ) → σ → Prop where
  | start : Run step s₀ [] s₀
  | move {ms : List (Move σ ℓ)} {s s' : σ} {l : ℓ} :
      Run step s₀ ms s → step s l = some s' → Run step s₀ (ms ++ [⟨s, l, s'⟩]) s'

/-- Every move of a run is a step of the system. -/
theorem Run.step_of_mem {ms : List (Move σ ℓ)} {s : σ} (h : Run step s₀ ms s) :
    ∀ m ∈ ms, step m.pre m.label = some m.post := by
  induction h with
  | start => intro m hm; simp at hm
  | move _ hs ih =>
      intro m hm
      rcases List.mem_append.mp hm with hm | hm
      · exact ih m hm
      · rw [List.mem_singleton.mp hm]; exact hs

/-- A run can be cut before any of its moves. -/
theorem Run.before {ms : List (Move σ ℓ)} {s : σ} (h : Run step s₀ ms s) :
    ∀ m ∈ ms, ∃ ms', (∀ m' ∈ ms', m' ∈ ms) ∧ Run step s₀ ms' m.pre := by
  induction h with
  | start => intro m hm; simp at hm
  | @move ms s s' l hr _ ih =>
      intro m hm
      rcases List.mem_append.mp hm with hm | hm
      · obtain ⟨ms', hsub, hr'⟩ := ih m hm
        exact ⟨ms', fun m' hm' => List.mem_append_left _ (hsub m' hm'), hr'⟩
      · rw [List.mem_singleton.mp hm]
        exact ⟨ms, fun m' hm' => List.mem_append_left _ hm', hr⟩

/-- A run can be cut between any two of its moves. -/
theorem Run.split {ms ns : List (Move σ ℓ)} {s : σ} (h : Run step s₀ (ms ++ ns) s) :
    ∃ t, Run step s₀ ms t ∧ Run step t ns s := by
  induction ns using List.reverseRecOn generalizing s with
  | nil => exact ⟨s, by simpa using h, .start⟩
  | append_singleton ns m ih =>
      rw [← List.append_assoc] at h
      generalize hk : ms ++ ns ++ [m] = ks at h
      cases h with
      | start => exact absurd hk (by simp)
      | @move ks s' s l hr hs =>
          obtain ⟨rfl, hm⟩ := List.append_inj' hk rfl
          obtain ⟨t, h1, h2⟩ := ih hr
          rw [List.singleton_inj.mp hm]
          exact ⟨t, h1, .move h2 hs⟩

/-- A run of no moves stays where it is. -/
theorem Run.eq_of_nil {ms : List (Move σ ℓ)} {s : σ} (h : Run step s₀ ms s) (hms : ms = []) :
    s = s₀ := by
  cases h with
  | start => rfl
  | move => exact absurd hms (by simp)

/-- A run ends where its last move does. -/
theorem Run.post_last {m : Move σ ℓ} {ms : List (Move σ ℓ)} {s : σ}
    (h : Run step s₀ (ms ++ [m]) s) : m.post = s := by
  generalize hk : ms ++ [m] = ks at h
  cases h with
  | start => exact absurd hk (by simp)
  | move => rw [List.singleton_inj.mp (List.append_inj_right' hk rfl)]

/-- The moves of a run say where it ends. -/
theorem Run.final_unique {ms : List (Move σ ℓ)} {s t : σ} (h : Run step s₀ ms s)
    (h' : Run step s₀ ms t) : s = t := by
  induction h' with
  | start => exact h.eq_of_nil rfl
  | move => exact h.post_last.symm

/-- The first move of a run starts where the run does. -/
theorem Run.pre_head {m : Move σ ℓ} {ms : List (Move σ ℓ)} {s : σ}
    (h : Run step s₀ (m :: ms) s) : m.pre = s₀ := by
  obtain ⟨t, h1, -⟩ := Run.split (show Run step s₀ ([m] ++ ms) s from h)
  generalize hk : [m] = ks at h1
  cases h1 with
  | start => exact absurd hk (by simp)
  | @move ks s' t l hr hs =>
      obtain ⟨hnil, hm⟩ := List.append_inj' (show [] ++ [m] = ks ++ [⟨s', l, t⟩] from hk) rfl
      rw [List.singleton_inj.mp hm]
      exact hr.eq_of_nil hnil.symm

/-- From one move of a run to a later one. -/
theorem Run.between {before during after : List (Move σ ℓ)} {first last : Move σ ℓ} {s : σ}
    (h : Run step s₀ (before ++ first :: (during ++ last :: after)) s) :
    Run step first.pre (first :: during) last.pre := by
  obtain ⟨t, -, h1⟩ := h.split
  obtain ⟨u, h2, h3⟩ :=
    Run.split (show Run step t ((first :: during) ++ last :: after) s from h1)
  rw [h1.pre_head, h3.pre_head]
  exact h2

/-! ## Reachable states -/

/-- Some run ends in `s`. -/
def Reachable (step : σ → ℓ → Option σ) (s₀ s : σ) : Prop := ∃ ms, Run step s₀ ms s

/-- What a step leads to is reachable. -/
theorem Reachable.next {s s' : σ} {l : ℓ} (h : Reachable step s₀ s) (hs : step s l = some s') :
    Reachable step s₀ s' := by
  obtain ⟨ms, hr⟩ := h
  exact ⟨_, .move hr hs⟩

/-- **The invariant rule.** What the start satisfies and every step from a reachable state
preserves holds in every reachable state. -/
theorem Reachable.invariant {I : σ → Prop} (h₀ : I s₀)
    (hstep : ∀ s l s', Reachable step s₀ s → I s → step s l = some s' → I s')
    {s : σ} (h : Reachable step s₀ s) : I s := by
  obtain ⟨ms, hr⟩ := h
  induction hr with
  | start => exact h₀
  | move hr hs ih => exact hstep _ _ _ ⟨_, hr⟩ ih hs

/-- **The conditional invariant rule.** What the start satisfies, and every move
meeting `C` preserves, holds at the end of every run whose moves all meet `C`. -/
theorem Run.invariant_of {C : Move σ ℓ → Prop} {I : σ → Prop} (h₀ : I s₀)
    (hstep : ∀ s l s', Reachable step s₀ s → I s → step s l = some s' → C ⟨s, l, s'⟩ → I s')
    {ms : List (Move σ ℓ)} {s : σ} (h : Run step s₀ ms s) (hC : ∀ m ∈ ms, C m) : I s := by
  induction h with
  | start => exact h₀
  | @move ms s s' l hr hs ih =>
      have hpre : I s := ih fun m hm => hC m (List.mem_append_left _ hm)
      exact hstep s l s' ⟨ms, hr⟩ hpre hs
        (hC ⟨s, l, s'⟩ (List.mem_append_right _ (List.mem_singleton.mpr rfl)))

/-- The exact-condition rule for runs: if the invariant `I` is kept by every step that meets `C`,
and only a step that meets `C` can lead from `I` to `P`, then a run along which `P` holds is a
run of such steps, and ends in `I`. Both may look at the moves so far. -/
theorem Run.exact_of {P I : List (Move σ ℓ) → σ → Prop} {C : Move σ ℓ → Prop} (h₀ : I [] s₀)
    (hkeep : ∀ ms s l s', I ms s → step s l = some s' → C ⟨s, l, s'⟩ → I (ms ++ [⟨s, l, s'⟩]) s')
    (hneed : ∀ ms s l s', I ms s → step s l = some s' → P (ms ++ [⟨s, l, s'⟩]) s' → C ⟨s, l, s'⟩)
    {ms : List (Move σ ℓ)} {s : σ} (h : Run step s₀ ms s)
    (hP : ∀ ms' s', ms' <+: ms → Run step s₀ ms' s' → P ms' s') :
    (∀ m ∈ ms, C m) ∧ I ms s := by
  induction h with
  | start => exact ⟨by simp, h₀⟩
  | @move ms s s' l hr hs ih =>
      obtain ⟨hC, hI⟩ := ih fun ms' t hp ht => hP ms' t (hp.trans (List.prefix_append ..)) ht
      have hlast : C ⟨s, l, s'⟩ := hneed ms s l s' hI hs
        (hP _ s' (List.prefix_refl _) (.move hr hs))
      refine ⟨?_, hkeep ms s l s' hI hs hlast⟩
      intro m hm
      rcases List.mem_append.mp hm with hm | hm
      · exact hC m hm
      · rw [List.mem_singleton.mp hm]; exact hlast

/-- The invariant rule for what looks at the moves so far. -/
theorem Run.history_of {I : List (Move σ ℓ) → σ → Prop} {C : Move σ ℓ → Prop} (h₀ : I [] s₀)
    (hkeep : ∀ ms s l s', I ms s → step s l = some s' → C ⟨s, l, s'⟩ → I (ms ++ [⟨s, l, s'⟩]) s')
    {ms : List (Move σ ℓ)} {s : σ} (h : Run step s₀ ms s) (hC : ∀ m ∈ ms, C m) : I ms s := by
  induction h with
  | start => exact h₀
  | @move ms s s' l hr hs ih =>
      exact hkeep ms s l s' (ih fun m hm => hC m (List.mem_append_left _ hm)) hs
        (hC ⟨s, l, s'⟩ (List.mem_append_right _ (List.mem_singleton.mpr rfl)))

/-- What every step relates, a run relates: each state on the way to the last one. -/
theorem Run.rel {R : σ → σ → Prop} (hrefl : ∀ s, R s s)
    (htrans : ∀ {a b c}, R a b → R b c → R a c)
    (hstep : ∀ s l s', Reachable step s₀ s → step s l = some s' → R s s')
    {ms : List (Move σ ℓ)} {s : σ} (h : Run step s₀ ms s) : R s₀ s ∧ ∀ m ∈ ms, R m.post s := by
  induction h with
  | start => exact ⟨hrefl s₀, by simp⟩
  | @move ms s s' l hr hs ih =>
      have hlast : R s s' := hstep s l s' ⟨ms, hr⟩ hs
      refine ⟨htrans ih.1 hlast, ?_⟩
      intro m hm
      rcases List.mem_append.mp hm with hm | hm
      · exact htrans (ih.2 m hm) hlast
      · rw [List.mem_singleton.mp hm]; exact hrefl s'

/-- **A budget.** When every step pays for what it does out of what is left, a run does no more
than is left where it starts. -/
theorem Run.paid {I : σ → Prop} (cost : Move σ ℓ → ℕ) (left : σ → ℕ) (h₀ : I s₀)
    (hstep : ∀ s l s', I s → step s l = some s' → I s' ∧ cost ⟨s, l, s'⟩ + left s' ≤ left s)
    {ms : List (Move σ ℓ)} {s : σ} (h : Run step s₀ ms s) :
    I s ∧ (ms.map cost).sum + left s ≤ left s₀ := by
  induction h with
  | start => exact ⟨h₀, by simp⟩
  | @move ms s s' l _ hs ih =>
      obtain ⟨hI, hpaid⟩ := hstep s l s' ih.1 hs
      refine ⟨hI, ?_⟩
      rw [List.map_append, List.sum_append, List.map_singleton, List.sum_singleton]
      have := ih.2
      omega

/-! ## Runs as values -/

/-- A run together with its moves and its last state. -/
structure Execution (step : σ → ℓ → Option σ) (s₀ : σ) where
  /-- The moves, first to last. -/
  moves : List (Move σ ℓ)
  /-- The state reached. -/
  final : σ
  /-- The moves lead there. -/
  run : Run step s₀ moves final

namespace Execution

/-- The run of no moves. -/
def start (step : σ → ℓ → Option σ) (s₀ : σ) : Execution step s₀ := ⟨[], s₀, .start⟩

/-- One more label, if it can happen. -/
def extend (x : Execution step s₀) (l : ℓ) : Option (Execution step s₀) :=
  match h : step x.final l with
  | none => none
  | some s' => some ⟨x.moves ++ [⟨x.final, l, s'⟩], s', .move x.run h⟩

/-- Take a list of labels, passing over those that cannot happen. -/
def play (x : Execution step s₀) : List ℓ → Execution step s₀
  | [] => x
  | l :: ls =>
      match x.extend l with
      | none => x.play ls
      | some x' => x'.play ls

/-- Playing on keeps the moves made. -/
theorem prefix_play (x : Execution step s₀) (ls : List ℓ) : x.moves <+: (x.play ls).moves := by
  induction ls generalizing x with
  | nil => exact List.prefix_refl _
  | cons l ls ih =>
      unfold play
      cases hx : x.extend l with
      | none => exact ih x
      | some x' =>
          have hone : x.moves <+: x'.moves := by
            unfold extend at hx
            split at hx
            · exact absurd hx (by simp)
            · rw [← Option.some.inj hx]
              exact List.prefix_append ..
          exact hone.trans (ih x')

/-- The states a run passes through: its start and the state after each move. -/
def Visits (x : Execution step s₀) (s : σ) : Prop := s = s₀ ∨ ∃ m ∈ x.moves, s = m.post

/-- The last state is visited. -/
theorem visits_final (x : Execution step s₀) : x.Visits x.final := by
  obtain ⟨ms, s, h⟩ := x
  cases h with
  | start => exact Or.inl rfl
  | @move ms s s' l hr hs =>
      exact Or.inr ⟨_, List.mem_append_right _ (List.mem_singleton.mpr rfl), rfl⟩

/-- The state before a move is visited. -/
theorem visits_pre (x : Execution step s₀) {m : Move σ ℓ} (hm : m ∈ x.moves) :
    x.Visits m.pre := by
  obtain ⟨ms', hsub, hr⟩ := x.run.before m hm
  rcases visits_final ⟨ms', m.pre, hr⟩ with h | ⟨m', hm', h⟩
  · exact Or.inl h
  · exact Or.inr ⟨m', hsub m' hm', h⟩

/-- A visited state is the end of a run made of the same moves. -/
theorem run_of_visits (x : Execution step s₀) {s : σ} (h : x.Visits s) :
    ∃ ms, (∀ m ∈ ms, m ∈ x.moves) ∧ Run step s₀ ms s := by
  rcases h with h | ⟨m, hm, h⟩
  · subst h
    exact ⟨[], by simp, .start⟩
  · subst h
    obtain ⟨ms', hsub, hr⟩ := x.run.before m hm
    refine ⟨ms' ++ [⟨m.pre, m.label, m.post⟩], ?_, .move hr (x.run.step_of_mem m hm)⟩
    intro m' hm'
    rcases List.mem_append.mp hm' with hm' | hm'
    · exact hsub m' hm'
    · rw [List.mem_singleton.mp hm']; exact hm

/-- A visited state is reachable. -/
theorem reachable (x : Execution step s₀) {s : σ} (h : x.Visits s) : Reachable step s₀ s := by
  obtain ⟨ms, _, hr⟩ := x.run_of_visits h
  exact ⟨ms, hr⟩

/-- The state before a move is reachable. -/
theorem reachable_pre (x : Execution step s₀) {m : Move σ ℓ} (hm : m ∈ x.moves) :
    Reachable step s₀ m.pre := x.reachable (x.visits_pre hm)

/-- Every move of a run is a step of the system. -/
theorem step_of_mem (x : Execution step s₀) {m : Move σ ℓ} (hm : m ∈ x.moves) :
    step m.pre m.label = some m.post := x.run.step_of_mem m hm

/-- What every step relates, a run relates: each visited state to the last one. -/
theorem rel {R : σ → σ → Prop} (hrefl : ∀ s, R s s) (htrans : ∀ {a b c}, R a b → R b c → R a c)
    (hstep : ∀ s l s', Reachable step s₀ s → step s l = some s' → R s s')
    (x : Execution step s₀) {s : σ} (h : x.Visits s) : R s x.final := by
  have hrun := x.run.rel hrefl htrans hstep
  rcases h with h | ⟨m, hm, h⟩
  · rw [h]; exact hrun.1
  · rw [h]; exact hrun.2 m hm

/-- The conditional invariant rule, for every state on the way. -/
theorem invariant_of {C : Move σ ℓ → Prop} {I : σ → Prop} (h₀ : I s₀)
    (hstep : ∀ s l s', Reachable step s₀ s → I s → step s l = some s' → C ⟨s, l, s'⟩ → I s')
    (x : Execution step s₀) (hC : ∀ m ∈ x.moves, C m) {s : σ} (h : x.Visits s) : I s := by
  obtain ⟨ms, hsub, hr⟩ := x.run_of_visits h
  exact hr.invariant_of h₀ hstep fun m hm => hC m (hsub m hm)

/-- The run is in state `s` after its first moves `ms`. -/
def Passes (x : Execution step s₀) (ms : List (Move σ ℓ)) (s : σ) : Prop :=
  ms <+: x.moves ∧ Run step s₀ ms s

theorem passes_final (x : Execution step s₀) : x.Passes x.moves x.final :=
  ⟨List.prefix_refl _, x.run⟩

theorem passes_play (x : Execution step s₀) (ls : List ℓ) :
    (x.play ls).Passes x.moves x.final := ⟨x.prefix_play ls, x.run⟩

/-- From one moment of a run to a later one. -/
theorem Passes.run {x : Execution step s₀} {ms ms' : List (Move σ ℓ)} {s s' : σ}
    (h : x.Passes ms s) (h' : x.Passes (ms ++ ms') s') : Run step s ms' s' := by
  obtain ⟨t, ht, hr⟩ := h'.2.split
  rwa [h.2.final_unique ht]

/-- What a run is in after its first moves, it visits. -/
theorem Passes.visits {x : Execution step s₀} {ms : List (Move σ ℓ)} {s : σ}
    (h : x.Passes ms s) : x.Visits s := by
  obtain ⟨hp, hr⟩ := h
  rcases visits_final ⟨ms, s, hr⟩ with hs | ⟨m, hm, hs⟩
  · exact Or.inl hs
  · exact Or.inr ⟨m, hp.subset hm, hs⟩

/-- **The exact-condition rule, for what looks at the moves so far.** If the invariant `I` implies
`P` and is kept by every step that meets `C`, and only a step that meets `C` can lead from `I` to
`P`, then `P` holds all along exactly when every step meets `C`. -/
theorem passes_iff {P I : List (Move σ ℓ) → σ → Prop} {C : Move σ ℓ → Prop} (h₀ : I [] s₀)
    (hP : ∀ ms s, I ms s → P ms s)
    (hkeep : ∀ ms s l s', I ms s → step s l = some s' → C ⟨s, l, s'⟩ → I (ms ++ [⟨s, l, s'⟩]) s')
    (hneed : ∀ ms s l s', I ms s → step s l = some s' → P (ms ++ [⟨s, l, s'⟩]) s' → C ⟨s, l, s'⟩)
    (x : Execution step s₀) : (∀ ms s, x.Passes ms s → P ms s) ↔ ∀ m ∈ x.moves, C m := by
  constructor
  · intro h
    exact (x.run.exact_of h₀ hkeep hneed fun ms s hp hr => h ms s ⟨hp, hr⟩).1
  · intro hC ms s hs
    exact hP ms s (hs.2.history_of h₀ hkeep fun m hm => hC m (hs.1.subset hm))

/-- **The exact-condition rule.** If the invariant `I` implies `P` and is kept by every step that
meets `C`, and only a step that meets `C` can lead from `I` to `P`, then `P` holds all along
exactly when every step meets `C`. -/
theorem visits_iff {P : σ → Prop} {C : Move σ ℓ → Prop} {I : σ → Prop} (h₀ : I s₀)
    (hP : ∀ s, I s → P s) (hkeep : ∀ s l s', I s → step s l = some s' → C ⟨s, l, s'⟩ → I s')
    (hneed : ∀ s l s', I s → step s l = some s' → P s' → C ⟨s, l, s'⟩)
    (x : Execution step s₀) : (∀ s, x.Visits s → P s) ↔ ∀ m ∈ x.moves, C m := by
  rw [← x.passes_iff (P := fun _ => P) (I := fun _ => I) h₀ (fun _ => hP) (fun _ => hkeep)
    fun _ => hneed]
  constructor
  · intro h ms s hs
    exact h s hs.visits
  · intro h s hs
    -- cut the run at the move that leads to the state
    rcases hs with rfl | ⟨m, hm, rfl⟩
    · exact h [] _ ⟨List.nil_prefix, .start⟩
    · obtain ⟨before, after, hms⟩ := List.append_of_mem hm
      have hrun : Run step s₀ ((before ++ [m]) ++ after) x.final := by
        rw [List.append_assoc, List.singleton_append, ← hms]
        exact x.run
      obtain ⟨t, ht, -⟩ := hrun.split
      have hend : m.post = t := ht.post_last
      rw [hend]
      exact h _ t ⟨⟨after, by rw [hms]; simp⟩, ht⟩

end Execution

/-! ## Histories -/

/-- Every event of a history meets `P` against the events before it. -/
def EachAt {α : Type u} (P : List α → α → Prop) (es : List α) : Prop :=
  ∀ before e after, es = before ++ e :: after → P before e

variable {α : Type u} {P : List α → α → Prop}

@[simp] theorem eachAt_nil : EachAt P [] := by
  intro before e after h
  exact absurd h (by simp)

/-- At every index, against what comes before it. -/
theorem eachAt_iff_forall_fin {es : List α} :
    EachAt P es ↔ ∀ i : Fin es.length, P (es.take i) (es.get i) := by
  constructor
  · intro h i
    refine h (es.take i) (es.get i) (es.drop (i + 1)) ?_
    rw [List.get_eq_getElem, ← List.drop_eq_getElem_cons i.isLt, List.take_append_drop]
  · rintro h before e after rfl
    simpa using h ⟨before.length, by simp⟩

instance [∀ before e, Decidable (P before e)] (es : List α) : Decidable (EachAt P es) :=
  decidable_of_iff _ eachAt_iff_forall_fin.symm

/-- **A history grows one event at a time.** -/
theorem eachAt_snoc {es : List α} {e : α} : EachAt P (es ++ [e]) ↔ EachAt P es ∧ P es e := by
  constructor
  · intro h
    refine ⟨?_, h es e [] rfl⟩
    intro before e' after he
    exact h before e' (after ++ [e]) (by rw [he]; simp)
  · rintro ⟨h, he⟩ before e' after hsplit
    rcases List.eq_nil_or_concat after with ha | ⟨after', b, ha⟩
    · subst ha
      have hb : es = before := List.append_inj_left' hsplit rfl
      have hee : e = e' := List.singleton_inj.mp (List.append_inj_right' hsplit rfl)
      subst hb; subst hee
      exact he
    · subst ha
      have hs : es ++ [e] = (before ++ e' :: after') ++ [b] := by
        rw [hsplit]; simp
      exact h before e' after' (List.append_inj_left' hs rfl)

/-- Extending a history checks exactly the new events. -/
theorem eachAt_append {es fs : List α} :
    EachAt P (es ++ fs) ↔ EachAt P es ∧ EachAt (fun before e => P (es ++ before) e) fs := by
  constructor
  · intro h
    refine ⟨?_, ?_⟩
    · intro before e after he
      exact h before e (after ++ fs) (by rw [he]; simp)
    · intro before e after he
      exact h (es ++ before) e after (by rw [he]; simp)
  · rintro ⟨h1, h2⟩
    induction fs using List.reverseRecOn with
    | nil => simpa using h1
    | append_singleton fs e ih =>
        rw [eachAt_snoc] at h2
        rw [← List.append_assoc, eachAt_snoc]
        exact ⟨ih h2.1, h2.2⟩

/-- What came first in a history is checked first. -/
theorem EachAt.of_prefix {es fs : List α} (h : EachAt P fs) (hp : es <+: fs) : EachAt P es := by
  obtain ⟨gs, rfl⟩ := hp
  exact (eachAt_append.mp h).1

/-- Events that pass whatever came before can be added at will. -/
theorem EachAt.extend {es fs : List α} (h : EachAt P es) (hf : ∀ e ∈ fs, ∀ b, P b e) :
    EachAt P (es ++ fs) := by
  refine eachAt_append.mpr ⟨h, ?_⟩
  intro before e after hfs
  exact hf e (by rw [hfs]; exact List.mem_append_right _ List.mem_cons_self) _

/-- Among such events, only one that does not is checked. -/
theorem EachAt.extend_iff {es fs : List α} {e : α} (h : EachAt P es)
    (hf : ∀ e ∈ fs, ∀ b, P b e) : EachAt P (es ++ e :: fs) ↔ P es e := by
  constructor
  · intro hall
    exact hall es e fs rfl
  · intro he
    have hsnoc : EachAt P (es ++ [e]) := eachAt_snoc.mpr ⟨h, he⟩
    simpa using hsnoc.extend hf

/-- A check that does not look at what came before is a check of every event. -/
theorem eachAt_const {Q : α → Prop} {es : List α} :
    EachAt (fun _ e => Q e) es ↔ ∀ e ∈ es, Q e := by
  constructor
  · intro h e he
    obtain ⟨before, after, hes⟩ := List.append_of_mem he
    exact h before e after hes
  · intro h before e after hes
    exact h e (by rw [hes]; exact List.mem_append_right _ List.mem_cons_self)

/-- Some event of a history meets `P` against the events before it. -/
def SomeAt {α : Type u} (P : List α → α → Prop) (es : List α) : Prop :=
  ∃ before e after, es = before ++ e :: after ∧ P before e

theorem not_someAt {es : List α} : ¬ SomeAt P es ↔ EachAt (fun before e => ¬ P before e) es := by
  simp only [SomeAt, EachAt, not_exists, not_and]

@[simp] theorem not_someAt_nil : ¬ SomeAt P [] := not_someAt.mpr eachAt_nil

theorem someAt_snoc {es : List α} {e : α} : SomeAt P (es ++ [e]) ↔ SomeAt P es ∨ P es e := by
  rw [← not_iff_not, not_or, not_someAt, not_someAt, eachAt_snoc]

/-- How many events of `es`, that follow `before`, meet `p` against the events before them. -/
def countAtAfter (p : List α → α → Bool) (before : List α) : List α → ℕ
  | [] => 0
  | e :: es => (if p before e then 1 else 0) + countAtAfter p (before ++ [e]) es

/-- How many events of a history meet `p` against the events before them. -/
def countAt (p : List α → α → Bool) (es : List α) : ℕ := countAtAfter p [] es

theorem countAtAfter_snoc (p : List α → α → Bool) (before es : List α) (e : α) :
    countAtAfter p before (es ++ [e]) =
      countAtAfter p before es + if p (before ++ es) e then 1 else 0 := by
  induction es generalizing before with
  | nil => simp [countAtAfter]
  | cons x es ih =>
      rw [List.cons_append, countAtAfter, countAtAfter, ih, List.append_assoc, List.singleton_append,
        Nat.add_assoc]

@[simp] theorem countAt_nil (p : List α → α → Bool) : countAt p [] = 0 := rfl

theorem countAt_snoc (p : List α → α → Bool) (es : List α) (e : α) :
    countAt p (es ++ [e]) = countAt p es + if p es e then 1 else 0 := by
  rw [countAt, countAtAfter_snoc, List.nil_append, countAt]

/-- The latest event of a kind: `e` is of the kind, and no later one is. -/
def Latest {α : Type u} (kind : α → Prop) (e : α) (es : List α) : Prop :=
  kind e ∧ ∃ before after, es = before ++ e :: after ∧ ∀ e' ∈ after, ¬ kind e'

/-- The latest event of a kind is a new one of it, or it was the latest before. -/
theorem latest_snoc {kind : α → Prop} {e x : α} {es : List α} :
    Latest kind e (es ++ [x]) ↔ (kind x ∧ e = x) ∨ (¬ kind x ∧ Latest kind e es) := by
  constructor
  · rintro ⟨hk, before, after, hes, hafter⟩
    -- `e` was the last, or came before `x`
    rcases List.eq_nil_or_concat after with rfl | ⟨after, y, rfl⟩
    · have hex : x = e := List.singleton_inj.mp (List.append_inj_right' hes rfl)
      exact Or.inl ⟨hex ▸ hk, hex.symm⟩
    · have hsplit : es ++ [x] = (before ++ e :: after) ++ [y] := by rw [hes]; simp
      have hxy : x = y := List.singleton_inj.mp (List.append_inj_right' hsplit rfl)
      refine Or.inr ⟨hxy ▸ hafter y (by simp), hk, before, after,
        List.append_inj_left' hsplit rfl, ?_⟩
      intro e' he'
      exact hafter e' (by simp [he'])
  · rintro (⟨hk, rfl⟩ | ⟨hx, hk, before, after, rfl, hafter⟩)
    · exact ⟨hk, es, [], rfl, by simp⟩
    · refine ⟨hk, before, after ++ [x], by simp, ?_⟩
      intro e' he'
      rcases List.mem_append.mp he' with he' | he'
      · exact hafter e' he'
      · exact List.mem_singleton.mp he' ▸ hx

theorem not_latest_nil {kind : α → Prop} {e : α} : ¬ Latest kind e [] := by
  rintro ⟨-, before, after, h, -⟩
  exact absurd h (by simp)

/-! ## Total machines

A machine whose step never fails reads its inputs from a list; its run is a fold. -/

section TotalMachines

variable {f : σ → ℓ → σ}

/-- The moves of a total machine that reads `ls` from state `s`. -/
def trace (f : σ → ℓ → σ) : σ → List ℓ → List (Move σ ℓ)
  | _, [] => []
  | s, l :: ls => ⟨s, l, f s l⟩ :: trace f (f s l) ls

@[simp] theorem trace_nil (s : σ) : trace f s [] = [] := rfl

theorem trace_snoc (s : σ) (ls : List ℓ) (l : ℓ) :
    trace f s (ls ++ [l]) = trace f s ls ++ [⟨ls.foldl f s, l, f (ls.foldl f s) l⟩] := by
  induction ls generalizing s with
  | nil => rfl
  | cons k ls ih => simp only [List.cons_append, trace, ih, List.foldl_cons]

theorem foldl_snoc (s : σ) (ls : List ℓ) (l : ℓ) :
    (ls ++ [l]).foldl f s = f (ls.foldl f s) l := by
  rw [List.foldl_append, List.foldl_cons, List.foldl_nil]

/-- **The invariant rule for folds.** -/
theorem foldl_invariant {I : σ → Prop} {s : σ} (h₀ : I s) (hstep : ∀ s l, I s → I (f s l))
    (ls : List ℓ) : I (ls.foldl f s) := by
  induction ls generalizing s with
  | nil => exact h₀
  | cons l ls ih => exact ih (hstep s l h₀)

/-- **Keys do not interfere.** When what a label does at a key depends only on what is there, and a
label leaves every other key alone, what is at a key after a run comes from the labels of that key
alone. -/
theorem foldl_isolated {κ : Type*} {β : Type*} [DecidableEq κ] (view : σ → κ → β) (key : ℓ → κ)
    (g : β → ℓ → β)
    (hf : ∀ s l k, view (f s l) k = if k = key l then g (view s k) l else view s k)
    (s : σ) (ls : List ℓ) (k : κ) :
    view (ls.foldl f s) k = (ls.filter fun l => key l = k).foldl g (view s k) := by
  induction ls generalizing s with
  | nil => rfl
  | cons l ls ih =>
      rw [List.foldl_cons, ih, hf]
      by_cases hk : k = key l
      · rw [if_pos hk, List.filter_cons_of_pos (by simp [hk]), List.foldl_cons]
      · rw [if_neg hk, List.filter_cons_of_neg (by simpa using Ne.symm hk)]

/-- Every move of a total machine is its step, taken in a state the invariant holds in. -/
theorem trace_invariant {I : σ → Prop} {s : σ} (h₀ : I s) (hstep : ∀ s l, I s → I (f s l))
    (ls : List ℓ) : ∀ m ∈ trace f s ls, I m.pre ∧ m.post = f m.pre m.label := by
  induction ls generalizing s with
  | nil => simp
  | cons l ls ih =>
      intro m hm
      rcases List.mem_cons.mp hm with rfl | hm
      · exact ⟨h₀, rfl⟩
      · exact ih (hstep s l h₀) m hm

/-- **The exact-condition rule.** The machine keeps a history and never takes anything back. If,
as long as all went well, a step adds only events that pass the check exactly when the step
meets `C`, then all events pass exactly when every step meets `C`. -/
theorem eachAt_foldl_iff (log : σ → List α) {I : σ → Prop} {C : σ → ℓ → Prop} {s : σ}
    (hlog : ∀ s l, I s → log s <+: log (f s l)) (h₀ : I s) (hI : ∀ s l, I s → I (f s l))
    (hC : ∀ s l, I s → EachAt P (log s) → (EachAt P (log (f s l)) ↔ C s l)) (ls : List ℓ) :
    EachAt P (log (ls.foldl f s))
      ↔ EachAt P (log s) ∧ ∀ m ∈ trace f s ls, C m.pre m.label := by
  induction ls using List.reverseRecOn with
  | nil => simp
  | append_singleton ls l ih =>
      have hinv : I (ls.foldl f s) := foldl_invariant h₀ hI ls
      rw [foldl_snoc, trace_snoc]
      constructor
      · -- step by step: the history so far decides, and then the last move
        intro h
        have hbefore := h.of_prefix (hlog _ l hinv)
        obtain ⟨hstart, hms⟩ := ih.mp hbefore
        refine ⟨hstart, ?_⟩
        intro m hm
        rcases List.mem_append.mp hm with hm | hm
        · exact hms m hm
        · rw [List.mem_singleton.mp hm]
          exact (hC _ l hinv hbefore).mp h
      · rintro ⟨hstart, hms⟩
        have hbefore := ih.mpr ⟨hstart, fun m hm => hms m (List.mem_append_left _ hm)⟩
        exact (hC _ l hinv hbefore).mpr
          (hms _ (List.mem_append_right _ (List.mem_singleton.mpr rfl)))

/-- The exact-condition rule, for a check that does not look at what came before. -/
theorem forall_foldl_iff (log : σ → List α) {Q : α → Prop} {I : σ → Prop} {C : σ → ℓ → Prop}
    {s : σ} (hlog : ∀ s l, I s → log s <+: log (f s l)) (h₀ : I s) (hI : ∀ s l, I s → I (f s l))
    (hC : ∀ s l, I s → (∀ x ∈ log s, Q x) → ((∀ x ∈ log (f s l), Q x) ↔ C s l)) (ls : List ℓ) :
    (∀ x ∈ log (ls.foldl f s), Q x)
      ↔ (∀ x ∈ log s, Q x) ∧ ∀ m ∈ trace f s ls, C m.pre m.label := by
  have hstep : ∀ s l, I s → EachAt (fun _ x => Q x) (log s) →
      (EachAt (fun _ x => Q x) (log (f s l)) ↔ C s l) := by
    intro s l hs hbefore
    rw [eachAt_const] at hbefore ⊢
    exact hC s l hs hbefore
  have h := eachAt_foldl_iff log hlog h₀ hI hstep ls
  rwa [eachAt_const, eachAt_const] at h

end TotalMachines

end RossBot.Lib
