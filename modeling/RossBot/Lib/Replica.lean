import RossBot.Lib.Runs

/-!
# Replicas

A source publishes what it does, and a replica reads what was published, in
order, some time later. `Replica` is what matters of the two: the messages on their
way, what the replica shows, and what the source is in. How the messages travel
is not said here; a system that moves like a replica (`Replica.Step`) may queue,
batch and interleave as it likes.

When reading all that is on its way gives the source, it still does after every
step, so nothing is lost (`Run.replica_follows`). And once the replica has read what was on
its way then, it shows only what the source has been (`Run.replica_shows`): never
something in between.
-/

namespace RossBot.Lib

universe u v w x

variable {σ : Type u} {ℓ : Type v} {V : Type w} {M : Type x}

/-- A replica and its source. -/
structure Replica (V : Type w) (M : Type x) where
  /-- What was published and not read, in the order it is read in. -/
  pending : List M
  /-- What the replica shows. -/
  view : V
  /-- What it should show. -/
  source : V

variable {read : V → M → V}

/-- Reading everything on its way gives the source. -/
def Replica.Follows (read : V → M → V) (r : Replica V M) : Prop :=
  r.pending.foldl read r.view = r.source

/-- How a replica moves, and how many messages it reads. -/
inductive Replica.Step (read : V → M → V) : Replica V M → ℕ → Replica V M → Prop where
  /-- Nothing happens to it. -/
  | quiet (r : Replica V M) : Step read r 0 r
  /-- The source publishes what it does. -/
  | publish (r : Replica V M) (m : M) :
      Step read r 0 ⟨r.pending ++ [m], r.view, read r.source m⟩
  /-- The replica reads the oldest message. -/
  | read (m : M) (ms : List M) (v s : V) : Step read ⟨m :: ms, v, s⟩ 1 ⟨ms, read v m, s⟩

/-- A message that says it all: the replica follows, whatever is on its way before it. -/
theorem Replica.follows_of_absolute {ms : List M} {m : M} {v s : V} (h : ∀ u, read u m = s) :
    Replica.Follows read ⟨ms ++ [m], v, s⟩ := by
  change (ms ++ [m]).foldl read v = s
  rw [List.foldl_append, List.foldl_cons, List.foldl_nil]
  exact h _

/-- How far the replica has come since `n` messages were on their way, `reads` of which it may
have read: those left of them are `pre`, and from there on it goes through states of `past`. -/
def Replica.Caught (read : V → M → V) (n reads : ℕ) (past : V → Prop) (r : Replica V M) : Prop :=
  ∃ pre post, r.pending = pre ++ post ∧ (pre = [] ∨ pre.length + reads = n)
    ∧ r.Follows read ∧ ∀ q, q <+: post → past (q.foldl read (pre.foldl read r.view))

namespace Replica

theorem caught_start {r : Replica V M} (h : r.Follows read) :
    r.Caught read r.pending.length 0 (· = r.source) := by
  refine ⟨r.pending, [], (List.append_nil _).symm, Or.inr rfl, h, ?_⟩
  intro q hq
  rw [List.prefix_nil.mp hq]
  exact h

theorem Caught.mono {n reads : ℕ} {past past' : V → Prop} {r : Replica V M}
    (h : r.Caught read n reads past) (hpast : ∀ v, past v → past' v) :
    r.Caught read n reads past' := by
  obtain ⟨pre, post, hsplit, hpre, hf, hshow⟩ := h
  exact ⟨pre, post, hsplit, hpre, hf, fun q hq => hpast _ (hshow q hq)⟩

theorem Caught.step {n reads k : ℕ} {past : V → Prop} {r r' : Replica V M}
    (h : r.Caught read n reads past) (hs : Step read r k r') (hpast : past r'.source) :
    r'.Caught read n (reads + k) past := by
  obtain ⟨pre, post, hsplit, hpre, hf, hshow⟩ := h
  cases hs with
  | quiet => exact ⟨pre, post, hsplit, hpre, hf, hshow⟩
  | publish _ m =>
      have hfollows : (r.pending ++ [m]).foldl read r.view = read r.source m := by
        rw [List.foldl_append, List.foldl_cons, List.foldl_nil, hf]
      refine ⟨pre, post ++ [m], by rw [hsplit, List.append_assoc], hpre, hfollows, ?_⟩
      intro q hq
      rcases List.prefix_concat_iff.mp hq with rfl | hq
      · rw [← List.foldl_append, ← List.append_assoc, ← hsplit, hfollows]
        exact hpast
      · exact hshow q hq
  | read m ms v s =>
      cases pre with
      | nil =>
          rw [List.nil_append] at hsplit
          refine ⟨[], ms, rfl, Or.inl rfl, hf, ?_⟩
          intro q hq
          exact hshow (m :: q) (hsplit ▸ (List.prefix_cons_inj m).mpr hq)
      | cons m' pre =>
          obtain ⟨rfl, rfl⟩ := List.cons.inj hsplit
          refine ⟨pre, post, rfl, Or.inr ?_, hf, hshow⟩
          have hlen := hpre.resolve_left (by simp)
          rw [List.length_cons] at hlen
          omega

end Replica

variable {step : σ → ℓ → Option σ} {s₀ : σ}

/-- **The replica rule**: what each move of a run does to a replica, the run does. -/
theorem Run.replica_caught {π : σ → Replica V M} {reads : Move σ ℓ → ℕ} {ms : List (Move σ ℓ)}
    {s : σ} (h : Run step s₀ ms s) (h₀ : (π s₀).Follows read)
    (hms : ∀ m ∈ ms, Replica.Step read (π m.pre) (reads m) (π m.post)) :
    (π s).Caught read (π s₀).pending.length (ms.map reads).sum
      (fun v => v = (π s₀).source ∨ ∃ m ∈ ms, v = (π m.post).source) := by
  induction h with
  | start => exact (Replica.caught_start h₀).mono fun _ => Or.inl
  | @move ms s s' l _ hs ih =>
      have hcaught := ih fun m hm => hms m (List.mem_append_left _ hm)
      have hlast := hms ⟨s, l, s'⟩ (List.mem_append_right _ (List.mem_singleton.mpr rfl))
      have hwide : (π s).Caught read (π s₀).pending.length (ms.map reads).sum
          (fun v => v = (π s₀).source ∨ ∃ m ∈ ms ++ [⟨s, l, s'⟩], v = (π m.post).source) :=
        hcaught.mono fun v hv =>
          hv.imp_right fun ⟨m, hm, hv⟩ => ⟨m, List.mem_append_left _ hm, hv⟩
      have hnext := hwide.step hlast
        (Or.inr ⟨_, List.mem_append_right _ (List.mem_singleton.mpr rfl), rfl⟩)
      rwa [List.map_append, List.sum_append, List.map_singleton, List.sum_singleton]

/-- **Nothing is lost.** -/
theorem Run.replica_follows {π : σ → Replica V M} {reads : Move σ ℓ → ℕ} {ms : List (Move σ ℓ)}
    {s : σ} (h : Run step s₀ ms s) (h₀ : (π s₀).Follows read)
    (hms : ∀ m ∈ ms, Replica.Step read (π m.pre) (reads m) (π m.post)) : (π s).Follows read := by
  obtain ⟨-, -, -, -, hf, -⟩ := h.replica_caught h₀ hms
  exact hf

/-- **Nothing is made up**, once what was on its way at the start is read. -/
theorem Run.replica_shows {π : σ → Replica V M} {reads : Move σ ℓ → ℕ} {ms : List (Move σ ℓ)}
    {s : σ} (h : Run step s₀ ms s) (h₀ : (π s₀).Follows read)
    (hms : ∀ m ∈ ms, Replica.Step read (π m.pre) (reads m) (π m.post))
    (hread : (π s₀).pending.length ≤ (ms.map reads).sum) :
    (π s).view = (π s₀).source ∨ ∃ m ∈ ms, (π s).view = (π m.post).source := by
  obtain ⟨pre, post, -, hpre, -, hshow⟩ := h.replica_caught h₀ hms
  have hnil : pre = [] := by
    rcases hpre with hnil | hlen
    · exact hnil
    · exact List.eq_nil_of_length_eq_zero (by omega)
  rw [hnil] at hshow
  exact hshow [] List.nil_prefix

end RossBot.Lib
