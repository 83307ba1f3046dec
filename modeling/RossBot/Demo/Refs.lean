import RossBot.Demo.Ledger

/-!
# The objects the tasks hold

A task that exits a position holds the object it looked up, and the symbol it looked
it up by. Neither goes stale as a name: an object keeps its symbol, whatever else
is written to it, and identities are given out once.
-/

namespace RossBot

open Lib

namespace Desk

variable {env : DemoEnv} {s s' : Desk} {K : Symbol → ℕ → Prop}

/-- The object exists, and is of that symbol. -/
def Knows (s : Desk) (symbol : Symbol) (ref : ℕ) : Prop :=
  ref < s.nextRef ∧ (s.objects ref).symbol = symbol

/-- All that is tracked or held exists. -/
structure Known (s : Desk) : Prop where
  positions : ∀ symbol ref, s.positions.get? symbol = some ref → s.Knows symbol ref
  engine : s.engine.Holds s.Knows
  tasks : ∀ i, (s.tasks i).Holds s.Knows

/-! ## What a step leaves the tasks with -/

/-- Whatever is held after a step was known before it. -/
structure Hands (s s' : Desk) : Prop where
  engine : s'.engine.Holds s.Knows
  tasks : ∀ i, (s'.tasks i).Holds s.Knows

/-- The loop moves on. -/
theorem Known.moved (h : s.Known) (hk : s'.tasks = s.tasks) (he : s'.engine.Holds s.Knows) :
    s.Hands s' := ⟨he, fun i => by rw [hk]; exact h.tasks i⟩

/-- A handler moves on. -/
theorem Known.toTask (h : s.Known) {i : ℕ} {t : OperatorTask} (he : s'.engine = s.engine)
    (hk : s'.tasks = Function.update s.tasks i t) (ht : t.Holds s.Knows) : s.Hands s' := by
  refine ⟨by rw [he]; exact h.engine, fun j => ?_⟩
  rw [hk, Function.update_apply]
  split
  · exact ht
  · exact h.tasks j

/-- No task moves. -/
theorem Known.still (h : s.Known) (he : s'.engine = s.engine) (hk : s'.tasks = s.tasks) :
    s.Hands s' := h.moved hk (by rw [he]; exact h.engine)

theorem hands_step {l : DeskLabel} (h : s.Known) (hs : s.step env l = some s') : s.Hands s' := by
  have he := h.engine
  cases step_cases hs with
  | ticks | switches | haltsDay | killsOffline => exact h.still rfl rfl
  | waits _ _ _ _ _ hk => exact h.moved rfl (hk _ h.positions h.engine)
  | approves | sendsEntry => exact h.moved rfl trivial
  | sendsScale heng =>
      rw [heng] at he
      exact h.moved rfl ⟨he.1, le_max_left .., he.2⟩
  | sendsExit heng =>
      rw [heng] at he
      exact h.moved rfl he
  | booksLoop _ hp _ hk => exact h.moved hp.tasks.2 (hk _ h.positions h.engine)
  | settles => exact h.still (engine_post _) (tasks_post _)
  | asks _ _ hk => exact h.toTask rfl rfl (hk _ h.positions)
  | sendsManual | flattens | kills | killReturns => exact h.toTask rfl rfl trivial
  | @taskCloses i _ _ _ _ _ htask =>
      have ht := h.tasks i
      rw [htask] at ht
      exact h.toTask rfl rfl ht
  | @taskScales i _ _ _ _ _ htask =>
      have ht := h.tasks i
      rw [htask] at ht
      exact h.toTask rfl rfl ⟨ht, le_max_left ..⟩
  | finishes _ _ hp _ hk =>
      exact h.toTask hp.tasks.1 (congrArg (Function.update · _ _) hp.tasks.2) (hk _)

/-! ## Nothing held goes stale -/

/-- The objects after a scale-out. -/
theorem objects_bookScaleOut (exit : PendingExit) (half : ℤ) :
    (s.bookScaleOut exit half).objects = Function.update s.objects exit.ref
      { s.objects exit.ref with
        shares := (s.objects exit.ref).shares - half
        stopPrice := (s.objects exit.ref).entryPrice
        scaled := true } := by
  unfold bookScaleOut recordClose setObject recordJournal
  exact Function.update_idem ..

/-- What exists goes on to exist, and keeps its symbol. -/
theorem Knows.posted {symbol : Symbol} {ref : ℕ} (h : s.Knows symbol ref) (p : Posting) :
    (s.post p).Knows symbol ref := by
  obtain ⟨hlt, hsym⟩ := h
  have hupdate : ∀ (r : ℕ) (pos : DemoPosition), pos.symbol = (s.objects r).symbol →
      (Function.update s.objects r pos ref).symbol = symbol := by
    intro r pos hpos
    rw [Function.update_apply]
    split
    · rename_i hr
      rw [hpos, ← hr, hsym]
    · exact hsym
  cases p with
  | opens pos =>
      refine ⟨Nat.lt_succ_of_lt hlt, ?_⟩
      change (Function.update s.objects s.nextRef pos ref).symbol = symbol
      rw [Function.update_of_ne hlt.ne, hsym]
  | scales exit half =>
      refine ⟨hlt, ?_⟩
      rw [post, objects_bookScaleOut]
      exact hupdate exit.ref _ rfl
  | restops r stop => exact ⟨hlt, hupdate r _ rfl⟩
  | _ => exact ⟨hlt, hsym⟩

/-- Identities are given out one at a time, to what is bought. -/
theorem lt_nextRef_post {p : Posting} {ref : ℕ} :
    ref < (s.post p).nextRef ↔ ref < s.nextRef ∨ (∃ pos, p = .opens pos) ∧ ref = s.nextRef := by
  cases p with
  | opens pos =>
      change ref < s.nextRef + 1 ↔ _
      simp only [Posting.opens.injEq, exists_eq', true_and]
      omega
  | _ => exact (or_iff_left fun hc => absurd hc.1 (by simp)).symm

/-- What is tracked after an entry was tracked before, or was opened by it. -/
theorem positions_post {p : Posting} {symbol : Symbol} {ref : ℕ}
    (h : (s.post p).positions.get? symbol = some ref) :
    s.positions.get? symbol = some ref
      ∨ ∃ pos, p = .opens pos ∧ symbol = pos.symbol ∧ ref = s.nextRef := by
  cases p with
  | opens pos =>
      have hset : (s.positions.set pos.symbol s.nextRef).get? symbol = some ref := h
      rw [Dict.get?_set] at hset
      split at hset
      · rename_i hsym
        exact Or.inr ⟨pos, rfl, hsym, (Option.some.inj hset).symm⟩
      · exact Or.inl hset
  | closes exit reason =>
      have herase : (s.positions.erase exit.symbol).get? symbol = some ref := h
      rw [Dict.get?_erase] at herase
      split at herase
      · exact absurd herase (by simp)
      · exact Or.inl herase
  | clears => exact absurd (show (∅ : Dict Symbol ℕ).get? symbol = some ref from h) (by simp)
  | _ => exact Or.inl h

theorem known_init : (init env).Known where
  positions symbol ref h := absurd (show (∅ : Dict Symbol ℕ).get? symbol = some ref from h) (by simp)
  engine := trivial
  tasks _ := trivial

/-- **All that is tracked or held exists**, whatever step is taken. -/
theorem Known.step {l : DeskLabel} (h : s.Known) (hs : s.step env l = some s') : s'.Known := by
  have hbooks := step_posts hs
  have hands := hands_step h hs
  have hmono : ∀ symbol ref, (s.post (s.posting env l)).Knows symbol ref → s'.Knows symbol ref := by
    intro symbol ref hk
    rw [Knows, hbooks.nextRef, hbooks.objects]
    exact hk
  have hkeep : ∀ symbol ref, s.Knows symbol ref → s'.Knows symbol ref := fun symbol ref hk =>
    hmono symbol ref (hk.posted _)
  refine ⟨?_, hands.engine.mono hkeep, fun i => (hands.tasks i).mono hkeep⟩
  intro symbol ref hget
  rw [hbooks.positions] at hget
  rcases positions_post hget with hget | ⟨pos, hp, rfl, rfl⟩
  · exact hkeep symbol ref (h.positions symbol ref hget)
  · -- the new object
    refine hmono _ _ ?_
    rw [hp]
    refine ⟨Nat.lt_succ_self _, ?_⟩
    change (Function.update s.objects s.nextRef pos s.nextRef).symbol = pos.symbol
    rw [Function.update_self]

/-- What is tracked under a symbol is tracked under no other. -/
theorem Known.not_tracked (h : s.Known) {symbol : Symbol} {ref : ℕ} (hk : s.Knows symbol ref)
    (hn : s.positions.get? symbol ≠ some ref) (a : Symbol) : s.positions.get? a ≠ some ref := by
  intro ha
  have hsym : a = symbol := (h.positions a ref ha).2.symm.trans hk.2
  exact hn (hsym ▸ ha)

/-- What an entry closes in part exists; a share at least is sold. -/
theorem Known.scales {l : DeskLabel} (h : s.Known) {exit : PendingExit} {half : ℤ}
    (hp : s.posting env l = .scales exit half) : s.Knows exit.symbol exit.ref ∧ 1 ≤ half := by
  have hposts := posting_cases env s l
  rw [hp] at hposts
  cases hposts with
  | scalesLoop heng =>
      have he := h.engine
      rw [heng] at he
      exact ⟨he.1, he.2.1⟩
  | @scalesTask i _ _ _ htask =>
      have ht := h.tasks i
      rw [htask] at ht
      exact ht

/-- What an entry closes exists. -/
theorem Known.closes {l : DeskLabel} (h : s.Known) {exit : PendingExit} {reason : DemoExit}
    (hp : s.posting env l = .closes exit reason) : s.Knows exit.symbol exit.ref := by
  have hposts := posting_cases env s l
  rw [hp] at hposts
  cases hposts with
  | closesLoop heng =>
      have he := h.engine
      rw [heng] at he
      exact he.1
  | @closesTask i _ _ ref _ _ htask =>
      have ht := h.tasks i
      rw [htask] at ht
      exact ht ref rfl

end Desk

end RossBot
