import RossBot.Indicators

/-!
# When the averages begin

`core/indicators.py`. An EMA emits nothing before it has its seed, the mean of its
first prices; the MACD waits for its slow average, and the signal line for as many
points of the MACD again. So what `macd_positive` asks for is not there before the
thirty-fourth close.
-/

namespace RossBot

/-! ## EMA -/

/-- `n` prices went in: the buffer holds them until there are enough for the seed. -/
structure EmaState.Seen (s : EmaState) (n : ℕ) : Prop where
  length : s.buf.length = min s.period n
  seeded : s.ema.isSome ↔ s.period ≤ n

theorem EmaState.seen_new {period : ℕ} (h : 0 < period) : (EmaState.new period).Seen 0 where
  length := (Nat.min_zero period).symm
  seeded := iff_of_false (by simp [EmaState.new]) (not_le.mpr h)

theorem EmaState.Seen.update {s : EmaState} {n : ℕ} (h : s.Seen n) (x : ℚ) :
    (s.update x).1.Seen (n + 1) ∧ (s.update x).1.period = s.period := by
  have hlen := h.length
  have hseeded := h.seeded
  unfold EmaState.update
  cases hema : s.ema with
  | none =>
      rw [hema, Option.isSome_none, Bool.false_eq_true, false_iff, not_le] at hseeded
      have hgrown : (s.buf ++ [x]).length = n + 1 := by
        rw [List.length_append, List.length_singleton, hlen]
        omega
      -- the buffer fills up, and seeds the average when it is full
      dsimp only
      split
      · rename_i hshort
        rw [hgrown] at hshort
        refine ⟨⟨?_, iff_of_false (by simp) (not_le.mpr hshort)⟩, rfl⟩
        exact hgrown.trans (min_eq_right hshort.le).symm
      · rename_i hfull
        rw [hgrown] at hfull
        refine ⟨⟨?_, iff_of_true rfl (not_lt.mp hfull)⟩, rfl⟩
        show (s.buf ++ [x]).length = min s.period (n + 1)
        omega
  -- once seeded the buffer is not written any more
  | some v =>
      rw [hema, Option.isSome_some, eq_self, true_iff] at hseeded
      refine ⟨⟨?_, iff_of_true rfl (Nat.le_succ_of_le hseeded)⟩, rfl⟩
      show s.buf.length = min s.period (n + 1)
      omega

/-- A value comes out exactly when there is a seed. -/
theorem EmaState.emits_iff (s : EmaState) (x : ℚ) :
    (s.update x).2.isSome ↔ (s.update x).1.ema.isSome := by
  unfold update
  cases hema : s.ema with
  | none =>
      dsimp only
      split <;> simp
  | some e => simp

/-! ## MACD -/

/-- `n` closes went in; the points of the MACD that the signal line averages began with the
close that seeded the slow average. -/
structure MacdState.Seen (m : MacdState) (n : ℕ) : Prop where
  periods : m.fast.period = 12 ∧ m.slow.period = 26 ∧ m.signal.period = 9
  fast : m.fast.Seen n
  slow : m.slow.Seen n
  signal : m.signal.Seen (n - 25)

theorem MacdState.seen_new : MacdState.new.Seen 0 where
  periods := ⟨rfl, rfl, rfl⟩
  fast := EmaState.seen_new (by decide)
  slow := EmaState.seen_new (by decide)
  signal := EmaState.seen_new (by decide)

/-- Without a slow average there is no point, and the signal line is left alone. -/
theorem MacdState.update_waiting {m : MacdState} {close : ℚ} (h : (m.slow.update close).2 = none) :
    m.update close = (⟨(m.fast.update close).1, (m.slow.update close).1, m.signal⟩, none) := by
  unfold update
  dsimp only
  rw [h]
  cases (m.fast.update close).2 <;> rfl

/-- With both averages there is one, and the signal line reads it. -/
theorem MacdState.update_reading {m : MacdState} {close fastV slowV : ℚ}
    (hf : (m.fast.update close).2 = some fastV) (hs : (m.slow.update close).2 = some slowV) :
    m.update close = (⟨(m.fast.update close).1, (m.slow.update close).1,
        (m.signal.update (fastV - slowV)).1⟩,
      some ⟨q6 (fastV - slowV), (m.signal.update (fastV - slowV)).2,
        (m.signal.update (fastV - slowV)).2.map fun v => q6 (fastV - slowV - v)⟩) := by
  unfold update
  dsimp only
  rw [hf, hs]

/-- **One more close**: from the twenty-sixth on there is a point, and from the thirty-fourth on
it has a signal. -/
theorem MacdState.Seen.update {m : MacdState} {n : ℕ} (h : m.Seen n) (close : ℚ) :
    (m.update close).1.Seen (n + 1)
      ∧ ((m.update close).2.isSome ↔ 26 ≤ n + 1)
      ∧ ∀ p, (m.update close).2 = some p → (p.signal.isSome ↔ 34 ≤ n + 1) := by
  obtain ⟨hpf, hps, hpg⟩ := h.periods
  obtain ⟨hfast, hfastPeriod⟩ := h.fast.update close
  obtain ⟨hslow, hslowPeriod⟩ := h.slow.update close
  have hf := (m.fast.emits_iff close).trans hfast.seeded
  have hs := (m.slow.emits_iff close).trans hslow.seeded
  rw [hfastPeriod, hpf] at hf
  rw [hslowPeriod, hps] at hs
  cases hslowOut : (m.slow.update close).2 with
  | none =>
      rw [hslowOut, Option.isSome_none, Bool.false_eq_true, false_iff, not_le] at hs
      -- the signal line waits for the slow average
      have hnone : n + 1 - 25 = n - 25 := by omega
      rw [MacdState.update_waiting hslowOut]
      refine ⟨⟨⟨hfastPeriod.trans hpf, hslowPeriod.trans hps, hpg⟩, hfast, hslow, ?_⟩, ?_, ?_⟩
      · rw [hnone]
        exact h.signal
      · exact iff_of_false (by simp) (not_le.mpr hs)
      · intro p hp
        exact absurd hp (by simp)
  | some slowV =>
      rw [hslowOut, Option.isSome_some, eq_self, true_iff] at hs
      cases hfastOut : (m.fast.update close).2 with
      -- the fast one is seeded long before
      | none =>
          rw [hfastOut] at hf
          exact absurd (hf.mpr (by omega)) (by simp)
      | some fastV =>
          obtain ⟨hsignal, hsignalPeriod⟩ := h.signal.update (fastV - slowV)
          have hg := (m.signal.emits_iff (fastV - slowV)).trans hsignal.seeded
          rw [hsignalPeriod, hpg] at hg
          have hmore : n + 1 - 25 = n - 25 + 1 := by omega
          rw [MacdState.update_reading hfastOut hslowOut]
          refine ⟨⟨⟨hfastPeriod.trans hpf, hslowPeriod.trans hps, hsignalPeriod.trans hpg⟩, hfast,
            hslow, hmore ▸ hsignal⟩, iff_of_true rfl hs, ?_⟩
          intro p hp
          rw [← Option.some.inj hp]
          exact hg.trans (by omega)

/-- Before the thirty-fourth close the MACD is not positive. -/
theorem MacdState.Seen.le_of_positive {m : MacdState} {n : ℕ} (h : m.Seen n) {close : ℚ}
    (hpos : macdPositive (m.update close).2 = true) : 34 ≤ n + 1 := by
  obtain ⟨-, -, hsignal⟩ := h.update close
  unfold macdPositive at hpos
  split at hpos
  · rename_i macd signal hist hpoint
    exact (hsignal _ hpoint).mp rfl
  · exact absurd hpos (by simp)

end RossBot
