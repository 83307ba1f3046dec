import RossBot.Backtest.Closings

/-!
# One position, three copies

After every event the loop, the strategy engine and the risk manager hold the
same position, or none (`OneBook`). The engine quantizes the entry price, so the
copies have the same number there exactly on the grid; and a scale-out moves the
stop to that quantized price, which raises it as long as entries are approved
with their stop below and filled above the signal's price (`copies_agree`).
-/

namespace RossBot

open Lib

namespace Replay

variable {env : Backtest} {s s' : Replay} {e : ReplayBar}

/-- Nothing is held anywhere, or all three hold one position and nothing else. -/
def OneBook (s : Replay) : Prop :=
  (s.openPos = none ∧ (∀ sym, s.engine.position sym = none)
    ∧ ∀ sym, s.risk.openPositions.get? sym = none)
  ∨ ∃ p q, s.openPos = some p ∧ s.engine.position p.symbol = some q
    ∧ s.risk.openPositions.get? p.symbol = some p.entryPrice
    ∧ (∀ sym, sym ≠ p.symbol →
        s.engine.position sym = none ∧ s.risk.openPositions.get? sym = none)
    ∧ q.entryPrice = .of p.entryPrice ∧ q.shares = p.shares ∧ q.currentStop = p.stopPrice

/-- The engine's entry price is also the same number. -/
def ExactBook (s : Replay) : Prop :=
  s.OneBook ∧ ∀ p, s.openPos = some p → (Money.of p.entryPrice).val = p.entryPrice

/-- From one state to another nothing was closed, and the position is the same but for its stop,
which has not moved down. -/
def StopKept (s s' : Replay) : Prop :=
  ∀ p p', s.openPos = some p → s'.openPos = some p' → closings s'.log = closings s.log →
    p' = { p with stopPrice := p'.stopPrice } ∧ p.stopPrice.val ≤ p'.stopPrice.val

theorem Agree.oneBook (h : s.Agree) : s.OneBook := by
  cases hp : s.openPos with
  | none =>
      exact Or.inl ⟨hp, fun sym => h.engine_none (heldFor_of_none hp sym),
        fun sym => h.risk_none (heldFor_of_none hp sym)⟩
  | some p =>
      have hheld : s.heldFor p.symbol = some p := heldFor_eq_some.mpr ⟨hp, rfl⟩
      have he := h.engine p.symbol
      rw [hheld] at he
      obtain ⟨q, hq, hc⟩ := Option.map_eq_some_iff.mp (he.trans (Option.map_some ..))
      simp only [PositionSnapshot.copy, OpenPosition.copy, PositionCopy.mk.injEq] at hc
      have hr : s.risk.openPositions.get? p.symbol = some p.entryPrice := by
        rw [h.risk, hheld]; rfl
      exact Or.inr ⟨p, q, hp, hq, hr, fun sym hne => h.only hp sym hne, hc.2.1, hc.2.2.2, hc.2.2.1⟩

/-! ## The life of a position -/

/-- A position that is open after an event was opened on it, was open before, or was scaled out. -/
inductive Carried (env : Backtest) (s : Replay) (e : ReplayBar) : OpenPosition → Prop where
  | opened {t : Replay} {sig : EntrySignal} : s.currentDay = some e.date → s.openPos = none →
      (t.approval env e sig).approved = true →
      Carried env s e (filledPosition env e sig (t.approval env e sig).shares)
  | kept {p : OpenPosition} : s.openPos = some p → Carried env s e p
  | scaled {p : OpenPosition} : s.openPos = some p →
      Carried env s e { p with stopPrice := .of p.entryPrice }

theorem Turn.carried (h : Turn env s e s') (hd : s.currentDay = some e.date) {p' : OpenPosition}
    (hp' : s'.openPos = some p') : Carried env s e p' := by
  cases h with
  | eod | stop | sold => exact absurd hp' (by simp [eodFlatten, stopExit, targetExit])
  | quiet | vetoed => exact .kept hp'
  | opened _ _ ho happ =>
      rw [← Option.some.inj hp']
      exact .opened hd ho happ
  | @scaled p _ _ hp =>
      unfold scaleOut at hp'
      dsimp only at hp'
      split at hp'
      · exact .kept hp'
      · rw [← Option.some.inj hp']
        exact .scaled hp

theorem Agree.carried (h : s.Agree) {p' : OpenPosition}
    (hp' : (s.onEvent env e).openPos = some p') :
    Carried env ((s.arrive e).rollover env e) e p' :=
  (h.onEvent_turn env e).carried rollover_currentDay hp'

/-- What holds of a fill of an approved entry, and survives a scale-out, holds of every open
position. -/
theorem openPos_invariant {Q : OpenPosition → Prop}
    (hfill : ∀ (t : Replay) (e : ReplayBar) (sig : EntrySignal) (n : ℤ),
      (t.approval env e sig).approved = true → Q (filledPosition env e sig n))
    (hscale : ∀ p, Q p → Q { p with stopPrice := .of p.entryPrice })
    (h : s.Agree) (hs : ∀ p, s.openPos = some p → Q p) :
    ∀ p, (s.onEvent env e).openPos = some p → Q p := by
  intro p' hp'
  have hbefore : ∀ p, ((s.arrive e).rollover env e).openPos = some p → Q p := fun p hp =>
    hs p (h.arrive.rollover_openPos hp).2
  cases h.carried hp' with
  | opened _ _ happ => exact hfill _ _ _ _ happ
  | kept hp => exact hbefore p' hp
  | scaled hp => exact hscale _ (hbefore _ hp)

/-- A position that is not closed is kept, or scaled out. -/
theorem Agree.kept_or_scaled (h : s.Agree) {p p' : OpenPosition} (hp : s.openPos = some p)
    (hp' : (s.onEvent env e).openPos = some p')
    (hc : closings (s.onEvent env e).log = closings s.log) :
    p' = p ∨ p' = { p with stopPrice := .of p.entryPrice } := by
  have hd : s.currentDay = some e.date := by
    obtain ⟨cs, hcs, hcl⟩ := h.closings_onEvent env e
    have hnil : cs = [] := by
      rw [hc] at hcs
      exact List.self_eq_append_right.mp hcs
    cases hcl with
    | none hday => exact hday p hp
    | boundary | eod | stop | sold => exact absurd hnil (by simp)
  have hr : (s.arrive e).rollover env e = s.arrive e :=
    rollover_of_same (show (s.arrive e).currentDay = some e.date from hd)
  have hcar := h.carried hp'
  rw [hr] at hcar
  cases hcar with
  | opened _ ho => exact absurd (hp.symm.trans ho) (by simp)
  | kept hp'' => exact Or.inl (Option.some.inj (hp''.symm.trans hp))
  | @scaled p₀ hp'' =>
      have hpp : p₀ = p := Option.some.inj (hp''.symm.trans hp)
      exact Or.inr (by rw [hpp])

/-! ## Stops are below entries -/

/-- The stop is at most the entry price the engine holds. -/
def StopBelow (p : OpenPosition) : Prop := p.stopPrice.val ≤ (Money.of p.entryPrice).val

/-- Approved entries are filled above their stop, unless the configuration forbids it. -/
theorem stopBelow_filledPosition (hrr : 0 < env.cfg.rrMin) (hoff : -(1 / 100) ≤ env.cfg.buyOffset)
    {t : Replay} {sig : EntrySignal} (n : ℤ) (happ : (t.approval env e sig).approved = true) :
    StopBelow (filledPosition env e sig n) := by
  have hratio := (RiskState.evaluate_approved happ).1.ratio
  have hstop := EntrySignal.stop_lt_entry (lt_of_lt_of_le hrr hratio)
  have hfill : sig.stopPrice.val ≤ (filledPosition env e sig n).entryPrice := by
    have hle := le_entryFill_fillPrice env.rng sig.entryPrice.val env.cfg.buyOffset n
      (some (env.fillSeed e))
    exact le_trans (by linarith) hle
  calc sig.stopPrice.val = toMoney sig.stopPrice.val := (Money.toMoney_val _).symm
    _ ≤ toMoney (filledPosition env e sig n).entryPrice := toMoney_mono hfill

theorem onGrid_filledPosition (hoff : OnGrid env.cfg.buyOffset) (e : ReplayBar)
    (sig : EntrySignal) (n : ℤ) : OnGrid (filledPosition env e sig n).entryPrice :=
  (sig.entryPrice.onGrid.add hoff).add (onGrid_cents _)

/-- On the grid, fills are what the engine keeps. -/
theorem openPos_onGrid (hoff : OnGrid env.cfg.buyOffset) (h : s.Agree)
    (hs : ∀ p, s.openPos = some p → OnGrid p.entryPrice) :
    ∀ p, (s.onEvent env e).openPos = some p → OnGrid p.entryPrice :=
  openPos_invariant (fun _ e sig n _ => onGrid_filledPosition hoff e sig n) (fun _ hp => hp) h hs

theorem openPos_stopBelow (hrr : 0 < env.cfg.rrMin) (hoff : -(1 / 100) ≤ env.cfg.buyOffset)
    (h : s.Agree) (hs : ∀ p, s.openPos = some p → StopBelow p) :
    ∀ p, (s.onEvent env e).openPos = some p → StopBelow p :=
  openPos_invariant (fun _ _ _ n happ => stopBelow_filledPosition hrr hoff n happ)
    (fun p _ => by simp [StopBelow]) h hs

theorem Agree.stopKept (h : s.Agree) (hs : ∀ p, s.openPos = some p → StopBelow p) :
    StopKept s (s.onEvent env e) := by
  intro p p' hp hp' hc
  rcases h.kept_or_scaled hp hp' hc with rfl | rfl
  · exact ⟨rfl, le_refl _⟩
  · exact ⟨rfl, hs p hp⟩

end Replay

/-- **After every event the three copies agree**: all absent, or one position with the same shares
and stop, at the loop's entry price in the risk manager and at that price quantized in the engine.
The two prices are the same number when `BUY_OFFSET` is a multiple of `0.0001`; and the stop of a
position never decreases when `RR_MIN` is positive and `BUY_OFFSET` at least `-0.01`. -/
theorem copies_agree (env : Backtest) (events : List ReplayBar) :
    (∀ m ∈ replayMoves env events, m.post.OneBook)
      ∧ (OnGrid env.cfg.buyOffset → ∀ m ∈ replayMoves env events, m.post.ExactBook)
      ∧ (0 < env.cfg.rrMin → -(1 / 100) ≤ env.cfg.buyOffset →
          ∀ m ∈ replayMoves env events, Replay.StopKept m.pre m.post) := by
  have hagree : ∀ m ∈ replayMoves env events, m.pre.Agree ∧ m.post = m.pre.onEvent env m.label :=
    trace_invariant Replay.agree_start (fun _ _ h => h.onEvent) events
  refine ⟨?_, ?_, ?_⟩
  · intro m hm
    rw [(hagree m hm).2]
    exact (hagree m hm).1.onEvent.oneBook
  · intro hoff m hm
    have hgrid := trace_invariant
      (I := fun s : Replay => s.Agree ∧ ∀ p, s.openPos = some p → OnGrid p.entryPrice)
      ⟨Replay.agree_start, fun _ hp => absurd hp (by simp [Replay.start])⟩
      (fun _ _ h => ⟨h.1.onEvent, Replay.openPos_onGrid hoff h.1 h.2⟩) events m hm
    rw [hgrid.2]
    refine ⟨hgrid.1.1.onEvent.oneBook, ?_⟩
    intro p hp
    exact toMoney_of_onGrid (Replay.openPos_onGrid hoff hgrid.1.1 hgrid.1.2 p hp)
  · intro hrr hoff m hm
    have hbelow := trace_invariant
      (I := fun s : Replay => s.Agree ∧ ∀ p, s.openPos = some p → Replay.StopBelow p)
      ⟨Replay.agree_start, fun _ hp => absurd hp (by simp [Replay.start])⟩
      (fun _ _ h => ⟨h.1.onEvent, Replay.openPos_stopBelow hrr hoff h.1 h.2⟩) events m hm
    rw [hbelow.2]
    exact hbelow.1.1.stopKept hbelow.1.2

/-- A minute after the breakout, up to eleven dollars. -/
def elevenDollarBar : ReplayBar := candle "TEST" (openingBell + 60 * 34) 1050 1102 1045 1100 3000

/-- With the shipped configuration the position is scaled out at eleven dollars, and its stop
goes from 10.28 to 10.51. -/
theorem copies_agree_shipped :
    (∀ m ∈ replayMoves replayDay (quietHalfHour ++ [breakoutBar, elevenDollarBar]),
        m.post.ExactBook)
      ∧ ∀ m ∈ replayMoves replayDay (quietHalfHour ++ [breakoutBar, elevenDollarBar]),
        Replay.StopKept m.pre m.post := by
  have h := copies_agree replayDay (quietHalfHour ++ [breakoutBar, elevenDollarBar])
  refine ⟨h.2.1 ⟨500, ?_⟩, h.2.2 ?_ ?_⟩
  · norm_num [replayDay, Config.defaults]
  · norm_num [replayDay, Config.defaults]
  · norm_num [replayDay, Config.defaults]

/-! ## Where they do not -/

/-- The shipped configuration but for these keys. -/
def withConfig (cfg : Config) : Backtest := { replayDay with cfg := cfg }

/-- `BUY_OFFSET = 0.05001`. -/
def fineOffset : Backtest := withConfig { Config.defaults with buyOffset := 5001 / 100000 }

/-- `BUY_OFFSET = -1`: entries are filled a dollar below the signal. -/
def negativeOffset : Backtest := withConfig { Config.defaults with buyOffset := -1 }

/-- `RR_MIN = 0`, in flat blocks, on a mid-candle trigger: the stop may be above the entry. -/
def zeroRatio : Backtest :=
  withConfig
    { Config.defaults with rrMin := 0, sizingMode := .flatBlock, entryTrigger := .midCandle }

/-- The breakout bar falls back to 10.10. -/
def fallBackBar : ReplayBar := candle "TEST" (openingBell + 60 * 33) 1030 1046 1005 1010 3000

/-- Up again to 10.50, where the position is scaled out. -/
def reboundBar : ReplayBar := candle "TEST" (openingBell + 60 * 34) 1040 1055 1035 1050 3000

/-- Nothing was ever closed, and the stop has moved down. -/
def lowersStop (s s' : Replay) : Bool :=
  (closings s.log).isEmpty && (closings s'.log).isEmpty
    && s.openPos.any fun p => s'.openPos.any fun p' => decide (p'.stopPrice.val < p.stopPrice.val)

theorem not_stopKept_of_lowersStop {s s' : Replay} (h : lowersStop s s' = true) :
    ¬ Replay.StopKept s s' := by
  unfold lowersStop at h
  simp only [Bool.and_eq_true, List.isEmpty_iff, Option.any_eq_true, decide_eq_true_eq] at h
  obtain ⟨⟨hc, hc'⟩, p, hp, p', hp', hlt⟩ := h
  intro hkept
  exact absurd (hkept p p' hp hp' (hc'.trans hc.symm)).2 (not_le.mpr hlt)

/-- The engine's entry price is another number than the loop's (10.51 for 10.51001); and a
scale-out lowers the stop, from 10.28 to 9.46 and from 10.28 to 10.16. -/
theorem copies_disagree :
    (¬ ∀ m ∈ replayMoves fineOffset (quietHalfHour ++ [breakoutBar]), m.post.ExactBook)
      ∧ (¬ ∀ m ∈ replayMoves negativeOffset (quietHalfHour ++ [breakoutBar, reboundBar]),
          Replay.StopKept m.pre m.post)
      ∧ ¬ ∀ m ∈ replayMoves zeroRatio (quietHalfHour ++ [fallBackBar, reboundBar]),
          Replay.StopKept m.pre m.post := by
  refine ⟨?_, ?_, ?_⟩
  · -- an offset finer than the grid
    intro h
    have hany : (replayMoves fineOffset (quietHalfHour ++ [breakoutBar])).any
        (fun m => m.post.openPos.any fun p => decide (toMoney p.entryPrice ≠ p.entryPrice))
          = true := by decide +kernel
    obtain ⟨m, hm, hp⟩ := List.any_eq_true.mp hany
    obtain ⟨p, hpos, hne⟩ := Option.any_eq_true _ _ |>.mp hp
    exact of_decide_eq_true hne ((h m hm).2 p hpos)
  · -- a fill below the signal's stop
    intro h
    have hany : (replayMoves negativeOffset (quietHalfHour ++ [breakoutBar, reboundBar])).any
        (fun m => lowersStop m.pre m.post) = true := by decide +kernel
    obtain ⟨m, hm, hlow⟩ := List.any_eq_true.mp hany
    exact not_stopKept_of_lowersStop hlow (h m hm)
  · -- no reward asked for, and a stop above the fill
    intro h
    have hany : (replayMoves zeroRatio (quietHalfHour ++ [fallBackBar, reboundBar])).any
        (fun m => lowersStop m.pre m.post) = true := by decide +kernel
    obtain ⟨m, hm, hlow⟩ := List.any_eq_true.mp hany
    exact not_stopKept_of_lowersStop hlow (h m hm)

end RossBot
