import Mathlib.Algebra.Order.Archimedean.Basic
import RossBot.Risk.Approval
import RossBot.Risk.Session

/-!
# The U4 shutdown

`check_daily_loss` and `check_give_back` say when U4 shuts the day down; nothing
writes it into the state, and `evaluate` computes the limits anew from the P&L of
the moment. With positions still open when a limit is hit, their closes can bring
the P&L back, and the day goes on. `shutdown_holds_iff` says, of the calls, when
it does not.
-/

namespace RossBot

open Lib

/-- A U4 limit is reached, as the monitors see it. -/
def RiskState.LimitHit (cfg : Config) (equity : ℚ) (s : RiskState) : Prop :=
  s.checkDailyLoss cfg equity = true ∨ s.checkGiveBack cfg = .halt

/-- A close among the calls reached a U4 limit. -/
def ShutDown (cfg : Config) (s₀ : RiskState) (equity : ℚ) (calls : List RiskCall) : Prop :=
  ∃ before symbol pnl after, calls = before ++ .recordClose symbol pnl :: after
    ∧ (s₀.resetSession.run cfg (before ++ [.recordClose symbol pnl])).LimitHit cfg equity

/-- Nothing is approved: no signal, at no time, of no size. -/
def RiskState.NeverApproves (cfg : Config) (equity : ℚ) (s : RiskState) : Prop :=
  ∀ signal timeOfDay dayOfWeek cap skip,
    (s.evaluate cfg signal timeOfDay dayOfWeek equity cap skip).approved = false

/-- Some signal of a sound setup that adds to no losing position comes to at least one share. -/
def RiskState.CanSize (cfg : Config) (s : RiskState) : Prop :=
  ∃ (signal : EntrySignal) (dayOfWeek : ℕ) (cap : Option ℤ),
    signal.gate.e1Universe = true ∧ cfg.rrMin ≤ signal.rrRatio
      ∧ (∀ e, s.openPositions.get? signal.symbol = some e → e ≤ signal.entryPrice.val)
      ∧ computeSize signal s cfg signal.marketState dayOfWeek cap ≠ 0

/-- The day has room for a trade, as far as it depends on the day. -/
structure RiskState.DayOpen (cfg : Config) (equity : ℚ) (s : RiskState) : Prop where
  notHalted : s.halted = false
  limits : ¬ s.LimitHit cfg equity
  strikes : s.consecutiveLosses < cfg.threeStrikes
  trades : s.tradesToday < cfg.maxTradesPerDay
  sizes : s.CanSize cfg

/-- The monitors and the gate agree on the two limits. -/
theorem RiskState.not_limitHit_iff {cfg : Config} {equity : ℚ} {s : RiskState} :
    ¬ s.LimitHit cfg equity
      ↔ -effectiveLossLimit cfg equity cfg.avgWinDayPnl < s.realizedPnl
        ∧ (0 < s.peakPnl → s.peakPnl * (1 - cfg.giveBackHard) < s.realizedPnl) := by
  unfold LimitHit checkDailyLoss isDailyLossLimit checkGiveBack
  rw [evaluateGiveBack_eq_halt]
  simp only [decide_eq_true_eq, not_or, not_le, not_and]

/-- **A state approves nothing exactly when its day is not open.** -/
theorem RiskState.neverApproves_iff {cfg : Config} {equity : ℚ} {s : RiskState} :
    s.NeverApproves cfg equity ↔ ¬ s.DayOpen cfg equity := by
  constructor
  · rintro h ⟨hhalt, hlimits, hstrikes, htrades, signal, dayOfWeek, cap, hu, hr, hdown, hsize⟩
    obtain ⟨hloss, hback⟩ := not_limitHit_iff.mp hlimits
    -- nothing but the time of day and the catalyst is left to object to
    have happ : (s.evaluate cfg signal cfg.hardStopTime dayOfWeek equity cap false).approved
        = true :=
      evaluate_approved_iff.mpr
        ⟨⟨hhalt, hu, hr, hloss, hback, hstrikes, hdown, htrades, rfl, le_refl _⟩, hsize⟩
    exact absurd (h signal cfg.hardStopTime dayOfWeek cap false) (by simp [happ])
  · intro h signal timeOfDay dayOfWeek cap skip
    by_contra happ
    obtain ⟨hgate, hsize⟩ := evaluate_approved_iff.mp (by simpa using happ)
    exact h ⟨hgate.notHalted, not_limitHit_iff.mpr ⟨hgate.loss, hgate.giveBack⟩, hgate.strikes,
      hgate.trades, signal, dayOfWeek, cap, hgate.e1Universe, hgate.ratio, hgate.noAverageDown,
      hsize⟩

/-! ## What can be sized -/

/-- With this realized P&L the configuration leaves a share before the multipliers apply: the raw
count can be other than zero, and the cushion does not cap it to zero. -/
def Sizable (cfg : Config) (realized : ℚ) : Prop :=
  0 < cfg.maxSize
    ∧ match cfg.sizingMode with
      | .flatBlock => cfg.cushionPnlThreshold ≤ realized ∨ cfg.starterCap ≠ 0
      | .riskFormula =>
          if 0 < realized ∧ realized < cfg.cushionPnlThreshold then
            cfg.starterCap < 0 ∨ cfg.perTradeRiskDollars ≤ -(1 / 10000)
              ∨ (0 < cfg.starterCap ∧ 1 / 10000 ≤ cfg.perTradeRiskDollars)
          else 1 / 10000 ≤ |cfg.perTradeRiskDollars|

section Sizes

variable {cfg : Config} {s : RiskState} {raw : ℤ}

/-- The cushion makes nothing of nothing, unless it caps below. -/
theorem cushionCap_zero (hcap : 0 < s.realizedPnl → s.realizedPnl < cfg.cushionPnlThreshold →
    0 ≤ cfg.starterCap) : cushionCap 0 s cfg = 0 := by
  unfold cushionCap
  split_ifs with hneg hmid
  · exact min_eq_left (zero_le_one.trans (le_max_left 1 _))
  · exact min_eq_left (hcap (not_le.mp hneg) hmid)
  · rfl

/-- In between, the cushion caps at the starter size. -/
theorem cushionCap_starter (hpos : 0 < s.realizedPnl)
    (hlt : s.realizedPnl < cfg.cushionPnlThreshold) :
    cushionCap raw s cfg = min raw cfg.starterCap := by
  rw [cushionCap, if_neg (not_le.mpr hpos), if_pos hlt]

/-- Outside, it leaves a count of the same sign. -/
theorem cushionCap_ne_zero (hraw : raw ≠ 0)
    (hout : ¬ (0 < s.realizedPnl ∧ s.realizedPnl < cfg.cushionPnlThreshold)) :
    cushionCap raw s cfg ≠ 0 := by
  unfold cushionCap
  split_ifs with hneg hmid
  · have hice : 1 ≤ icebreakerCap cfg := le_max_left 1 _
    omega
  · exact absurd ⟨not_le.mp hneg, hmid⟩ hout
  · exact hraw

/-- Nothing is sized from nothing. -/
theorem computeSize_cushion_zero {signal : EntrySignal} {marketState : MarketState}
    {dayOfWeek : ℕ} {cap : Option ℤ} (hraw : rawSize signal s cfg = some raw)
    (hzero : cushionCap raw s cfg = 0) :
    computeSize signal s cfg marketState dayOfWeek cap = 0 := by
  rw [computeSize_of_rawSize hraw, sizedBeforeLiquidity, hzero]
  exact capped_zero ..

/-- Prices are at least a ten-thousandth apart. -/
theorem step_le_riskPerShare {signal : EntrySignal} (h : 0 < signal.riskPerShare) :
    1 / 10000 ≤ signal.riskPerShare := by
  obtain ⟨m, hm⟩ := signal.entryPrice.onGrid
  obtain ⟨n, hn⟩ := signal.stopPrice.onGrid
  unfold EntrySignal.riskPerShare at h ⊢
  rw [hm, hn, ← sub_div] at h ⊢
  have hpos : (0 : ℚ) < m - n := by linarith [(div_pos_iff_of_pos_right (by norm_num)).mp h]
  have hle : (1 : ℚ) ≤ m - n := by exact_mod_cast hpos
  linarith

/-- A price on the grid at or above any other. -/
theorem exists_price_ge (x : ℚ) : ∃ m : ℤ, x ≤ (m : ℚ) / 10000 :=
  ⟨⌈x * 10000⌉, by linarith [Int.le_ceil (x * 10000)]⟩

/-- There are signals of a sound setup with the smallest risk per share and any conviction. -/
theorem exists_signal (cfg : Config) (s : RiskState) (conviction : Money) :
    ∃ signal : EntrySignal, signal.gate.e1Universe = true ∧ cfg.rrMin ≤ signal.rrRatio
      ∧ (∀ e, s.openPositions.get? signal.symbol = some e → e ≤ signal.entryPrice.val)
      ∧ signal.riskPerShare = 1 / 10000 ∧ signal.convictionScore = conviction
      ∧ signal.marketState = .hot := by
  obtain ⟨m, hm⟩ := exists_price_ge ((s.openPositions.get? cleanSignal.symbol).getD 0)
  obtain ⟨n, hn⟩ := exists_nat_ge cfg.rrMin
  have hrisk : (m : ℚ) / 10000 - ((m - 1 : ℤ) : ℚ) / 10000 = 1 / 10000 := by push_cast; ring
  refine ⟨{ cleanSignal with
    convictionScore := conviction
    entryPrice := ⟨(m : ℚ) / 10000, m, rfl⟩
    stopPrice := ⟨((m - 1 : ℤ) : ℚ) / 10000, m - 1, rfl⟩
    targetPrice := ⟨((m + n : ℤ) : ℚ) / 10000, m + n, rfl⟩ }, rfl, ?_, ?_, hrisk, rfl, rfl⟩
  · -- the target is `n` steps up, the stop one step down
    have hratio : (((m + n : ℤ) : ℚ) / 10000 - (m : ℚ) / 10000) / (1 / 10000) = n := by
      push_cast
      ring
    unfold EntrySignal.rrRatio EntrySignal.riskPerShare
    dsimp only
    rw [hrisk, if_neg (by norm_num), hratio]
    exact hn
  · intro e he
    have hget : s.openPositions.get? cleanSignal.symbol = some e := he
    rw [hget] at hm
    exact hm

/-- With full conviction, up or down, in a hot market on a Tuesday, nothing takes away from a
count but `MAX_SIZE`. -/
theorem canSize_of (hmax : 0 < cfg.maxSize)
    (hraw : ∀ signal : EntrySignal, signal.riskPerShare = 1 / 10000 →
      rawSize signal s cfg = some raw)
    (hc : cushionCap raw s cfg ≠ 0) : s.CanSize cfg := by
  -- a conviction of plus or minus one turns any count into its size
  have hsign : ∃ (sign : ℤ), cushionCap raw s cfg * sign = |cushionCap raw s cfg| := by
    rcases lt_or_gt_of_ne hc with hneg | hpos
    · exact ⟨-1, by rw [abs_of_neg hneg, mul_neg_one]⟩
    · exact ⟨1, by rw [abs_of_pos hpos, mul_one]⟩
  obtain ⟨sign, hsign⟩ := hsign
  obtain ⟨signal, hu, hr, hdown, hrisk, hconv, hmarket⟩ := exists_signal cfg s
    ⟨(sign : ℚ), sign * 10000, by push_cast; ring⟩
  -- a Tuesday, without a cap
  refine ⟨signal, 1, none, hu, hr, hdown, ?_⟩
  have hscale : scaleDown (cushionCap raw s cfg) signal.convictionScore.val
      = |cushionCap raw s cfg| := by
    rw [hconv, scaleDown, ← Int.cast_mul, hsign]
    exact roundDown_intCast _
  have hsize : computeSize signal s cfg signal.marketState 1 none
      = max 0 (min |cushionCap raw s cfg| cfg.maxSize) := by
    rw [computeSize_of_rawSize (hraw signal hrisk), sizedBeforeLiquidity, hscale, hmarket]
    rfl
  rw [hsize]
  have habs : 0 < |cushionCap raw s cfg| := abs_pos.mpr hc
  omega

theorem rawSize_riskFormula (hmode : cfg.sizingMode = .riskFormula) {signal : EntrySignal}
    (hrisk : 0 < signal.riskPerShare) : rawSize signal s cfg
      = some (roundDown (cfg.perTradeRiskDollars / signal.riskPerShare)) := by
  unfold rawSize
  rw [hmode]
  exact if_neg (not_le.mpr hrisk)

/-- A block that is not capped to nothing was not nothing. -/
theorem starter_of_flatBlock (hmode : cfg.sizingMode = .flatBlock) {signal : EntrySignal}
    (hraw : rawSize signal s cfg = some raw) (hc : cushionCap raw s cfg ≠ 0) :
    cfg.cushionPnlThreshold ≤ s.realizedPnl ∨ cfg.starterCap ≠ 0 := by
  by_contra hnot
  simp only [not_or, not_le, not_not] at hnot
  obtain ⟨hlt, hzero⟩ := hnot
  unfold rawSize at hraw
  rw [hmode] at hraw
  dsimp only at hraw
  rw [if_neg (not_le.mpr hlt), hzero] at hraw
  rw [← Option.some.inj hraw] at hc
  exact hc (cushionCap_zero fun _ _ => hzero.ge)

/-- A count that is not zero takes a price step of risk, at least, to spend. -/
theorem risk_of_riskFormula (hmode : cfg.sizingMode = .riskFormula) {signal : EntrySignal}
    (hraw : rawSize signal s cfg = some raw) :
    (0 < raw → 1 / 10000 ≤ cfg.perTradeRiskDollars)
      ∧ (raw < 0 → cfg.perTradeRiskDollars ≤ -(1 / 10000)) := by
  -- a distance that is not positive sizes nothing
  have hrisk : 0 < signal.riskPerShare := by
    by_contra hle
    unfold rawSize at hraw
    rw [hmode] at hraw
    dsimp only at hraw
    rw [if_pos (not_lt.mp hle)] at hraw
    exact absurd hraw (by simp)
  have hstep := step_le_riskPerShare hrisk
  rw [rawSize_riskFormula hmode hrisk] at hraw
  rw [← Option.some.inj hraw, roundDown_pos, roundDown_neg, le_div_iff₀ hrisk,
    div_le_iff₀ hrisk]
  constructor
  · intro h; linarith
  · intro h; linarith

/-- Whatever is sized is sized from what `Sizable` says. -/
theorem sizable_of_canSize (h : s.CanSize cfg) : Sizable cfg s.realizedPnl := by
  obtain ⟨signal, dayOfWeek, cap, -, -, -, hsize⟩ := h
  have hpos := lt_of_le_of_ne (computeSize_nonneg signal s cfg signal.marketState dayOfWeek cap)
    (Ne.symm hsize)
  obtain ⟨raw, hraw⟩ := exists_rawSize hpos
  have hc : cushionCap raw s cfg ≠ 0 := fun hzero => hsize (computeSize_cushion_zero hraw hzero)
  refine ⟨hpos.trans_le (computeSize_le_last hraw hpos).2, ?_⟩
  cases hmode : cfg.sizingMode with
  | flatBlock => exact starter_of_flatBlock hmode hraw hc
  | riskFormula =>
      obtain ⟨hup, hdown⟩ := risk_of_riskFormula hmode hraw
      dsimp only
      split
      · -- the starter cap is in force
        rename_i hmid
        rw [cushionCap_starter hmid.1 hmid.2] at hc
        rcases lt_trichotomy cfg.starterCap 0 with hs | hs | hs
        · exact Or.inl hs
        · exact Or.inr (Or.inl (hdown (by omega)))
        · rcases lt_or_gt_of_ne (show raw ≠ 0 by omega) with h | h
          · exact Or.inr (Or.inl (hdown h))
          · exact Or.inr (Or.inr ⟨hs, hup h⟩)
      · rename_i hout
        have hne : raw ≠ 0 := by
          rintro rfl
          exact hc (cushionCap_zero fun hp hl => absurd ⟨hp, hl⟩ hout)
        rcases lt_or_gt_of_ne hne with h | h
        · exact le_abs.mpr (Or.inr (by linarith [hdown h]))
        · exact le_abs.mpr (Or.inl (hup h))

/-- A risk per share as small as can be makes the count as large as can be. -/
theorem canSize_of_smallest (hmode : cfg.sizingMode = .riskFormula) (hmax : 0 < cfg.maxSize)
    (hc : cushionCap (roundDown (cfg.perTradeRiskDollars * 10000)) s cfg ≠ 0) : s.CanSize cfg := by
  refine canSize_of hmax (fun signal hrisk => ?_) hc
  rw [rawSize_riskFormula hmode (by rw [hrisk]; norm_num), hrisk, one_div, div_inv_eq_mul]

/-- The block of the realized P&L can be bought. -/
theorem canSize_of_flatBlock (hmode : cfg.sizingMode = .flatBlock) (hmax : 0 < cfg.maxSize)
    (h : cfg.cushionPnlThreshold ≤ s.realizedPnl ∨ cfg.starterCap ≠ 0) : s.CanSize cfg := by
  have hraw : ∀ signal : EntrySignal, rawSize signal s cfg = some
      (if cfg.cushionPnlThreshold ≤ s.realizedPnl then cfg.maxSize else cfg.starterCap) := by
    intro signal
    unfold rawSize
    rw [hmode]
  refine canSize_of hmax (fun signal _ => hraw signal) ?_
  split
  · rename_i hbuilt
    exact cushionCap_ne_zero hmax.ne' fun hmid => absurd hmid.2 (not_lt.mpr hbuilt)
  · rename_i hnot
    have hstarter : cfg.starterCap ≠ 0 := h.resolve_left hnot
    by_cases hpos : 0 < s.realizedPnl
    · rw [cushionCap_starter hpos (not_le.mp hnot), min_self]
      exact hstarter
    · exact cushionCap_ne_zero hstarter fun hmid => hpos hmid.1

/-- What `Sizable` says can be sized. -/
theorem canSize_of_sizable (h : Sizable cfg s.realizedPnl) : s.CanSize cfg := by
  obtain ⟨hmax, h⟩ := h
  cases hmode : cfg.sizingMode with
  | flatBlock =>
      rw [hmode] at h
      exact canSize_of_flatBlock hmode hmax h
  | riskFormula =>
      rw [hmode] at h
      dsimp only at h
      have hneg : cfg.perTradeRiskDollars ≤ -(1 / 10000) →
          roundDown (cfg.perTradeRiskDollars * 10000) < 0 := fun hle =>
        roundDown_neg.mpr (by linarith)
      have hpos : 1 / 10000 ≤ cfg.perTradeRiskDollars →
          0 < roundDown (cfg.perTradeRiskDollars * 10000) := fun hle =>
        roundDown_pos.mpr (by linarith)
      refine canSize_of_smallest hmode hmax ?_
      split at h
      · -- the starter cap is in force
        rename_i hmid
        rw [cushionCap_starter hmid.1 hmid.2]
        rcases h with hs | hle | ⟨hs, hge⟩
        · omega
        · have hcount := hneg hle
          omega
        · have hcount := hpos hge
          omega
      · rename_i hout
        refine cushionCap_ne_zero ?_ hout
        rcases le_abs.mp h with hge | hle
        · exact (hpos hge).ne'
        · exact (hneg (by linarith)).ne

/-- **What can be sized at all**, from the configuration and the realized P&L alone. -/
theorem canSize_iff : s.CanSize cfg ↔ Sizable cfg s.realizedPnl :=
  ⟨sizable_of_canSize, canSize_of_sizable⟩

end Sizes

/-! ## The day, from its calls -/

/-- **The day is over**, as far as these calls show: a call halted it, or the P&L is at a U4 limit
now, or there are no trades left, or nothing can be sized with this P&L. -/
inductive DayOver (cfg : Config) (equity : ℚ) (calls : List RiskCall) : Prop where
  | halted : SomeAt (RiskCall.Halts cfg) calls → DayOver cfg equity calls
  | lost : (closedPnls calls).sum ≤ -effectiveLossLimit cfg equity cfg.avgWinDayPnl →
      DayOver cfg equity calls
  | gaveBack : 0 < peak (closedPnls calls) →
      (closedPnls calls).sum ≤ peak (closedPnls calls) * (1 - cfg.giveBackHard) →
      DayOver cfg equity calls
  | traded : cfg.maxTradesPerDay ≤ calls.countP RiskCall.opens → DayOver cfg equity calls
  | unsizable : ¬ Sizable cfg (closedPnls calls).sum → DayOver cfg equity calls

/-- A losing run of `THREE_STRIKES` after a close halted the session. -/
theorem someAt_of_strikes {cfg : Config} {calls : List RiskCall} (hclose : closedPnls calls ≠ [])
    (h : cfg.threeStrikes ≤ losingRun (closedPnls calls)) : SomeAt (RiskCall.Halts cfg) calls := by
  induction calls using List.reverseRecOn with
  | nil => exact absurd rfl hclose
  | append_singleton calls c ih =>
      rw [someAt_snoc]
      cases c with
      | recordOpen symbol price =>
          -- the closes are those of before
          have hpnls : closedPnls (calls ++ [.recordOpen symbol price]) = closedPnls calls :=
            (RiskState.closedPnls_snoc ..).trans (List.append_nil _)
          rw [hpnls] at hclose h
          exact Or.inl (ih hclose h)
      | recordClose symbol pnl =>
          rw [RiskState.closedPnls_snoc] at h
          exact Or.inr h
      | haltSession reason => exact Or.inr trivial

/-- What a state shows of its day its calls show. -/
theorem not_dayOpen_iff {cfg : Config} {equity : ℚ} (s₀ : RiskState) {calls : List RiskCall}
    (hclose : closedPnls calls ≠ []) :
    ¬ (s₀.resetSession.run cfg calls).DayOpen cfg equity ↔ DayOver cfg equity calls := by
  have hfold := RiskState.sessionFold_run cfg s₀ calls
  have hhalted := RiskState.halted_run_iff cfg s₀ calls
  have hpeak : (s₀.resetSession.run cfg calls).peakPnl = peak (closedPnls calls) :=
    hfold.peak.unique (isGreatest_peak _)
  -- the five ways a day is open are the five ways it is not over
  have hopen : (s₀.resetSession.run cfg calls).DayOpen cfg equity
      ↔ ¬ SomeAt (RiskCall.Halts cfg) calls
        ∧ (-effectiveLossLimit cfg equity cfg.avgWinDayPnl < (closedPnls calls).sum
          ∧ (0 < peak (closedPnls calls) →
            peak (closedPnls calls) * (1 - cfg.giveBackHard) < (closedPnls calls).sum))
        ∧ losingRun (closedPnls calls) < cfg.threeStrikes
        ∧ calls.countP RiskCall.opens < cfg.maxTradesPerDay
        ∧ Sizable cfg (closedPnls calls).sum := by
    rw [← hfold.realized, ← hfold.losses, ← hfold.trades, ← hpeak, ← hhalted,
      ← RiskState.not_limitHit_iff, ← canSize_iff, Bool.not_eq_true]
    exact ⟨fun ⟨a, b, c, d, e⟩ => ⟨a, b, c, d, e⟩, fun ⟨a, b, c, d, e⟩ => ⟨a, b, c, d, e⟩⟩
  rw [hopen]
  constructor
  · -- a way it is over would be missing from the open day
    intro h
    by_contra hover
    refine h ⟨fun hh => hover (.halted hh), ⟨?_, ?_⟩, ?_, ?_, ?_⟩
    · exact not_le.mp fun hl => hover (.lost hl)
    · exact fun hp => not_le.mp fun hl => hover (.gaveBack hp hl)
    · exact not_le.mp fun hl => hover (.halted (someAt_of_strikes hclose hl))
    · exact not_le.mp fun hl => hover (.traded hl)
    · by_contra hs
      exact hover (.unsizable hs)
  · -- each way it is over shuts one of them
    rintro hover ⟨hh, ⟨hloss, hback⟩, -, htrades, hsize⟩
    cases hover with
    | halted h => exact hh h
    | lost h => exact absurd hloss (not_lt.mpr h)
    | gaveBack hp h => exact absurd (hback hp) (not_lt.mpr h)
    | traded h => exact absurd htrades (not_lt.mpr h)
    | unsizable h => exact h hsize

/-- **When U4 is a shutdown.** In a session at a fixed equity, nothing is approved after the close
that reached a limit, all along, exactly when at every moment from then on the day is over as far
as the calls up to that moment show. -/
theorem shutdown_holds_iff (cfg : Config) (s₀ : RiskState) (equity : ℚ) (calls : List RiskCall) :
    (∀ before after, calls = before ++ after → ShutDown cfg s₀ equity before →
        (s₀.resetSession.run cfg before).NeverApproves cfg equity)
      ↔ ∀ before after, calls = before ++ after → ShutDown cfg s₀ equity before →
          DayOver cfg equity before := by
  have hmoment : ∀ before, ShutDown cfg s₀ equity before →
      ((s₀.resetSession.run cfg before).NeverApproves cfg equity ↔ DayOver cfg equity before) := by
    intro before hshut
    rw [RiskState.neverApproves_iff]
    obtain ⟨first, symbol, pnl, last, rfl, -⟩ := hshut
    exact not_dayOpen_iff s₀ (by simp [closedPnls, RiskCall.pnl])
  constructor
  · intro h before after hcalls hshut
    exact (hmoment before hshut).mp (h before after hcalls hshut)
  · intro h before after hcalls hshut
    exact (hmoment before hshut).mpr (h before after hcalls hshut)

/-- Two positions are open; the first close costs a thousand dollars, the second brings six
hundred back. -/
def recoveredDay : List RiskCall :=
  [.recordOpen "FIRST" 10, .recordOpen "SECOND" 10, .recordClose "FIRST" (-1000),
    .recordClose "SECOND" 600]

/-- The shipped configuration, with five trades a day. -/
def fiveTrades : Config := { Config.defaults with maxTradesPerDay := 5 }

/-- The first close reaches the limit of a thousand dollars; after the second a trade is
approved again. -/
theorem recovered_after_shutdown :
    ¬ ∀ (cfg : Config) (s₀ : RiskState) (equity : ℚ) (calls : List RiskCall),
        ShutDown cfg s₀ equity calls →
          (s₀.resetSession.run cfg calls).NeverApproves cfg equity := by
  intro h
  have hshut : ShutDown fiveTrades .fresh 10000 recoveredDay :=
    ⟨[.recordOpen "FIRST" 10, .recordOpen "SECOND" 10], "FIRST", -1000,
      [.recordClose "SECOND" 600], rfl, Or.inl (by decide +kernel)⟩
  have hnever := h fiveTrades .fresh 10000 recoveredDay hshut cleanSignal 36000 1 none false
  exact absurd hnever (by decide +kernel)

end RossBot
