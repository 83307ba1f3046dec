import RossBot.Demo.Halt
import RossBot.Demo.Ledger
import RossBot.Risk.Approval

/-!
# The dashboard's guardrails

`_risk_gate` and `_manual_guardrails` check again what the Risk Manager's
`evaluate_pre_trade` checks: a halted day, the daily loss, three strikes. Neither
looks at `peak_pnl`, so a day that has given back its gains passes them
(`dashboard_strict_iff`); and three losses halt the day only when somebody looks
while the counter still says so (`strikes_stick`).
-/

namespace RossBot

open Lib

/-! ## What the gates refuse -/

/-- A BUY passes neither gate. -/
structure Desk.RefusesBuy (env : DemoEnv) (s : Desk) (now : Time) (gate : GateResult) : Prop where
  auto : ∃ veto, (riskGate env now gate s).2 = .error veto
  manual : (manualGuardrails env s).2 ≠ none

/-- The shared checks refuse exactly for one of these reasons. -/
theorem DemoRisk.guard_ne_none {r : DemoRisk} {halted paused window : Bool} {m : ℚ} :
    (r.guard halted paused window m).2 ≠ none
      ↔ halted = true ∨ r.halted = true ∨ paused = true ∨ window = false
        ∨ 3 ≤ r.consecutiveLosses ∨ r.realizedPnl ≤ -m := by
  unfold DemoRisk.guard
  -- the flags one by one: the first that is set decides
  cases halted <;> cases hh : r.halted <;> cases paused <;> cases window <;> simp
  by_cases hstrikes : 3 ≤ r.consecutiveLosses
  · simp [hstrikes]
  · by_cases hloss : r.realizedPnl ≤ -m <;> simp [hstrikes, hloss]

namespace Desk

variable {env : DemoEnv} {s : Desk} {now : Time} {gate : GateResult}

/-- What the shared checks refuse, the risk gate refuses. -/
theorem riskGate_error (h : (s.risk.guard s.svc.halted s.svc.isPaused (withinEntryWindow env now)
    (s.effectiveMaxDailyLoss env)).2 ≠ none) : ∃ veto, (riskGate env now gate s).2 = .error veto := by
  unfold riskGate
  cases hg : s.risk.guard s.svc.halted s.svc.isPaused (withinEntryWindow env now)
      (s.effectiveMaxDailyLoss env) with
  | mk r veto =>
      rw [hg] at h
      cases veto with
      | some v => exact ⟨v, rfl⟩
      | none => exact absurd rfl h

/-- Both gates refuse exactly when the manual one does: the other only looks at more. -/
theorem refusesBuy_iff : s.RefusesBuy env now gate
    ↔ s.svc.halted = true ∨ s.risk.halted = true ∨ s.svc.isPaused = true
      ∨ 3 ≤ s.risk.consecutiveLosses ∨ s.risk.realizedPnl ≤ -s.effectiveMaxDailyLoss env := by
  -- the manual gate's window is always open
  constructor
  · intro h
    rcases DemoRisk.guard_ne_none.mp h.manual with h | h | h | h | h | h
    · exact Or.inl h
    · exact Or.inr (Or.inl h)
    · exact Or.inr (Or.inr (Or.inl h))
    · exact absurd h (by simp)
    · exact Or.inr (Or.inr (Or.inr (Or.inl h)))
    · exact Or.inr (Or.inr (Or.inr (Or.inr h)))
  · intro h
    have hall : ∀ window, (s.risk.guard s.svc.halted s.svc.isPaused window
        (s.effectiveMaxDailyLoss env)).2 ≠ none := by
      intro window
      rw [DemoRisk.guard_ne_none]
      -- with any of the others the shared checks refuse, whatever the window says
      tauto
    exact ⟨riskGate_error (hall _), hall true⟩

end Desk

/-! ## The Risk Manager's gate -/

/-- The vetoes that end the day. -/
def VetoReason.hard : VetoReason → Bool
  | .halted | .dailyLossLimit | .giveBackHard | .threeStrikes => true
  | _ => false

/-- The Risk Manager's gate would give a veto that ends the day. -/
def HardVeto (signal : EntrySignal) (state : RiskState) (cfg : Config) (timeOfDay equity : ℚ)
    (catalystSkip : Bool) : Prop :=
  ∃ v ∈ evaluatePreTrade signal state cfg timeOfDay equity catalystSkip, v.hard = true

instance {signal : EntrySignal} {state : RiskState} {cfg : Config} {timeOfDay equity : ℚ}
    {catalystSkip : Bool} : Decidable (HardVeto signal state cfg timeOfDay equity catalystSkip) :=
  inferInstanceAs (Decidable (∃ v ∈ evaluatePreTrade _ _ _ _ _ _, _))

theorem hardVeto_iff {signal : EntrySignal} {state : RiskState} {cfg : Config}
    {timeOfDay equity : ℚ} {catalystSkip : Bool} :
    HardVeto signal state cfg timeOfDay equity catalystSkip
      ↔ state.halted = true ∨ state.realizedPnl ≤ -effectiveLossLimit cfg equity cfg.avgWinDayPnl
        ∨ (0 < state.peakPnl ∧ state.realizedPnl ≤ state.peakPnl * (1 - cfg.giveBackHard))
        ∨ cfg.threeStrikes ≤ state.consecutiveLosses := by
  unfold HardVeto evaluatePreTrade
  by_cases hh : state.halted = true
  · -- a halted day is vetoed before anything else is looked at
    rw [if_pos hh]
    simp [hh, VetoReason.hard]
  · rw [if_neg hh]
    simp only [List.mem_append, mem_vetoWhen, or_and_right, exists_or, and_assoc, exists_and_left,
      exists_eq_left, VetoReason.hard, hh]
    simp [or_assoc]

/-! ## The same day -/

/-- The engine's day and the Risk Manager's are the same, and so are their limits. -/
structure SameDay (env : DemoEnv) (s : Desk) (cfg : Config) (equity : ℚ) (state : RiskState) :
    Prop where
  realized : state.realizedPnl = s.risk.realizedPnl
  peak : state.peakPnl = s.risk.peakPnl
  losses : state.consecutiveLosses = s.risk.consecutiveLosses
  halted : state.halted = s.risk.halted
  limit : effectiveLossLimit cfg equity cfg.avgWinDayPnl = s.effectiveMaxDailyLoss env
  strikes : cfg.threeStrikes = 3

/-- **The dashboard does not know the give-back rule**: what the Risk Manager would veto for the day
is refused by both of its gates, exactly if the hard give-back is not reached, or something else
that they look at is. -/
theorem dashboard_strict_iff (env : DemoEnv) (s : Desk) (cfg : Config) (equity : ℚ)
    (state : RiskState) (h : SameDay env s cfg equity state) (signal : EntrySignal)
    (timeOfDay : ℚ) (catalystSkip : Bool) (now : Time) (gate : GateResult) :
    (HardVeto signal state cfg timeOfDay equity catalystSkip → s.RefusesBuy env now gate)
      ↔ ¬ (0 < s.risk.peakPnl ∧ s.risk.realizedPnl ≤ s.risk.peakPnl * (1 - cfg.giveBackHard))
        ∨ s.svc.halted = true ∨ s.risk.halted = true ∨ s.svc.isPaused = true
        ∨ 3 ≤ s.risk.consecutiveLosses ∨ s.risk.realizedPnl ≤ -s.effectiveMaxDailyLoss env := by
  rw [hardVeto_iff, Desk.refusesBuy_iff, h.halted, h.realized, h.peak, h.losses, h.limit, h.strikes]
  tauto

/-- Three small losses in a row. -/
def struckOut : Desk :=
  { Desk.init deskDay with
    risk := { DemoRisk.fresh with realizedPnl := -30, consecutiveLosses := 3 } }

/-- Three strikes are refused by both. -/
theorem dashboard_strict_strikes : struckOut.RefusesBuy deskDay openingBell .insufficientBars := by
  have hsame : SameDay deskDay struckOut .defaults 5000
      { RiskState.fresh with realizedPnl := -30, consecutiveLosses := 3 } :=
    ⟨rfl, rfl, rfl, rfl, by decide +kernel, rfl⟩
  exact (dashboard_strict_iff deskDay struckOut .defaults 5000 _ hsame cleanSignal 36000 false
    openingBell .insufficientBars).mpr (by decide +kernel) (by decide +kernel)

/-- A thousand dollars were made, and six hundred given back. -/
def gaveBack : Desk :=
  { Desk.init deskDay with risk := { DemoRisk.fresh with realizedPnl := 400, peakPnl := 1000 } }

/-- The Risk Manager stops there; the dashboard does not. -/
theorem gave_back_not_refused :
    ¬ ∀ (env : DemoEnv) (s : Desk) (cfg : Config) (equity : ℚ) (state : RiskState),
        SameDay env s cfg equity state → ∀ signal timeOfDay catalystSkip now gate,
          HardVeto signal state cfg timeOfDay equity catalystSkip → s.RefusesBuy env now gate := by
  intro h
  have hsame : SameDay deskDay gaveBack .defaults 5000
      { RiskState.fresh with realizedPnl := 400, peakPnl := 1000 } :=
    ⟨rfl, rfl, rfl, rfl, by decide +kernel, rfl⟩
  have hrefused := h deskDay gaveBack .defaults 5000 _ hsame cleanSignal 36000 false openingBell
    .insufficientBars (by decide +kernel)
  exact hrefused.manual (by decide +kernel)

/-! ## Three strikes -/

/-- No profitable close is booked while three losses in a row are still to be noticed. -/
def KeepsStrikes (env : DemoEnv) (m : Move Desk DeskLabel) : Prop :=
  3 ≤ m.pre.risk.consecutiveLosses → m.pre.risk.halted = false →
    ∀ c ∈ m.pre.journals (m.pre.posting env m.label), c.realized ≤ 0

instance (env : DemoEnv) : DecidablePred (KeepsStrikes env) :=
  fun _ => inferInstanceAs (Decidable (_ → _ → _))

namespace Desk

variable {env : DemoEnv} {s s' : Desk}

/-- Three losses in a row, or a halt. -/
def Struck (s : Desk) : Prop := s.risk.halted = true ∨ 3 ≤ s.risk.consecutiveLosses

theorem Struck.refuses (h : s.Struck) (now : Time) (gate : GateResult) :
    s.RefusesBuy env now gate := by
  refine refusesBuy_iff.mpr ?_
  rcases h with h | h
  · exact Or.inr (Or.inl h)
  · exact Or.inr (Or.inr (Or.inr (Or.inl h)))

/-- A close that is no profit does not reset the counter. -/
theorem losses_post {p : Posting} (h : ∀ c ∈ s.journals p, c.realized ≤ 0) :
    s.risk.consecutiveLosses ≤ (s.post p).risk.consecutiveLosses := by
  have hclose : ∀ (r : DemoRisk) {pnl : ℚ}, pnl ≤ 0 →
      r.consecutiveLosses ≤ (r.recordClose pnl).consecutiveLosses := by
    intro r pnl hpnl
    unfold DemoRisk.recordClose
    dsimp only
    rw [if_neg (not_lt.mpr hpnl)]
    exact (lt_add_one _).le
  -- three postings record a close; the others leave the counter
  cases p with
  | scales exit half => exact hclose _ (h _ (List.mem_singleton.mpr rfl))
  | closes exit reason => exact hclose _ (h _ (List.mem_singleton.mpr rfl))
  | replays pos x reason now => exact hclose _ (h _ (List.mem_singleton.mpr rfl))
  | _ => exact le_refl _

theorem Struck.step {l : DeskLabel} (h : s.Struck) (hs : s.step env l = some s')
    (hc : KeepsStrikes env ⟨s, l, s'⟩) : s'.Struck := by
  have hrisk := (step_posts hs).risk
  -- the halt is kept by every posting
  by_cases hh : s.risk.halted = true
  · exact Or.inl (hrisk.halted (by rw [halted_post, hh]))
  · -- until then the counter is, since no profit is booked
    have hstrikes : 3 ≤ s.risk.consecutiveLosses := h.resolve_left hh
    have hkept := losses_post (hc hstrikes (Bool.not_eq_true _ ▸ hh))
    right
    rw [hrisk.losses]
    exact le_trans hstrikes hkept

end Desk

/-- **When three strikes stick**: in a run in which no profitable close is booked between the third
loss and the halt, no BUY passes a gate after the third loss. -/
theorem strikes_stick (env : DemoEnv) (x : DeskRun env) (hC : ∀ m ∈ x.moves, KeepsStrikes env m)
    (ms ms' : List (Move Desk DeskLabel)) (s s' : Desk) (h : x.Passes ms s)
    (h' : x.Passes (ms ++ ms') s') (hstrikes : 3 ≤ s.risk.consecutiveLosses) (now : Time)
    (gate : GateResult) : s'.RefusesBuy env now gate := by
  have hlater : ∀ m ∈ ms', KeepsStrikes env m := fun m hm =>
    hC m (h'.1.subset (List.mem_append_right _ hm))
  have hstruck : s'.Struck := (h.run h').invariant_of (I := Desk.Struck) (Or.inr hstrikes)
    (fun _ _ _ _ hi hs hc => hi.step hs hc) hlater
  exact hstruck.refuses now gate

/-- Four positions of ten shares each; three are closed ten cents lower. -/
def threeLosses : List DeskLabel :=
  let buy (i : ℕ) (symbol : Symbol) : List DeskLabel :=
    [.request i (.manualOrder symbol .buy 10 10), .taskAck i orderTaken]
  let close (i : ℕ) (symbol : Symbol) : List DeskLabel :=
    [.request i (.closePosition symbol), .taskQuote i (some ⟨cents 990, cents 995⟩),
      .taskAck i orderTaken]
  buy 0 "A" ++ buy 1 "B" ++ buy 2 "C" ++ buy 3 "D" ++ close 4 "A" ++ close 5 "B" ++ close 6 "C"

/-- Three losses, and nobody has looked. -/
def struckRun : DeskRun deskDay := (Execution.start _ _).play threeLosses

/-- The fourth is closed ten cents higher. -/
def thenProfit : List DeskLabel :=
  [.request 7 (.closePosition "D"), .taskQuote 7 (some ⟨cents 1010, cents 1015⟩),
    .taskAck 7 orderTaken]

/-- Right after the third loss. -/
theorem strikes_stick_third : struckRun.final.RefusesBuy deskDay openingBell .insufficientBars := by
  have hkept : ∀ m ∈ struckRun.moves, KeepsStrikes deskDay m := by decide +kernel
  have hstrikes : 3 ≤ struckRun.final.risk.consecutiveLosses := by decide +kernel
  exact strikes_stick deskDay struckRun hkept struckRun.moves [] struckRun.final struckRun.final
    struckRun.passes_final (by rw [List.append_nil]; exact struckRun.passes_final) hstrikes
    openingBell .insufficientBars

/-- After the fourth close the dashboard lets the operator buy again. -/
theorem strikes_forgotten :
    ¬ ∀ (env : DemoEnv) (x : DeskRun env) (ms ms' : List (Move Desk DeskLabel)) (s s' : Desk),
        x.Passes ms s → x.Passes (ms ++ ms') s' → 3 ≤ s.risk.consecutiveLosses →
          ∀ now gate, s'.RefusesBuy env now gate := by
  intro h
  have hstrikes : 3 ≤ struckRun.final.risk.consecutiveLosses := by decide +kernel
  have hpasses : (Desk.manualGuardrails deskDay (struckRun.play thenProfit).final).2 = none := by
    decide +kernel
  obtain ⟨ms', hms⟩ := struckRun.prefix_play thenProfit
  have hlater : (struckRun.play thenProfit).Passes (struckRun.moves ++ ms')
      (struckRun.play thenProfit).final := by
    rw [hms]
    exact (struckRun.play thenProfit).passes_final
  have hrefused := h deskDay _ struckRun.moves ms' struckRun.final _
    (struckRun.passes_play thenProfit) hlater hstrikes openingBell .insufficientBars
  exact hrefused.manual hpasses

end RossBot
