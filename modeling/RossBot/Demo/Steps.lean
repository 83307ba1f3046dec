import RossBot.Demo.Engine

/-!
# What the pieces of a step do

The small facts about the demo engine's operations that the invariants use: where
the tasks can be suspended when they move on and what they hold there, what the
checks leave of `risk`, and what booking an exit changes.
-/

namespace RossBot

open Lib

/-- Whether the loop only waits: it has nothing on its way to the broker, and no approved entry. -/
def EngineTask.waits : EngineTask → Bool
  | .awaitSignal _ _ _ _ _ _ | .awaitEntryAck _ _ _ | .awaitScaleAck _ _ _
  | .awaitExitAck _ _ _ => false
  | _ => true

/-- The loop is suspended between the gate and the order of an entry. -/
def EngineTask.approved : EngineTask → Bool
  | .awaitSignal _ _ _ _ _ _ => true
  | _ => false

/-- Whether the handler only waits: it has nothing on its way to the broker. -/
def OperatorTask.waits : OperatorTask → Bool
  | .done | .closeQuote _ _ _ | .scaleQuote _ _ _ | .orderReported _ _ _ | .awaitScan => true
  | _ => false

/-- What the loop holds satisfies `K`; a scale-out on its way sells a share at least. -/
def EngineTask.Holds (K : Symbol → ℕ → Prop) : EngineTask → Prop
  | .exitQuote _ symbol ref rest => K symbol ref ∧ ∀ b ∈ rest, K b.1 b.2
  | .awaitScaleAck exit half rest => K exit.symbol exit.ref ∧ 1 ≤ half ∧ ∀ b ∈ rest, K b.1 b.2
  | .awaitExitAck exit _ rest => K exit.symbol exit.ref ∧ ∀ b ∈ rest, K b.1 b.2
  | .scaleReported _ rest | .exitReported _ rest => ∀ b ∈ rest, K b.1 b.2
  | _ => True

/-- What a handler holds satisfies `K`; a scale-out on its way sells a share at least. -/
def OperatorTask.Holds (K : Symbol → ℕ → Prop) : OperatorTask → Prop
  | .closeQuote symbol ref _ | .closeAck symbol ref _ _ => ∀ r, ref = some r → K symbol r
  | .scaleQuote symbol ref _ => K symbol ref
  | .scaleAck exit half => K exit.symbol exit.ref ∧ 1 ≤ half
  | _ => True

theorem EngineTask.Holds.mono {K K' : Symbol → ℕ → Prop} (hK : ∀ a r, K a r → K' a r)
    {t : EngineTask} (h : t.Holds K) : t.Holds K' := by
  cases t with
  | exitQuote | awaitExitAck => exact ⟨hK _ _ h.1, fun b hb => hK _ _ (h.2 b hb)⟩
  | awaitScaleAck => exact ⟨hK _ _ h.1, h.2.1, fun b hb => hK _ _ (h.2.2 b hb)⟩
  | scaleReported | exitReported => exact fun b hb => hK _ _ (h b hb)
  | _ => trivial

theorem OperatorTask.Holds.mono {K K' : Symbol → ℕ → Prop} (hK : ∀ a r, K a r → K' a r)
    {t : OperatorTask} (h : t.Holds K) : t.Holds K' := by
  cases t with
  | closeQuote | closeAck => exact fun r hr => hK _ _ (h r hr)
  | scaleQuote => exact hK _ _ h
  | scaleAck => exact ⟨hK _ _ h.1, h.2⟩
  | _ => trivial

/-! ## Halting -/

namespace DemoRisk

/-- No close is recorded; the day may have been halted. -/
structure SameCounts (r r' : DemoRisk) : Prop where
  realized : r'.realizedPnl = r.realizedPnl
  losses : r'.consecutiveLosses = r.consecutiveLosses
  halted : r.halted = true → r'.halted = true

theorem SameCounts.refl (r : DemoRisk) : r.SameCounts r := ⟨rfl, rfl, id⟩

theorem SameCounts.trans {r r' r'' : DemoRisk} (h : r.SameCounts r') (h' : r'.SameCounts r'') :
    r.SameCounts r'' :=
  ⟨h'.realized.trans h.realized, h'.losses.trans h.losses, h'.halted ∘ h.halted⟩

theorem sameCounts_halt (r : DemoRisk) (reason : DemoHaltReason) : r.SameCounts (r.halt reason) := by
  unfold halt
  split
  · exact .refl r
  · exact ⟨rfl, rfl, fun _ => rfl⟩

theorem sameCounts_checkHalts (r : DemoRisk) (m : ℚ) : r.SameCounts (r.checkHalts m) := by
  have hwhen : ∀ (c : Prop) [Decidable c] (r : DemoRisk) reason,
      r.SameCounts (if c then r.halt reason else r) := by
    intro c _ r reason
    split
    · exact sameCounts_halt r _
    · exact .refl r
  exact (hwhen _ r _).trans (hwhen _ _ _)

theorem sameCounts_guard (r : DemoRisk) (halted paused window : Bool) (m : ℚ) :
    r.SameCounts (r.guard halted paused window m).1 := by
  unfold guard
  split_ifs <;> first | exact .refl r | exact sameCounts_halt r _

end DemoRisk

namespace Desk

variable {env : DemoEnv} {s s' : Desk} {K : Symbol → ℕ → Prop}

/-! ## Moving on -/

@[simp] theorem waits_nextExit (now : Time) (rest : List (Symbol × ℕ)) :
    (nextExit now rest).waits = true := by
  cases rest <;> rfl

@[simp] theorem waits_runExits (now : Time) : (s.runExits env now).waits = true := by
  unfold runExits
  split
  · exact waits_nextExit ..
  · rfl

@[simp] theorem waits_nextEntry (now : Time) (rest : List Symbol) :
    (s.nextEntry env now rest).waits = true := by
  induction rest with
  | nil => exact waits_runExits now
  | cons symbol rest ih =>
      unfold nextEntry
      split
      · exact ih
      · rfl

@[simp] theorem waits_afterScan (now : Time) (strategy : Bool) :
    (s.afterScan env now strategy).waits = true := by
  unfold afterScan
  split
  · exact waits_nextEntry ..
  · exact waits_runExits ..

theorem holds_nextExit {now : Time} {rest : List (Symbol × ℕ)} (h : ∀ b ∈ rest, K b.1 b.2) :
    (nextExit now rest).Holds K := by
  cases rest with
  | nil => trivial
  | cons b rest => exact ⟨h b List.mem_cons_self, fun b' hb' => h b' (List.mem_cons_of_mem _ hb')⟩

theorem holds_runExits (h : ∀ a r, s.positions.get? a = some r → K a r) (now : Time) :
    (s.runExits env now).Holds K := by
  unfold runExits
  split
  · exact holds_nextExit fun b hb => h b.1 b.2 (Dict.mem_items.mp hb)
  · trivial

theorem holds_nextEntry (h : ∀ a r, s.positions.get? a = some r → K a r) (now : Time)
    (rest : List Symbol) : (s.nextEntry env now rest).Holds K := by
  induction rest with
  | nil => exact holds_runExits h now
  | cons symbol rest ih =>
      unfold nextEntry
      split
      · exact ih
      · trivial

theorem holds_afterScan (h : ∀ a r, s.positions.get? a = some r → K a r) (now : Time)
    (strategy : Bool) : (s.afterScan env now strategy).Holds K := by
  unfold afterScan
  split
  · exact holds_nextEntry h now _
  · exact holds_runExits h now

/-! ## Handlers -/

theorem tasks_setTask (i : ℕ) (t : OperatorTask) (j : ℕ) :
    (s.setTask i t).tasks j = if j = i then t else s.tasks j := Function.update_apply ..

/-! ## Booking an exit -/

theorem shares_bookScaleOut (exit : PendingExit) (half : ℤ) (ref : ℕ) :
    ((s.bookScaleOut exit half).objects ref).shares
      = if ref = exit.ref then (s.objects ref).shares - half else (s.objects ref).shares := by
  unfold bookScaleOut recordClose setObject recordJournal
  dsimp only
  by_cases h : ref = exit.ref
  · rw [if_pos h, h, Function.update_self]
  · rw [if_neg h, Function.update_of_ne h, Function.update_of_ne h]

theorem log_bookScaleOut (exit : PendingExit) (half : ℤ) :
    ∃ pnl, (s.bookScaleOut exit half).log
      = s.log ++ [.journaled (some exit.ref) half, .recordedClose (some exit.ref) half pnl] :=
  ⟨_, List.append_assoc ..⟩

theorem log_bookExit (exit : PendingExit) (reason : DemoExit) :
    ∃ pnl, (s.bookExit exit reason).log
      = s.log ++ [.journaled (some exit.ref) (s.objects exit.ref).shares,
        .recordedClose (some exit.ref) (s.objects exit.ref).shares pnl] :=
  ⟨_, List.append_assoc ..⟩

theorem forget_none {symbol : Symbol} (h : s.forget symbol = none) :
    s.positions.get? symbol = none := by
  unfold forget at h
  split at h
  · assumption
  · exact absurd h (by simp)

theorem forget_some {symbol : Symbol} (h : s.forget symbol = some s') :
    (∃ ref, s.positions.get? symbol = some ref)
      ∧ s' = { s with positions := s.positions.erase symbol } := by
  unfold forget at h
  split at h
  · exact absurd h (by simp)
  · rename_i ref hget
    exact ⟨⟨ref, hget⟩, (Option.some.inj h).symm⟩

/-! ## Guards -/

variable (env s) in
/-- The risk gate halts the day, or leaves everything as it was. -/
theorem riskGate_state (now : Time) (gate : GateResult) :
    ∃ r : DemoRisk, (riskGate env now gate s).1 = { s with risk := r } ∧ s.risk.SameCounts r := by
  have hguard := s.risk.sameCounts_guard s.svc.halted s.svc.isPaused (withinEntryWindow env now)
    (s.effectiveMaxDailyLoss env)
  unfold riskGate
  cases hg : s.risk.guard s.svc.halted s.svc.isPaused (withinEntryWindow env now)
      (s.effectiveMaxDailyLoss env) with
  | mk r veto =>
      rw [hg] at hguard
      cases veto with
      | some v => exact ⟨r, rfl, hguard⟩
      | none =>
          refine ⟨s.risk, ?_, .refl _⟩
          dsimp only
          split_ifs <;> rfl

/-- What the risk gate approves was not halted, and is left as it was. -/
theorem riskGate_ok {now : Time} {gate : GateResult} {shares : ℤ}
    (h : riskGate env now gate s = (s', .ok shares)) :
    s' = s ∧ s.risk.halted = false ∧ 0 < shares := by
  unfold riskGate at h
  cases hg : s.risk.guard s.svc.halted s.svc.isPaused (withinEntryWindow env now)
      (s.effectiveMaxDailyLoss env) with
  | mk r veto =>
      rw [hg] at h
      cases veto with
      | some v => exact absurd (Prod.mk.inj h).2 (by simp)
      | none =>
          dsimp only at h
          -- an invalid stop and a size of nothing are vetoes, too
          split_ifs at h with hstop hsize
          · exact absurd (Prod.mk.inj h).2 (by simp)
          · exact absurd (Prod.mk.inj h).2 (by simp)
          · obtain ⟨hs, hn⟩ := Prod.mk.inj h
            exact ⟨hs.symm, (DemoRisk.guard_none hg).2.2.1, by
              rw [← Except.ok.inj hn]; exact not_le.mp hsize⟩

variable (env s) in
/-- The manual guardrails refuse, and may halt the day; or it was not halted, and is left as it
was. -/
theorem manualGuardrails_cases :
    (∃ r veto, manualGuardrails env s = ({ s with risk := r }, some veto) ∧ s.risk.SameCounts r)
      ∨ manualGuardrails env s = (s, none) ∧ s.risk.halted = false := by
  have hcounts := s.risk.sameCounts_guard s.svc.halted s.svc.isPaused true
    (s.effectiveMaxDailyLoss env)
  unfold manualGuardrails
  cases hg : s.risk.guard s.svc.halted s.svc.isPaused true (s.effectiveMaxDailyLoss env) with
  | mk r veto =>
      rw [hg] at hcounts
      cases veto with
      | some veto => exact Or.inl ⟨r, veto, rfl, hcounts⟩
      | none =>
          obtain ⟨rfl, -, hh, -⟩ := DemoRisk.guard_none hg
          exact Or.inr ⟨rfl, hh⟩

variable (env s) in
/-- The outcomes of `manual_order`: nothing sent, a SELL, or a BUY while the day is not halted. -/
theorem manualOrder_cases (i : ℕ) (symbol : Symbol) (side : Side) (qty : ℤ) (limitPrice : ℚ)
    (stop : Option ℚ) :
    (∃ r : DemoRisk, manualOrder env i symbol side qty limitPrice stop s = { s with risk := r }
      ∧ s.risk.SameCounts r)
    ∨ (side = .sell ∧ manualOrder env i symbol side qty limitPrice stop s
        = sendManual i symbol .sell qty limitPrice stop s)
    ∨ (env.connected = true ∧ s.risk.halted = false
      ∧ manualOrder env i symbol side qty limitPrice stop s
        = sendManual i symbol .buy (min qty env.cfg.maxPositionSize) limitPrice stop s) := by
  unfold manualOrder
  by_cases hconn : env.connected = true
  · rw [if_neg (by simp [hconn])]
    split
    · exact Or.inl ⟨s.risk, rfl, .refl _⟩
    cases side with
    | sell => exact Or.inr (Or.inl ⟨rfl, rfl⟩)
    | buy =>
        rcases manualGuardrails_cases env s with ⟨r, veto, hg, hr⟩ | ⟨hg, hh⟩
        · rw [hg]
          exact Or.inl ⟨r, rfl, hr⟩
        · rw [hg]
          exact Or.inr (Or.inr ⟨hconn, hh, rfl⟩)
  · rw [if_pos (by simpa using hconn)]
    exact Or.inl ⟨s.risk, rfl, .refl _⟩

variable (env s) in
/-- The outcomes of `manual_trade`: nothing sent, or a BUY while the day is not halted, of a size
within the budget. -/
theorem manualTrade_cases (i : ℕ) (symbol : Symbol) (entry stop : ℚ) (shares : ℤ) :
    (∃ r : DemoRisk, manualTrade env i symbol entry stop shares s = { s with risk := r }
      ∧ s.risk.SameCounts r)
    ∨ (env.connected = true ∧ s.risk.halted = false ∧ quantize2 stop < quantize2 entry
      ∧ ∃ qty, 0 < qty
        ∧ qty ≤ s.risk.budgetShares env.cfg.perTradeRisk (quantize2 entry - quantize2 stop)
        ∧ manualTrade env i symbol entry stop shares s = sendManual i symbol .buy qty
          (quantize2 entry + demoBuyOffset) (some (quantize2 stop)) s) := by
  unfold manualTrade
  by_cases hconn : env.connected = true
  · rw [if_neg (by simp [hconn])]
    rcases manualGuardrails_cases env s with ⟨r, veto, hg, hr⟩ | ⟨hg, -⟩
    · rw [hg]
      exact Or.inl ⟨r, rfl, hr⟩
    · rw [hg]
      dsimp only
      generalize s.risk.budgetShares env.cfg.perTradeRisk
        (quantize2 entry - quantize2 stop) = budget
      by_cases hrisk : quantize2 entry - quantize2 stop ≤ 0
      · rw [if_pos hrisk]
        exact Or.inl ⟨s.risk, rfl, .refl _⟩
      rw [if_neg hrisk]
      by_cases hsized : min (min budget (max 0 shares)) env.cfg.maxPositionSize ≤ 0
      · rw [if_pos hsized]
        exact Or.inl ⟨s.risk, rfl, .refl _⟩
      rw [if_neg hsized]
      rcases manualOrder_cases env s i symbol .buy
        (min (min budget (max 0 shares)) env.cfg.maxPositionSize)
        (quantize2 entry + demoBuyOffset) (some (quantize2 stop)) with h | ⟨h, -⟩ | ⟨hc, hh, h⟩
      · exact Or.inl h
      · exact absurd h (by simp)
      · exact Or.inr ⟨hc, hh, sub_pos.mp (not_le.mp hrisk), _, by omega, by omega, h⟩
  · rw [if_pos (by simpa using hconn)]
    exact Or.inl ⟨s.risk, rfl, .refl _⟩

end Desk

end RossBot
