import RossBot.Lib.Runs
import RossBot.Lib.Tally
import RossBot.Risk.Manager

/-!
# A session of the risk manager

The calls that change the manager's state, in any order, from a reset on. After
any of them the state is a fold of the calls (`SessionFold`), except for the
halt: it is set by one call and no other lifts it, so it outlives the losing run
that caused it.
-/

namespace RossBot

open Lib

/-- A call that changes the state. -/
inductive RiskCall where
  | recordOpen (symbol : Symbol) (entryPrice : ℚ)
  | recordClose (symbol : Symbol) (pnl : ℚ)
  | haltSession (reason : String)

namespace RiskCall

/-- The P&L of a close. -/
def pnl : RiskCall → Option ℚ
  | .recordClose _ pnl => some pnl
  | _ => none

/-- Whether a position is opened. -/
def opens : RiskCall → Bool
  | .recordOpen _ _ => true
  | _ => false

/-- The call opens or closes a position of this symbol. -/
def About (symbol : Symbol) : RiskCall → Prop
  | .recordOpen sym _ | .recordClose sym _ => sym = symbol
  | .haltSession _ => False

end RiskCall

/-- The P&L of each close, in order. -/
def closedPnls (calls : List RiskCall) : List ℚ := calls.filterMap RiskCall.pnl

/-- The call halts the session, after these: it is `halt_session`, or a close that makes the losing
run `THREE_STRIKES` long. -/
def RiskCall.Halts (cfg : Config) (before : List RiskCall) : RiskCall → Prop
  | .recordOpen _ _ => False
  | .recordClose _ pnl => cfg.threeStrikes ≤ losingRun (closedPnls before ++ [pnl])
  | .haltSession _ => True

namespace RiskState

/-- One call. -/
def apply (cfg : Config) (s : RiskState) : RiskCall → RiskState
  | .recordOpen symbol entryPrice => s.recordOpen symbol entryPrice
  | .recordClose symbol pnl => recordClose cfg s symbol pnl
  | .haltSession reason => s.haltSession reason

/-- Any number of calls. -/
def run (cfg : Config) (s : RiskState) (calls : List RiskCall) : RiskState :=
  calls.foldl (apply cfg) s

/-- **The state is a fold of the calls.** -/
structure SessionFold (calls : List RiskCall) (s : RiskState) : Prop where
  realized : s.realizedPnl = (closedPnls calls).sum
  /-- The largest prefix sum; the empty prefix makes it at least zero. -/
  peak : IsGreatest { t | ∃ p, p <+: closedPnls calls ∧ t = p.sum } s.peakPnl
  losses : s.consecutiveLosses = losingRun (closedPnls calls)
  trades : s.tradesToday = calls.countP RiskCall.opens
  /-- What is open was opened, at that price, by the latest call about the symbol. -/
  positions : ∀ symbol price, s.openPositions.get? symbol = some price
    ↔ Latest (RiskCall.About symbol) (.recordOpen symbol price) calls

theorem run_snoc (cfg : Config) (s : RiskState) (calls : List RiskCall) (c : RiskCall) :
    run cfg s (calls ++ [c]) = apply cfg (run cfg s calls) c := foldl_snoc s calls c

/-! ## One call more -/

theorem closedPnls_snoc (calls : List RiskCall) (c : RiskCall) :
    closedPnls (calls ++ [c]) = closedPnls calls ++ c.pnl.toList := by
  unfold closedPnls
  cases hc : c.pnl <;> simp [hc]

theorem sessionFold_reset (s : RiskState) : SessionFold [] s.resetSession where
  realized := rfl
  peak := isGreatest_peak []
  losses := rfl
  trades := rfl
  positions symbol price := iff_of_false (by simp [resetSession, fresh]) not_latest_nil

/--
**One more call goes on with every fold.**

Only a close moves the P&L, its peak and the losing run; an opening counts a trade and
writes its symbol's price, a close takes that out, and a halt does none of it.
-/
theorem sessionFold_apply {cfg : Config} {calls : List RiskCall} {s : RiskState}
    (h : SessionFold calls s) (c : RiskCall) : SessionFold (calls ++ [c]) (apply cfg s c) := by
  cases c with
  | recordOpen sym entryPrice =>
      -- an opening closes nothing
      have hpnls : closedPnls (calls ++ [.recordOpen sym entryPrice]) = closedPnls calls :=
        (closedPnls_snoc ..).trans (List.append_nil _)
      refine ⟨hpnls ▸ h.realized, hpnls ▸ h.peak, hpnls ▸ h.losses, ?_, ?_⟩
      · rw [List.countP_append, Nat.cast_add, ← h.trades]; rfl
      · intro symbol price
        rw [latest_snoc, ← h.positions, apply, openPositions_recordOpen, Dict.get?_set]
        by_cases hs : symbol = sym
        · -- the symbol keeps its latest opening price
          simp [hs, RiskCall.About, eq_comm]
        · simp [hs, RiskCall.About, Ne.symm hs]
  | recordClose sym pnl =>
      have hpnls : closedPnls (calls ++ [.recordClose sym pnl]) = closedPnls calls ++ [pnl] :=
        closedPnls_snoc ..
      -- the greatest of the prefix sums is unique, so the stored peak is it
      have hpeak : s.peakPnl = peak (closedPnls calls) := h.peak.unique (isGreatest_peak _)
      refine ⟨?_, ?_, ?_, ?_, ?_⟩
      · rw [hpnls, List.sum_append, ← h.realized, List.sum_singleton]; rfl
      · have hnew : (apply cfg s (.recordClose sym pnl)).peakPnl
            = peak (closedPnls (calls ++ [.recordClose sym pnl])) := by
          rw [hpnls, peak_snoc, ← h.realized, ← hpeak]
          exact peakPnl_recordClose ..
        rw [hnew]
        exact isGreatest_peak _
      · rw [hpnls, losingRun_snoc, apply, consecutiveLosses_recordClose, h.losses]
        split <;> simp
      · rw [List.countP_append, Nat.cast_add, ← h.trades]; exact (add_zero _).symm
      · intro symbol price
        rw [latest_snoc, ← h.positions, apply, openPositions_recordClose, Dict.get?_erase]
        -- a close removes the symbol's price
        by_cases hs : symbol = sym
        · simp [hs, RiskCall.About]
        · simp [hs, RiskCall.About, Ne.symm hs]
  | haltSession reason =>
      -- a halt is no close, and leaves every fold as it is
      have hpnls : closedPnls (calls ++ [.haltSession reason]) = closedPnls calls :=
        (closedPnls_snoc ..).trans (List.append_nil _)
      refine ⟨hpnls ▸ h.realized, hpnls ▸ h.peak, hpnls ▸ h.losses, ?_, ?_⟩
      · rw [List.countP_append, Nat.cast_add, ← h.trades]; exact (add_zero _).symm
      · intro symbol price
        rw [latest_snoc, ← h.positions]
        simp [RiskCall.About, apply, haltSession]

/-- **After any calls the state is their fold.** -/
theorem sessionFold_run (cfg : Config) (s : RiskState) (calls : List RiskCall) :
    SessionFold calls (run cfg s.resetSession calls) := by
  induction calls using List.reverseRecOn with
  | nil => exact sessionFold_reset s
  | append_singleton calls c ih => rw [run_snoc]; exact sessionFold_apply ih c

/-! ## The halt -/

/-- A call halts the session, or leaves it halted. -/
theorem halted_apply_iff {cfg : Config} {s : RiskState} {before : List RiskCall}
    (h : SessionFold before s) (c : RiskCall) :
    (apply cfg s c).halted = true ↔ s.halted = true ∨ c.Halts cfg before := by
  cases c with
  | recordOpen => exact (or_iff_left id).symm
  | recordClose symbol pnl =>
      have hnext : SessionFold (before ++ [.recordClose symbol pnl])
          (apply cfg s (.recordClose symbol pnl)) := sessionFold_apply h _
      -- the losing run after the call is what `record_close` counts
      have hlosses := hnext.losses
      rw [closedPnls_snoc] at hlosses
      have hhalts : RiskCall.Halts cfg before (.recordClose symbol pnl)
          ↔ cfg.threeStrikes ≤ (recordClose cfg s symbol pnl).consecutiveLosses := hlosses ▸ Iff.rfl
      rw [hhalts]
      exact halted_recordClose
  | haltSession => exact iff_of_true rfl (Or.inr trivial)

/-- **The session is halted exactly when some call halted it**, however long ago. -/
theorem halted_run_iff (cfg : Config) (s : RiskState) (calls : List RiskCall) :
    (run cfg s.resetSession calls).halted = true ↔ SomeAt (RiskCall.Halts cfg) calls := by
  induction calls using List.reverseRecOn with
  | nil => exact iff_of_false (by simp [run, resetSession, fresh]) not_someAt_nil
  | append_singleton calls c ih =>
      rw [run_snoc, halted_apply_iff (sessionFold_run cfg s calls), ih, someAt_snoc]

end RiskState

/-- **A session of the risk manager.** After any calls from a reset on, the state is their fold;
and from the call that halts the session on, be it `halt_session` or the close that makes the
losing run `THREE_STRIKES` long, every evaluation is vetoed as halted, whatever is closed
after it. -/
theorem session_state (cfg : Config) (s₀ : RiskState) (calls : List RiskCall) :
    RiskState.SessionFold calls (s₀.resetSession.run cfg calls)
      ∧ ∀ before c after, calls = before ++ c :: after → c.Halts cfg before →
          ∀ signal timeOfDay dayOfWeek equity cap skip,
            (s₀.resetSession.run cfg calls).evaluate cfg signal timeOfDay dayOfWeek equity cap skip
              = ⟨false, 0, [.halted]⟩ := by
  refine ⟨RiskState.sessionFold_run cfg s₀ calls, ?_⟩
  intro before c after hcalls hc signal timeOfDay dayOfWeek equity cap skip
  exact RiskState.evaluate_halted
    ((RiskState.halted_run_iff cfg s₀ calls).mpr ⟨before, c, after, hcalls, hc⟩)
    signal timeOfDay dayOfWeek equity cap skip

end RossBot
