import RossBot.Backtest.Replay

/-!
# What one event can do

The loop keeps one `open_pos`; the strategy engine and the risk manager keep
copies of it. `Agree` says the copies match and that nothing else is held
anywhere, and every event preserves it (`agree_loop`). Under it, the body of the
loop has seven outcomes, listed in `Turn`; every property of a replay is derived
from that list, not from the code again.
-/

namespace RossBot

open Lib

namespace Replay

variable {env : Backtest} {s s' : Replay} {e : ReplayBar}

/-! ## Agreement -/

/-- The part of a position that the strategy engine and the loop both keep. -/
structure PositionCopy where
  symbol : Symbol
  entryPrice : Money
  stopPrice : Money
  shares : ℤ

end Replay

/-- What the strategy engine keeps of a position. -/
def PositionSnapshot.copy (q : PositionSnapshot) : Replay.PositionCopy :=
  ⟨q.symbol, q.entryPrice, q.currentStop, q.shares⟩

/-- What the loop keeps of a position; the engine quantizes the entry price. -/
def OpenPosition.copy (p : OpenPosition) : Replay.PositionCopy :=
  ⟨p.symbol, .of p.entryPrice, p.stopPrice, p.shares⟩

@[simp] theorem PositionSnapshot.copy_mark (q : PositionSnapshot) (c : Money) :
    (q.mark c).copy = q.copy := by
  unfold PositionSnapshot.mark; split <;> rfl

namespace Replay

variable {env : Backtest} {s s' : Replay} {e : ReplayBar}

/-- The open position, if it is of this symbol. -/
def heldFor (s : Replay) (sym : Symbol) : Option OpenPosition :=
  s.openPos.filter fun p => p.symbol = sym

/-- **The three copies match**, symbol by symbol, and a position is only open on some day. -/
structure Agree (s : Replay) : Prop where
  engine : ∀ sym, (s.engine.position sym).map (·.copy) = (s.heldFor sym).map (·.copy)
  risk : ∀ sym, s.risk.openPositions.get? sym = (s.heldFor sym).map (·.entryPrice)
  day : ∀ p, s.openPos = some p → ∃ d, s.simDay = some d

theorem heldFor_of_none (h : s.openPos = none) (sym : Symbol) : s.heldFor sym = none := by
  rw [heldFor, h]; rfl

theorem heldFor_of_some {p : OpenPosition} (h : s.openPos = some p) (sym : Symbol) :
    s.heldFor sym = if p.symbol = sym then some p else none := by
  rw [heldFor, h, Option.filter_some]
  simp

theorem heldFor_eq_some {p : OpenPosition} {sym : Symbol} :
    s.heldFor sym = some p ↔ s.openPos = some p ∧ p.symbol = sym := by
  rw [heldFor, Option.filter_eq_some_iff]
  simp

theorem Agree.engine_none (h : s.Agree) {sym : Symbol} (hs : s.heldFor sym = none) :
    s.engine.position sym = none := by
  have := h.engine sym
  rw [hs] at this
  simpa using this

theorem Agree.risk_none (h : s.Agree) {sym : Symbol} (hs : s.heldFor sym = none) :
    s.risk.openPositions.get? sym = none := by
  rw [h.risk, hs]; rfl

/-- A position of the engine is the open one. -/
theorem Agree.held_of_engine (h : s.Agree) {sym : Symbol} {q : PositionSnapshot}
    (hq : s.engine.position sym = some q) :
    ∃ p, s.openPos = some p ∧ p.symbol = sym ∧ q.copy = p.copy := by
  have he := h.engine sym
  rw [hq] at he
  obtain ⟨p, hp, hc⟩ := Option.map_eq_some_iff.mp he.symm
  obtain ⟨ho, hsym⟩ := heldFor_eq_some.mp hp
  exact ⟨p, ho, hsym, hc.symm⟩

theorem agree_start : start.Agree :=
  ⟨fun _ => rfl, fun _ => rfl, fun _ h => absurd h (by simp [start])⟩

/-- Whatever the engine, the risk manager and the loop agree on depends on nothing else. -/
theorem Agree.congr (h : s.Agree) (ho : s'.openPos = s.openPos)
    (he : ∀ sym, (s'.engine.position sym).map (·.copy) = (s.engine.position sym).map (·.copy))
    (hr : s'.risk.openPositions = s.risk.openPositions)
    (hd : ∀ d, s.simDay = some d → ∃ d', s'.simDay = some d') : s'.Agree := by
  have hheld : ∀ sym, s'.heldFor sym = s.heldFor sym := fun sym => by rw [heldFor, ho, heldFor]
  refine ⟨?_, ?_, ?_⟩
  · intro sym; rw [he, h.engine, hheld]
  · intro sym; rw [hr, h.risk, hheld]
  · intro p hp
    obtain ⟨d, hd'⟩ := h.day p (ho ▸ hp)
    exact hd d hd'

/-! ## Closing -/

@[simp] theorem completeTrade_openPos (pos : OpenPosition) (x f : ℚ) (r : TradeExit) :
    (s.completeTrade env pos e x f r).openPos = none := rfl

@[simp] theorem completeTrade_log (pos : OpenPosition) (x f : ℚ) (r : TradeExit) :
    (s.completeTrade env pos e x f r).log = s.log ++ [.closed e pos (tradeRecord pos e x f r)] :=
  rfl

@[simp] theorem completeTrade_simDay (pos : OpenPosition) (x f : ℚ) (r : TradeExit) :
    (s.completeTrade env pos e x f r).simDay
      = s.simDay.map (·.append (tradeRecord pos e x f r)) := rfl

@[simp] theorem completeTrade_days (pos : OpenPosition) (x f : ℚ) (r : TradeExit) :
    (s.completeTrade env pos e x f r).days = s.days := rfl

/-- Closing the only position leaves nothing anywhere. -/
theorem agree_completeTrade {pos : OpenPosition} {x f : ℚ} {r : TradeExit}
    (h : ∀ sym, sym ≠ pos.symbol → s.engine.position sym = none
      ∧ s.risk.openPositions.get? sym = none) :
    (s.completeTrade env pos e x f r).Agree := by
  refine ⟨?_, ?_, ?_⟩
  · -- the engine forgets the closed symbol and held no other
    intro sym
    rw [heldFor_of_none rfl]
    have hpos : (s.completeTrade env pos e x f r).engine.position sym = none := by
      rw [completeTrade]
      dsimp only
      rw [StrategyEngine.position_closePosition]
      split
      · rfl
      · rename_i hne; exact (h sym hne).1
    rw [hpos]; rfl
  · -- and so does the risk book
    intro sym
    rw [heldFor_of_none rfl, completeTrade]
    dsimp only
    rw [RiskState.openPositions_recordClose, Dict.get?_erase]
    split
    · rfl
    · rename_i hne; exact (h sym hne).2
  · intro p hp
    exact absurd hp (by simp)

theorem Agree.only (h : s.Agree) {pos : OpenPosition} (hp : s.openPos = some pos) (sym : Symbol)
    (hne : sym ≠ pos.symbol) :
    s.engine.position sym = none ∧ s.risk.openPositions.get? sym = none := by
  have hnone : s.heldFor sym = none := by
    rw [heldFor_of_some hp, if_neg (Ne.symm hne)]
  exact ⟨h.engine_none hnone, h.risk_none hnone⟩

/-! ## The day boundary -/

theorem flattenResidual_of_none (h : s.openPos = none) : s.flattenResidual env e = s := by
  rw [flattenResidual, h]

theorem Agree.flattenResidual_of_some (h : s.Agree) {pos : OpenPosition}
    (hp : s.openPos = some pos) : s.flattenResidual env e = s.eodFlatten env pos e := by
  obtain ⟨d, hd⟩ := h.day pos hp
  rw [flattenResidual, hp, hd]

theorem Agree.flattenResidual (h : s.Agree) : (s.flattenResidual env e).Agree := by
  cases hp : s.openPos with
  | none => rw [flattenResidual_of_none hp]; exact h
  | some pos => rw [h.flattenResidual_of_some hp]; exact agree_completeTrade (h.only hp)

theorem Agree.flattenResidual_openPos (h : s.Agree) :
    (s.flattenResidual env e).openPos = none := by
  cases hp : s.openPos with
  | none => rw [flattenResidual_of_none hp]; exact hp
  | some pos => rw [h.flattenResidual_of_some hp]; rfl

@[simp] theorem finaliseSimDay_openPos : s.finaliseSimDay.openPos = s.openPos := by
  unfold finaliseSimDay; split <;> rfl

@[simp] theorem finaliseSimDay_engine : s.finaliseSimDay.engine = s.engine := by
  unfold finaliseSimDay; split <;> rfl

@[simp] theorem finaliseSimDay_risk : s.finaliseSimDay.risk = s.risk := by
  unfold finaliseSimDay; split <;> rfl

@[simp] theorem finaliseSimDay_prevClose : s.finaliseSimDay.prevClose = s.prevClose := by
  unfold finaliseSimDay; split <;> rfl

theorem finaliseSimDay_simDay : s.finaliseSimDay.simDay = s.simDay.map finaliseDay := by
  unfold finaliseSimDay
  split
  · rename_i h; rw [h]; rfl
  · rename_i h; rw [h]; rfl

theorem Agree.finaliseSimDay (h : s.Agree) : s.finaliseSimDay.Agree := by
  refine h.congr finaliseSimDay_openPos (fun sym => by rw [finaliseSimDay_engine])
    (by rw [finaliseSimDay_risk]) ?_
  intro d hd
  rw [finaliseSimDay_simDay, hd]
  exact ⟨_, rfl⟩

/-- A new day starts with nothing held. -/
theorem Agree.startDay (h : s.Agree) (ho : s.openPos = none) : (s.startDay e).Agree := by
  have ho' : (s.startDay e).openPos = none := ho
  refine ⟨?_, ?_, ?_⟩
  · intro sym
    have hnone : (s.startDay e).engine.position sym = none := by
      rw [Replay.startDay]
      dsimp only
      rw [StrategyEngine.position_resetSession]
      split
      · rfl
      · exact h.engine_none (heldFor_of_none ho sym)
    rw [heldFor_of_none ho', hnone]; rfl
  · intro sym
    rw [heldFor_of_none ho']; rfl
  · intro p hp
    exact absurd (ho'.symm.trans hp) (by simp)

theorem rollover_of_same (h : s.currentDay = some e.date) : s.rollover env e = s := by
  rw [rollover, if_pos h]

theorem rollover_of_new (h : s.currentDay ≠ some e.date) :
    s.rollover env e = ((s.flattenResidual env e).finaliseSimDay).startDay e := by
  rw [rollover, if_neg h]

theorem Agree.rollover (h : s.Agree) : (s.rollover env e).Agree := by
  by_cases hd : s.currentDay = some e.date
  · rw [rollover_of_same hd]; exact h
  · rw [rollover_of_new hd]
    refine Agree.startDay h.flattenResidual.finaliseSimDay ?_
    rw [finaliseSimDay_openPos, h.flattenResidual_openPos]

/-- After the boundary, the day is that of the event. -/
theorem rollover_currentDay : (s.rollover env e).currentDay = some e.date := by
  by_cases hd : s.currentDay = some e.date
  · rw [rollover_of_same hd]; exact hd
  · rw [rollover_of_new hd]; rfl

/-- After the boundary a position is open only if it was open before, on the same day. -/
theorem Agree.rollover_openPos (h : s.Agree) {pos : OpenPosition}
    (hp : (s.rollover env e).openPos = some pos) :
    s.currentDay = some e.date ∧ s.openPos = some pos := by
  by_cases hd : s.currentDay = some e.date
  · rw [rollover_of_same hd] at hp; exact ⟨hd, hp⟩
  · rw [rollover_of_new hd] at hp
    have hnone : ((s.flattenResidual env e).finaliseSimDay.startDay e).openPos = none := by
      show (s.flattenResidual env e).finaliseSimDay.openPos = none
      rw [finaliseSimDay_openPos, h.flattenResidual_openPos]
    exact absurd (hnone.symm.trans hp) (by simp)

/-! ## The exit checks -/

/-- The bar is handed to the strategy: neither exit check closes the position on it. -/
def Hands (env : Backtest) (s : Replay) (e : ReplayBar) : Prop :=
  ∀ pos, s.openPos = some pos →
    shouldFlattenEod (env.timeOfDay e.bar.ts) env.cfg = false
      ∧ pos.stopPrice.val < e.bar.low.val

theorem checkMentalStop_asSnapshot (pos : OpenPosition) (price : ℚ) :
    RiskState.checkMentalStop price pos.asSnapshot = decide (price ≤ pos.stopPrice.val) := by
  simp [RiskState.checkMentalStop, isMentalStopBreached, OpenPosition.asSnapshot]

/-- The three outcomes of the exit checks. -/
theorem exitCheck_cases (env : Backtest) (s : Replay) (e : ReplayBar) :
    (∃ pos, s.openPos = some pos ∧ shouldFlattenEod (env.timeOfDay e.bar.ts) env.cfg = true
      ∧ s.exitCheck env e = some (s.eodFlatten env pos e))
    ∨ (∃ pos, s.openPos = some pos ∧ shouldFlattenEod (env.timeOfDay e.bar.ts) env.cfg = false
      ∧ e.bar.low.val ≤ pos.stopPrice.val ∧ s.exitCheck env e = some (s.stopExit env pos e))
    ∨ (s.Hands env e ∧ s.exitCheck env e = none) := by
  unfold exitCheck
  cases hp : s.openPos with
  | none => exact Or.inr (Or.inr ⟨fun pos h => absurd (hp.symm.trans h) (by simp), rfl⟩)
  | some pos =>
      dsimp only
      -- the end-of-day flatten comes before the stop is looked at
      cases heod : shouldFlattenEod (env.timeOfDay e.bar.ts) env.cfg with
      | true => exact Or.inl ⟨pos, rfl, rfl, by simp⟩
      | false =>
          rw [checkMentalStop_asSnapshot]
          -- a bar whose low touches the stop is a stop-out, at the stop or at a worse open
          by_cases hlow : e.bar.low.val ≤ pos.stopPrice.val
          · exact Or.inr (Or.inl ⟨pos, rfl, rfl, hlow, by simp [hlow]⟩)
          · -- otherwise the bar is handed to the engine
            refine Or.inr (Or.inr ⟨?_, by simp [hlow]⟩)
            intro pos' h
            rw [← Option.some.inj (hp.symm.trans h)]
            exact ⟨heod, not_le.mp hlow⟩

/-! ## Handing a bar to the strategy -/

@[simp] theorem handBar_openPos : (s.handBar env e).1.openPos = s.openPos := rfl

theorem handBar_log :
    (s.handBar env e).1.log = s.log ++ [.handed e (s.engine e.symbol)] := rfl

/-- The engine touches the state of the bar's symbol only. -/
theorem handBar_engine_ne {sym : Symbol} (h : sym ≠ e.symbol) :
    (s.handBar env e).1.engine sym = s.engine sym := StrategyEngine.setState_ne _ _ h

theorem handBar_position_ne {sym : Symbol} (h : sym ≠ e.symbol) :
    (s.handBar env e).1.engine.position sym = s.engine.position sym := by
  rw [StrategyEngine.position, handBar_engine_ne h]; rfl

theorem handBar_engine_self :
    (s.handBar env e).1.engine e.symbol
      = ((s.engine e.symbol).onBar env.cfg e.bar e.scanResult e.l2Signal e.spread
          e.marketState).1 := StrategyEngine.setState_self ..

/-- Where the strategy keeps its position, nothing changes hands. -/
theorem Agree.handBar (h : s.Agree)
    (hk : ((s.handBar env e).1.engine.position e.symbol).map (·.copy)
      = (s.engine.position e.symbol).map (·.copy)) : (s.handBar env e).1.Agree := by
  refine h.congr rfl ?_ rfl fun d hd => ⟨d, hd⟩
  intro sym
  by_cases hsym : sym = e.symbol
  · rw [hsym]; exact hk
  · rw [handBar_position_ne hsym]

/-- What the strategy can answer to a bar, given that the copies match. -/
inductive Answer (env : Backtest) (s : Replay) (e : ReplayBar) : List Signal → Prop where
  | silent : (s.handBar env e).1.Agree → Answer env s e []
  | warning {f : FailedPatternSignal} : (s.handBar env e).1.Agree →
      Answer env s e [.failedPattern f]
  | entry {sig : EntrySignal} : (s.handBar env e).1.Agree → s.heldFor e.symbol = none →
      Answer env s e [.entry sig]
  | exit {pos : OpenPosition} {sig : ExitSignal} : s.openPos = some pos → pos.symbol = e.symbol →
      sig.action = .fullExit → Answer env s e [.exit sig]
  | scale {pos : OpenPosition} {sig : ExitSignal} : (s.handBar env e).1.Agree →
      s.openPos = some pos → pos.symbol = e.symbol → sig.action = .partialScale →
      sig.newStop = some (.of pos.entryPrice) → Answer env s e [.exit sig]

variable (env e) in
/--
**What the strategy can answer to a bar.**

The copies match, so an exit is for the position the loop has, and of the bar's own
symbol, and an entry is only signalled when the symbol has none. After a full exit the
engine has dropped its copy, which the loop does next.
-/
theorem Agree.answer (h : s.Agree) : Answer env s e (s.handBar env e).2 := by
  have hself : (s.handBar env e).1.engine.position e.symbol
      = ((s.engine e.symbol).onBar env.cfg e.bar e.scanResult e.l2Signal e.spread
          e.marketState).1.position := by
    rw [StrategyEngine.position, handBar_engine_self]
  have hsigs : (s.handBar env e).2
      = ((s.engine e.symbol).onBar env.cfg e.bar e.scanResult e.l2Signal e.spread
          e.marketState).2 := rfl
  have hpos : s.engine.position e.symbol = (s.engine e.symbol).position := rfl
  rcases SymbolState.onBar_cases env.cfg e.bar e.scanResult e.l2Signal e.spread e.marketState
    (s.engine e.symbol) with ⟨hnil, hkeep⟩ | ⟨hnone, hnone', hentry⟩ | ⟨q, sig, hq, -, hact, -, hout⟩
    | ⟨q, sig, hq, -, hact, hstop, hmark, hout⟩
  · -- nothing is emitted; the watermark may have risen
    rw [hsigs, hnil]
    refine .silent (h.handBar ?_)
    rw [hself, hpos]
    rcases hkeep with hk | ⟨q, hq, hk⟩
    · rw [hk]
    · rw [hk, hq]; simp
  · -- out of a position: an entry or a warning
    have hkept : (s.handBar env e).1.Agree := by
      refine h.handBar ?_
      rw [hself, hpos, hnone, hnone']
    have hheld : s.heldFor e.symbol = none := by
      have he := h.engine e.symbol
      rw [hpos, hnone] at he
      simpa using he.symm
    rw [hsigs]
    rcases hentry with ⟨sig, -, hout⟩ | ⟨f, hout⟩
    · rw [hout]; exact .entry hkept hheld
    · rw [hout]; exact .warning hkept
  · -- in a position: a full exit
    obtain ⟨pos, ho, hsym, -⟩ := h.held_of_engine (hpos.trans hq)
    rw [hsigs, hout]
    exact .exit ho hsym hact
  · -- in a position: a scale-out to the engine's entry price
    obtain ⟨pos, ho, hsym, hc⟩ := h.held_of_engine (hpos.trans hq)
    rw [hsigs, hout]
    refine .scale (h.handBar ?_) ho hsym hact ?_
    · rw [hself, hpos, hmark, hq]; simp
    · rw [hstop]
      exact congrArg some (congrArg PositionCopy.entryPrice hc)

/-! ## One turn of the loop -/

/-- **Everything one event can do**, once the day is right. -/
inductive Turn (env : Backtest) (s : Replay) (e : ReplayBar) : Replay → Prop where
  | eod {pos : OpenPosition} : s.openPos = some pos →
      shouldFlattenEod (env.timeOfDay e.bar.ts) env.cfg = true →
      Turn env s e (s.eodFlatten env pos e)
  | stop {pos : OpenPosition} : s.openPos = some pos →
      shouldFlattenEod (env.timeOfDay e.bar.ts) env.cfg = false →
      e.bar.low.val ≤ pos.stopPrice.val → Turn env s e (s.stopExit env pos e)
  /-- Nothing came of the bar. -/
  | quiet : s.Hands env e → (s.handBar env e).1.Agree → Turn env s e (s.handBar env e).1
  /-- An entry was vetoed. -/
  | vetoed {sig : EntrySignal} {vetoes : List VetoReason} : s.Hands env e →
      (s.handBar env e).1.Agree → s.openPos = none →
      Turn env s e ((s.handBar env e).1.veto e sig vetoes)
  /-- An entry was approved and filled. -/
  | opened {sig : EntrySignal} : s.Hands env e → (s.handBar env e).1.Agree → s.openPos = none →
      ((s.handBar env e).1.approval env e sig).approved = true →
      Turn env s e ((s.handBar env e).1.openPosition env e sig
        ((s.handBar env e).1.approval env e sig).shares)
  /-- The strategy sold everything. -/
  | sold {pos : OpenPosition} {reason : ExitReason} : s.Hands env e → s.openPos = some pos →
      pos.symbol = e.symbol → Turn env s e ((s.handBar env e).1.targetExit env reason pos e)
  /-- The strategy scaled out, and the stop moves to the engine's entry price. -/
  | scaled {pos : OpenPosition} : s.Hands env e → (s.handBar env e).1.Agree →
      s.openPos = some pos → pos.symbol = e.symbol →
      Turn env s e ((s.handBar env e).1.scaleOut e pos (some (.of pos.entryPrice)))

theorem handleSignals_nil : handleSignals env e s [] = s := by rw [handleSignals]

theorem Agree.turn (h : s.Agree) : Turn env s e (s.onBar env e) := by
  unfold onBar
  rcases exitCheck_cases env s e with ⟨pos, hp, heod, hx⟩ | ⟨pos, hp, heod, hlow, hx⟩ | ⟨hh, hx⟩
  · rw [hx]; exact .eod hp heod
  · rw [hx]; exact .stop hp heod hlow
  rw [hx]
  dsimp only
  generalize hsigs : (s.handBar env e).2 = sigs
  have ha := h.answer env e
  rw [hsigs] at ha
  -- one case for each answer of the strategy
  cases ha with
  | silent hk => rw [handleSignals_nil]; exact .quiet hh hk
  | warning hk =>
      rw [handleSignals, handleSignals_nil]
      exact .quiet hh hk
  | @entry sig hk hheld =>
      rw [handleSignals, handBar_openPos]
      cases ho : s.openPos with
      | some pos =>
          dsimp only
          rw [handleSignals_nil]
          exact .quiet hh hk
      | none =>
          dsimp only
          split
          · rename_i happ; exact .opened hh hk ho happ
          · rw [handleSignals_nil]; exact .vetoed hh hk ho
  | @exit pos sig hp hsym hact =>
      rw [handleSignals, handBar_openPos, hp]
      dsimp only
      rw [hact]
      exact .sold hh hp hsym
  | @scale pos sig hk hp hsym hact hstop =>
      rw [handleSignals, handBar_openPos, hp]
      dsimp only
      rw [hact, hstop]
      dsimp only
      rw [handleSignals_nil]
      exact .scaled hh hk hp hsym

/-! ## Agreement over a run -/

theorem agree_openPosition {sig : EntrySignal} {n : ℤ} (h : s.Agree) (ho : s.openPos = none)
    (hd : ∃ d, s.simDay = some d) : (s.openPosition env e sig n).Agree := by
  have hpos : (s.openPosition env e sig n).openPos = some (filledPosition env e sig n) := rfl
  have hsym : (filledPosition env e sig n).symbol = e.symbol := rfl
  refine ⟨?_, ?_, fun _ _ => hd⟩
  · -- the engine gets a copy of the position that was filled
    intro sym
    rw [heldFor_of_some hpos, hsym]
    rw [openPosition]
    dsimp only
    rw [StrategyEngine.position_openPosition]
    by_cases hs : sym = e.symbol
    · rw [if_pos hs, if_pos hs.symm]
      simp [PositionSnapshot.copy, OpenPosition.copy, filledPosition]
    · rw [if_neg hs, if_neg (Ne.symm hs), h.engine_none (heldFor_of_none ho sym)]; rfl
  · -- the risk book's entry carries the same shares
    intro sym
    rw [heldFor_of_some hpos, hsym, openPosition]
    dsimp only
    rw [RiskState.openPositions_recordOpen, Dict.get?_set]
    by_cases hs : sym = e.symbol
    · rw [if_pos hs, if_pos hs.symm]; rfl
    · rw [if_neg hs, if_neg (Ne.symm hs), h.risk_none (heldFor_of_none ho sym)]; rfl

theorem agree_scaleOut {pos : OpenPosition} (h : s.Agree) (ho : s.openPos = some pos)
    (hsym : pos.symbol = e.symbol) (newStop : Option Money) :
    (s.scaleOut e pos newStop).Agree := by
  unfold scaleOut
  split
  · exact h
  · rename_i stop
    split
    · exact h
    · have ho' : ({ s with
          openPos := some { pos with stopPrice := stop },
          engine := s.engine.updateStop e.symbol stop.val } : Replay).openPos
          = some { pos with stopPrice := stop } := rfl
      refine ⟨?_, ?_, fun _ _ => h.day pos ho⟩
      · intro sym
        -- the engine's stop moves with the position's, the risk entry has none
        have he := h.engine sym
        rw [heldFor_of_some ho] at he
        rw [heldFor_of_some ho', StrategyEngine.updateStop, StrategyEngine.position_setState]
        by_cases hs : sym = e.symbol
        · rw [if_pos hs, if_pos (hsym.trans hs.symm)]
          rw [hs, if_pos hsym] at he
          obtain ⟨q, hq, hc⟩ := Option.map_eq_some_iff.mp (he.trans (Option.map_some ..))
          have hq' : (s.engine e.symbol).position = some q := hq
          rw [hq']
          simp only [Option.map_some, Money.of_val]
          simp only [PositionSnapshot.copy, OpenPosition.copy, PositionCopy.mk.injEq] at hc
          simp [PositionSnapshot.copy, OpenPosition.copy, hc.1, hc.2.1, hc.2.2.2]
        · have hs' : pos.symbol ≠ sym := fun hps => hs (hps.symm.trans hsym)
          rw [if_neg hs, if_neg hs']
          rw [if_neg hs'] at he
          exact he
      · intro sym
        have hr := h.risk sym
        rw [heldFor_of_some ho] at hr
        rw [heldFor_of_some ho', hr]
        split <;> rfl

theorem Agree.of_turn (h : s.Agree) (hd : ∃ d, s.simDay = some d) (ht : Turn env s e s') :
    s'.Agree := by
  cases ht with
  | eod hp => exact agree_completeTrade (h.only hp)
  | stop hp => exact agree_completeTrade (h.only hp)
  | quiet _ hk => exact hk
  | vetoed _ hk ho =>
      refine hk.congr rfl (fun _ => rfl) rfl ?_
      intro d hd
      exact ⟨_, by rw [veto, hd]; rfl⟩
  | opened _ hk ho => exact agree_openPosition hk ho hd
  | @sold pos reason hh hp hsym =>
      refine agree_completeTrade fun sym hne => ?_
      rw [handBar_position_ne (fun hs => hne (hs.trans hsym.symm))]
      exact h.only hp sym hne
  | scaled _ hk hp hsym => exact agree_scaleOut hk hp hsym _

variable (env s e) in
theorem rollover_simDay : ∃ d, (s.rollover env e).simDay = some d ∧ d.date = e.date :=
  Option.map_eq_some_iff.mp rollover_currentDay

theorem Agree.arrive (h : s.Agree) : (s.arrive e).Agree :=
  h.congr rfl (fun _ => rfl) rfl fun d hd => ⟨d, hd⟩

variable (env e) in
/-- One event: the boundary, then one of the seven. -/
theorem Agree.onEvent_turn (h : s.Agree) :
    Turn env ((s.arrive e).rollover env e) e (((s.arrive e).rollover env e).onBar env e) :=
  h.arrive.rollover.turn

theorem Agree.onEvent (h : s.Agree) : (s.onEvent env e).Agree := by
  obtain ⟨d, hd, -⟩ := rollover_simDay env (s.arrive e) e
  exact (h.arrive.rollover.of_turn ⟨d, hd⟩ (h.onEvent_turn ..)).congr rfl (fun _ => rfl) rfl
    fun d hd => ⟨d, hd⟩

end Replay

/-- **The copies match after every event.** -/
theorem agree_loop (env : Backtest) (events : List ReplayBar) :
    (replayLoop env events).Agree :=
  foldl_invariant Replay.agree_start (fun _ _ h => h.onEvent) events

end RossBot
