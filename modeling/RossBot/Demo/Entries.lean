import RossBot.Demo.Orders
import RossBot.Demo.Halt
import RossBot.Demo.Scan
import RossBot.Risk.Budget

/-!
# The demo's automatic entries

What holds of every BUY the engine's loop sends, in any interleaving with the
dashboard: the steps of the run it goes back to. A scan puts its symbol in tier B;
later the bars come that the loop waits for; then the quote, on which it passes the
entry gate and, in the state of that moment, the risk gate; then it is sent.

The loop walks a copy of tier B that it took before its awaits, so a symbol may come
from a tier that a later scan has already replaced; and the tiers that a replay made
up stay until the next scan.
-/

namespace RossBot

open Lib

/-- The tier B of a scan. -/
def DeskLabel.scans : DeskLabel → Option (List Symbol)
  | .scanned tierB | .taskScanned _ tierB => tierB
  | _ => none

/-- The tier B a step sets, whether it was scanned or made up. -/
def DeskLabel.tiers : DeskLabel → Option (List Symbol)
  | .replayStep tierB => some tierB
  | l => l.scans

/-- The order of an automatic entry. -/
def DemoOrderId.automatic : DemoOrderId → Bool
  | .entry _ _ => true
  | _ => false

/-! ## The steps behind an entry -/

/-- The symbol was put in tier B. -/
def Tiered (ms : List (Move Desk DeskLabel)) (symbol : Symbol) : Prop :=
  ∃ m ∈ ms, ∃ tierB, m.label.tiers = some tierB ∧ symbol ∈ tierB

/-- The bars come that an entry is judged by, in the iteration that began `now`: of a symbol that was
put in tier B before. -/
structure BarsCame (now : Time) (symbol : Symbol) (bars : List BarTick)
    (before : List (Move Desk DeskLabel)) (m : Move Desk DeskLabel) : Prop where
  label : m.label = .bars (some bars)
  awaited : ∃ rest, m.pre.engine = .awaitBars now symbol rest
  enough : 6 ≤ bars.length
  tiered : Tiered before symbol

/-- What the entry gate makes of the bars and the quote. -/
def entryGate (env : DemoEnv) (bars : List BarTick) (quote : QuoteTick) : GateResult :=
  GateResult.evaluateEntryGate bars (quote.ask.val - quote.bid.val) env.cfg.e6Enabled

/-- The quote comes on which an entry passes the gates: the entry gate with the bars that came
before, and the risk gate with this size, as the engine is when the quote comes. -/
structure GatesPassed (env : DemoEnv) (now : Time) (symbol : Symbol) (bars : List BarTick)
    (quote : QuoteTick) (shares : ℤ) (before : List (Move Desk DeskLabel))
    (m : Move Desk DeskLabel) : Prop where
  label : m.label = .entryQuote (some quote)
  awaited : ∃ rest, m.pre.engine = .awaitQuote now symbol bars rest
  charted : SomeAt (BarsCame now symbol bars) before
  gate : (entryGate env bars quote).passes = true
  approved : Desk.riskGate env now (entryGate env bars quote) m.pre = (m.pre, .ok shares)

/-- The entry is sent, with AUTO_TRADE on, as it was approved before. -/
structure EntrySent (env : DemoEnv) (now : Time) (bars : List BarTick) (quote : QuoteTick)
    (o : DemoOrder) (before : List (Move Desk DeskLabel)) (m : Move Desk DeskLabel) : Prop where
  label : m.label = .resume
  automatic : m.pre.effectiveAutoTrade env = true
  gates : SomeAt (GatesPassed env now o.symbol bars quote o.qty) before
  order : o = Desk.entryOrder now
    ⟨o.symbol, o.qty, quantize2 (quote.ask.val + demoBuyOffset), entryGate env bars quote⟩

/-- **An automatic BUY goes back to steps of the run.** -/
def SoundEntry (env : DemoEnv) (ms : List (Move Desk DeskLabel)) (o : DemoOrder) : Prop :=
  ∃ now bars quote, SomeAt (EntrySent env now bars quote o) ms

/-- What the risk gate sees to. The budget is counted from the price the gate says. -/
structure DemoApproved (env : DemoEnv) (now : Time) (shares : ℤ) (gate : GateResult) : Prop where
  window : Desk.withinEntryWindow env now = true
  stop : gate.stopPrice.getD 0 < gate.entryPrice.getD 0
  positive : 0 < shares
  size : shares ≤ env.cfg.maxPositionSize
  budget : lossAtStop (gate.entryPrice.getD 0) (gate.stopPrice.getD 0) shares ≤ env.cfg.perTradeRisk

/-- What the loop may still enter was in tier B, and what it holds goes back to steps of the run. -/
def EngineTask.Enters (env : DemoEnv) (ms : List (Move Desk DeskLabel)) : EngineTask → Prop
  | .awaitBars _ symbol rest => Tiered ms symbol ∧ ∀ a ∈ rest, Tiered ms a
  | .awaitQuote now symbol bars rest =>
      SomeAt (BarsCame now symbol bars) ms ∧ ∀ a ∈ rest, Tiered ms a
  | .entryReported _ rest => ∀ a ∈ rest, Tiered ms a
  | .awaitSignal now symbol shares ask gate rest =>
      (∃ bars quote, SomeAt (GatesPassed env now symbol bars quote shares) ms
        ∧ ask = quote.ask.val ∧ gate = entryGate env bars quote) ∧ ∀ a ∈ rest, Tiered ms a
  | .awaitEntryAck now order rest =>
      SoundEntry env ms (Desk.entryOrder now order) ∧ ∀ a ∈ rest, Tiered ms a
  | _ => True

section History

variable {env : DemoEnv} {ms : List (Move Desk DeskLabel)} {symbol : Symbol}

theorem Tiered.mono (h : Tiered ms symbol) (m : Move Desk DeskLabel) : Tiered (ms ++ [m]) symbol := by
  obtain ⟨w, hw, htiers⟩ := h
  exact ⟨w, List.mem_append_left _ hw, htiers⟩

theorem SoundEntry.mono {o : DemoOrder} (h : SoundEntry env ms o) (m : Move Desk DeskLabel) :
    SoundEntry env (ms ++ [m]) o := by
  obtain ⟨now, bars, quote, hsent⟩ := h
  exact ⟨now, bars, quote, someAt_snoc.mpr (Or.inl hsent)⟩

/-- What a task holds goes on to go back to them. -/
theorem EngineTask.Enters.mono {e : EngineTask} (h : e.Enters env ms) (m : Move Desk DeskLabel) :
    e.Enters env (ms ++ [m]) := by
  cases e with
  | awaitBars => exact ⟨h.1.mono m, fun a ha => (h.2 a ha).mono m⟩
  | awaitQuote => exact ⟨someAt_snoc.mpr (Or.inl h.1), fun a ha => (h.2 a ha).mono m⟩
  | entryReported => exact fun a ha => (h a ha).mono m
  | awaitSignal =>
      obtain ⟨⟨bars, quote, hgates, hask, hgate⟩, hrest⟩ := h
      exact ⟨⟨bars, quote, someAt_snoc.mpr (Or.inl hgates), hask, hgate⟩,
        fun a ha => (hrest a ha).mono m⟩
  | awaitEntryAck => exact ⟨h.1.mono m, fun a ha => (h.2 a ha).mono m⟩
  | _ => trivial

end History

namespace Desk

variable {env : DemoEnv} {s s' : Desk} {ms : List (Move Desk DeskLabel)}

/-! ## The gates -/

/-- What the risk gate approves, it has sized. -/
theorem riskGate_sized {now : Time} {gate : GateResult} {shares : ℤ}
    (h : riskGate env now gate s = (s', .ok shares)) :
    withinEntryWindow env now = true ∧ gate.stopPrice.getD 0 < gate.entryPrice.getD 0
      ∧ 0 < shares ∧ shares ≤ env.cfg.maxPositionSize
      ∧ shares ≤ s.risk.budgetShares env.cfg.perTradeRisk
        (gate.entryPrice.getD 0 - gate.stopPrice.getD 0) := by
  unfold riskGate at h
  -- the loss guards and the window come first
  cases hg : s.risk.guard s.svc.halted s.svc.isPaused (withinEntryWindow env now)
      (s.effectiveMaxDailyLoss env) with
  | mk r veto =>
      rw [hg] at h
      cases veto with
      | some v => exact absurd (Prod.mk.inj h).2 (by simp)
      | none =>
          dsimp only at h
          -- the stop distance, then the size
          split_ifs at h with hstop hsize
          · exact absurd (Prod.mk.inj h).2 (by simp)
          · exact absurd (Prod.mk.inj h).2 (by simp)
          · obtain ⟨-, hn⟩ := Prod.mk.inj h
            have hshares := Except.ok.inj hn
            refine ⟨(DemoRisk.guard_none hg).2.2.2.2, sub_pos.mp (not_le.mp hstop),
              hshares ▸ not_le.mp hsize, ?_, ?_⟩
            · exact hshares ▸ min_le_right ..
            · exact hshares ▸ min_le_left ..

/-- What the risk gate approves, it has sized. -/
theorem demoApproved_of_riskGate {now : Time} {gate : GateResult} {shares : ℤ}
    (h : riskGate env now gate s = (s', .ok shares)) : DemoApproved env now shares gate := by
  obtain ⟨hwindow, hstop, hpos, hmax, hbudget⟩ := riskGate_sized h
  exact ⟨hwindow, hstop, hpos, hmax, (lossAtStop_mono hstop.le hbudget).trans
    (DemoRisk.budgetShares_le hstop (hpos.trans_le hbudget))⟩

/-! ## The loop -/

theorem enters_nextExit (now : Time) (rest : List (Symbol × ℕ)) :
    (nextExit now rest).Enters env ms := by
  cases rest <;> exact trivial

theorem enters_runExits (now : Time) : (s.runExits env now).Enters env ms := by
  unfold runExits
  split
  · exact enters_nextExit ..
  · trivial

theorem enters_nextEntry (now : Time) {rest : List Symbol} (h : ∀ a ∈ rest, Tiered ms a) :
    (s.nextEntry env now rest).Enters env ms := by
  induction rest with
  | nil => exact enters_runExits now
  | cons symbol rest ih =>
      have hrest : ∀ a ∈ rest, Tiered ms a := fun a ha => h a (List.mem_cons_of_mem _ ha)
      unfold nextEntry
      split
      · exact ih hrest
      · exact ⟨h symbol List.mem_cons_self, hrest⟩

theorem enters_afterScan (now : Time) (strategy : Bool) (h : ∀ a ∈ s.tierB, Tiered ms a) :
    (s.afterScan env now strategy).Enters env ms := by
  unfold afterScan
  split
  · exact enters_nextEntry now h
  · exact enters_runExits now

/-- What is in tier B was put there, and what the loop holds goes back to steps of the run. -/
structure Entering (env : DemoEnv) (ms : List (Move Desk DeskLabel)) (s : Desk) : Prop where
  tierB : ∀ a ∈ s.tierB, Tiered ms a
  engine : s.engine.Enters env ms

theorem Entering.mono (h : s.Entering env ms) (m : Move Desk DeskLabel) :
    s.Entering env (ms ++ [m]) := ⟨fun a ha => (h.tierB a ha).mono m, h.engine.mono m⟩

section Loop

variable {m : Move Desk DeskLabel}

/-- The loop is somewhere else, and tier B is what it was. -/
theorem Entering.moved (h : s.Entering env ms) (htier : s'.tierB = s.tierB)
    (he : s'.engine.Enters env (ms ++ [m])) : s'.Entering env (ms ++ [m]) :=
  ⟨fun a ha => (h.mono m).tierB a (htier ▸ ha), he⟩

theorem entering_iterate {scan strategy : Bool} (h : s.Entering env ms)
    (hs : s.iterate env scan strategy = some s') : s'.Entering env (ms ++ [m]) := by
  unfold iterate at hs
  split at hs
  · split_ifs at hs
    · rw [← Option.some.inj hs]; exact h.moved rfl trivial
    · rw [← Option.some.inj hs]; exact h.moved rfl (enters_afterScan _ _ (h.mono m).tierB)
  · exact absurd hs (by simp)

theorem entering_gotBars {bars : Option (List BarTick)} (h : s.Entering env ms)
    (hs : s.gotBars env bars = some s') :
    s'.Entering env (ms ++ [⟨s, .bars bars, s'⟩]) := by
  unfold gotBars at hs
  split at hs
  · rename_i now symbol rest heng
    have henters := h.engine
    rw [heng] at henters
    obtain ⟨hsym, hrest⟩ := henters
    have hrest' := fun a ha => (hrest a ha).mono ⟨s, .bars bars, s'⟩
    split at hs
    · rw [← Option.some.inj hs]; exact h.moved rfl trivial
    split at hs
    · rw [← Option.some.inj hs] at hrest' ⊢; exact h.moved rfl (enters_nextEntry now hrest')
    · -- enough bars: this is the step the quote will go back to
      rename_i hlen
      rw [← Option.some.inj hs] at hrest' ⊢
      refine h.moved rfl ⟨someAt_snoc.mpr (Or.inr ?_), hrest'⟩
      exact ⟨rfl, ⟨rest, heng⟩, not_lt.mp hlen, hsym⟩
  · exact absurd hs (by simp)

theorem entering_gotEntryQuote {quote : Option QuoteTick} (h : s.Entering env ms)
    (hs : s.gotEntryQuote env quote = some s') :
    s'.Entering env (ms ++ [⟨s, .entryQuote quote, s'⟩]) := by
  unfold gotEntryQuote at hs
  split at hs
  · rename_i now symbol bars rest heng
    have henters := h.engine
    rw [heng] at henters
    obtain ⟨hbars, hrest⟩ := henters
    have hrest' := fun a ha => (hrest a ha).mono ⟨s, .entryQuote quote, s'⟩
    split at hs
    · rw [← Option.some.inj hs] at hrest' ⊢; exact h.moved rfl (enters_nextEntry now hrest')
    rename_i quote
    dsimp only at hs
    split at hs
    · rw [← Option.some.inj hs] at hrest' ⊢; exact h.moved rfl (enters_nextEntry now hrest')
    rename_i hpass
    split at hs
    · -- vetoed: the day may be halted, and the loop goes on
      rename_i s₁ veto hgate
      obtain ⟨r, hr, -⟩ := riskGate_state env s now _
      rw [hgate] at hr
      dsimp only at hr
      rw [← Option.some.inj hs, hr] at hrest' ⊢
      exact h.moved rfl hrest'
    · -- approved: this is the step the order will go back to
      rename_i s₁ shares hgate
      obtain ⟨rfl, -, -⟩ := riskGate_ok hgate
      rw [← Option.some.inj hs] at hrest' ⊢
      refine h.moved rfl ⟨⟨bars, quote, someAt_snoc.mpr (Or.inr ?_), rfl, rfl⟩, hrest'⟩
      exact ⟨rfl, ⟨rest, heng⟩, hbars, by simpa [entryGate] using hpass, hgate⟩
  · exact absurd hs (by simp)

theorem entering_engineResume (h : s.Entering env ms) (hs : s.engineResume env = some s') :
    s'.Entering env (ms ++ [⟨s, .resume, s'⟩]) := by
  have henters := h.engine
  unfold engineResume at hs
  split at hs
  · rw [← Option.some.inj hs]; exact h.moved rfl (enters_afterScan _ _ (h.mono _).tierB)
  · rename_i heng
    rw [heng] at henters
    rw [← Option.some.inj hs]
    exact h.moved rfl (enters_nextEntry _ fun a ha => (henters a ha).mono _)
  · rename_i now symbol shares ask gate rest heng
    rw [heng] at henters
    obtain ⟨⟨bars, quote, hgates, rfl, rfl⟩, hrest⟩ := henters
    split at hs
    · -- sent, with AUTO_TRADE on
      rename_i hsend
      rw [← Option.some.inj hs]
      refine h.moved rfl ⟨⟨now, bars, quote, someAt_snoc.mpr (Or.inr ?_)⟩,
        fun a ha => (hrest a ha).mono _⟩
      rw [Bool.and_eq_true, Bool.and_eq_true] at hsend
      exact ⟨rfl, hsend.1.1, hgates, rfl⟩
    · rw [← Option.some.inj hs]
      exact h.moved rfl (enters_nextEntry _ fun a ha => (hrest a ha).mono _)
  · rw [← Option.some.inj hs]; exact h.moved rfl (enters_nextExit ..)
  · rw [← Option.some.inj hs]; exact h.moved rfl (enters_nextExit ..)
  · dsimp only at hs
    split at hs
    · rw [← Option.some.inj hs]; exact h.moved rfl trivial
    · rw [← Option.some.inj hs]; exact h.moved rfl trivial
  · exact absurd hs (by simp)

theorem entering_gotExitQuote {quote : Option QuoteTick} (h : s.Entering env ms)
    (hs : s.gotExitQuote quote = some s') : s'.Entering env (ms ++ [m]) := by
  unfold gotExitQuote at hs
  split at hs
  · split at hs
    · rw [← Option.some.inj hs]; exact h.moved rfl (enters_nextExit ..)
    dsimp only at hs
    split at hs
    · rw [← Option.some.inj hs]; exact h.moved rfl (enters_nextExit ..)
    · rw [← Option.some.inj hs]; exact h.moved rfl trivial
    · rw [← Option.some.inj hs]; exact h.moved rfl trivial
  · exact absurd hs (by simp)

theorem entering_engineAck {ack : OrderAck} (h : s.Entering env ms)
    (hs : s.engineAck ack = some s') : s'.Entering env (ms ++ [m]) := by
  -- what the engine awaits says which kind of entry the answer belongs to
  have henters := h.engine
  unfold engineAck at hs
  split at hs
  · rename_i heng
    rw [heng] at henters
    rw [← Option.some.inj hs]
    refine h.moved ?_ fun a ha => (henters.2 a ha).mono m
    dsimp only
    split <;> rfl
  · rw [← Option.some.inj hs]; exact h.moved rfl trivial
  · -- an exit: `del` raises when an operator has closed the position meanwhile
    dsimp only at hs
    split at hs
    · rw [← Option.some.inj hs]; exact h.moved rfl trivial
    · rename_i hf
      obtain ⟨-, rfl⟩ := forget_some hf
      rw [← Option.some.inj hs]; exact h.moved rfl trivial
  · exact absurd hs (by simp)

end Loop

/-! ## Everybody else -/

theorem tierB_post (p : Posting) : (s.post p).tierB = s.tierB := by cases p <;> rfl

/--
**A handler moves neither the loop nor the tiers, but for a triggered scan.**

The loop's place is written by its own moves and by the answers it gets. The handlers
share the positions, the journal and the risk counters with it, and so can change what
it will find, not where it goes on.
-/
theorem handler_step {l : DeskLabel} (hs : s.step env l = some s') (hloop : l.loops = false)
    (hbooks : l.books = false) (hscan : ∀ i tierB, l ≠ .taskScanned i tierB) :
    s'.engine = s.engine ∧ s'.tierB = s.tierB := by
  -- only the loops' own moves write the engine's place
  have hengine : s'.engine = s.engine := by
    cases step_cases hs with
    | waits _ _ hl => exact absurd (hl.symm.trans hloop) (by simp)
    | approves | sendsEntry | sendsScale | sendsExit => exact absurd hloop (by simp [DeskLabel.loops])
    | booksLoop hl => exact absurd (hl.symm.trans hbooks) (by simp)
    | settles => exact engine_post _
    | finishes _ _ hp => exact hp.tasks.1
    | _ => rfl
  -- the tier-B list is written by scans alone
  refine ⟨hengine, ?_⟩
  cases l with
  | tick dt =>
      rw [step] at hs
      split at hs
      · rw [← Option.some.inj hs]
      · exact absurd hs (by simp)
  | request i q =>
      cases step_cases hs with
      | settles => exact tierB_post _
      | waits _ _ hl => exact absurd hl (by simp [DeskLabel.loops])
      | booksLoop hl => exact absurd hl (by simp [DeskLabel.books])
      | finishes _ hl => exact absurd hl (by simp [DeskLabel.finishes])
      | _ => rfl
  | taskQuote i quote =>
      cases step_cases hs with
      | waits _ _ hl => exact absurd hl (by simp [DeskLabel.loops])
      | booksLoop hl => exact absurd hl (by simp [DeskLabel.books])
      | finishes _ hl => exact absurd hl (by simp [DeskLabel.finishes])
      | _ => rfl
  | taskAck i ack =>
      rw [step, taskAck] at hs
      split at hs
      · split at hs
        · rw [← Option.some.inj hs]; rfl
        · dsimp only at hs
          split at hs
          · rw [← Option.some.inj hs]; rfl
          · rename_i hf
            obtain ⟨-, rfl⟩ := forget_some hf
            rw [← Option.some.inj hs]; rfl
      · rw [← Option.some.inj hs]; rfl
      · dsimp only at hs
        split at hs <;>
        · rw [← Option.some.inj hs]
          change (if _ then _ else s : Desk).tierB = s.tierB
          split <;> rfl
      · exact absurd hs (by simp)
  | taskFlattened i =>
      rw [step, taskFlattened] at hs
      split at hs
      · rw [← Option.some.inj hs]; rfl
      · rw [← Option.some.inj hs]; rfl
      · exact absurd hs (by simp)
  | taskResume i =>
      rw [step, taskResume] at hs
      split at hs
      · rw [← Option.some.inj hs]
        dsimp only
        split
        · rfl
        · split <;> rfl
      · exact absurd hs (by simp)
  | taskScanned i tierB => exact absurd rfl (hscan i tierB)
  | ack | replayClose => exact absurd hbooks (by simp [DeskLabel.books])
  | _ => exact absurd hloop (by simp [DeskLabel.loops])

/-- A tier B that a step sets is put there by it. -/
theorem tiered_last {l : DeskLabel} {tierB : List Symbol} (ht : l.tiers = some tierB) :
    ∀ a ∈ tierB, Tiered (ms ++ [⟨s, l, s'⟩]) a := fun _ ha =>
  ⟨_, List.mem_append_right _ (List.mem_singleton.mpr rfl), tierB, ht, ha⟩

/-- **Nothing enters the loop but what was in tier B**, and it holds nothing that no step of the run
gave it. -/
theorem entering_step {l : DeskLabel} (h : s.Entering env ms) (hs : s.step env l = some s') :
    s'.Entering env (ms ++ [⟨s, l, s'⟩]) := by
  cases l with
  | iterate => exact entering_iterate h hs
  | scanned tierB =>
      rw [step, scanned] at hs
      split at hs
      · -- a scan that raised leaves the list of the scan before it
        cases tierB with
        | none => rw [← Option.some.inj hs]; exact h.moved rfl trivial
        | some tierB => rw [← Option.some.inj hs]; exact ⟨tiered_last rfl, trivial⟩
      · exact absurd hs (by simp)
  | bars => exact entering_gotBars h hs
  | entryQuote => exact entering_gotEntryQuote h hs
  | exitQuote => exact entering_gotExitQuote h hs
  | resume => exact entering_engineResume h hs
  | ack => exact entering_engineAck h hs
  | replayStep tierB =>
      rw [step, replayStep] at hs
      -- each replay step scans for itself
      split at hs
      · split at hs
        · exact absurd hs (by simp)
        · rw [← Option.some.inj hs]; exact ⟨tiered_last rfl, trivial⟩
      · exact absurd hs (by simp)
  | replayClose pos exitPrice reason =>
      rw [step, replayClose] at hs
      split at hs
      · rw [← Option.some.inj hs]; exact h.moved rfl trivial
      · exact absurd hs (by simp)
  | replayDone =>
      rw [step, replayDone] at hs
      split at hs
      · rw [← Option.some.inj hs]; exact h.moved rfl trivial
      · exact absurd hs (by simp)
  | taskScanned i tierB =>
      rw [step, taskScanned] at hs
      split at hs
      · cases tierB with
        | none => rw [← Option.some.inj hs]; exact h.moved rfl (h.engine.mono _)
        | some tierB => rw [← Option.some.inj hs]; exact ⟨tiered_last rfl, h.engine.mono _⟩
      · exact absurd hs (by simp)
  | tick | request | taskQuote | taskAck | taskFlattened | taskResume =>
      obtain ⟨he, hb⟩ := handler_step hs rfl rfl (by simp)
      exact h.moved hb (he ▸ h.engine.mono _)

/-- An automatic order on its way is the loop's, and goes back to steps of the run. -/
theorem soundEntry_pending {c : Caller} {o : DemoOrder} (h : s.Entering env ms)
    (hp : s.pending c = some o) (ho : o.clientOrderId.automatic = true) :
    SoundEntry env ms o := by
  cases c with
  | loop =>
      have henters := h.engine
      change s.engine.placing = some o at hp
      cases heng : s.engine with
      | awaitEntryAck now order rest =>
          rw [heng] at hp henters
          rw [← Option.some.inj hp]
          exact henters.1
      | awaitScaleAck =>
          -- a scale-out has an identifier of another kind
          rw [heng] at hp
          rw [← Option.some.inj hp] at ho
          exact absurd ho (by simp [PendingExit.order, DemoOrderId.automatic])
      | _ => rw [heng] at hp; exact absurd hp (by simp [EngineTask.placing])
  | handler i =>
      change (s.tasks i).placing = some o at hp
      cases htask : s.tasks i with
      | scaleAck | orderAck =>
          rw [htask] at hp
          rw [← Option.some.inj hp] at ho
          exact absurd ho (by simp [PendingExit.order, DemoOrderId.automatic])
      | _ => rw [htask] at hp; exact absurd hp (by simp [OperatorTask.placing])

/-- What is on its way, and what was sent. -/
structure EntryInv (env : DemoEnv) (ms : List (Move Desk DeskLabel)) (s : Desk) : Prop where
  entering : s.Entering env ms
  sent : ∀ o ∈ s.sent, o.clientOrderId.automatic = true → SoundEntry env ms o

theorem entryInv_init : (init env).EntryInv env [] :=
  ⟨⟨fun a ha => absurd ha (by simp [init]), trivial⟩,
    fun o ho => absurd ho (by simp [init, sent])⟩

theorem entryInv_step {l : DeskLabel} (h : s.EntryInv env ms) (hs : s.step env l = some s') :
    s'.EntryInv env (ms ++ [⟨s, l, s'⟩]) := by
  have hentering := entering_step h.entering hs
  refine ⟨hentering, ?_⟩
  cases places_step hs with
  | none hc =>
      rw [hc.sent]
      exact fun o ho hauto => (h.sent o ho hauto).mono _
  | sends c o _ hsent _ hpend =>
      intro o' ho' hauto
      rw [hsent] at ho'
      rcases List.mem_append.mp ho' with ho' | ho'
      · exact (h.sent o' ho' hauto).mono _
      · rw [List.mem_singleton.mp ho'] at hauto ⊢
        exact soundEntry_pending hentering hpend hauto

/-- **Every automatic BUY of a run goes back to its steps.** -/
theorem soundEntry_run (x : DeskRun env) {o : DemoOrder} (ho : o ∈ x.final.sent)
    (hauto : o.clientOrderId.automatic = true) : SoundEntry env x.moves o := by
  have hinv := x.run.history_of (C := fun _ => True) (I := fun ms s => Desk.EntryInv env ms s)
    entryInv_init (fun ms s l s' h hs _ => entryInv_step h hs) fun _ _ => trivial
  exact hinv.sent o ho hauto

end Desk

/-- What was approved was sized. -/
theorem EntrySent.demoApproved {env : DemoEnv} {now : Time} {bars : List BarTick}
    {quote : QuoteTick} {o : DemoOrder} {before : List (Move Desk DeskLabel)}
    {m : Move Desk DeskLabel} (h : EntrySent env now bars quote o before m) :
    DemoApproved env now o.qty (entryGate env bars quote) := by
  obtain ⟨_, _, _, -, hgates⟩ := h.gates
  exact Desk.demoApproved_of_riskGate hgates.approved

/-- Without the replay, no tiers are made up. -/
theorem Desk.scans_of_tiers {env : DemoEnv} {s s' : Desk} {l : DeskLabel} {tierB : List Symbol}
    (hreplay : env.cfg.demoReplayMode = false) (hs : s.step env l = some s')
    (ht : l.tiers = some tierB) : l.scans = some tierB := by
  cases l with
  | replayStep made =>
      rw [step, replayStep] at hs
      split at hs
      · rw [hreplay, if_pos (by simp)] at hs
        exact absurd hs (by simp)
      · exact absurd hs (by simp)
  | _ => exact ht

/-- Without the replay, every automatic BUY is for a symbol of a scan's tier B, and is sent after
it. -/
theorem automatic_scanned {env : DemoEnv} (hreplay : env.cfg.demoReplayMode = false)
    (x : DeskRun env) {o : DemoOrder} (ho : o ∈ x.final.sent)
    (hauto : o.clientOrderId.automatic = true) :
    ∃ before m after, x.moves = before ++ m :: after
      ∧ (∃ tierB, m.label.scans = some tierB ∧ o.symbol ∈ tierB)
      ∧ ∃ now bars quote earlier, ∃ w ∈ after, EntrySent env now bars quote o earlier w := by
  obtain ⟨now, bars, quote, sentBefore, sent, sentAfter, hmoves, hsent⟩ :=
    Desk.soundEntry_run x ho hauto
  -- back from the order to the quote, to the bars and to the scan
  obtain ⟨quoteBefore, quoted, quoteAfter, hquote, hgates⟩ := hsent.gates
  obtain ⟨barsBefore, charted, barsAfter, hbars, hcame⟩ := hgates.charted
  obtain ⟨m, hm, tierB, ht, ha⟩ := hcame.tiered
  obtain ⟨before, after, hscan⟩ := List.append_of_mem hm
  have hstep := x.run.step_of_mem m (by rw [hmoves, hquote, hbars, hscan]; simp)
  refine ⟨before, m, after ++ charted :: barsAfter ++ quoted :: quoteAfter ++ sent :: sentAfter,
    by rw [hmoves, hquote, hbars, hscan]; simp, ⟨tierB, Desk.scans_of_tiers hreplay hstep ht, ha⟩,
    now, bars, quote, sentBefore, sent, by simp, hsent⟩

/-- **The demo buys the five pillars only.** With the replay off, every automatic BUY of every run is
for a symbol that passed the five pillars in one of the run's scans. -/
theorem demoEntries_fivePillars {env : DemoEnv} (upper : String → String) (batch : ℤ)
    (hreplay : env.cfg.demoReplayMode = false) (x : DeskRun env) (feeds : Set DemoScan.Feed)
    (hscan : ∀ m ∈ x.moves, ∀ tierB, m.label.scans = some tierB → ∃ feed ∈ feeds, ∃ a b,
      DemoScan.runScan upper batch feed = some (a, b) ∧ tierB = b.map (·.symbol)) :
    ∀ o ∈ x.final.sent, o.clientOrderId.automatic = true → ∃ feed ∈ feeds, ∃ snap,
      (DemoScan.snapshots feed batch).get? o.symbol = some snap
        ∧ DemoScan.FivePillars upper feed (o.symbol, snap) := by
  intro o ho hauto
  obtain ⟨before, m, after, hmoves, ⟨tierB, ht, ha⟩, -⟩ := automatic_scanned hreplay x ho hauto
  obtain ⟨feed, hf, a, b, hrun, rfl⟩ := hscan m (by rw [hmoves]; simp) tierB ht
  obtain ⟨snap, hs, hfive⟩ := (DemoScan.mem_tierB_iff hrun o.symbol).mp ha
  exact ⟨feed, hf, snap, hs, hfive⟩

/-- The shipped configuration, with the replay off. -/
def scannedDay : DemoEnv := { deskDay with cfg := { DemoConfig.defaults with demoReplayMode := false } }

/-- The one mover is scanned, and bought at its breakout. -/
def moverBought : DeskRun scannedDay := (Execution.start _ _).play
  [.iterate true true, .scanned (some ["CETX"]), .resume, .bars (some surgeAndPullback),
    .entryQuote (some ⟨cents 1050, cents 1055⟩), .resume, .ack orderTaken]

/-- The order of its breakout. -/
def moverOrder : DemoOrder := ⟨.entry "CETX" 1767709800, "CETX", .buy, 1666, 53 / 5⟩

theorem moverOrder_sent : moverOrder ∈ moverBought.final.sent := by decide +kernel

theorem demoEntries_fivePillars_oneMover : ∃ feed ∈ ({DemoScan.oneMover} : Set DemoScan.Feed),
    ∃ snap, (DemoScan.snapshots feed 50).get? "CETX" = some snap
      ∧ DemoScan.FivePillars id feed ("CETX", snap) := by
  have hscans : ∀ m ∈ moverBought.moves, m.label.scans = none ∨ m.label.scans = some ["CETX"] := by
    decide +kernel
  refine demoEntries_fivePillars id 50 rfl moverBought {DemoScan.oneMover} ?_ moverOrder
    moverOrder_sent rfl
  intro m hm tierB ht
  rcases hscans m hm with hn | hone
  · exact absurd (hn.symm.trans ht) (by simp)
  · obtain rfl := Option.some.inj (hone.symm.trans ht)
    exact ⟨_, rfl, _, _, DemoScan.runScan_oneMover, rfl⟩

end RossBot
