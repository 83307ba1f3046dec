import RossBot.Live.Session

/-!
# What one step can do

The session's functions are opened here and nowhere else. Two kinds of lemma
come out. The *footprint* of a label (`step_footprint`) is the table of the
fields it may write and the events it may record, so that an invariant is only
ever checked against the labels that can touch it. For those labels, a `_cases`
lemma lists every outcome with the world it leads to.
-/

namespace RossBot

open Lib

/-! ## The tables -/

/-- The fields of the session that more than one proof asks about. -/
inductive Field where
  | opens
  | engine
  | risk
  | stopEvent
  | frozen
  | lastBarTs
  | barTask
  | stopTask
  | eodTask
  | reconcileTask
  | watchdogTask
  | cancelled
  | clock
  | holdings
  | nextRef
  deriving DecidableEq, Repr

/-- The fields a label may write. -/
def Label.writes : Label → List Field
  | .tick _ => [.clock]
  | .takeBar _ => [.lastBarTs, .barTask]
  | .feedEnds => [.barTask]
  | .barQuote _ => [.engine, .barTask, .nextRef]
  | .barResume => [.opens, .engine, .risk, .barTask]
  | .stopWake => [.stopTask]
  | .stopQuote _ => [.opens, .stopTask]
  | .stopResume => [.opens, .engine, .risk, .stopTask]
  | .eodWake => [.eodTask]
  | .eodResume _ => [.opens, .engine, .risk, .stopEvent, .eodTask]
  | .reconcileWake => [.reconcileTask]
  | .reconcileResume _ => [.opens, .engine, .risk, .reconcileTask]
  | .watchdogWake => [.frozen, .watchdogTask]
  | .watchdogResume _ => [.opens, .engine, .risk, .watchdogTask]
  | .barAnswer _ _ => [.barTask, .holdings]
  | .stopAnswer _ _ => [.stopTask, .holdings]
  | .eodAnswer _ _ => [.eodTask, .holdings]
  | .reconcileAnswer _ => [.reconcileTask]
  | .watchdogAnswer _ _ => [.watchdogTask, .holdings]
  | .brokerMove _ _ => [.holdings]
  | .stop => [.stopEvent]
  | .cancel => [.cancelled]

/-- The events a label may record. -/
def Label.emits : Label → Event → Bool
  | .takeBar _, .barArrived _ => true
  | .barQuote _, .onBar _ _ => true
  | .barQuote _, .buySubmitted _ => true
  | .barQuote _, .sellSubmitted _ => true
  | .barQuote _, .scaleSignal _ _ => true
  | .barResume, .opened _ => true
  | .barResume, .recordClose _ => true
  | .barResume, .closed _ _ _ => true
  | .stopWake, .poll _ => true
  | .stopWake, .pollDone => true
  | .stopQuote _, .stopQuoted _ _ _ => true
  | .stopQuote _, .sellSubmitted _ => true
  | .stopQuote _, .pollDone => true
  | .stopResume, .recordClose _ => true
  | .stopResume, .closed _ _ _ => true
  | .stopResume, .pollDone => true
  | .eodWake, .flattenSubmitted t => decide (t = .eod)
  | .eodResume _, .recordClose _ => true
  | .eodResume _, .closed _ _ _ => true
  | .reconcileWake, .snapshotRequested => true
  | .reconcileResume _, .recordClose _ => true
  | .reconcileResume _, .closed _ _ _ => true
  | .reconcileResume _, .reconciled => true
  | .watchdogWake, .froze => true
  | .watchdogWake, .unfroze => true
  | .watchdogWake, .flattenSubmitted t => decide (t = .watchdog)
  | .watchdogResume _, .recordClose _ => true
  | .watchdogResume _, .closed _ _ _ => true
  | .barAnswer _ _, .bought _ => true
  | .barAnswer _ _, .sellAccepted _ => true
  | .stopAnswer _ _, .bought _ => true
  | .stopAnswer _ _, .sellAccepted _ => true
  | .eodAnswer _ _, .flattenFilled _ _ => true
  | .reconcileAnswer _, .snapshot _ => true
  | .watchdogAnswer _ _, .flattenFilled _ _ => true
  | .brokerMove _ _, .bought _ => true
  | _, _ => false

/-- Two worlds agree on a field. -/
def SameAt (w w' : World) : Field → Prop
  | .opens => w'.opens = w.opens
  | .engine => w'.engine = w.engine
  | .risk => w'.risk = w.risk
  | .stopEvent => w'.stopEvent = w.stopEvent
  | .frozen => w'.frozen = w.frozen
  | .lastBarTs => w'.lastBarTs = w.lastBarTs
  | .barTask => w'.barTask = w.barTask
  | .stopTask => w'.stopTask = w.stopTask
  | .eodTask => w'.eodTask = w.eodTask
  | .reconcileTask => w'.reconcileTask = w.reconcileTask
  | .watchdogTask => w'.watchdogTask = w.watchdogTask
  | .cancelled => w'.cancelled = w.cancelled
  | .clock => w'.clock = w.clock
  | .holdings => w'.holdings = w.holdings
  | .nextRef => w'.nextRef = w.nextRef

/-- `w'` comes from `w` by writing and recording only what the label may. -/
structure Footprint (l : Label) (w w' : World) : Prop where
  /-- Every field the label does not write is kept. -/
  same : ∀ f, f ∉ l.writes → SameAt w w' f
  /-- The log is extended, by events of the label. -/
  log : ∃ es, w'.log = w.log ++ es ∧ ∀ e ∈ es, l.emits e = true

theorem SameAt.trans {u v w : World} {f : Field} (h : SameAt u v f) (h' : SameAt v w f) :
    SameAt u w f := by
  cases f <;> exact Eq.trans h' h

/-- A step that records nothing. When `w'` is written out as an update of `w`, the fields are
compared one by one. -/
theorem Footprint.silent {l : Label} {w w' : World} (hlog : w'.log = w.log)
    (h : ∀ f, f ∉ l.writes → SameAt w w' f := by
      intro f hf; cases f <;> first | rfl | exact absurd (by simp [Label.writes]) hf) :
    Footprint l w w' :=
  ⟨h, [], by rw [hlog, List.append_nil], by simp⟩

/-- A step that records `es`. -/
theorem Footprint.records {l : Label} {w w' : World} (es : List Event)
    (hlog : w'.log = w.log ++ es) (hes : ∀ e ∈ es, l.emits e = true)
    (h : ∀ f, f ∉ l.writes → SameAt w w' f := by
      intro f hf; cases f <;> first | rfl | exact absurd (by simp [Label.writes]) hf) :
    Footprint l w w' := ⟨h, es, hlog, hes⟩

/-- Footprints of one label compose. -/
theorem Footprint.trans {l : Label} {u v w : World} (h : Footprint l u v)
    (h' : Footprint l v w) : Footprint l u w := by
  obtain ⟨es, he, hes⟩ := h.log
  obtain ⟨fs, hf, hfs⟩ := h'.log
  refine ⟨fun f hn => (h.same f hn).trans (h'.same f hn), es ++ fs, ?_, ?_⟩
  · rw [hf, he, List.append_assoc]
  · intro e hm
    rcases List.mem_append.mp hm with hm | hm
    · exact hes e hm
    · exact hfs e hm

namespace World

variable {env : Env} {w w' : World}

/-- A task moves only while the tasks are not cancelled. -/
theorem task_some {f : World → Option World} (h : w.task f = some w') :
    w.cancelled = false ∧ f w = some w' := by
  unfold task at h
  cases hc : w.cancelled with
  | true => rw [hc] at h; exact absurd h (by simp)
  | false => rw [hc] at h; exact ⟨rfl, by simpa using h⟩

/-! ## Closing a position -/

/-- Everything a sale, a flatten or an orphan does to a tracked position: `sold` is the
position the handler held, `tracked` the one `_open` holds. -/
def retire (env : Env) (w : World) (symbol : Symbol) (sold tracked : LivePosition) (exit : ℚ) :
    World :=
  { w with
    opens := w.opens.erase symbol
    engine := w.engine.closePosition symbol
    risk := RiskState.recordClose env.cfg w.risk symbol 0
    log := w.log ++ [.recordClose sold,
      .closed tracked exit (RiskState.recordClose env.cfg w.risk symbol 0)] }

theorem dropOrphan_eq (price : Symbol → ℚ) (b : Symbol × LivePosition) :
    dropOrphan env price w b = w.retire env b.1 b.2 b.2 (price b.1) := by
  unfold dropOrphan retire recordClose
  simp

/-- `record_close` and `del self._open[symbol]`, when the symbol is still there. -/
theorem remove_some {symbol : Symbol} {sold p : LivePosition} {exit : ℚ}
    (h : w.opens.get? symbol = some p) :
    (w.recordClose env symbol sold).remove symbol exit
      = some (w.retire env symbol sold p exit) := by
  have h' : (w.recordClose env symbol sold).opens.get? symbol = some p := h
  unfold remove
  rw [h']
  simp [retire, recordClose]

theorem remove_none {symbol : Symbol} {sold : LivePosition} {exit : ℚ}
    (h : w.opens.get? symbol = none) :
    (w.recordClose env symbol sold).remove symbol exit = none := by
  have h' : (w.recordClose env symbol sold).opens.get? symbol = none := h
  unfold remove
  rw [h']

/-- Retire a list of tracked positions, one after the other. -/
def retireAll (env : Env) (price : Symbol → ℚ) (w : World) (bs : List (Symbol × LivePosition)) :
    World :=
  bs.foldl (dropOrphan env price) w

/-- The symbols of the tracked positions that the broker's map does not have. -/
def orphans (w : World) (broker : Dict Symbol ℤ) : List (Symbol × LivePosition) :=
  w.opens.items.filter fun b => b.1 ∈
    (reconcilePositions broker (w.opens.mapValues (·.shares))).internalOnly

theorem reconcileWith_eq (price : Symbol → ℚ) (broker : Dict Symbol ℤ) :
    reconcileWith env price broker w = retireAll env price w (w.orphans broker) := rfl

theorem mem_orphans {broker : Dict Symbol ℤ} {b : Symbol × LivePosition} :
    b ∈ w.orphans broker ↔ w.opens.get? b.1 = some b.2 ∧ broker.get? b.1 = none := by
  unfold orphans
  rw [List.mem_filter, decide_eq_true_eq, mem_internalOnly, Dict.get?_mapValues, Dict.mem_items]
  constructor
  · rintro ⟨h1, _, h2⟩
    exact ⟨h1, h2⟩
  · rintro ⟨h1, h2⟩
    exact ⟨h1, ⟨b.2.shares, by rw [h1]; rfl⟩, h2⟩

/-- A session compared with itself has no orphans. -/
theorem reconcileWith_self (price : Symbol → ℚ) :
    reconcileWith env price (w.opens.mapValues (·.shares)) w = w := by
  rw [reconcileWith_eq]
  have h : w.orphans (w.opens.mapValues (·.shares)) = [] := by
    rw [List.eq_nil_iff_forall_not_mem]
    intro b hb
    obtain ⟨h1, h2⟩ := mem_orphans.mp hb
    rw [Dict.get?_mapValues, h1] at h2
    exact absurd h2 (by simp)
  rw [h]; rfl

variable (env w) in
/-- Retiring writes `_open`, the engine, the risk state and the log. -/
theorem retireAll_footprint (price : Symbol → ℚ) (bs : List (Symbol × LivePosition)) :
    ∃ o e r es, retireAll env price w bs = { w with
        opens := o, engine := e, risk := r, log := w.log ++ es }
      ∧ ∀ e ∈ es, (∃ p, e = .recordClose p) ∨ ∃ p x r, e = .closed p x r := by
  induction bs generalizing w with
  | nil => exact ⟨w.opens, w.engine, w.risk, [], by simp [retireAll], by simp⟩
  | cons b bs ih =>
      obtain ⟨o, e, r, es, h1, h2⟩ := ih (w := dropOrphan env price w b)
      -- dropping the head first, so that the rest starts from what it left
      have hcons : retireAll env price w (b :: bs)
          = retireAll env price (dropOrphan env price w b) bs := rfl
      have hlog : (dropOrphan env price w b).log = w.log ++ [.recordClose b.2,
          .closed b.2 (price b.1) (RiskState.recordClose env.cfg w.risk b.1 0)] := by
        rw [dropOrphan_eq]; rfl
      refine ⟨o, e, r, [.recordClose b.2, .closed b.2 (price b.1)
        (RiskState.recordClose env.cfg w.risk b.1 0)] ++ es, ?_, ?_⟩
      · rw [hcons, h1, hlog, List.append_assoc]
        rfl
      · intro e he
        rcases List.mem_append.mp he with he | he
        · rcases List.mem_pair.mp he with he | he
          · exact Or.inl ⟨_, he⟩
          · exact Or.inr ⟨_, _, _, he⟩
        · exact h2 e he

/-- What retiring one position takes from its symbol and leaves the others, retiring a list
takes from its symbols and leaves the others. -/
private theorem retireAll_lookup {α : Type} {price : Symbol → ℚ} {s : Symbol}
    (f : World → Option α)
    (hone : ∀ v b, f (dropOrphan env price v b) = if s = b.1 then none else f v)
    (bs : List (Symbol × LivePosition)) :
    f (retireAll env price w bs) = if s ∈ bs.map Prod.fst then none else f w := by
  induction bs generalizing w with
  | nil => rfl
  | cons b bs ih =>
      have hcons : retireAll env price w (b :: bs)
          = retireAll env price (dropOrphan env price w b) bs := rfl
      rw [hcons, ih, hone]
      simp only [List.map_cons, List.mem_cons]
      by_cases h1 : s ∈ bs.map Prod.fst
      · rw [if_pos h1, if_pos (Or.inr h1)]
      · by_cases h2 : s = b.1
        · rw [if_neg h1, if_pos h2, if_pos (Or.inl h2)]
        · rw [if_neg h1, if_neg h2, if_neg (by tauto)]

/-- Retiring a list erases its symbols, in whatever order. -/
theorem retireAll_opens (price : Symbol → ℚ) (bs : List (Symbol × LivePosition)) (s : Symbol) :
    (retireAll env price w bs).opens.get? s
      = if s ∈ bs.map Prod.fst then none else w.opens.get? s := by
  refine retireAll_lookup (fun v => v.opens.get? s) ?_ bs
  intro v b
  rw [dropOrphan_eq]
  exact Dict.get?_erase ..

/-- Retiring a list takes its symbols from the engine, and leaves it the others. -/
theorem retireAll_engine (price : Symbol → ℚ) (bs : List (Symbol × LivePosition)) (s : Symbol) :
    (retireAll env price w bs).engine.position s
      = if s ∈ bs.map Prod.fst then none else w.engine.position s := by
  refine retireAll_lookup (fun v => v.engine.position s) ?_ bs
  intro v b
  rw [dropOrphan_eq]
  exact StrategyEngine.position_closePosition ..

/-- Retiring a list takes its symbols from the risk manager, and leaves it the others. -/
theorem retireAll_risk (price : Symbol → ℚ) (bs : List (Symbol × LivePosition)) (s : Symbol) :
    (retireAll env price w bs).risk.openPositions.get? s
      = if s ∈ bs.map Prod.fst then none else w.risk.openPositions.get? s := by
  refine retireAll_lookup (fun v => v.risk.openPositions.get? s) ?_ bs
  intro v b
  rw [dropOrphan_eq]
  exact Dict.get?_erase ..

/-- Retiring everything leaves nothing tracked. -/
theorem retireAll_items (price : Symbol → ℚ) (s : Symbol) :
    (retireAll env price w w.opens.items).opens.get? s = none := by
  rw [retireAll_opens]
  split
  · rfl
  · rename_i hs
    cases hg : w.opens.get? s with
    | none => rfl
    | some p => exact absurd (Dict.mem_keys.mpr ⟨p, hg⟩) hs

private theorem foldl_closeOne (price : Symbol → ℚ) (bs : List (Symbol × LivePosition)) :
    retireAll env price w bs
      = { bs.foldl (closeOne env price) w with opens := (retireAll env price w bs).opens } := by
  have key : ∀ (bs : List (Symbol × LivePosition)) (w : World) (o : Dict Symbol LivePosition),
      { retireAll env price { w with opens := o } bs with opens := w.opens }
        = { bs.foldl (closeOne env price) w with opens := w.opens } := by
    intro bs
    induction bs with
    | nil => intro w o; rfl
    | cons b bs ih =>
        intro w o
        have h := ih (closeOne env price w b) (o.erase b.1)
        have hc : dropOrphan env price { w with opens := o } b
            = { closeOne env price w b with opens := o.erase b.1 } := rfl
        have hr : retireAll env price { w with opens := o } (b :: bs)
            = retireAll env price { closeOne env price w b with opens := o.erase b.1 } bs := by
          rw [← hc]; rfl
        rw [hr]
        exact h
  -- the loop never reads `_open`, so it may be cleared along the way or at the end
  have h := key bs w w.opens
  have h' := congrArg (fun v : World => { v with opens := (retireAll env price w bs).opens }) h
  exact h'

/-- **A flatten retires every tracked position, one after the other.** -/
theorem closeAll_eq (price : Symbol → ℚ) :
    closeAll env price w = retireAll env price w w.opens.items := by
  have hnone : (retireAll env price w w.opens.items).opens = ∅ := by
    have h : (retireAll env price w w.opens.items).opens.items = [] :=
      Dict.items_eq_nil.mpr (retireAll_items price)
    cases ho : (retireAll env price w w.opens.items).opens with
    | mk items nodup =>
        rw [ho] at h
        subst h
        rfl
  rw [foldl_closeOne, hnone]
  rfl

/-- **The rule for flattens and orphans.** What retiring one tracked position
preserves, retiring any list of tracked positions preserves. -/
theorem retireAll_induction {I : World → Prop} (price : Symbol → ℚ)
    {bs : List (Symbol × LivePosition)}
    (hone : ∀ v s p x, (s, p) ∈ bs → v.opens.get? s = some p → I v → I (v.retire env s p p x))
    (hnd : (bs.map Prod.fst).Nodup)
    (hbs : ∀ b ∈ bs, w.opens.get? b.1 = some b.2) (h : I w) : I (retireAll env price w bs) := by
  induction bs generalizing w with
  | nil => exact h
  | cons b bs ih =>
      have hcons : retireAll env price w (b :: bs)
          = retireAll env price (dropOrphan env price w b) bs := rfl
      rw [List.map_cons, List.nodup_cons] at hnd
      rw [hcons]
      have hI : I (dropOrphan env price w b) := by
        rw [dropOrphan_eq]
        exact hone w b.1 b.2 _ List.mem_cons_self (hbs b List.mem_cons_self) h
      refine ih (fun v s p x hm => hone v s p x (List.mem_cons_of_mem _ hm)) hnd.2 ?_ hI
      -- what is still to be retired is of other symbols, so it is still tracked
      intro b' hb'
      have hne : b'.1 ≠ b.1 := by
        intro he
        exact hnd.1 (he ▸ List.mem_map.mpr ⟨b', hb', rfl⟩)
      rw [dropOrphan_eq]
      exact (Dict.get?_erase_ne _ hne).trans (hbs b' (List.mem_cons_of_mem _ hb'))

/-! ## The bar loop -/

theorem takeBar_cases {bar : BarTick} (h : takeBar env bar w = some w') :
    w.barTask = .awaitBar
      ∧ ((w.stopEvent = true ∧ w' = { w with barTask := .ended })
        ∨ (w.stopEvent = false ∧ (w.frozen = true ∨ env.scanResults bar.symbol = none)
          ∧ w' = { w with lastBarTs := some w.clock, log := w.log ++ [.barArrived bar] })
        ∨ ∃ scan, w.stopEvent = false ∧ w.frozen = false
          ∧ env.scanResults bar.symbol = some scan
          ∧ w' = { w with
              lastBarTs := some w.clock
              barTask := .awaitQuote bar scan (env.l2Signals bar.symbol)
              log := w.log ++ [.barArrived bar] }) := by
  unfold takeBar at h
  cases hb : w.barTask with
  | awaitBar =>
      rw [hb] at h
      dsimp only at h
      refine ⟨rfl, ?_⟩
      cases hs : w.stopEvent with
      -- after `stop` the loop ends on the bar it was waiting for
      | true =>
          rw [hs, if_pos rfl] at h
          exact Or.inl ⟨rfl, (Option.some.inj h).symm⟩
      | false =>
          rw [hs, if_neg (by simp)] at h
          cases hf : w.frozen with
          -- frozen: the bar is counted by the watchdog, and dropped
          | true =>
              rw [hf, if_pos rfl] at h
              exact Or.inr (Or.inl ⟨rfl, Or.inl rfl, (Option.some.inj h).symm⟩)
          | false =>
              rw [hf, if_neg (by simp)] at h
              cases hsc : env.scanResults bar.symbol with
              -- a symbol without a scan result is passed over
              | none =>
                  rw [hsc] at h
                  exact Or.inr (Or.inl ⟨rfl, Or.inr rfl, (Option.some.inj h).symm⟩)
              | some scan =>
                  rw [hsc] at h
                  exact Or.inr (Or.inr ⟨scan, rfl, rfl, rfl, (Option.some.inj h).symm⟩)
  | awaitQuote | awaitEntryAck | awaitExitAck | ended => rw [hb] at h; exact absurd h (by simp)

theorem feedEnds_cases (h : feedEnds w = some w') :
    w.barTask = .awaitBar ∧ w' = { w with barTask := .ended } := by
  unfold feedEnds at h
  cases hb : w.barTask with
  | awaitBar => rw [hb] at h; exact ⟨rfl, (Option.some.inj h).symm⟩
  | awaitQuote | awaitEntryAck | awaitExitAck | ended => rw [hb] at h; exact absurd h (by simp)

/-- An order is only sent after the risk manager approved it. -/
theorem entryOrder_some {sig : EntrySignal} {bar : BarTick} {o : EntryOrder}
    (h : w.entryOrder env sig bar = some o) :
    o.signal = sig ∧ o.bar = bar ∧ o.ref = w.nextRef
      ∧ o.limit = sig.entryPrice.val + env.cfg.buyOffset ∧ 0 < o.shares
      ∧ PassesGate sig w.risk env.cfg (env.timeOfDay bar.ts) env.equity false := by
  unfold entryOrder at h
  dsimp only at h
  split at h
  · exact absurd h (by simp)
  · rename_i happ
    split at h
    · exact absurd h (by simp)
    · rename_i hcap
      have hok := RiskState.evaluate_approved (by simpa using happ)
      have ho := Option.some.inj h
      subst ho
      exact ⟨rfl, rfl, rfl, rfl, not_le.mp hcap, hok.1⟩

/-- The engine's positions after a bar: what they were, or marked at its close. -/
def Marked (bar : BarTick) (e e' : StrategyEngine) : Prop :=
  ∀ s, e'.position s = e.position s
    ∨ ∃ p, e.position s = some p ∧ e'.position s = some (p.mark bar.close)

/-- The engine's positions after a full exit: the one of the bar's symbol is gone. -/
def Cleared (bar : BarTick) (e e' : StrategyEngine) : Prop :=
  ∀ s, e'.position s = if s = bar.symbol then none else e.position s

/-- **What `on_bar` and the loop over its signals come to.** A bar yields at most one
signal, so nothing is left over when an order is sent. -/
inductive Judged (env : Env) (w : World) (bar : BarTick) : World → Prop where
  /-- No signal, a warning, or an entry that is not sent. -/
  | quiet {e : StrategyEngine} {sigs : List Signal} : Marked bar w.engine e →
      Judged env w bar { w with
        engine := e, barTask := .awaitBar, log := w.log ++ [.onBar bar sigs] }
  /-- A full exit of a position the session does not track. -/
  | lost {e : StrategyEngine} {sigs : List Signal} {snap : PositionSnapshot} :
      w.engine.position bar.symbol = some snap → Cleared bar w.engine e →
      w.opens.get? bar.symbol = none ∨ w.opens.get? snap.symbol = none →
      Judged env w bar { w with
        engine := e, barTask := .awaitBar, log := w.log ++ [.onBar bar sigs] }
  /-- A scale-out of a tracked position: the signal is dropped. -/
  | scale {e : StrategyEngine} {sigs : List Signal} {snap : PositionSnapshot}
      {tracked : LivePosition} :
      w.engine.position bar.symbol = some snap → w.opens.get? bar.symbol = some tracked →
      Marked bar w.engine e →
      Judged env w bar { w with
        engine := e, barTask := .awaitBar,
        log := w.log ++ [.onBar bar sigs, .scaleSignal tracked snap.entryPrice] }
  /-- An entry is sent. -/
  | buy {e : StrategyEngine} {sigs : List Signal} {sig : EntrySignal} {order : EntryOrder} :
      sig.symbol = bar.symbol → w.engine.position bar.symbol = none →
      w.opens.get? bar.symbol = none → Marked bar w.engine e →
      w.entryOrder env sig bar = some order →
      Judged env w bar { w with
        engine := e, barTask := .awaitEntryAck order [] .sent, nextRef := w.nextRef + 1,
        log := w.log ++ [.onBar bar sigs, .buySubmitted order] }
  /-- A full exit is sent. -/
  | sell {e : StrategyEngine} {sigs : List Signal} {snap : PositionSnapshot}
      {pos : LivePosition} :
      w.engine.position bar.symbol = some snap → w.opens.contains bar.symbol = true →
      w.opens.get? snap.symbol = some pos → Cleared bar w.engine e →
      Judged env w bar { w with
        engine := e,
        barTask := .awaitExitAck ⟨snap.symbol, pos, bar.close.val⟩ bar [] .sent,
        log := w.log ++ [.onBar bar sigs, .sellSubmitted ⟨snap.symbol, pos, bar.close.val⟩] }

private theorem marked_setState {bar : BarTick} {e : StrategyEngine} {s : SymbolState}
    (h : s.position = e.position bar.symbol
      ∨ ∃ p, e.position bar.symbol = some p ∧ s.position = some (p.mark bar.close)) :
    Marked bar e (e.setState bar.symbol s) := by
  intro sym
  rw [StrategyEngine.position_setState]
  by_cases hs : sym = bar.symbol
  · subst hs
    rw [if_pos rfl]
    exact h
  · rw [if_neg hs]
    exact Or.inl rfl

private theorem cleared_setState {bar : BarTick} {e : StrategyEngine} {s : SymbolState}
    (h : s.position = none) : Cleared bar e (e.setState bar.symbol s) := by
  intro sym
  rw [StrategyEngine.position_setState, h]

/-- An entry signal is sent when its symbol is untracked and the risk manager approves. -/
private theorem judged_entry {bar : BarTick} {e : StrategyEngine} {sig : EntrySignal}
    (hpos : w.engine.position bar.symbol = none) (hsym : sig.symbol = bar.symbol)
    (hm : Marked bar w.engine e) :
    Judged env w bar (runSignals env bar [.entry sig]
      { w with engine := e, log := w.log ++ [.onBar bar [.entry sig]] }) := by
  unfold runSignals
  split
  · exact .quiet hm
  · rename_i hc
    split
    · exact .quiet hm
    · rename_i order ho
      have hopen := Dict.contains_eq_false.mp (Bool.not_eq_true _ ▸ hc)
      dsimp only
      rw [List.append_assoc]
      exact .buy hsym hpos hopen hm ho

/-- A full exit is sent when the session tracks the bar's symbol and the signal's. -/
private theorem judged_fullExit {bar : BarTick} {e : StrategyEngine} {p : PositionSnapshot}
    {sig : ExitSignal} (hp : w.engine.position bar.symbol = some p) (hsym : sig.symbol = p.symbol)
    (hact : sig.action = .fullExit) (hcl : Cleared bar w.engine e) :
    Judged env w bar (runSignals env bar [.exit sig]
      { w with engine := e, log := w.log ++ [.onBar bar [.exit sig]] }) := by
  unfold runSignals
  dsimp only
  cases ho : w.opens.get? bar.symbol with
  | none => exact .lost hp hcl (Or.inl ho)
  | some tracked =>
      dsimp only
      rw [hact, hsym]
      dsimp only
      cases hq : w.opens.get? p.symbol with
      | none => exact .lost hp hcl (Or.inr hq)
      | some pos =>
          dsimp only
          rw [List.append_assoc]
          exact .sell hp (Dict.contains_iff.mpr ⟨tracked, ho⟩) hq hcl

/-- A scale-out of a tracked position is recorded, and nothing else happens. -/
private theorem judged_scaleOut {bar : BarTick} {e : StrategyEngine} {p : PositionSnapshot}
    {sig : ExitSignal} (hp : w.engine.position bar.symbol = some p)
    (hact : sig.action = .partialScale) (hns : sig.newStop = some p.entryPrice)
    (hm : Marked bar w.engine e) :
    Judged env w bar (runSignals env bar [.exit sig]
      { w with engine := e, log := w.log ++ [.onBar bar [.exit sig]] }) := by
  unfold runSignals
  dsimp only
  cases ho : w.opens.get? bar.symbol with
  | none => exact .quiet hm
  | some tracked =>
      dsimp only
      rw [hact, hns]
      dsimp only
      unfold runSignals
      dsimp only
      rw [List.append_assoc]
      exact .scale hp ho hm

theorem barQuote_cases {quote : Option QuoteTick} (h : barQuote env quote w = some w') :
    ∃ bar scan l2, w.barTask = .awaitQuote bar scan l2
      ∧ ((quote = none ∧ w' = { w with barTask := .ended })
        ∨ ((∃ q, quote = some q) ∧ Judged env w bar w')) := by
  unfold barQuote at h
  cases hb : w.barTask with
  | awaitBar | awaitEntryAck | awaitExitAck | ended => rw [hb] at h; exact absurd h (by simp)
  | awaitQuote bar scan l2 =>
      rw [hb] at h
      refine ⟨bar, scan, l2, rfl, ?_⟩
      cases quote with
      | none => exact Or.inl ⟨rfl, (Option.some.inj h).symm⟩
      | some q =>
          refine Or.inr ⟨⟨q, rfl⟩, ?_⟩
          have hw := Option.some.inj h
          subst hw
          have hcases := SymbolState.onBar_cases env.cfg bar scan l2 (q.ask.val - q.bid.val)
            env.marketState (w.engine bar.symbol)
          unfold StrategyEngine.onBar
          dsimp only
          generalize (w.engine bar.symbol).onBar env.cfg bar scan l2 (q.ask.val - q.bid.val)
            env.marketState = r at hcases
          obtain ⟨s, sigs⟩ := r
          dsimp only at hcases ⊢
          rcases hcases with ⟨rfl, hpos⟩ | ⟨hnone, hs, ⟨sig, hsym, rfl⟩ | ⟨f, rfl⟩⟩
            | ⟨p, sig, hp, hsym, hact, hs, rfl⟩ | ⟨p, sig, hp, hsym, hact, hns, hs, rfl⟩
          · -- no signal
            exact .quiet (marked_setState hpos)
          · exact judged_entry hnone hsym (marked_setState (Or.inl (hs.trans hnone.symm)))
          · -- a failed pattern is only reported
            exact .quiet (marked_setState (Or.inl (hs.trans hnone.symm)))
          · exact judged_fullExit hp hsym hact (cleared_setState hs)
          · exact judged_scaleOut hp hact hns (marked_setState (Or.inr ⟨p, hp, hs⟩))

/-- While an order of the bar loop is in flight, no signal is left over. -/
def NoRest : BarTask → Prop
  | .awaitEntryAck _ rest _ => rest = []
  | .awaitExitAck _ _ rest _ => rest = []
  | _ => True

/-- **What the bar loop does with an answer.** -/
inductive BarResumed (env : Env) (w : World) : World → Prop where
  /-- The call for a BUY raised, and the task with it. -/
  | buyRaised {o : EntryOrder} : w.barTask = .awaitEntryAck o [] (.answered none) →
      BarResumed env w { w with barTask := .ended }
  | buyRejected {o : EntryOrder} {ack : OrderAck} :
      w.barTask = .awaitEntryAck o [] (.answered (some ack)) → ack.accepted = false →
      BarResumed env w { w with barTask := .awaitBar }
  | opened {o : EntryOrder} {ack : OrderAck} :
      w.barTask = .awaitEntryAck o [] (.answered (some ack)) → ack.accepted = true →
      BarResumed env w { w.openPosition o ack with barTask := .awaitBar }
  /-- The call for a SELL raised, and the task with it. -/
  | sellRaised {o : SellOrder} {bar : BarTick} :
      w.barTask = .awaitExitAck o bar [] (.answered none) →
      BarResumed env w { w with barTask := .ended }
  | sellRejected {o : SellOrder} {bar : BarTick} {ack : OrderAck} :
      w.barTask = .awaitExitAck o bar [] (.answered (some ack)) → ack.accepted = false →
      BarResumed env w { w with barTask := .awaitBar }
  | sold {o : SellOrder} {bar : BarTick} {ack : OrderAck} {p : LivePosition} :
      w.barTask = .awaitExitAck o bar [] (.answered (some ack)) → ack.accepted = true →
      w.opens.get? o.symbol = some p →
      BarResumed env w { w.retire env o.symbol o.pos p o.limit with barTask := .awaitBar }
  /-- Another task closed the position first: the close is recorded, then `del` raises. -/
  | soldTwice {o : SellOrder} {bar : BarTick} {ack : OrderAck} :
      w.barTask = .awaitExitAck o bar [] (.answered (some ack)) → ack.accepted = true →
      w.opens.get? o.symbol = none →
      BarResumed env w { w.recordClose env o.symbol o.pos with barTask := .ended }

theorem barResume_cases (hrest : NoRest w.barTask) (h : barResume env w = some w') :
    BarResumed env w w' := by
  unfold barResume at h
  split at h
  · rename_i o rest reply hb
    rw [hb] at hrest
    change rest = [] at hrest
    subst hrest
    cases reply with
    | none => rw [← Option.some.inj h]; exact .buyRaised hb
    -- accepted: tracked; rejected: forgotten
    | some ack =>
        dsimp only at h
        split at h
        · rename_i ha
          rw [← Option.some.inj h]; exact .opened hb ha
        · rename_i ha
          rw [← Option.some.inj h]; exact .buyRejected hb (by simpa using ha)
  · rename_i o bar rest reply hb
    rw [hb] at hrest
    change rest = [] at hrest
    subst hrest
    cases reply with
    | none => rw [← Option.some.inj h]; exact .sellRaised hb
    | some ack =>
        dsimp only at h
        -- the ack comes when the symbol may have been closed by another loop
        split at h
        · rename_i ha
          cases ho : w.opens.get? o.symbol with
          | none =>
              rw [remove_none ho] at h
              rw [← Option.some.inj h]; exact .soldTwice hb ha ho
          | some p =>
              rw [remove_some ho] at h
              rw [← Option.some.inj h]; exact .sold hb ha ho
        · rename_i ha
          rw [← Option.some.inj h]; exact .sellRejected hb (by simpa using ha)
  · exact absurd h (by simp)

/-! ## The mental-stop loop -/

variable (env w) in
/-- Going on with an iteration writes the task and at most ends the iteration. -/
theorem nextStop_footprint (rest : List (Symbol × LivePosition)) :
    ∃ t es, nextStop env rest w = { w with stopTask := t, log := w.log ++ es }
      ∧ ∀ e ∈ es, e = .pollDone := by
  cases rest with
  | nil => exact ⟨w.stopLoop env, [.pollDone], rfl, fun e he => List.mem_singleton.mp he⟩
  | cons b rest => exact ⟨.awaitQuote b.1 b.2 rest, [], by simp [nextStop], by simp⟩

theorem stopWake_cases (h : stopWake env w = some w') :
    ∃ due, w.stopTask = .sleeping due ∧ due ≤ w.clock
      ∧ ((w.frozen = true
          ∧ w' = nextStop env [] { w with log := w.log ++ [.poll w.opens.items] })
        ∨ (w.frozen = false
          ∧ w' = nextStop env w.opens.items { w with log := w.log ++ [.poll w.opens.items] })) := by
  unfold stopWake at h
  split at h
  · rename_i due hs
    split at h
    · exact absurd h (by simp)
    · rename_i hdue
      refine ⟨due, hs, not_lt.mp hdue, ?_⟩
      dsimp only at h
      split at h
      · -- while frozen nothing is looked at
        rename_i hf
        exact Or.inl ⟨hf, (Option.some.inj h).symm⟩
      · rename_i hf
        exact Or.inr ⟨by simpa using hf, (Option.some.inj h).symm⟩
  · exact absurd h (by simp)

/-- The same positions, with other watermarks. -/
def Remarked (o o' : Dict Symbol LivePosition) : Prop :=
  ∀ s, o'.get? s = o.get? s
    ∨ ∃ p m, o.get? s = some p ∧ o'.get? s = some { p with highWatermark := m }

theorem Remarked.refl (o : Dict Symbol LivePosition) : Remarked o o := fun _ => Or.inl rfl

/-- `markHigh` writes `_open`, and only a watermark in it. -/
theorem markHigh_cases (symbol : Symbol) (pos : LivePosition) (bid : ℚ) :
    ∃ o, markHigh w symbol pos bid = { w with opens := o } ∧ Remarked w.opens o := by
  unfold markHigh
  cases hp : w.opens.get? symbol with
  | none => exact ⟨w.opens, rfl, .refl _⟩
  | some p =>
      dsimp only
      split
      · refine ⟨_, rfl, ?_⟩
        intro s
        rw [Dict.get?_set]
        split
        · rename_i hs
          exact Or.inr ⟨p, bid, hs ▸ hp, rfl⟩
        · exact Or.inl rfl
      · exact ⟨w.opens, rfl, .refl _⟩

/-- The order of the stop loop at this bid. -/
def stopOrder (symbol : Symbol) (pos : LivePosition) (bid : ℚ) : SellOrder :=
  ⟨symbol, pos, max (bid - mentalStopLatencySlip) (1 / 100)⟩

/-- **What the mental-stop loop does with a quote.** -/
inductive StopQuoted (env : Env) (w : World) (symbol : Symbol) (pos : LivePosition)
    (rest : List (Symbol × LivePosition)) : Option QuoteTick → World → Prop where
  /-- The quote raised: on to the next position. -/
  | raised : StopQuoted env w symbol pos rest none
      (nextStop env rest { w with
        log := w.log ++ [.stopQuoted pos none (w.isTracked symbol pos)] })
  | held {q : QuoteTick} {o : Dict Symbol LivePosition} : stopFires env pos q.bid.val = false →
      Remarked w.opens o →
      StopQuoted env w symbol pos rest (some q)
        (nextStop env rest { w with
          opens := o, log := w.log ++ [.stopQuoted pos (some q) (w.isTracked symbol pos)] })
  | fired {q : QuoteTick} {o : Dict Symbol LivePosition} : stopFires env pos q.bid.val = true →
      Remarked w.opens o →
      StopQuoted env w symbol pos rest (some q)
        { w with
          opens := o
          stopTask := .awaitSellAck (stopOrder symbol pos q.bid.val) rest .sent
          log := w.log ++ [.stopQuoted pos (some q) (w.isTracked symbol pos),
            .sellSubmitted (stopOrder symbol pos q.bid.val)] }

theorem stopQuote_cases {quote : Option QuoteTick} (h : stopQuote env quote w = some w') :
    ∃ symbol pos rest, w.stopTask = .awaitQuote symbol pos rest
      ∧ StopQuoted env w symbol pos rest quote w' := by
  unfold stopQuote at h
  split at h
  · rename_i symbol pos rest hs
    refine ⟨symbol, pos, rest, hs, ?_⟩
    cases quote with
    | none => rw [← Option.some.inj h]; exact .raised
    | some q =>
        dsimp only at h
        obtain ⟨o, ho, hm⟩ := markHigh_cases (w := { w with
          log := w.log ++ [.stopQuoted pos (some q) (w.isTracked symbol pos)] }) symbol pos q.bid.val
        rw [ho] at h
        dsimp only at h hm
        split at h
        · rename_i hf
          -- the mark is moved before the stop is tested
          rw [← Option.some.inj h, List.append_assoc]
          exact .fired hf hm
        · rename_i hf
          rw [← Option.some.inj h]
          exact .held (by simpa using hf) hm
  · exact absurd h (by simp)

/-- **What the mental-stop loop does with an answer.** -/
inductive StopResumed (env : Env) (w : World) (o : SellOrder)
    (rest : List (Symbol × LivePosition)) : Option OrderAck → World → Prop where
  /-- Raised or rejected: the position stays. -/
  | refused {reply : Option OrderAck} : reply.any (·.accepted) = false →
      StopResumed env w o rest reply (nextStop env rest w)
  | sold {ack : OrderAck} {p : LivePosition} : ack.accepted = true →
      w.opens.get? o.symbol = some p →
      StopResumed env w o rest (some ack)
        (nextStop env rest (w.retire env o.symbol o.pos p o.limit))
  /-- Another task closed the position first: the close is recorded, the `KeyError` caught. -/
  | soldTwice {ack : OrderAck} : ack.accepted = true → w.opens.get? o.symbol = none →
      StopResumed env w o rest (some ack)
        (nextStop env rest (w.recordClose env o.symbol o.pos))

theorem stopResume_cases (h : stopResume env w = some w') :
    ∃ o rest reply, w.stopTask = .awaitSellAck o rest (.answered reply)
      ∧ StopResumed env w o rest reply w' := by
  unfold stopResume at h
  split at h
  · rename_i o rest reply hs
    refine ⟨o, rest, reply, hs, ?_⟩
    cases reply with
    | none => rw [← Option.some.inj h]; exact .refused rfl
    | some ack =>
        dsimp only at h
        split at h
        · rename_i ha
          -- another loop may have taken the position meanwhile
          cases ho : w.opens.get? o.symbol with
          | none =>
              rw [remove_none ho] at h
              rw [← Option.some.inj h]; exact .soldTwice ha ho
          | some p =>
              rw [remove_some ho] at h
              rw [← Option.some.inj h]; exact .sold ha ho
        · rename_i ha
          rw [← Option.some.inj h]; exact .refused (by simpa using ha)
  · exact absurd h (by simp)

/-! ## The EOD loop -/

theorem eodWake_cases (h : eodWake env w = some w') :
    (∃ due, w.eodTask = .sleeping due)
      ∧ ((w.opens.items ≠ [] ∧ w' = { w with
            eodTask := .awaitFlatten .sent, log := w.log ++ [.flattenSubmitted .eod] })
        ∨ w' = { w with eodTask := w.eodLoop }) := by
  unfold eodWake at h
  split at h
  · rename_i due hs
    refine ⟨⟨due, hs⟩, ?_⟩
    split at h
    · exact absurd h (by simp)
    · split at h
      · rename_i hc
        exact Or.inl ⟨hc.2, (Option.some.inj h).symm⟩
      · exact Or.inr (Option.some.inj h).symm
  · exact absurd h (by simp)

theorem eodResume_cases {price : Symbol → ℚ} (h : eodResume env price w = some w') :
    ∃ reply, w.eodTask = .awaitFlatten (.answered reply)
      ∧ ((reply = none ∧ w' = { w with eodTask := .ended })
        ∨ ∃ acks, reply = some acks ∧ w' = { retireAll env price w w.opens.items with
            stopEvent := true, eodTask := .ended }) := by
  unfold eodResume at h
  split at h
  · rename_i reply hs
    refine ⟨reply, hs, ?_⟩
    cases reply with
    | none => exact Or.inl ⟨rfl, (Option.some.inj h).symm⟩
    | some acks =>
        rw [closeAll_eq] at h
        exact Or.inr ⟨acks, rfl, (Option.some.inj h).symm⟩
  · exact absurd h (by simp)

/-! ## The reconcile loop -/

theorem reconcileWake_cases (h : reconcileWake env w = some w') :
    (∃ due, w.reconcileTask = .sleeping due)
      ∧ (w' = { w with
            reconcileTask := .awaitPositions .sent, log := w.log ++ [.snapshotRequested] }
        ∨ w' = { w with reconcileTask := w.reconcileLoop env }) := by
  unfold reconcileWake at h
  split at h
  · rename_i due hs
    refine ⟨⟨due, hs⟩, ?_⟩
    split at h
    · exact absurd h (by simp)
    · split at h
      · exact Or.inl (Option.some.inj h).symm
      · rw [reconcileWith_self] at h
        exact Or.inr (Option.some.inj h).symm
  · exact absurd h (by simp)

theorem reconcileResume_cases {price : Symbol → ℚ} (h : reconcileResume env price w = some w') :
    ∃ reply, w.reconcileTask = .awaitPositions (.answered reply)
      ∧ w' = { retireAll env price w (w.orphans (getBrokerPositions reply)) with
          reconcileTask := w.reconcileLoop env
          log := (retireAll env price w (w.orphans (getBrokerPositions reply))).log
            ++ if reply.isSome then [.reconciled] else [] } := by
  unfold reconcileResume at h
  split at h
  · rename_i reply hs
    rw [reconcileWith_eq] at h
    refine ⟨reply, hs, ?_⟩
    have hloop : (retireAll env price w (w.orphans (getBrokerPositions reply))).reconcileLoop env
        = w.reconcileLoop env := by
      obtain ⟨o, e, r, es, hret, -⟩ :=
        retireAll_footprint env w price (w.orphans (getBrokerPositions reply))
      rw [hret]; rfl
    rw [← Option.some.inj h, hloop]
    cases reply <;> simp
  · exact absurd h (by simp)

/-! ## The watchdog -/

/-- The last bar is older than the threshold. -/
def stale (env : Env) (w : World) : Bool :=
  w.lastBarTs.any fun t => decide (env.cfg.feedStalenessSeconds < w.clock - t)

/-- **What a wake-up of the watchdog does.** -/
inductive WatchdogWoken (env : Env) (w : World) : World → Prop where
  /-- Nothing to do. -/
  | quiet {due : Time} : w.watchdogTask = .sleeping due → w.stale env = false →
      WatchdogWoken env w { w with watchdogTask := w.watchdogLoop env }
  | thaws {due : Time} : w.watchdogTask = .sleeping due → w.stale env = false →
      w.frozen = true →
      WatchdogWoken env w { w with
        frozen := false, watchdogTask := w.watchdogLoop env, log := w.log ++ [.unfroze] }
  | freezes {due : Time} : w.watchdogTask = .sleeping due → w.stale env = true →
      WatchdogWoken env w { w with
        frozen := true, watchdogTask := w.watchdogLoop env, log := w.log ++ [.froze] }
  | flattens {due : Time} : w.watchdogTask = .sleeping due → w.stale env = true →
      w.opens.items ≠ [] →
      WatchdogWoken env w { w with
        frozen := true, watchdogTask := .awaitFlatten 1 .sent,
        log := w.log ++ [.froze, .flattenSubmitted .watchdog] }
  | retries {attempt : ℤ} {due : Time} : w.watchdogTask = .delaying attempt due →
      WatchdogWoken env w { w with
        watchdogTask := .awaitFlatten (attempt + 1) .sent,
        log := w.log ++ [.flattenSubmitted .watchdog] }
  | givesUp {attempt : ℤ} {due : Time} : w.watchdogTask = .delaying attempt due →
      WatchdogWoken env w { w with watchdogTask := w.watchdogLoop env }

theorem watchdogWake_cases (h : watchdogWake env w = some w') : WatchdogWoken env w w' := by
  unfold watchdogWake at h
  split at h
  · rename_i due hs
    split at h
    · exact absurd h (by simp)
    · split at h
      · rename_i hl
        rw [← Option.some.inj h]
        exact .quiet hs (by simp [stale, hl])
      · rename_i t hl
        split at h
        · rename_i hle
          have hst : w.stale env = false := by
            simp only [stale, hl, Option.any_some, decide_eq_false_iff_not, not_lt]
            exact hle
          split at h
          · rename_i hf
            rw [← Option.some.inj h]; exact .thaws hs hst hf
          · rw [← Option.some.inj h]; exact .quiet hs hst
        · rename_i hgt
          have hst : w.stale env = true := by
            simp only [stale, hl, Option.any_some, decide_eq_true_eq]
            exact not_le.mp hgt
          dsimp only at h
          split at h
          · rw [← Option.some.inj h]; exact .freezes hs hst
          · rename_i ho
            rw [← Option.some.inj h]
            unfold tryFlatten
            split
            · dsimp only
              rw [List.append_assoc]
              exact .flattens hs hst ho
            · -- configured with no attempt at all
              exact .freezes hs hst
  · rename_i attempt due hs
    split at h
    · exact absurd h (by simp)
    · rw [← Option.some.inj h]
      unfold tryFlatten
      split
      · exact .retries hs
      · exact .givesUp hs
  · exact absurd h (by simp)

theorem watchdogResume_cases {price : Symbol → ℚ} (h : watchdogResume env price w = some w') :
    ∃ attempt reply, w.watchdogTask = .awaitFlatten attempt (.answered reply)
      ∧ (((reply = none ∨ reply = some []) ∧ w' = { w with
            watchdogTask := .delaying attempt (w.clock + (env.cfg.reconnectDelayS : ℚ)) })
        ∨ ∃ ack acks, reply = some (ack :: acks)
          ∧ w' = { retireAll env price w w.opens.items with
              watchdogTask := w.watchdogLoop env }) := by
  unfold watchdogResume at h
  split at h
  · rename_i attempt reply hs
    refine ⟨attempt, reply, hs, ?_⟩
    cases reply with
    | none => exact Or.inl ⟨Or.inl rfl, (Option.some.inj h).symm⟩
    | some acks =>
        -- no acks at all is taken for a failure
        cases acks with
        | nil => exact Or.inl ⟨Or.inr rfl, (Option.some.inj h).symm⟩
        | cons ack acks =>
            refine Or.inr ⟨ack, acks, rfl, ?_⟩
            -- closing everything does not touch what the loop ends or goes on by
            have hloop : (retireAll env price w w.opens.items).watchdogLoop env
                = w.watchdogLoop env := by
              obtain ⟨o, e, r, es, hret, -⟩ :=
                retireAll_footprint env w price w.opens.items
              rw [hret]; rfl
            rw [← hloop, ← closeAll_eq]
            exact (Option.some.inj h).symm
  · exact absurd h (by simp)

/-! ## The outside -/

theorem setHolding_footprint (symbol : Symbol) (qty : ℤ) :
    ∃ es, w.setHolding symbol qty
        = { w with holdings := w.holdings.set symbol qty, log := w.log ++ es }
      ∧ ∀ e ∈ es, e = .bought symbol ∧ w.holding symbol < qty := by
  unfold setHolding
  split
  · rename_i hlt
    exact ⟨[.bought symbol], rfl, fun e he => ⟨List.mem_singleton.mp he, hlt⟩⟩
  · exact ⟨[], by simp, by simp⟩

theorem barAnswer_cases {reply : Option OrderAck} {filled : ℤ}
    (h : barAnswer reply filled w = some w') :
    (∃ o rest, w.barTask = .awaitEntryAck o rest .sent ∧ 0 ≤ filled ∧ filled ≤ o.shares
        ∧ w' = { w.setHolding o.signal.symbol (w.holding o.signal.symbol + filled) with
            barTask := .awaitEntryAck o rest (.answered reply) })
      ∨ ∃ o bar rest, w.barTask = .awaitExitAck o bar rest .sent ∧ 0 ≤ filled
        ∧ filled ≤ o.pos.shares
        ∧ w' = { w.setHolding o.symbol (w.holding o.symbol - filled) with
            barTask := .awaitExitAck o bar rest (.answered reply)
            log := (w.setHolding o.symbol (w.holding o.symbol - filled)).log
              ++ if reply.any (·.accepted) then [.sellAccepted o.pos] else [] } := by
  unfold barAnswer at h
  split at h
  · rename_i o rest hb
    split at h
    · -- a fill is any part of the order
      rename_i hf
      exact Or.inl ⟨o, rest, hb, hf.1, hf.2, (Option.some.inj h).symm⟩
    · exact absurd h (by simp)
  · rename_i o bar rest hb
    split at h
    · rename_i hf
      refine Or.inr ⟨o, bar, rest, hb, hf.1, hf.2, ?_⟩
      rw [← Option.some.inj h]
      dsimp only
      split <;> simp
    · exact absurd h (by simp)
  · exact absurd h (by simp)

theorem stopAnswer_cases {reply : Option OrderAck} {filled : ℤ}
    (h : stopAnswer reply filled w = some w') :
    ∃ o rest, w.stopTask = .awaitSellAck o rest .sent ∧ 0 ≤ filled ∧ filled ≤ o.pos.shares
      ∧ w' = { w.setHolding o.symbol (w.holding o.symbol - filled) with
          stopTask := .awaitSellAck o rest (.answered reply)
          log := (w.setHolding o.symbol (w.holding o.symbol - filled)).log
            ++ if reply.any (·.accepted) then [.sellAccepted o.pos] else [] } := by
  unfold stopAnswer at h
  split at h
  · rename_i o rest hs
    split at h
    · rename_i hf
      refine ⟨o, rest, hs, hf.1, hf.2, ?_⟩
      rw [← Option.some.inj h]
      dsimp only
      split <;> simp
    · exact absurd h (by simp)
  · exact absurd h (by simp)

/-- A flatten can only close something when its answer accepts something. -/
theorem eodAnswer_cases {reply : Option (List OrderAck)} {closed : List Symbol}
    (h : eodAnswer reply closed w = some w') :
    w.eodTask = .awaitFlatten .sent ∧ (flattenAccepted reply = true ∨ closed = [])
      ∧ w' = { w.flattenHoldings closed with eodTask := .awaitFlatten (.answered reply) } := by
  unfold eodAnswer at h
  split at h
  · rename_i hs
    split at h
    · rename_i hc
      refine ⟨hs, ?_, (Option.some.inj h).symm⟩
      rw [Bool.or_eq_true, List.isEmpty_iff] at hc
      exact hc
    · exact absurd h (by simp)
  · exact absurd h (by simp)

theorem watchdogAnswer_cases {reply : Option (List OrderAck)} {closed : List Symbol}
    (h : watchdogAnswer reply closed w = some w') :
    ∃ attempt, w.watchdogTask = .awaitFlatten attempt .sent
      ∧ (flattenAccepted reply = true ∨ closed = [])
      ∧ w' = { w.flattenHoldings closed with
          watchdogTask := .awaitFlatten attempt (.answered reply) } := by
  unfold watchdogAnswer at h
  split at h
  · rename_i attempt hs
    split at h
    · rename_i hc
      refine ⟨attempt, hs, ?_, (Option.some.inj h).symm⟩
      rw [Bool.or_eq_true, List.isEmpty_iff] at hc
      exact hc
    · exact absurd h (by simp)
  · exact absurd h (by simp)

theorem reconcileAnswer_cases {ok : Bool} (h : reconcileAnswer ok w = some w') :
    w.reconcileTask = .awaitPositions .sent
      ∧ w' = { w with
          reconcileTask := .awaitPositions (.answered (if ok then some w.positionRows else none))
          log := w.log ++ [.snapshot ok] } := by
  unfold reconcileAnswer at h
  split at h
  · rename_i hs
    exact ⟨hs, (Option.some.inj h).symm⟩
  · exact absurd h (by simp)

theorem mem_flattenFills {closed : List Symbol} {e : Event} (h : e ∈ w.flattenFills closed) :
    ∃ ref symbol shares, (ref, symbol, shares) ∈
        ((openedPositions w.log).map fun p => (p.ref, p.symbol, p.shares)) ++ w.pendingEntry
      ∧ symbol ∈ closed ∧ soldShares ref w.log < shares
      ∧ e = .flattenFilled ref (shares - soldShares ref w.log) := by
  unfold flattenFills at h
  obtain ⟨⟨ref, symbol, shares⟩, hmem, he⟩ := List.mem_filterMap.mp h
  dsimp only at he
  split at he
  · rename_i hc
    exact ⟨ref, symbol, shares, hmem, hc.1, hc.2, (Option.some.inj he).symm⟩
  · exact absurd he (by simp)

/-! ## The footprint of a step -/

private theorem footprint_retireAll {l : Label} {price : Symbol → ℚ}
    {bs : List (Symbol × LivePosition)}
    (hw : .opens ∈ l.writes ∧ .engine ∈ l.writes ∧ .risk ∈ l.writes)
    (he : ∀ p, l.emits (.recordClose p) = true) (he' : ∀ p x r, l.emits (.closed p x r) = true) :
    Footprint l w (retireAll env price w bs) := by
  obtain ⟨o, e, r, es, h, hes⟩ := retireAll_footprint env w price bs
  rw [h]
  refine .records es rfl ?_ ?_
  · intro ev hev
    rcases hes ev hev with ⟨p, rfl⟩ | ⟨p, x, r, rfl⟩
    · exact he p
    · exact he' p x r
  · intro f hf
    cases f with
    | opens => exact absurd hw.1 hf
    | engine => exact absurd hw.2.1 hf
    | risk => exact absurd hw.2.2 hf
    | _ => exact rfl

private theorem footprint_nextStop {l : Label} {rest : List (Symbol × LivePosition)}
    (hw : .stopTask ∈ l.writes) (he : l.emits .pollDone = true) :
    Footprint l w (nextStop env rest w) := by
  obtain ⟨t, es, h, hes⟩ := nextStop_footprint env w rest
  rw [h]
  refine .records es rfl (fun e hm => hes e hm ▸ he) ?_
  intro f hf
  cases f with
  | stopTask => exact absurd hw hf
  | _ => exact rfl

private theorem footprint_setHolding {l : Label} {symbol : Symbol} {qty : ℤ}
    (hw : .holdings ∈ l.writes) (he : l.emits (.bought symbol) = true) :
    Footprint l w (w.setHolding symbol qty) := by
  obtain ⟨es, h, hes⟩ := setHolding_footprint (w := w) symbol qty
  rw [h]
  refine .records es rfl (fun e hm => (hes e hm).1 ▸ he) ?_
  intro f hf
  cases f with
  | holdings => exact absurd hw hf
  | _ => exact rfl

private theorem footprint_flattenHoldings {l : Label} {closed : List Symbol}
    (hw : .holdings ∈ l.writes) (he : ∀ r q, l.emits (.flattenFilled r q) = true) :
    Footprint l w (w.flattenHoldings closed) := by
  refine .records (w.flattenFills closed) rfl ?_ ?_
  · intro e hm
    obtain ⟨ref, -, shares, -, -, -, rfl⟩ := mem_flattenFills hm
    exact he _ _
  · intro f hf
    cases f with
    | holdings => exact absurd hw hf
    | _ => exact rfl

/--
**A step writes and records only what its label may.**

The frame of every invariant of the session: one pass over the labels, each through
its own inversion lemma, so that a proof about one field looks only at the labels
that write it. No signal is left over behind an order in flight (`NoRest`), so what
follows the broker's answer is no second order.
-/
theorem step_footprint {l : Label} (hrest : NoRest w.barTask) (h : step env w l = some w') :
    Footprint l w w' := by
  cases l with
  | tick dt =>
      simp only [step] at h
      split at h
      · rw [← Option.some.inj h]
        exact .silent rfl
      · exact absurd h (by simp)
  | takeBar bar =>
      obtain ⟨-, ⟨-, rfl⟩ | ⟨-, -, rfl⟩ | ⟨scan, -, -, -, rfl⟩⟩ := takeBar_cases (task_some h).2
      · exact .silent rfl
      all_goals
        exact .records _ rfl (by simp [Label.emits])
  | feedEnds =>
      obtain ⟨-, rfl⟩ := feedEnds_cases (task_some h).2
      exact .silent rfl
  | barQuote quote =>
      obtain ⟨bar, -, -, -, ⟨-, rfl⟩ | ⟨-, hj⟩⟩ := barQuote_cases (task_some h).2
      · exact .silent rfl
      · cases hj
        all_goals
          exact .records _ rfl (by simp [Label.emits])
  | barResume =>
      cases barResume_cases hrest (task_some h).2
      case buyRaised | buyRejected | sellRaised | sellRejected =>
        exact .silent rfl
      all_goals
        exact .records _ rfl (by simp [Label.emits])
  | stopWake =>
      obtain ⟨due, -, -, ⟨-, rfl⟩ | ⟨-, rfl⟩⟩ := stopWake_cases (task_some h).2
      all_goals
        exact .trans (.records _ rfl (by simp [Label.emits]))
          (footprint_nextStop (by simp [Label.writes]) rfl)
  | stopQuote quote =>
      obtain ⟨symbol, pos, rest, -, hq⟩ := stopQuote_cases (task_some h).2
      cases hq with
      | raised | held =>
          exact .trans (.records _ rfl (by simp [Label.emits]))
            (footprint_nextStop (by simp [Label.writes]) rfl)
      | fired =>
          exact .records _ rfl (by simp [Label.emits])
  | stopResume =>
      obtain ⟨o, rest, reply, -, hr⟩ := stopResume_cases (task_some h).2
      cases hr with
      | refused => exact footprint_nextStop (by simp [Label.writes]) rfl
      | sold | soldTwice =>
          exact .trans (.records _ rfl (by simp [Label.emits]))
            (footprint_nextStop (by simp [Label.writes]) rfl)
  | eodWake =>
      obtain ⟨-, ⟨-, rfl⟩ | rfl⟩ := eodWake_cases (task_some h).2
      · exact .records _ rfl (by simp [Label.emits])
      · exact .silent rfl
  -- the flatten was refused, or it retires what is tracked
  | eodResume price =>
      obtain ⟨reply, -, ⟨-, rfl⟩ | ⟨acks, -, rfl⟩⟩ := eodResume_cases (task_some h).2
      · exact .silent rfl
      · exact .trans (footprint_retireAll (by simp [Label.writes]) (fun _ => rfl)
          fun _ _ _ => rfl) (.silent rfl)
  | reconcileWake =>
      obtain ⟨-, rfl | rfl⟩ := reconcileWake_cases (task_some h).2
      · exact .records _ rfl (by simp [Label.emits])
      · exact .silent rfl
  | reconcileResume price =>
      obtain ⟨reply, -, rfl⟩ := reconcileResume_cases (task_some h).2
      -- what the broker does not list is retired
      refine .trans (footprint_retireAll (by simp [Label.writes]) (fun _ => rfl)
        fun _ _ _ => rfl) (.records _ rfl ?_)
      intro e he
      cases reply with
      | none => simp at he
      | some rows =>
          rw [List.mem_singleton.mp he]; rfl
  | watchdogWake =>
      cases watchdogWake_cases (task_some h).2
      case quiet | givesUp =>
        exact .silent rfl
      all_goals
        exact .records _ rfl (by simp [Label.emits])
  | watchdogResume price =>
      obtain ⟨attempt, reply, -, ⟨-, rfl⟩ | ⟨ack, acks, -, rfl⟩⟩ :=
        watchdogResume_cases (task_some h).2
      · exact .silent rfl
      · exact .trans (footprint_retireAll (by simp [Label.writes]) (fun _ => rfl)
          fun _ _ _ => rfl) (.silent rfl)
  -- the broker answers: shares change hands, and a fill is recorded
  | barAnswer reply filled =>
      obtain ⟨o, rest, -, -, -, rfl⟩ | ⟨o, bar, rest, -, -, -, rfl⟩ := barAnswer_cases h
      · exact .trans (footprint_setHolding (by simp [Label.writes]) rfl) (.silent rfl)
      · refine .trans (footprint_setHolding (by simp [Label.writes]) rfl) (.records _ rfl ?_)
        intro e he
        split at he
        · rw [List.mem_singleton.mp he]; rfl
        · simp at he
  | stopAnswer reply filled =>
      obtain ⟨o, rest, -, -, -, rfl⟩ := stopAnswer_cases h
      refine .trans (footprint_setHolding (by simp [Label.writes]) rfl) (.records _ rfl ?_)
      intro e he
      split at he
      · rw [List.mem_singleton.mp he]; rfl
      · simp at he
  | eodAnswer reply closed =>
      obtain ⟨-, -, rfl⟩ := eodAnswer_cases h
      exact .trans (footprint_flattenHoldings (by simp [Label.writes]) fun _ _ => rfl)
        (.silent rfl)
  | reconcileAnswer ok =>
      obtain ⟨-, rfl⟩ := reconcileAnswer_cases h
      exact .records _ rfl (by simp [Label.emits])
  | watchdogAnswer reply closed =>
      obtain ⟨attempt, -, -, rfl⟩ := watchdogAnswer_cases h
      exact .trans (footprint_flattenHoldings (by simp [Label.writes]) fun _ _ => rfl)
        (.silent rfl)
  | brokerMove symbol qty =>
      rw [← Option.some.inj h]
      exact footprint_setHolding (by simp [Label.writes]) rfl
  | stop =>
      rw [← Option.some.inj h]
      exact .silent rfl
  | cancel =>
      simp only [step] at h
      split at h
      · rw [← Option.some.inj h]
        exact .silent rfl
      · exact absurd h (by simp)

/-! ## Reachable worlds -/

/-- Worlds that some interleaving leads to. -/
abbrev Reached (env : Env) (w : World) : Prop :=
  Reachable (World.step env) (World.init env) w

theorem noRest_step {l : Label} (h : NoRest w.barTask) (hs : step env w l = some w') :
    NoRest w'.barTask := by
  by_cases hb : .barTask ∈ l.writes
  · cases l with
    | takeBar bar =>
        obtain ⟨-, ⟨-, rfl⟩ | ⟨-, -, rfl⟩ | ⟨scan, -, -, -, rfl⟩⟩ :=
          takeBar_cases (task_some hs).2
        · exact trivial
        · exact h
        · exact trivial
    | feedEnds =>
        obtain ⟨-, rfl⟩ := feedEnds_cases (task_some hs).2
        exact trivial
    | barQuote quote =>
        obtain ⟨bar, -, -, -, ⟨-, rfl⟩ | ⟨-, hj⟩⟩ := barQuote_cases (task_some hs).2
        · exact trivial
        · cases hj with
          | quiet | lost | scale => exact trivial
          | buy | sell => exact rfl
    | barResume => cases barResume_cases h (task_some hs).2 <;> exact trivial
    | barAnswer reply filled =>
        obtain ⟨o, rest, hw, -, -, rfl⟩ | ⟨o, bar, rest, hw, -, -, rfl⟩ := barAnswer_cases hs
        · rw [hw] at h; exact h
        · rw [hw] at h; exact h
    | _ => simp [Label.writes] at hb
  · -- the other labels do not write this task
    have hsame : w'.barTask = w.barTask := (step_footprint h hs).same .barTask hb
    rw [hsame]
    exact h

theorem noRest_reached (h : Reached env w) : NoRest w.barTask :=
  h.invariant (I := fun w => NoRest w.barTask) (show NoRest (init env).barTask from trivial)
    fun _ _ _ _ hi hs => noRest_step hi hs

/-- The footprint of a step from a reachable world. -/
theorem Reached.footprint {l : Label} (h : Reached env w) (hs : step env w l = some w') :
    Footprint l w w' := step_footprint (noRest_reached h) hs

/-- The log only grows. -/
theorem log_of_visits (x : LiveRun env) (h : x.Visits w) : ∃ es, x.final.log = w.log ++ es := by
  refine x.rel (R := fun w w' : World => ∃ es, w'.log = w.log ++ es) (fun w => ⟨[], by simp⟩) ?_ ?_ h
  · rintro a b c ⟨es, he⟩ ⟨fs, hf⟩
    exact ⟨es ++ fs, by rw [hf, he, List.append_assoc]⟩
  · intro w l w' hr hs
    obtain ⟨es, he, -⟩ := (Reached.footprint hr hs).log
    exact ⟨es, he⟩

/-- What a move recorded. -/
def recorded (m : Move World Label) : List Event := m.post.log.drop m.pre.log.length

theorem recorded_of_log {m : Move World Label} {es : List Event}
    (h : m.post.log = m.pre.log ++ es) : recorded m = es := by
  rw [recorded, h, List.drop_left]

theorem log_of_recorded (x : LiveRun env) {m : Move World Label} (hm : m ∈ x.moves) :
    m.post.log = m.pre.log ++ recorded m := by
  obtain ⟨es, hlog, -⟩ := (Reached.footprint (x.reachable_pre hm) (x.step_of_mem hm)).log
  rw [recorded_of_log hlog]
  exact hlog

/-- Every event of the log was recorded by some move. -/
theorem recorded_by (x : LiveRun env) {e : Event} (he : e ∈ x.final.log) :
    ∃ m ∈ x.moves, e ∈ recorded m := by
  obtain ⟨ms, w, hr⟩ := x
  change e ∈ w.log at he
  change ∃ m ∈ ms, _
  induction hr with
  | start => exact absurd he (by simp [init])
  | @move ms w w' l hr hs ih =>
      obtain ⟨es, hlog, -⟩ := (Reached.footprint ⟨ms, hr⟩ hs).log
      by_cases hold : e ∈ w.log
      · obtain ⟨m, hm, h⟩ := ih hold
        exact ⟨m, List.mem_append_left _ hm, h⟩
      · refine ⟨⟨w, l, w'⟩, List.mem_append_right _ (List.mem_singleton.mpr rfl), ?_⟩
        rw [recorded_of_log hlog]
        rw [hlog] at he
        rcases List.mem_append.mp he with he | he
        · exact absurd he hold
        · exact he

/-- What a label does not emit, its step does not record. -/
theorem Reached.emits {l : Label} (hr : Reached env w) (hs : step env w l = some w')
    {es : List Event} (hlog : w'.log = w.log ++ es) {e : Event} (he : e ∈ es) :
    l.emits e = true := by
  obtain ⟨fs, hfs, hem⟩ := (hr.footprint hs).log
  have heq : es = fs := List.append_cancel_left (hlog.symm.trans hfs)
  exact hem e (heq ▸ he)

end World

end RossBot
