import Mathlib.Data.Finset.Disjoint
import Mathlib.Data.Finset.Filter
import Mathlib.Data.Finset.SDiff
import RossBot.Alpaca
import RossBot.Backtest.FillModel
import RossBot.Risk.Manager
import RossBot.Strategy.Engine

/-!
# Parts of the live session

The small components `LiveSession` is put together from: its position record,
`core/live/reconcile.py`, `core/live/capital_ramp.py` and
`core/execution/backstop.py`.
-/

namespace RossBot

open Lib

/-- `_LivePosition`. `ref` is the identity of the Python object: a symbol that is
closed and bought again gets a new one. Stop and target are copied from an
`EntrySignal`, so they are `Money`; the entry price is the limit price the
session computed, and is not quantized. -/
structure LivePosition where
  ref : ℕ
  symbol : Symbol
  entryTs : Time
  entryPrice : ℚ
  stopPrice : Money
  targetPrice : Money
  shares : ℤ
  riskPerShare : ℚ
  brokerOrderId : Option String
  highWatermark : ℚ

/-- The snapshot the mental-stop loop builds for the risk manager. -/
def LivePosition.snapshot (p : LivePosition) : PositionSnapshot where
  symbol := p.symbol
  entryPrice := .of p.entryPrice
  currentStop := .of p.stopPrice.val
  targetPrice := .of p.targetPrice.val
  shares := p.shares
  entryTs := p.entryTs
  highWatermark := .of p.highWatermark

/-! ## Reconciliation -/

/-- `ReconcileResult`. -/
structure ReconcileResult where
  isMatched : Finset Symbol
  brokerOnly : Finset Symbol
  internalOnly : Finset Symbol
  qtyMismatch : Finset Symbol

/-- `ReconcileResult.clean`. -/
def ReconcileResult.clean (r : ReconcileResult) : Bool :=
  decide (r.brokerOnly = ∅) && decide (r.internalOnly = ∅) && decide (r.qtyMismatch = ∅)

/-- `reconcile_positions`. -/
def reconcilePositions (broker internal : Dict Symbol ℤ) : ReconcileResult :=
  let brokerSyms := broker.keySet
  let internalSyms := internal.keySet
  let matchedSyms := brokerSyms ∩ internalSyms
  let qtyMismatch := matchedSyms.filter fun s => broker.get? s ≠ internal.get? s
  { isMatched := matchedSyms \ qtyMismatch
    brokerOnly := brokerSyms \ internalSyms
    internalOnly := internalSyms \ brokerSyms
    qtyMismatch := qtyMismatch }

theorem mem_internalOnly {broker internal : Dict Symbol ℤ} {s : Symbol} :
    s ∈ (reconcilePositions broker internal).internalOnly
      ↔ (∃ q, internal.get? s = some q) ∧ broker.get? s = none := by
  simp only [reconcilePositions, Finset.mem_sdiff, Dict.mem_keySet, not_exists]
  refine and_congr_right fun _ => ?_
  cases broker.get? s <;> simp

/-- The classes of `reconcile_positions`. -/
inductive PositionClass where
  | isMatched
  | brokerOnly
  | internalOnly
  | qtyMismatch

/-- The class of a symbol, from what either side holds of it. -/
def positionClass : Option ℤ → Option ℤ → Option PositionClass
  | none, none => none
  | some _, none => some .brokerOnly
  | none, some _ => some .internalOnly
  | some b, some i => if b = i then some .isMatched else some .qtyMismatch

/-- The symbols of a class. -/
def ReconcileResult.ofClass (r : ReconcileResult) : PositionClass → Finset Symbol
  | .isMatched => r.isMatched
  | .brokerOnly => r.brokerOnly
  | .internalOnly => r.internalOnly
  | .qtyMismatch => r.qtyMismatch

/-- **A symbol is sorted by what the two maps say of it alone.** -/
theorem mem_ofClass {broker internal : Dict Symbol ℤ} {s : Symbol} (c : PositionClass) :
    s ∈ (reconcilePositions broker internal).ofClass c
      ↔ positionClass (broker.get? s) (internal.get? s) = some c := by
  have hb := Dict.mem_keySet (d := broker) (k := s)
  have hi := Dict.mem_keySet (d := internal) (k := s)
  cases hbroker : broker.get? s with
  | none =>
      cases hinternal : internal.get? s <;> cases c <;>
        simp [ReconcileResult.ofClass, reconcilePositions, positionClass, hb, hi, hbroker,
          hinternal]
  | some b =>
      cases hinternal : internal.get? s with
      | none =>
          cases c <;>
            simp [ReconcileResult.ofClass, reconcilePositions, positionClass, hb, hi, hbroker,
              hinternal]
      | some i =>
          -- both sides hold it: the quantities decide
          by_cases hsame : b = i <;> cases c <;>
            simp [ReconcileResult.ofClass, reconcilePositions, positionClass, hb, hi, hbroker,
              hinternal, hsame]

/-- Two classes have no symbol in common. -/
theorem disjoint_ofClass (broker internal : Dict Symbol ℤ) {c c' : PositionClass} (h : c ≠ c') :
    Disjoint ((reconcilePositions broker internal).ofClass c)
      ((reconcilePositions broker internal).ofClass c') := by
  rw [Finset.disjoint_left]
  intro s hc hc'
  rw [mem_ofClass] at hc hc'
  exact h (Option.some.inj (hc.symm.trans hc'))

/-- A symbol has a class when either side holds it. -/
theorem exists_positionClass {b i : Option ℤ} :
    (∃ c, positionClass b i = some c) ↔ (∃ q, b = some q) ∨ ∃ q, i = some q := by
  cases b with
  | none => cases i <;> simp [positionClass]
  | some b =>
      cases i with
      | none => simp [positionClass]
      | some i => by_cases hsame : b = i <;> simp [positionClass, hsame]

/-- There is no discrepancy when both sides hold the same. -/
theorem positionClass_agrees {b i : Option ℤ} :
    (∀ c, positionClass b i = some c → c = .isMatched) ↔ b = i := by
  cases b with
  | none => cases i <;> simp [positionClass]
  | some b =>
      cases i with
      | none => simp [positionClass]
      | some i => by_cases hsame : b = i <;> simp [positionClass, hsame]

theorem clean_iff_ofClass {r : ReconcileResult} :
    r.clean = true ↔ ∀ c, c ≠ .isMatched → ∀ s, s ∉ r.ofClass c := by
  simp only [ReconcileResult.clean, Bool.and_eq_true, decide_eq_true_eq,
    Finset.eq_empty_iff_forall_notMem]
  constructor
  · rintro ⟨⟨hbroker, hinternal⟩, hqty⟩ c hc
    cases c with
    | isMatched => exact absurd rfl hc
    | brokerOnly => exact hbroker
    | internalOnly => exact hinternal
    | qtyMismatch => exact hqty
  · intro h
    exact ⟨⟨h .brokerOnly (by simp), h .internalOnly (by simp)⟩, h .qtyMismatch (by simp)⟩

/--
**Reconciling sorts the symbols.** The four classes have no symbol in common, together
they are the symbols of either map, and the result is clean exactly when the maps are
equal: when they bind the same symbols to the same quantities.
-/
theorem reconcilePositions_partition (broker internal : Dict Symbol ℤ) :
    [(reconcilePositions broker internal).isMatched,
      (reconcilePositions broker internal).brokerOnly,
      (reconcilePositions broker internal).internalOnly,
      (reconcilePositions broker internal).qtyMismatch].Pairwise Disjoint ∧
    (reconcilePositions broker internal).isMatched ∪
      (reconcilePositions broker internal).brokerOnly ∪
      (reconcilePositions broker internal).internalOnly ∪
      (reconcilePositions broker internal).qtyMismatch = broker.keySet ∪ internal.keySet ∧
    ((reconcilePositions broker internal).clean = true ↔
      ∀ s, broker.get? s = internal.get? s) := by
  refine ⟨?_, ?_, ?_⟩
  · have hdistinct : [PositionClass.isMatched, .brokerOnly, .internalOnly, .qtyMismatch].Pairwise
        (· ≠ ·) := by simp
    exact List.pairwise_map.mpr (hdistinct.imp (disjoint_ofClass broker internal))
  · ext s
    have hclass : (∃ c, s ∈ (reconcilePositions broker internal).ofClass c) ↔
        s ∈ broker.keySet ∪ internal.keySet := by
      simp only [mem_ofClass, exists_positionClass, Finset.mem_union, Dict.mem_keySet]
    rw [← hclass]
    simp only [Finset.mem_union]
    constructor
    · rintro (((h | h) | h) | h)
      · exact ⟨.isMatched, h⟩
      · exact ⟨.brokerOnly, h⟩
      · exact ⟨.internalOnly, h⟩
      · exact ⟨.qtyMismatch, h⟩
    · rintro ⟨c, h⟩
      cases c with
      | isMatched => exact Or.inl (Or.inl (Or.inl h))
      | brokerOnly => exact Or.inl (Or.inl (Or.inr h))
      | internalOnly => exact Or.inl (Or.inr h)
      | qtyMismatch => exact Or.inr h
  · simp only [clean_iff_ofClass, mem_ofClass, ← positionClass_agrees]
    constructor
    · intro h s c hc
      by_contra hne
      exact h c hne s hc
    · intro h c hne s hc
      exact hne (h s c hc)

/-! ## Capital ramp -/

/-- `CapitalRamp.apply`. -/
def rampApply (cfg : Config) (approvedShares : ℤ) : ℤ :=
  match cfg.capitalRampTier with
  | .micro => min approvedShares cfg.capitalRampMicroShares
  | .starter => min approvedShares cfg.capitalRampStarterShares
  | .full => approvedShares

/-! ## Catastrophic backstop -/

/-- `CatastrophicBackstop.level`. -/
def backstopLevel (cfg : Config) (entryPrice : ℚ) : Option ℚ :=
  if !cfg.backstopEnabled then none else some (max (entryPrice - cfg.backstopOffset) (1 / 100))

/-- `CatastrophicBackstop.is_breached`. -/
def backstopBreached (cfg : Config) (currentPrice entryPrice : ℚ) : Bool :=
  match backstopLevel cfg entryPrice with
  | none => false
  | some lv => decide (currentPrice ≤ lv)

end RossBot
