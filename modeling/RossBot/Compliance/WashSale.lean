import RossBot.Market
import RossBot.Text

/-!
# Wash sales

`core/compliance/wash_sale.py`. The tracker names the first loss on a symbol that
lies within thirty days of the day it is asked about. Purging drops what has left
the window of its cutoff, so on that day or later no answer changes, whatever is
recorded or purged afterwards (`checkWashSaleRisk_purge`). `upper` is `str.upper`;
a date is its number of days since the epoch.
-/

namespace RossBot

/-- `_WASH_WINDOW_DAYS`. -/
def washWindowDays : ℤ := 30

/-- `_LossRecord`. -/
structure LossRecord where
  symbol : Symbol
  tradeDate : ℤ
  pnl : ℚ
  /-- Only a loss is recorded. -/
  loss : pnl < 0

/-- `WashSaleTracker`. -/
structure WashSaleTracker where
  history : List LossRecord

namespace WashSaleTracker

/-- `record_loss`. -/
def recordLoss (upper : String → String) (t : WashSaleTracker) (symbol : Symbol) (tradeDate : ℤ)
    (pnl : ℚ) : WashSaleTracker :=
  if h : 0 ≤ pnl then t
  else { t with history := t.history ++ [⟨upper symbol, tradeDate, pnl, not_le.mp h⟩] }

/-- A loss on the symbol, not after the day and at most thirty days before it. -/
def atRisk (sym : Symbol) (asOf : ℤ) (r : LossRecord) : Bool :=
  decide (r.symbol = sym) &&
    (decide (0 ≤ asOf - r.tradeDate) && decide (asOf - r.tradeDate ≤ washWindowDays))

/-- The message about a loss. -/
def description (sym : Symbol) (asOf : ℤ) (r : LossRecord) : String :=
  "WASH_SALE_RISK: re-entering " ++ sym ++ " within " ++ toString (asOf - r.tradeDate) ++
    "d of a $" ++ fixed2 |r.pnl| ++ " loss on " ++ isoDate r.tradeDate ++
    ". Loss may be disallowed (IRC §1091). Flag for tax review."

/-- `check_wash_sale_risk`: the first such loss. -/
def checkWashSaleRisk (upper : String → String) (t : WashSaleTracker) (symbol : Symbol)
    (asOf : ℤ) : Bool × String :=
  match t.history.find? (atRisk (upper symbol) asOf) with
  | some r => (true, description (upper symbol) asOf r)
  | none => (false, "")

/-- A record is at most thirty days older than `day`. -/
def within (day : ℤ) (r : LossRecord) : Bool := decide (day - r.tradeDate ≤ washWindowDays)

/-- `purge_before`. -/
def purgeBefore (t : WashSaleTracker) (cutoff : ℤ) : WashSaleTracker :=
  { t with history := t.history.filter (within cutoff) }

end WashSaleTracker

/-- A call that changes the tracker. -/
inductive WashSaleCall where
  | recordLoss (symbol : Symbol) (tradeDate : ℤ) (pnl : ℚ)
  | purgeBefore (cutoff : ℤ)

namespace WashSaleTracker

variable (upper : String → String)

/-- One call. -/
def call (t : WashSaleTracker) : WashSaleCall → WashSaleTracker
  | .recordLoss symbol tradeDate pnl => t.recordLoss upper symbol tradeDate pnl
  | .purgeBefore cutoff => t.purgeBefore cutoff

/-- The calls one after another. -/
def after (t : WashSaleTracker) (calls : List WashSaleCall) : WashSaleTracker :=
  calls.foldl (call upper) t

/-! ## What an answer depends on -/

/-- The two trackers have the same recent records, as `day` sees it. -/
def SameFrom (day : ℤ) (t t' : WashSaleTracker) : Prop :=
  t.history.filter (within day) = t'.history.filter (within day)

/-- A purge takes nothing a later day can see. -/
theorem sameFrom_purgeBefore (t : WashSaleTracker) {cutoff day : ℤ} (h : cutoff ≤ day) :
    SameFrom day (t.purgeBefore cutoff) t := by
  rw [SameFrom, purgeBefore, List.filter_filter]
  refine List.filter_congr ?_
  intro r _
  unfold within
  by_cases hrecent : day - r.tradeDate ≤ washWindowDays
  · have hkept : cutoff - r.tradeDate ≤ washWindowDays := by omega
    simp [hrecent, hkept]
  · simp [hrecent]

/-- Two trackers that agree still do after the same call. -/
theorem SameFrom.call {day : ℤ} {t t' : WashSaleTracker} (h : SameFrom day t t')
    (c : WashSaleCall) : SameFrom day (t.call upper c) (t'.call upper c) := by
  cases c with
  | recordLoss symbol tradeDate pnl =>
      -- a gain is not recorded, and a loss is recorded in both
      simp only [WashSaleTracker.call, recordLoss]
      split
      · exact h
      · show List.filter _ (_ ++ _) = List.filter _ (_ ++ _)
        rw [List.filter_append, List.filter_append, h]
  | purgeBefore cutoff =>
      -- the two cutoffs commute
      have hswap : ∀ l : List LossRecord,
          (l.filter (within cutoff)).filter (within day) =
            (l.filter (within day)).filter (within cutoff) := by
        intro l
        rw [List.filter_filter, List.filter_filter]
        exact List.filter_congr fun r _ => Bool.and_comm _ _
      show List.filter _ (List.filter _ _) = List.filter _ (List.filter _ _)
      rw [hswap, hswap, h]

theorem SameFrom.after {day : ℤ} {t t' : WashSaleTracker} (h : SameFrom day t t')
    (calls : List WashSaleCall) : SameFrom day (t.after upper calls) (t'.after upper calls) := by
  induction calls generalizing t t' with
  | nil => exact h
  | cons c calls ih => exact ih (h.call upper c)

/-- An answer about a day depends on the recent records only. -/
theorem SameFrom.checkWashSaleRisk {day : ℤ} {t t' : WashSaleTracker} (h : SameFrom day t t')
    (symbol : Symbol) :
    t.checkWashSaleRisk upper symbol day = t'.checkWashSaleRisk upper symbol day := by
  have hrecent : ∀ l : List LossRecord,
      l.find? (atRisk (upper symbol) day) =
        (l.filter (within day)).find? (atRisk (upper symbol) day) := by
    -- whatever is older than the window is no risk, so it need not be looked at
    intro l
    rw [List.find?_filter]
    congr 1
    funext r
    unfold atRisk within
    by_cases hrecent : day - r.tradeDate ≤ washWindowDays <;> simp [hrecent]
  rw [WashSaleTracker.checkWashSaleRisk, WashSaleTracker.checkWashSaleRisk, hrecent, h,
    ← hrecent]

/--
**Purging cannot be observed.** Among any calls that record losses and purge them,
a purge leaves every answer about its cutoff or a later day as it would have been
without it: the flag, and the loss that is named.
-/
theorem checkWashSaleRisk_purge (t : WashSaleTracker) (before later : List WashSaleCall)
    (symbol : Symbol) (cutoff asOf : ℤ) (h : cutoff ≤ asOf) :
    (t.after upper (before ++ .purgeBefore cutoff :: later)).checkWashSaleRisk upper symbol asOf =
      (t.after upper (before ++ later)).checkWashSaleRisk upper symbol asOf := by
  have hcut : ∀ calls, t.after upper (before ++ calls) = (t.after upper before).after upper calls :=
    fun calls => List.foldl_append
  rw [hcut, hcut]
  have hpurged := (t.after upper before).sameFrom_purgeBefore h
  exact (hpurged.after upper later).checkWashSaleRisk upper symbol

/-- A loss at the edge of the window, one outside it, and a purge on the day of the question. -/
theorem checkWashSaleRisk_purge_edge :
    (after id ⟨[]⟩ ([.recordLoss "AAA" 20428 (-100), .recordLoss "AAA" 20429 (-250)] ++
        .purgeBefore 20459 :: [.recordLoss "AAA" 20459 (-50)])).checkWashSaleRisk id "AAA" 20459 =
      (after id ⟨[]⟩ ([.recordLoss "AAA" 20428 (-100), .recordLoss "AAA" 20429 (-250)] ++
        [.recordLoss "AAA" 20459 (-50)])).checkWashSaleRisk id "AAA" 20459 :=
  checkWashSaleRisk_purge id ⟨[]⟩ _ _ "AAA" 20459 20459 (by omega)

example :
    (after id ⟨[]⟩ [.recordLoss "AAA" 20428 (-100), .recordLoss "AAA" 20429 (-250),
        .purgeBefore 20459]).checkWashSaleRisk id "AAA" 20459 =
      (true, "WASH_SALE_RISK: re-entering AAA within 30d of a $250.00 loss on 2025-12-07. " ++
        "Loss may be disallowed (IRC §1091). Flag for tax review.") := by
  decide +kernel

end WashSaleTracker

end RossBot
