import RossBot.Catalyst.Layers
import RossBot.Lib.Ranking
import RossBot.Scanner.FloatResolver
import RossBot.Scanner.Rvol

/-!
# The two-tier scanner

`core/scanner/scanner.py` and the part of `core/scanner/models.py` that the scanner
reads. Tier A casts a wide net to watch; only Tier B, the five pillars, trades. A batch
is ranked by its move and then filtered; that is the same as ranking what passes
(`tradeable_eq`), and with a Tier A that is wider than Tier B, as the shipped one is,
all that may be traded is also watched.
-/

namespace RossBot.Scanner

open Lib

/-- `ScanCandidate`. The fields that neither the scanner nor the strategy reads are left out. -/
structure ScanCandidate where
  symbol : Symbol
  price : Money
  changePct : Money
  gapPct : Money
  rvol : Option Money
  rvolConfidence : RvolConfidence
  floatShares : Option ℤ
  floatConfidence : FloatConfidence
  catalyst : Catalyst.CatalystVerdict
  marketRank : Option ℤ
  recentReverseSplit : Bool

/-- The candidate, as far as the strategy reads it. -/
def ScanCandidate.forStrategy (c : ScanCandidate) : RossBot.ScanCandidate :=
  ⟨c.rvol, c.floatShares, c.recentReverseSplit⟩

/-- `PillarReport`. -/
structure PillarReport where
  p1Price : Bool
  p2Float : Bool
  p3Rvol : Bool
  p4Roc : Bool
  p5Catalyst : Bool
  deriving DecidableEq

/-- `PillarReport.all_pass`. -/
def PillarReport.allPass (r : PillarReport) : Bool :=
  r.p1Price && r.p2Float && r.p3Rvol && r.p4Roc && r.p5Catalyst

/-- What a scan reports of a check that failed: the values its text names. -/
inductive ScanReason where
  | tierAPrice (price min max : ℚ)
  | tierAMove (move min : ℚ)
  | tierARvol (rvol : Option ℚ) (min : ℚ)
  | tierAFloat (shares : Option ℤ) (ceiling : ℤ)
  | p1Price (price min max : ℚ)
  | p2Float (shares : Option ℤ) (confidence : FloatConfidence) (ceiling : ℤ)
  | p3Rvol (rvol : Option ℚ) (confidence : RvolConfidence) (min : ℚ)
  | p4Roc (change min : ℚ)
  | p5Catalyst (catalyst : Catalyst.CatalystVerdict)

/-- `ScanResult`. -/
structure ScanResult where
  candidate : ScanCandidate
  tierAPass : Bool
  tierBPass : Bool
  pillars : PillarReport
  attention : Attention
  reasons : List ScanReason

/-- The result, as far as the strategy reads it. -/
def ScanResult.forStrategy (r : ScanResult) : RossBot.ScanResult :=
  ⟨r.candidate.forStrategy, r.tierBPass, r.attention⟩

/-- `TwoTierScanner`: the thresholds it reads from its configuration. -/
structure TwoTierScanner where
  tierAGapMin : ℚ
  tierARvolMin : ℚ
  tierAFloatCeiling : ℤ
  tierAPriceMin : ℚ
  tierAPriceMax : ℚ
  priceMin : ℚ
  priceMax : ℚ
  floatCeiling : ℤ
  rvolMin : ℚ
  rocMin : ℚ
  primeRank : ℤ
  watchRank : ℤ

/-- The shipped `DEFAULTS`. -/
def TwoTierScanner.defaults : TwoTierScanner where
  tierAGapMin := 4
  tierARvolMin := 2
  tierAFloatCeiling := 50000000
  tierAPriceMin := 1
  tierAPriceMax := 20
  priceMin := 2
  priceMax := 20
  floatCeiling := 20000000
  rvolMin := 5
  rocMin := 10
  primeRank := 3
  watchRank := 10

/-- `if not ok: reasons.append(reason)`. -/
def reasonUnless (ok : Bool) (reason : ScanReason) : List ScanReason := if ok then [] else [reason]

@[simp] theorem reasonUnless_eq_nil {ok : Bool} {reason : ScanReason} :
    reasonUnless ok reason = [] ↔ ok = true := by
  cases ok <;> simp [reasonUnless]

namespace TwoTierScanner

variable (s : TwoTierScanner)

/-! ## Tier A -/

/-- The price of the wide net. -/
def tierAPrice (c : ScanCandidate) : Bool :=
  decide (s.tierAPriceMin ≤ c.price.val) && decide (c.price.val ≤ s.tierAPriceMax)

/-- The larger of the gap and the change. -/
def move (c : ScanCandidate) : ℚ := max c.gapPct.val c.changePct.val

/-- The relative volume of the wide net. -/
def tierARvol (c : ScanCandidate) : Bool := c.rvol.any fun v => decide (s.tierARvolMin ≤ v.val)

/-- The float of the wide net: an unknown one may be watched. -/
def tierAFloat (c : ScanCandidate) : Bool :=
  !c.floatShares.any fun n => decide (s.tierAFloatCeiling < n)

/-- `_tier_a`. -/
def tierA (c : ScanCandidate) : Bool × List ScanReason :=
  (s.tierAPrice c && decide (s.tierAGapMin ≤ move c) && s.tierARvol c && s.tierAFloat c,
    reasonUnless (s.tierAPrice c) (.tierAPrice c.price.val s.tierAPriceMin s.tierAPriceMax)
      ++ reasonUnless (decide (s.tierAGapMin ≤ move c)) (.tierAMove (move c) s.tierAGapMin)
      ++ reasonUnless (s.tierARvol c) (.tierARvol (c.rvol.map (·.val)) s.tierARvolMin)
      ++ reasonUnless (s.tierAFloat c) (.tierAFloat c.floatShares s.tierAFloatCeiling))

/-! ## Tier B -/

/-- `_pillars`: the report. -/
def report (c : ScanCandidate) : PillarReport where
  p1Price := decide (s.priceMin ≤ c.price.val) && decide (c.price.val ≤ s.priceMax)
  p2Float := pillar2Float c.floatShares c.floatConfidence s.floatCeiling
  p3Rvol := c.rvol.any fun v => decide (c.rvolConfidence = .high) && decide (s.rvolMin ≤ v.val)
  p4Roc := decide (s.rocMin ≤ c.changePct.val)
  p5Catalyst := decide (c.catalyst = .verified)

/-- `_pillars`. -/
def pillars (c : ScanCandidate) : PillarReport × List ScanReason :=
  let r := s.report c
  (r, reasonUnless r.p1Price (.p1Price c.price.val s.priceMin s.priceMax)
    ++ reasonUnless r.p2Float (.p2Float c.floatShares c.floatConfidence s.floatCeiling)
    ++ reasonUnless r.p3Rvol (.p3Rvol (c.rvol.map (·.val)) c.rvolConfidence s.rvolMin)
    ++ reasonUnless r.p4Roc (.p4Roc c.changePct.val s.rocMin)
    ++ reasonUnless r.p5Catalyst (.p5Catalyst c.catalyst))

/-- `_attention`. -/
def attention (c : ScanCandidate) : Attention :=
  match c.marketRank with
  | none => .ignore
  | some rank =>
      if rank ≤ s.primeRank then .prime
      else if rank ≤ s.watchRank then .watch
      else .ignore

/-- `evaluate`. -/
def evaluate (c : ScanCandidate) : ScanResult where
  candidate := c
  tierAPass := (s.tierA c).1
  tierBPass := (s.pillars c).1.allPass
  pillars := (s.pillars c).1
  attention := s.attention c
  reasons := (s.tierA c).2 ++ (s.pillars c).2

/-- `scan`. -/
def scan (cs : List ScanCandidate) : List ScanResult :=
  ranked (fun r => r.candidate.changePct.val) (cs.map s.evaluate)

/-- `watchlist`. -/
def watchlist (cs : List ScanCandidate) : List ScanResult := (s.scan cs).filter (·.tierAPass)

/-- `tradeable`. -/
def tradeable (cs : List ScanCandidate) : List ScanResult := (s.scan cs).filter (·.tierBPass)

/-! ## What the tiers ask for -/

/-- The five pillars. -/
structure FivePillars (c : ScanCandidate) : Prop where
  price : s.priceMin ≤ c.price.val ∧ c.price.val ≤ s.priceMax
  /-- The float is known well enough, and within the ceiling. -/
  float : ∃ n, c.floatShares = some n ∧ c.floatConfidence.pillar2Acceptable = true
    ∧ n ≤ s.floatCeiling
  rvol : ∃ v, c.rvol = some v ∧ c.rvolConfidence = .high ∧ s.rvolMin ≤ v.val
  roc : s.rocMin ≤ c.changePct.val
  catalyst : c.catalyst = .verified

/-- The wide net. -/
structure Watched (c : ScanCandidate) : Prop where
  price : s.tierAPriceMin ≤ c.price.val ∧ c.price.val ≤ s.tierAPriceMax
  move : s.tierAGapMin ≤ c.gapPct.val ∨ s.tierAGapMin ≤ c.changePct.val
  rvol : ∃ v, c.rvol = some v ∧ s.tierARvolMin ≤ v.val
  float : ∀ n, c.floatShares = some n → n ≤ s.tierAFloatCeiling

/-- Tier A is wider than Tier B. -/
structure Nested : Prop where
  price : s.tierAPriceMin ≤ s.priceMin ∧ s.priceMax ≤ s.tierAPriceMax
  float : s.floatCeiling ≤ s.tierAFloatCeiling
  rvol : s.tierARvolMin ≤ s.rvolMin
  move : s.tierAGapMin ≤ s.rocMin

theorem nested_defaults : Nested .defaults :=
  ⟨by decide +kernel, by decide +kernel, by decide +kernel, by decide +kernel⟩

variable {s} {c : ScanCandidate}

theorem tierBPass_iff : (s.evaluate c).tierBPass = true ↔ s.FivePillars c := by
  simp only [evaluate, pillars, report, PillarReport.allPass, pillar2Float, Bool.and_eq_true,
    decide_eq_true_eq, Option.any_eq_true, and_assoc]
  constructor
  · rintro ⟨hmin, hmax, hfloat, hrvol, hroc, hcatalyst⟩
    exact ⟨⟨hmin, hmax⟩, hfloat, hrvol, hroc, hcatalyst⟩
  · rintro ⟨⟨hmin, hmax⟩, hfloat, hrvol, hroc, hcatalyst⟩
    exact ⟨hmin, hmax, hfloat, hrvol, hroc, hcatalyst⟩

theorem tierAPass_iff : (s.evaluate c).tierAPass = true ↔ s.Watched c := by
  have hfloat : s.tierAFloat c = true ↔ ∀ n, c.floatShares = some n → n ≤ s.tierAFloatCeiling := by
    unfold tierAFloat
    cases c.floatShares with
    | none => simp
    | some n => simp
  simp only [evaluate, tierA, Bool.and_eq_true, hfloat, tierAPrice, tierARvol, TwoTierScanner.move,
    decide_eq_true_eq, Option.any_eq_true, le_max_iff]
  constructor
  · rintro ⟨⟨⟨hprice, hmove⟩, hrvol⟩, hfloat⟩
    exact ⟨hprice, hmove, hrvol, hfloat⟩
  · rintro ⟨hprice, hmove, hrvol, hfloat⟩
    exact ⟨⟨⟨hprice, hmove⟩, hrvol⟩, hfloat⟩

/-- What may be traded is watched, if the wide net is wider. -/
theorem Nested.watched (h : s.Nested) (hc : s.FivePillars c) : s.Watched c := by
  obtain ⟨n, hn, -, hceiling⟩ := hc.float
  obtain ⟨v, hv, -, hmin⟩ := hc.rvol
  refine ⟨⟨h.price.1.trans hc.price.1, hc.price.2.trans h.price.2⟩,
    Or.inr (h.move.trans hc.roc), ⟨v, hv, h.rvol.trans hmin⟩, ?_⟩
  intro m hm
  rw [← Option.some.inj (hn.symm.trans hm)]
  exact hceiling.trans h.float

/-- **A scan gives no reason exactly when both tiers pass.** -/
theorem reasons_eq_nil : (s.evaluate c).reasons = [] ↔ s.Watched c ∧ s.FivePillars c := by
  rw [← tierAPass_iff, ← tierBPass_iff]
  simp only [evaluate, tierA, pillars, PillarReport.allPass, List.append_eq_nil_iff, reasonUnless_eq_nil,
    Bool.and_eq_true]

instance : DecidablePred s.FivePillars := fun _ => decidable_of_iff _ tierBPass_iff

instance : DecidablePred s.Watched := fun _ => decidable_of_iff _ tierAPass_iff

/-- Ranking a batch and filtering the results is ranking what passes. -/
theorem filter_scan {p : ScanResult → Bool} {q : ScanCandidate → Prop} [DecidablePred q]
    (hpq : ∀ c, p (s.evaluate c) = true ↔ q c) (cs : List ScanCandidate) :
    (s.scan cs).filter p
      = (ranked (fun c : ScanCandidate => c.changePct.val) (cs.filter fun c => q c)).map
        s.evaluate := by
  have hsame : (p ∘ s.evaluate) = fun c => decide (q c) := by
    funext c
    rw [Bool.eq_iff_iff, decide_eq_true_eq]
    exact hpq c
  rw [scan, filter_ranked, List.filter_map, hsame, ranked_map]
  rfl

/-- Results of one move are reported in the order their candidates came in. -/
theorem scan_ties (k : ℚ) (cs : List ScanCandidate) :
    (s.scan cs).filter (fun r => r.candidate.changePct.val = k)
      = (cs.filter fun c => c.changePct.val = k).map s.evaluate := by
  rw [scan, ranked_ties, List.filter_map]
  rfl

/-- **Only the five pillars trade**, and a batch reports them highest mover first, those of one
move in the order they came in. With a wide net that is wider all of them are on the watchlist, in
the same order; and a result that gives no reason has passed both tiers. -/
theorem tradeable_eq (s : TwoTierScanner) (cs : List ScanCandidate) :
    s.tradeable cs = (ranked (fun c : ScanCandidate => c.changePct.val)
        (cs.filter fun c => s.FivePillars c)).map s.evaluate ∧
    s.watchlist cs = (ranked (fun c : ScanCandidate => c.changePct.val)
        (cs.filter fun c => s.Watched c)).map s.evaluate ∧
    (s.Nested → (s.tradeable cs).Sublist (s.watchlist cs)) ∧
    ∀ r ∈ s.scan cs, r.reasons = [] ↔ s.Watched r.candidate ∧ s.FivePillars r.candidate := by
  refine ⟨filter_scan (fun _ => tierBPass_iff) cs, filter_scan (fun _ => tierAPass_iff) cs, ?_, ?_⟩
  · intro hnested
    -- what Tier B leaves of the scan it also leaves of the watchlist
    have hkept : s.tradeable cs = (s.watchlist cs).filter (·.tierBPass) := by
      rw [tradeable, watchlist, List.filter_filter]
      refine List.filter_congr fun r hr => ?_
      rw [scan, mem_ranked] at hr
      obtain ⟨c, -, rfl⟩ := List.mem_map.mp hr
      cases hb : (s.evaluate c).tierBPass with
      | false => rfl
      | true => rw [tierAPass_iff.mpr (hnested.watched (tierBPass_iff.mp hb))]; rfl
    rw [hkept]
    exact List.filter_sublist
  · intro r hr
    rw [scan, mem_ranked] at hr
    obtain ⟨c, -, rfl⟩ := List.mem_map.mp hr
    exact reasons_eq_nil

/-- Three candidates: one for both tiers, one whose float is not known, and a slower one for both. -/
def threeCandidates : List ScanCandidate :=
  let c : ScanCandidate :=
    { symbol := "AAA", price := cents 500, changePct := cents 1200, gapPct := cents 0
      rvol := some (cents 600), rvolConfidence := .high, floatShares := some 8000000
      floatConfidence := .medium, catalyst := .verified, marketRank := some 1
      recentReverseSplit := false }
  [c, { c with symbol := "BBB", changePct := cents 3000, floatShares := none },
    { c with symbol := "CCC", changePct := cents 1500 }]

example : ((TwoTierScanner.defaults.tradeable threeCandidates).map (·.candidate.symbol),
    (TwoTierScanner.defaults.watchlist threeCandidates).map (·.candidate.symbol))
      = (["CCC", "AAA"], ["BBB", "CCC", "AAA"]) := by decide +kernel

theorem tradeable_eq_threeCandidates :
    (TwoTierScanner.defaults.tradeable threeCandidates).Sublist
      (TwoTierScanner.defaults.watchlist threeCandidates) :=
  (tradeable_eq .defaults threeCandidates).2.2.1 nested_defaults

end TwoTierScanner

end RossBot.Scanner
