import Mathlib.Data.Int.ConditionallyCompleteOrder
import Mathlib.Order.Interval.Set.Defs
import Mathlib.Order.Monotone.Defs
import RossBot.Lib.Stairs
import RossBot.Strategy.Models

/-!
# Conviction

`core/strategy/conviction.py`: the score in `[0.25, 1.0]` that scales a position. Its
components are read off tables; each table is a staircase, so the score is ordered
with its inputs (`scoreConviction_ordered`).
-/

namespace RossBot

open Lib

/-- `_pattern_score`. -/
def patternScore (p : PatternType) : ℚ :=
  match patternRank p with
  | 1 => 1
  | 2 => 90 / 100
  | 3 => 80 / 100
  | 5 => 70 / 100
  | 6 => 65 / 100
  | 7 => 60 / 100
  | 10 => 50 / 100
  | 11 => 50 / 100
  | _ => 25 / 100

/-- `_rvol_score`. -/
def rvolScore (rvol : ℚ) : ℚ :=
  if 100 ≤ rvol then 1
  else if 80 ≤ rvol then 95 / 100
  else if 50 ≤ rvol then 85 / 100
  else if 30 ≤ rvol then 75 / 100
  else if 10 ≤ rvol then 55 / 100
  else if 5 ≤ rvol then 40 / 100
  else 0

/-- `_float_score`. -/
def floatScore : Option ℤ → ℚ
  | none => 50 / 100
  | some f =>
      if f < 1000000 then 1
      else if f < 5000000 then 90 / 100
      else if f < 10000000 then 75 / 100
      else if f ≤ 20000000 then 60 / 100
      else 0

/-- `_attention_score`. -/
def attentionScore : Attention → ℚ
  | .prime => 1
  | .watch => 75 / 100
  | .ignore => 40 / 100

/-- `_spread_score`. -/
def spreadScore (spread : ℚ) : ℚ :=
  if spread ≤ 2 / 100 ∨ 10 / 100 < spread then 0
  else if spread ≤ 5 / 100 then 1
  else if spread ≤ 7 / 100 then 85 / 100
  else 70 / 100

/-- `_retrace_score`. -/
def retraceScore (r : ℚ) : ℚ :=
  if r ≤ 25 / 100 then 1
  else if r ≤ 35 / 100 then 75 / 100
  else if r ≤ 50 / 100 then 50 / 100
  else 0

/-- The weighted sum of the components. -/
def composite (pattern : PatternType) (rvol : ℚ) (floatShares : Option ℤ) (attention : Attention)
    (spread retraceRatio : ℚ) : ℚ :=
  30 / 100 * patternScore pattern + 25 / 100 * rvolScore rvol + 15 / 100 * floatScore floatShares
    + 15 / 100 * attentionScore attention + 8 / 100 * spreadScore spread
    + 7 / 100 * retraceScore retraceRatio

/-- The 9-EMA touch bonus. -/
def emaBonus (ema9 currentPrice : Option ℚ) : ℚ :=
  match ema9, currentPrice with
  | some e, some p => if |p - e| / max e (1 / 100) ≤ 2 / 100 then 5 / 100 else 0
  | _, _ => 0

/-- The VWAP reclaim bonus. -/
def vwapBonus (vwap currentPrice : Option ℚ) : ℚ :=
  match vwap, currentPrice with
  | some v, some p => if v < p then 3 / 100 else 0
  | _, _ => 0

/-- `score_conviction`. -/
def scoreConviction (pattern : PatternType) (rvol : ℚ) (floatShares : Option ℤ)
    (attention : Attention) (spread retraceRatio : ℚ) (ema9 currentPrice vwap : Option ℚ) : ℚ :=
  max (25 / 100) (min 1 (composite pattern rvol floatShares attention spread retraceRatio
    + emaBonus ema9 currentPrice + vwapBonus vwap currentPrice))

/-- Whatever is scored, the score stays in its range. -/
theorem scoreConviction_mem (pattern : PatternType) (rvol : ℚ) (floatShares : Option ℤ)
    (attention : Attention) (spread retraceRatio : ℚ) (ema9 currentPrice vwap : Option ℚ) :
    25 / 100
        ≤ scoreConviction pattern rvol floatShares attention spread retraceRatio ema9 currentPrice vwap
      ∧ scoreConviction pattern rvol floatShares attention spread retraceRatio ema9 currentPrice vwap
        ≤ 1 := by
  unfold scoreConviction
  refine ⟨le_max_left .., max_le (by norm_num) (min_le_left ..)⟩

/-! ## The components -/

/-- A better rank does not score lower. -/
theorem patternScore_le {p q : PatternType} (h : patternRank q ≤ patternRank p) :
    patternScore p ≤ patternScore q := by
  cases p <;> cases q <;> first | exact absurd h (by decide) | norm_num [patternScore, patternRank]

/-- The steps of `_rvol_score` rise. -/
theorem stairs_rvolScore : Stairs (· ≤ ·) rvolScore 1 := by
  have hup : ∀ c x y : ℚ, x ≤ y → c ≤ x → c ≤ y := fun _ _ _ hxy hc => hc.trans hxy
  have h5 := (Stairs.floor 0).step (hup 5) (show (0 : ℚ) ≤ 40 / 100 by norm_num)
  have h10 := h5.step (hup 10) (show (40 / 100 : ℚ) ≤ 55 / 100 by norm_num)
  have h30 := h10.step (hup 30) (show (55 / 100 : ℚ) ≤ 75 / 100 by norm_num)
  have h50 := h30.step (hup 50) (show (75 / 100 : ℚ) ≤ 85 / 100 by norm_num)
  have h80 := h50.step (hup 80) (show (85 / 100 : ℚ) ≤ 95 / 100 by norm_num)
  exact h80.step (hup 100) (show (95 / 100 : ℚ) ≤ 1 by norm_num)

/-- Those of `_float_score` rise as a known float gets smaller. -/
theorem stairs_floatScore : Stairs (· ≥ ·) (fun f : ℤ => floatScore (some f)) 1 := by
  have hle : ∀ c x y : ℤ, y ≤ x → x ≤ c → y ≤ c := fun _ _ _ hyx hc => hyx.trans hc
  have hlt : ∀ c x y : ℤ, y ≤ x → x < c → y < c := fun _ _ _ hyx hc => hyx.trans_lt hc
  have h20 := (Stairs.floor 0).step (hle 20000000) (show (0 : ℚ) ≤ 60 / 100 by norm_num)
  have h10 := h20.step (hlt 10000000) (show (60 / 100 : ℚ) ≤ 75 / 100 by norm_num)
  have h5 := h10.step (hlt 5000000) (show (75 / 100 : ℚ) ≤ 90 / 100 by norm_num)
  exact h5.step (hlt 1000000) (show (90 / 100 : ℚ) ≤ 1 by norm_num)

/-- And those of `_retrace_score` as the retrace does. -/
theorem stairs_retraceScore : Stairs (· ≥ ·) retraceScore 1 := by
  have hle : ∀ c x y : ℚ, y ≤ x → x ≤ c → y ≤ c := fun _ _ _ hyx hc => hyx.trans hc
  have h50 := (Stairs.floor 0).step (hle (50 / 100)) (show (0 : ℚ) ≤ 50 / 100 by norm_num)
  have h35 := h50.step (hle (35 / 100)) (show (50 / 100 : ℚ) ≤ 75 / 100 by norm_num)
  exact h35.step (hle (25 / 100)) (show (75 / 100 : ℚ) ≤ 1 by norm_num)

/-! ## The score -/

section Order

variable {pattern pattern' : PatternType} {rvol rvol' : ℚ} {floatShares floatShares' : Option ℤ}
  {attention attention' : Attention} {retraceRatio retraceRatio' : ℚ}

/-- No component lower, no lower score. -/
theorem scoreConviction_le (spread : ℚ) (ema9 currentPrice vwap : Option ℚ)
    (hpattern : patternScore pattern ≤ patternScore pattern')
    (hrvol : rvolScore rvol ≤ rvolScore rvol')
    (hfloat : floatScore floatShares ≤ floatScore floatShares')
    (hattention : attentionScore attention ≤ attentionScore attention')
    (hretrace : retraceScore retraceRatio ≤ retraceScore retraceRatio') :
    scoreConviction pattern rvol floatShares attention spread retraceRatio ema9 currentPrice vwap ≤
      scoreConviction pattern' rvol' floatShares' attention' spread retraceRatio' ema9 currentPrice
        vwap := by
  -- the attributes add up; the hygiene points are common to both sides
  have hcomposite : composite pattern rvol floatShares attention spread retraceRatio ≤
      composite pattern' rvol' floatShares' attention' spread retraceRatio' := by
    unfold composite
    linarith
  unfold scoreConviction
  exact max_le_max le_rfl (min_le_min le_rfl
    (add_le_add_left (add_le_add_left hcomposite _) _))

end Order

/--
**The score is ordered with its inputs.** Whatever the other arguments are, it does
not fall with the relative volume, does not rise with the retrace or with a known
float, is no lower for a pattern of a better rank or a better tier of attention, and
lies between 0.25 and 1.
-/
theorem scoreConviction_ordered (pattern : PatternType) (rvol : ℚ) (floatShares : Option ℤ)
    (attention : Attention) (spread retraceRatio : ℚ) (ema9 currentPrice vwap : Option ℚ) :
    Monotone (fun r => scoreConviction pattern r floatShares attention spread retraceRatio
      ema9 currentPrice vwap) ∧
    Antitone (fun r => scoreConviction pattern rvol floatShares attention spread r
      ema9 currentPrice vwap) ∧
    Antitone (fun f : ℤ => scoreConviction pattern rvol (some f) attention spread retraceRatio
      ema9 currentPrice vwap) ∧
    (∀ better worse, patternRank better ≤ patternRank worse →
      scoreConviction worse rvol floatShares attention spread retraceRatio ema9 currentPrice vwap ≤
        scoreConviction better rvol floatShares attention spread retraceRatio
          ema9 currentPrice vwap) ∧
    [Attention.ignore, .watch, .prime].Pairwise (fun worse better =>
      scoreConviction pattern rvol floatShares worse spread retraceRatio ema9 currentPrice vwap ≤
        scoreConviction pattern rvol floatShares better spread retraceRatio
          ema9 currentPrice vwap) ∧
    scoreConviction pattern rvol floatShares attention spread retraceRatio ema9 currentPrice vwap ∈
      Set.Icc (25 / 100) 1 := by
  refine ⟨?_, ?_, ?_, ?_, ?_, ?_⟩
  · -- relative volume, retracement and float are stairs
    intro r r' hr
    exact scoreConviction_le spread ema9 currentPrice vwap le_rfl (stairs_rvolScore.mono r r' hr)
      le_rfl le_rfl le_rfl
  · intro r r' hr
    exact scoreConviction_le spread ema9 currentPrice vwap le_rfl le_rfl le_rfl le_rfl
      (stairs_retraceScore.mono r' r hr)
  · intro f f' hf
    exact scoreConviction_le spread ema9 currentPrice vwap le_rfl le_rfl
      (stairs_floatScore.mono f' f hf) le_rfl le_rfl
  · intro better worse hrank
    exact scoreConviction_le spread ema9 currentPrice vwap (patternScore_le hrank) le_rfl le_rfl
      le_rfl le_rfl
  · -- the pattern and the attention go by their own tables
    have hattention : [Attention.ignore, .watch, .prime].Pairwise fun worse better =>
        attentionScore worse ≤ attentionScore better := by
      norm_num [attentionScore]
    exact hattention.imp fun h =>
      scoreConviction_le spread ema9 currentPrice vwap le_rfl le_rfl le_rfl h le_rfl
  · exact scoreConviction_mem pattern rvol floatShares attention spread retraceRatio ema9
      currentPrice vwap

end RossBot
