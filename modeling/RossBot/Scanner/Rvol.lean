import RossBot.Lib.Dict
import RossBot.Lib.Runs
import RossBot.Lib.Window
import RossBot.Market
import RossBot.Numbers

/-!
# Relative volume

`core/scanner/rvol.py`. Today's volume over the mean of the trailing days. The engine
caches the mean and the number of days of a symbol, not the days; what it answers
from the cache is what `compute` answers from the days it was last given
(`rvolFor_after`). The mean, its part and the quotient are rounded to 28 digits each,
so a volume at the threshold can come out on either side of it; one that is further
from it than `rvolSlack` cannot. The type checks of `_compute` are in the types here.
-/

namespace RossBot

open Lib

/-- `Confidence`, of a relative volume. -/
inductive RvolConfidence where
  | high
  | low
  | unknown
  deriving DecidableEq, Repr

/-- The `reason` of an `RvolResult`. -/
inductive RvolReason where
  | noBaselineCached (symbol : Symbol)
  | noUsableBaseline
  | fewBaselineDays (days : ℕ) (min : ℤ)
  | ok
  deriving DecidableEq, Repr

/-- `RvolResult`. -/
structure RvolResult where
  rvol : Option ℚ
  baselineAvgVolume : Option ℚ
  historyDays : ℕ
  confidence : RvolConfidence
  reason : RvolReason
  deriving DecidableEq

/-- `RvolResult.passes`. -/
def RvolResult.passes (r : RvolResult) (threshold : ℚ) : Bool :=
  match r.rvol with
  | none => false
  | some v => decide (r.confidence = .high) && decide (threshold ≤ v)

/-- `[v for v in daily_volumes[-window:] if v >= 0]`. -/
def usableDays (dailyVolumes : List ℤ) (window : ℕ) : List ℤ :=
  (if window = 0 then dailyVolumes else dailyVolumes.rtake window).filter fun v => decide (0 ≤ v)

/-- `rolling_baseline`. -/
def rollingBaseline (dailyVolumes : List ℤ) (window : ℕ) : Option ℚ :=
  let usable := usableDays dailyVolumes window
  if usable = [] then none
  else if usable.sum ≤ 0 then none
  else some (decimal28 ((usable.sum : ℚ) / (usable.length : ℚ)))

/-- The `ValueError`s of `_compute`. -/
inductive RvolError where
  | negativeVolume
  | badFraction
  deriving DecidableEq, Repr

/-- `RvolEngine`; the constructor refuses a window of no days. -/
structure RvolEngine where
  baselineDays : ℕ
  minHistoryDays : ℤ
  /-- `_baselines`. -/
  baselines : Dict Symbol (Option ℚ × ℕ)
  baselineDays_pos : 1 ≤ baselineDays

namespace RvolEngine

/-- `RvolEngine(baseline_days, min_history_days)`. -/
def new (baselineDays : ℕ) (minHistoryDays : ℤ) (h : 1 ≤ baselineDays) : RvolEngine :=
  ⟨baselineDays, minHistoryDays, ∅, h⟩

/-- The mean of some days and how many of them count. -/
def baseline (baselineDays : ℕ) (dailyVolumes : List ℤ) : Option ℚ × ℕ :=
  (rollingBaseline dailyVolumes baselineDays, (usableDays dailyVolumes baselineDays).length)

/-- `update_baseline`. -/
def updateBaseline (e : RvolEngine) (symbol : Symbol) (dailyVolumes : List ℤ) : RvolEngine :=
  { e with baselines := e.baselines.set symbol (baseline e.baselineDays dailyVolumes) }

/-- `_compute`, once the volume and the fraction have been let through. -/
def ratio (e : RvolEngine) (avg denom : ℚ) (historyDays : ℕ) (currentVolume : ℤ) : RvolResult :=
  if (historyDays : ℤ) < e.minHistoryDays then
    ⟨some (decimal28 (currentVolume / denom)), some avg, historyDays, .low,
      .fewBaselineDays historyDays e.minHistoryDays⟩
  else ⟨some (decimal28 (currentVolume / denom)), some avg, historyDays, .high, .ok⟩

/-- `_compute`. -/
def compute_ (e : RvolEngine) (baseline : Option ℚ × ℕ) (currentVolume : ℤ)
    (expectedFraction : Option ℚ) : Except RvolError RvolResult :=
  if currentVolume < 0 then .error .negativeVolume
  else
    match baseline.1 with
    | none => .ok ⟨none, none, baseline.2, .unknown, .noUsableBaseline⟩
    | some avg =>
        if avg ≤ 0 then .ok ⟨none, some avg, baseline.2, .unknown, .noUsableBaseline⟩
        else
          match expectedFraction with
          | none => .ok (e.ratio avg avg baseline.2 currentVolume)
          | some fraction =>
              if 0 < fraction ∧ fraction ≤ 1 then
                .ok (e.ratio avg (decimal28 (avg * fraction)) baseline.2 currentVolume)
              else .error .badFraction

/-- `compute`. -/
def compute (e : RvolEngine) (currentVolume : ℤ) (dailyVolumes : List ℤ)
    (expectedFraction : Option ℚ) : Except RvolError RvolResult :=
  e.compute_ (baseline e.baselineDays dailyVolumes) currentVolume expectedFraction

/-- `rvol_for`. -/
def rvolFor (e : RvolEngine) (symbol : Symbol) (currentVolume : ℤ)
    (expectedFraction : Option ℚ) : Except RvolError RvolResult :=
  match e.baselines.get? symbol with
  | none => .ok ⟨none, none, 0, .unknown, .noBaselineCached symbol⟩
  | some baseline => e.compute_ baseline currentVolume expectedFraction

/-! ## The cache -/

/-- The engine after some `update_baseline` calls. -/
def after (e : RvolEngine) (updates : List (Symbol × List ℤ)) : RvolEngine :=
  updates.foldl (fun e u => e.updateBaseline u.1 u.2) e

/-- The days last given for a symbol. -/
def lastDays (symbol : Symbol) (updates : List (Symbol × List ℤ)) : Option (List ℤ) :=
  ((updates.filter fun u => u.1 = symbol).getLast?).map Prod.snd

/-- The calls write the cache and nothing else. -/
theorem after_eq (e : RvolEngine) (updates : List (Symbol × List ℤ)) :
    e.after updates = { e with
      baselines := updates.foldl (fun d u => d.set u.1 (baseline e.baselineDays u.2))
        e.baselines } := by
  induction updates generalizing e with
  | nil => rfl
  | cons u updates ih =>
      rw [after, List.foldl_cons]
      exact ih (e.updateBaseline u.1 u.2)

private theorem foldl_overwrite {α β : Type} (f : α → β) (l : List α) :
    l.foldl (fun _ x => some (f x)) none = l.getLast?.map f := by
  induction l using List.reverseRecOn with
  | nil => rfl
  | append_singleton l x _ => rw [foldl_snoc, List.getLast?_concat, Option.map_some]

/-- **What is cached of a symbol comes from the days it was last given.** -/
theorem baselines_after (baselineDays : ℕ) (minHistoryDays : ℤ) (h : 1 ≤ baselineDays)
    (updates : List (Symbol × List ℤ)) (symbol : Symbol) :
    ((new baselineDays minHistoryDays h).after updates).baselines.get? symbol
      = (lastDays symbol updates).map (baseline baselineDays) := by
  rw [after_eq, lastDays, Option.map_map, ← foldl_overwrite]
  exact foldl_isolated (fun (d : Dict Symbol (Option ℚ × ℕ)) k => d.get? k) Prod.fst
    (fun _ u => some (baseline baselineDays u.2)) (fun d u k => Dict.get?_set ..) ∅ updates symbol

/-! ## When the third pillar stands -/

/-- The third pillar, said of the days themselves: enough of the last ones count, some volume was
traded on them, and today's volume is at least so many times what a part of their mean comes to. -/
structure Confirmed (e : RvolEngine) (days : List ℤ) (fraction threshold : ℚ) (volume : ℤ) :
    Prop where
  history : e.minHistoryDays ≤ (usableDays days e.baselineDays).length
  traded : 0 < (usableDays days e.baselineDays).sum
  volume : threshold * fraction * (usableDays days e.baselineDays).sum
    ≤ volume * (usableDays days e.baselineDays).length

/-- The share that three roundings to 28 digits move a relative volume by at most. -/
def rvolSlack : ℚ := 2 / 10 ^ 27

theorem ratio_passes {e : RvolEngine} {avg denom threshold : ℚ} {days : ℕ} {volume : ℤ} :
    (e.ratio avg denom days volume).passes threshold = true
      ↔ e.minHistoryDays ≤ days ∧ threshold ≤ decimal28 (volume / denom) := by
  unfold ratio
  split
  · rename_i hfew
    exact iff_of_false (by simp [RvolResult.passes]) fun h => absurd h.1 (not_le.mpr hfew)
  · rename_i henough
    rw [RvolResult.passes, Bool.and_eq_true, decide_eq_true_eq, decide_eq_true_eq, eq_self,
      true_and]
    exact (and_iff_right (not_lt.mp henough)).symm

/-- A mean is a positive sum over how many there are, rounded. -/
theorem rollingBaseline_eq_some {days : List ℤ} {window : ℕ} {avg : ℚ} :
    rollingBaseline days window = some avg ↔ 0 < (usableDays days window).sum
      ∧ avg = decimal28 ((usableDays days window).sum / (usableDays days window).length) := by
  unfold rollingBaseline
  dsimp only
  -- without a usable day there is no baseline
  by_cases hnil : usableDays days window = []
  · rw [if_pos hnil, hnil]
    simp
  · rw [if_neg hnil]
    -- nor with days that add up to nothing
    split
    · rename_i hsum
      exact iff_of_false (by simp) fun h => absurd h.1 (not_lt.mpr hsum)
    · rename_i hsum
      rw [Option.some.injEq, eq_comm]
      exact (and_iff_right (not_le.mp hsum)).symm

/-- Cross-multiplied, the comparison has no division. -/
theorem le_ratio_iff {threshold fraction sum count volume : ℚ} (hsum : 0 < sum) (hcount : 0 < count)
    (hfraction : 0 < fraction) :
    threshold ≤ volume / (sum / count * fraction)
      ↔ threshold * fraction * sum ≤ volume * count := by
  rw [le_div_iff₀ (mul_pos (div_pos hsum hcount) hfraction)]
  have hcross : threshold * (sum / count * fraction) = threshold * fraction * sum / count := by
    ring
  rw [hcross, div_le_iff₀ hcount]

/-- The quotient by a denominator that was rounded up to twice, itself rounded. -/
theorem within_quotient {denom denom' volume : ℚ} (hdenom : 0 < denom) (hvolume : 0 ≤ volume)
    (h : WithinFactors ((1 - decimalUlp) * (1 - decimalUlp)) ((1 + decimalUlp) * (1 + decimalUlp)) denom
      denom') :
    WithinFactors (1 + rvolSlack)⁻¹ (1 + rvolSlack) (volume / denom) (decimal28 (volume / denom')) := by
  have hlow : (0 : ℚ) < (1 - decimalUlp) * (1 - decimalUlp) := by
    norm_num [decimalUlp, halfUlp]
  have hquotient := h.div_left hdenom hlow hvolume
  have hrounded := within_decimal28 (div_nonneg hvolume (h.pos hdenom hlow).le)
  refine (hquotient.trans hrounded ?_ ?_).mono (div_nonneg hvolume hdenom.le) ?_ ?_
  all_goals norm_num [decimalUlp, halfUlp, rvolSlack]

/-- What is within the slack passes a threshold with the slack to spare, and passes none that is
further off. -/
theorem le_of_within (threshold : ℚ) {exact rvol : ℚ}
    (h : WithinFactors (1 + rvolSlack)⁻¹ (1 + rvolSlack) exact rvol) :
    (threshold * (1 + rvolSlack) ≤ exact → threshold ≤ rvol)
      ∧ (threshold ≤ rvol → threshold / (1 + rvolSlack) ≤ exact) := by
  have hslack : (0 : ℚ) < 1 + rvolSlack := by norm_num [rvolSlack]
  constructor
  · intro hle
    refine le_trans ?_ h.low
    rw [← div_eq_mul_inv]
    exact (le_div_iff₀ hslack).mpr hle
  · intro hle
    exact (div_le_iff₀ hslack).mpr (hle.trans h.high)

/-- **A relative volume passes when the days bear it out**, and not when they are off by more than
the rounding. -/
theorem compute_passes {e : RvolEngine} {days : List ℤ} {volume : ℤ} {fraction : Option ℚ}
    (threshold : ℚ) {r : RvolResult} (h : e.compute volume days fraction = .ok r) :
    (e.Confirmed days (fraction.getD 1) (threshold * (1 + rvolSlack)) volume →
        r.passes threshold = true)
      ∧ (r.passes threshold = true →
        e.Confirmed days (fraction.getD 1) (threshold / (1 + rvolSlack)) volume) := by
  unfold compute compute_ baseline at h
  split at h
  · exact absurd h (by simp)
  rename_i hvolume
  have hvolume' : (0 : ℚ) ≤ volume := Int.cast_nonneg (not_lt.mp hvolume)
  dsimp only at h
  cases hbase : rollingBaseline days e.baselineDays with
  | none =>
      rw [hbase] at h
      obtain rfl := Except.ok.inj h
      refine ⟨fun hc => ?_, fun hpass => absurd hpass (by simp [RvolResult.passes])⟩
      have := rollingBaseline_eq_some.mpr ⟨hc.traded, rfl⟩
      exact absurd (hbase.symm.trans this) (by simp)
  | some avg =>
      obtain ⟨hsum, havg⟩ := rollingBaseline_eq_some.mp hbase
      have hcount : 0 < (usableDays days e.baselineDays).length := by
        refine List.length_pos_iff.mpr fun hnil => ?_
        rw [hnil] at hsum
        exact absurd hsum (by simp)
      have hsum' : (0 : ℚ) < (usableDays days e.baselineDays).sum := by exact_mod_cast hsum
      have hcount' : (0 : ℚ) < (usableDays days e.baselineDays).length := by exact_mod_cast hcount
      have hmean := div_pos hsum' hcount'
      have hulp : (0 : ℚ) < 1 - decimalUlp := by norm_num [decimalUlp, halfUlp]
      have hulp' : (0 : ℚ) ≤ 1 + decimalUlp := by norm_num [decimalUlp, halfUlp]
      have hrounded := within_decimal28 hmean.le
      rw [← havg] at hrounded
      have havg_pos : 0 < avg := hrounded.pos hmean hulp
      rw [hbase] at h
      dsimp only at h
      rw [if_neg (not_le.mpr havg_pos)] at h
      -- whatever part of the mean is asked for, the denominator was rounded twice at most
      have hratio : ∀ f denom : ℚ, 0 < f →
          WithinFactors ((1 - decimalUlp) * (1 - decimalUlp)) ((1 + decimalUlp) * (1 + decimalUlp))
            ((usableDays days e.baselineDays).sum / (usableDays days e.baselineDays).length * f)
            denom →
          (e.Confirmed days f (threshold * (1 + rvolSlack)) volume →
              (e.ratio avg denom (usableDays days e.baselineDays).length volume).passes threshold
                = true)
            ∧ ((e.ratio avg denom (usableDays days e.baselineDays).length volume).passes threshold
                = true → e.Confirmed days f (threshold / (1 + rvolSlack)) volume) := by
        intro f denom hf hdenom
        have hle := le_of_within threshold
          (within_quotient (mul_pos hmean hf) hvolume' hdenom)
        rw [ratio_passes]
        constructor
        · intro hc
          exact ⟨hc.history, hle.1 ((le_ratio_iff hsum' hcount' hf).mpr hc.volume)⟩
        · intro hp
          exact ⟨hp.1, hsum, (le_ratio_iff hsum' hcount' hf).mp (hle.2 hp.2)⟩
      cases fraction with
      | none =>
          obtain rfl := Except.ok.inj h
          refine hratio 1 avg one_pos ?_
          rw [mul_one]
          refine hrounded.mono hmean.le ?_ ?_ <;> norm_num [decimalUlp, halfUlp]
      | some f =>
          dsimp only at h
          split at h
          · rename_i hf
            obtain rfl := Except.ok.inj h
            refine hratio f _ hf.1 ((hrounded.mul_right hf.1.le).trans ?_ hulp.le hulp')
            exact within_decimal28 (mul_pos havg_pos hf.1).le
          · exact absurd h (by simp)

/-- **The cache is unobservable**, and what passes from it is what the days bear out, up to the
rounding of the quotient. After any `update_baseline` calls for any symbols, in any order,
`rvol_for` is `compute` on the days the symbol was last given, and does not pass before it was given
any. -/
theorem rvolFor_after (baselineDays : ℕ) (minHistoryDays : ℤ) (h : 1 ≤ baselineDays)
    (updates : List (Symbol × List ℤ)) (symbol : Symbol) (volume : ℤ) (fraction : Option ℚ)
    (threshold : ℚ) :
    (∀ days, lastDays symbol updates = some days →
      ((new baselineDays minHistoryDays h).after updates).rvolFor symbol volume fraction
        = (new baselineDays minHistoryDays h).compute volume days fraction) ∧
    (∀ r, ((new baselineDays minHistoryDays h).after updates).rvolFor symbol volume fraction
        = .ok r →
      (∀ days, lastDays symbol updates = some days →
        (new baselineDays minHistoryDays h).Confirmed days (fraction.getD 1)
          (threshold * (1 + rvolSlack)) volume → r.passes threshold = true) ∧
      (r.passes threshold = true → ∃ days, lastDays symbol updates = some days
        ∧ (new baselineDays minHistoryDays h).Confirmed days (fraction.getD 1)
          (threshold / (1 + rvolSlack)) volume)) := by
  have hcompute : ∀ b, ((new baselineDays minHistoryDays h).after updates).compute_ b volume fraction
      = (new baselineDays minHistoryDays h).compute_ b volume fraction := by
    intro b
    rw [after_eq]
    rfl
  have hcached : ∀ days, lastDays symbol updates = some days →
      ((new baselineDays minHistoryDays h).after updates).rvolFor symbol volume fraction
        = (new baselineDays minHistoryDays h).compute volume days fraction := by
    intro days hdays
    rw [rvolFor, baselines_after, hdays, Option.map_some]
    exact hcompute _
  refine ⟨hcached, ?_⟩
  intro r hr
  cases hdays : lastDays symbol updates with
  | none =>
      -- a symbol without days has no relative volume
      rw [rvolFor, baselines_after, hdays, Option.map_none] at hr
      obtain rfl := Except.ok.inj hr
      exact ⟨by simp, fun hpass => absurd hpass (by simp [RvolResult.passes])⟩
  | some days =>
      rw [hcached days hdays] at hr
      obtain ⟨hborne, hpassed⟩ := compute_passes threshold hr
      refine ⟨fun days' hdays' => ?_, fun hpass => ⟨days, rfl, hpassed hpass⟩⟩
      rw [← Option.some.inj hdays']
      exact hborne

/-- Twenty days of a hundred thousand shares, and then a day of another symbol. -/
def twentyDays : List (Symbol × List ℤ) := [("AAA", List.replicate 20 100000), ("BBB", [7])]

/-- Half a million shares by the time a quarter of the day is usually done is twenty times as
much. -/
theorem rvolFor_after_twentyDays :
    (new 50 20 (by decide)).Confirmed (List.replicate 20 100000) (1 / 4) (5 / (1 + rvolSlack))
      500000 := by
  have hr : ((new 50 20 (by decide)).after twentyDays).rvolFor "AAA" 500000 (some (1 / 4))
      = .ok ⟨some 20, some 100000, 20, .high, .ok⟩ := by decide +kernel
  obtain ⟨days, hdays, hconfirmed⟩ := ((rvolFor_after 50 20 (by decide) twentyDays "AAA" 500000
    (some (1 / 4)) 5).2 _ hr).2 (by decide +kernel)
  have hlast : lastDays "AAA" twentyDays = some (List.replicate 20 100000) := by decide +kernel
  rw [hlast] at hdays
  rw [Option.some.inj hdays]
  exact hconfirmed

end RvolEngine

end RossBot
