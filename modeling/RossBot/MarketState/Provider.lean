import Mathlib.Algebra.Order.Field.Basic
import RossBot.Lib.Runs
import RossBot.Lib.Window
import RossBot.Market

/-!
# The market state

`adapters/market_state`. `RollingMarketStateProvider` keeps the last days it was told
of; `compute_features` adds them up, and `classify_market_state` counts how many of
three features are hot and how many are cold.

A feature is never both, so three hot ones leave no room for a cold one: the
verdict asks for the three hot thresholds and for nothing else (`classify_eq_hot`).
The cold thresholds and their branches tip nothing that the hot ones have not tipped
already.
-/

namespace RossBot

open Lib

/-! ## The models -/

/-- `DaySnapshot`. -/
structure DaySnapshot where
  countGt100pct : ℤ
  countTinyFloat : ℤ
  gapperCount : ℤ
  gapperFollowthroughCount : ℤ
  winnerCount : ℤ
  winnerGainSum : ℚ
  loserCount : ℤ
  loserLossSum : ℚ
  breakoutCount : ℤ
  breakoutSuccessCount : ℤ

/-- `MarketStateFeatures`. -/
structure MarketStateFeatures where
  daysInWindow : ℕ
  gapperFollowThrough : Option ℚ
  breakoutSuccessRate : Option ℚ
  avgGreenSize : Option ℚ
  avgRedSize : Option ℚ
  countGt100pct : ℤ
  countTinyFloat : ℤ

/-- The configuration keys of the classifier. -/
structure MarketStateConfig where
  hotWindowDays : ℤ
  minWindowDays : ℤ
  hotBigMoversMin : ℤ
  hotFollowThroughMin : ℚ
  hotAvgGreenMin : ℚ
  coldFollowThroughMax : ℚ
  coldAvgGreenMax : ℚ

/-- The shipped `DEFAULTS`. -/
def MarketStateConfig.defaults : MarketStateConfig where
  hotWindowDays := 5
  minWindowDays := 3
  hotBigMoversMin := 2
  hotFollowThroughMin := 60 / 100
  hotAvgGreenMin := 25 / 100
  coldFollowThroughMax := 35 / 100
  coldAvgGreenMax := 10 / 100

/-! ## Features -/

/-- A total over a count, when there is anything to count. -/
def rateOf (total : ℚ) (count : ℤ) : Option ℚ := if 0 < count then some (total / count) else none

/-- `compute_features`. -/
def computeFeatures (snapshots : List DaySnapshot) : MarketStateFeatures :=
  if snapshots = [] then ⟨0, none, none, none, none, 0, 0⟩
  else
    let totalGappers : ℤ := (snapshots.map (·.gapperCount)).sum
    let totalFollowthrough : ℤ := (snapshots.map (·.gapperFollowthroughCount)).sum
    let totalBreakouts : ℤ := (snapshots.map (·.breakoutCount)).sum
    let totalSuccesses : ℤ := (snapshots.map (·.breakoutSuccessCount)).sum
    let totalWinners : ℤ := (snapshots.map (·.winnerCount)).sum
    let totalLosers : ℤ := (snapshots.map (·.loserCount)).sum
    let totalWinnerGain : ℚ := (snapshots.map (·.winnerGainSum)).sum
    let totalLoserLoss : ℚ := (snapshots.map (·.loserLossSum)).sum
    { daysInWindow := snapshots.length
      gapperFollowThrough := rateOf totalFollowthrough totalGappers
      breakoutSuccessRate := rateOf totalSuccesses totalBreakouts
      avgGreenSize := rateOf totalWinnerGain totalWinners
      avgRedSize := rateOf totalLoserLoss totalLosers
      countGt100pct := (snapshots.map (·.countGt100pct)).sum
      countTinyFloat := (snapshots.map (·.countTinyFloat)).sum }

/-! ## The classifier -/

/-- What a feature adds to `hot_signals` and to `cold_signals`. -/
inductive Heat where
  | hot
  | cold
  | neither
  deriving DecidableEq

/-- A rate against its thresholds; one that is missing is cold. -/
def heatOf (rate : Option ℚ) (hotMin coldMax : ℚ) : Heat :=
  match rate with
  | none => .cold
  | some r => if hotMin ≤ r then .hot else if r ≤ coldMax then .cold else .neither

/-- The three signals, in the order they are counted. -/
def heats (f : MarketStateFeatures) (cfg : MarketStateConfig) : List Heat :=
  [ if cfg.hotBigMoversMin ≤ f.countGt100pct then .hot
    else if f.countGt100pct = 0 then .cold else .neither,
    heatOf f.gapperFollowThrough cfg.hotFollowThroughMin cfg.coldFollowThroughMax,
    heatOf f.avgGreenSize cfg.hotAvgGreenMin cfg.coldAvgGreenMax ]

/-- `classify_market_state`. -/
def classifyMarketState (f : MarketStateFeatures) (cfg : MarketStateConfig) : MarketState :=
  if (f.daysInWindow : ℤ) < cfg.minWindowDays then .cold
  else
    let hotSignals := (heats f cfg).count .hot
    let coldSignals := (heats f cfg).count .cold
    if hotSignals = 3 ∧ coldSignals = 0 then .hot else .cold

/-! ## The provider -/

/-- `RollingMarketStateProvider`. -/
structure RollingMarketStateProvider where
  cfg : MarketStateConfig
  window : List DaySnapshot
  rehab : Bool

namespace RollingMarketStateProvider

/-- `RollingMarketStateProvider(cfg)`. -/
def new (cfg : MarketStateConfig) : RollingMarketStateProvider := ⟨cfg, [], false⟩

/-- `record_day`. -/
def recordDay (p : RollingMarketStateProvider) (snapshot : DaySnapshot) :
    RollingMarketStateProvider :=
  let window := p.window ++ [snapshot]
  { p with window := if p.cfg.hotWindowDays < (window.length : ℤ) then window.tail else window }

/-- `set_rehab`. -/
def setRehab (p : RollingMarketStateProvider) (active : Bool) : RollingMarketStateProvider :=
  { p with rehab := active }

/-- `classify`. -/
def classify (p : RollingMarketStateProvider) : MarketState :=
  if p.rehab then .rehab else classifyMarketState (computeFeatures p.window) p.cfg

/-- What its callers ask of a provider. -/
inductive Call where
  | recordDay (snapshot : DaySnapshot)
  | setRehab (active : Bool)

/-- What a call makes of the provider. -/
def answer (p : RollingMarketStateProvider) : Call → RollingMarketStateProvider
  | .recordDay snapshot => p.recordDay snapshot
  | .setRehab active => p.setRehab active

/-- A provider after some calls. -/
def after (cfg : MarketStateConfig) (calls : List Call) : RollingMarketStateProvider :=
  calls.foldl answer (.new cfg)

/-- The days recorded, oldest first. -/
def days (calls : List Call) : List DaySnapshot :=
  calls.filterMap fun
    | .recordDay snapshot => some snapshot
    | .setRehab _ => none

/-- What `set_rehab` was last called with. -/
def inRehab (calls : List Call) : Bool :=
  calls.foldl (fun active c =>
    match c with
    | .recordDay _ => active
    | .setRehab active => active) false

end RollingMarketStateProvider

/-- **A hot stretch of days**, with nothing divided. -/
structure HotDays (cfg : MarketStateConfig) (window : List DaySnapshot) : Prop where
  enough : cfg.minWindowDays ≤ window.length
  bigMovers : cfg.hotBigMoversMin ≤ (window.map (·.countGt100pct)).sum
  gappers : 0 < (window.map (·.gapperCount)).sum
  followThrough : cfg.hotFollowThroughMin * (window.map (·.gapperCount)).sum
    ≤ ((window.map (·.gapperFollowthroughCount)).sum : ℤ)
  winners : 0 < (window.map (·.winnerCount)).sum
  green : cfg.hotAvgGreenMin * (window.map (·.winnerCount)).sum
    ≤ (window.map (·.winnerGainSum)).sum

/-! ## Three hot signals -/

/-- A rate is hot when there is one and it reaches the hot threshold. -/
theorem heatOf_rateOf {total hotMin coldMax : ℚ} {count : ℤ} :
    heatOf (rateOf total count) hotMin coldMax = .hot ↔ 0 < count ∧ hotMin * count ≤ total := by
  unfold rateOf
  by_cases hcount : 0 < count
  · -- a count of days: the rate is a division
    have hpos : (0 : ℚ) < count := by exact_mod_cast hcount
    rw [if_pos hcount, heatOf, ← le_div_iff₀ hpos]
    simp only [hcount, true_and]
    split
    · rename_i hhot
      exact iff_of_true rfl hhot
    · rename_i hhot
      split <;> simp [hhot]
  · -- without one there is no rate, and so no heat
    rw [if_neg hcount]
    exact iff_of_false (by simp [heatOf]) fun h => hcount h.1

/-- Three hot ones are all there are. -/
theorem count_hot_eq_three {a b c : Heat} :
    [a, b, c].count .hot = 3 ∧ [a, b, c].count .cold = 0 ↔ a = .hot ∧ b = .hot ∧ c = .hot := by
  cases a <;> cases b <;> cases c <;> decide

/--
**Hot is what reaches the hot thresholds**, whatever the cold ones are.

It takes three hot heats of three. A heat is compared with its hot threshold first, so
one that reaches both is hot; and a rate without a count to divide by is no heat.
-/
theorem classifyMarketState_eq_hot {cfg : MarketStateConfig} {window : List DaySnapshot} :
    classifyMarketState (computeFeatures window) cfg = .hot ↔ HotDays cfg window := by
  by_cases hempty : window = []
  · subst hempty
    refine iff_of_false ?_ fun h => absurd h.gappers (by simp)
    unfold classifyMarketState
    split
    · simp
    · rw [heats, if_neg]
      · simp
      · rw [count_hot_eq_three]
        exact fun h => absurd h.2.1 (by simp [computeFeatures, heatOf])
  · have hlength : (computeFeatures window).daysInWindow = window.length := by
      rw [computeFeatures, if_neg hempty]
    have hheats : (heats (computeFeatures window) cfg).count .hot = 3
          ∧ (heats (computeFeatures window) cfg).count .cold = 0
        ↔ cfg.hotBigMoversMin ≤ (window.map (·.countGt100pct)).sum
          ∧ (0 < (window.map (·.gapperCount)).sum
            ∧ cfg.hotFollowThroughMin * (window.map (·.gapperCount)).sum
              ≤ ((window.map (·.gapperFollowthroughCount)).sum : ℤ))
          ∧ 0 < (window.map (·.winnerCount)).sum
            ∧ cfg.hotAvgGreenMin * (window.map (·.winnerCount)).sum
              ≤ (window.map (·.winnerGainSum)).sum := by
      rw [computeFeatures, if_neg hempty, heats, count_hot_eq_three, heatOf_rateOf, heatOf_rateOf]
      refine and_congr ?_ Iff.rfl
      dsimp only
      split
      · rename_i hhot
        exact iff_of_true rfl hhot
      · rename_i hhot
        split <;> simp [hhot]
    unfold classifyMarketState
    rw [hlength]
    split
    · rename_i hfew
      exact iff_of_false (by simp) fun h => absurd h.enough (by omega)
    · rename_i henough
      dsimp only
      split
      · rename_i hthree
        obtain ⟨hmovers, ⟨hgappers, hfollow⟩, hwinners, hgreen⟩ := hheats.mp hthree
        exact iff_of_true rfl ⟨by omega, hmovers, hgappers, hfollow, hwinners, hgreen⟩
      · rename_i hthree
        exact iff_of_false (by simp) fun h => hthree (hheats.mpr
          ⟨h.bigMovers, ⟨h.gappers, h.followThrough⟩, h.winners, h.green⟩)

/-- Never rehab: that is the provider's. -/
theorem classifyMarketState_ne_rehab (f : MarketStateFeatures) (cfg : MarketStateConfig) :
    classifyMarketState f cfg ≠ .rehab := by
  unfold classifyMarketState
  dsimp only
  split_ifs <;> simp

namespace RollingMarketStateProvider

/-! ## What the provider keeps -/

/-- The provider has been called with `calls`: it keeps the last days and the last word on
rehab. -/
structure Tracks (p : RollingMarketStateProvider) (cfg : MarketStateConfig) (calls : List Call) :
    Prop where
  cfg_eq : p.cfg = cfg
  window_eq : p.window = (days calls).rtake cfg.hotWindowDays.toNat
  rehab_eq : p.rehab = inRehab calls

theorem Tracks.answer {p : RollingMarketStateProvider} {cfg : MarketStateConfig}
    {calls : List Call} (h : p.Tracks cfg calls) (c : Call) :
    (p.answer c).Tracks cfg (calls ++ [c]) := by
  have hrehab : inRehab (calls ++ [c]) = match c with
      | .recordDay _ => inRehab calls
      | .setRehab active => active := foldl_snoc ..
  cases c with
  | setRehab active =>
      have hdays : days (calls ++ [.setRehab active]) = days calls := by
        rw [days, List.filterMap_append]
        exact List.append_nil _
      exact ⟨h.cfg_eq, hdays ▸ h.window_eq, hrehab.symm⟩
  | recordDay snapshot =>
      have hdays : days (calls ++ [.recordDay snapshot]) = days calls ++ [snapshot] :=
        List.filterMap_append
      refine ⟨h.cfg_eq, ?_, h.rehab_eq.trans hrehab.symm⟩
      rw [hdays, ← rtake_push, ← h.window_eq]
      change (if p.cfg.hotWindowDays < ((p.window ++ [snapshot]).length : ℤ) then _ else _) = _
      -- a bound below one drops the new day as well
      have hfull : p.cfg.hotWindowDays < ((p.window ++ [snapshot]).length : ℤ)
          ↔ cfg.hotWindowDays.toNat < (p.window ++ [snapshot]).length := by
        rw [h.cfg_eq, List.length_append, List.length_singleton]
        omega
      exact if_congr hfull rfl rfl

theorem after_tracks (cfg : MarketStateConfig) (calls : List Call) :
    (after cfg calls).Tracks cfg calls := by
  induction calls using List.reverseRecOn with
  | nil => exact ⟨rfl, by simp [after, new, days], rfl⟩
  | append_singleton calls c ih =>
      rw [after, foldl_snoc]
      exact ih.answer c

theorem classify_eq_rehab (cfg : MarketStateConfig) (calls : List Call) :
    (after cfg calls).classify = .rehab ↔ inRehab calls = true := by
  rw [classify, (after_tracks cfg calls).rehab_eq]
  split
  · rename_i h
    exact iff_of_true rfl h
  · rename_i h
    exact iff_of_false (classifyMarketState_ne_rehab _ _) h

theorem classify_eq_hot (cfg : MarketStateConfig) (calls : List Call) :
    (after cfg calls).classify = .hot ↔ inRehab calls = false
      ∧ HotDays cfg ((days calls).rtake cfg.hotWindowDays.toNat) := by
  have htracks := after_tracks cfg calls
  rw [classify, htracks.rehab_eq, htracks.cfg_eq, htracks.window_eq]
  split
  · rename_i h
    exact iff_of_false (by simp) fun hot => by simp [h] at hot
  · rename_i h
    rw [classifyMarketState_eq_hot]
    simp [h]

end RollingMarketStateProvider

end RossBot
