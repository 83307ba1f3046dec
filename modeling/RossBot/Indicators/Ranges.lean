import Mathlib.Data.Set.Finite.Lemmas
import Mathlib.Data.Set.Finite.List
import RossBot.Indicators
import RossBot.Lib.Average
import RossBot.Lib.Runs

/-!
# The ranges of the averages

`core/indicators.py`: an EMA is an average of the prices so far and a VWAP one of the
typical prices of the bars that traded, so each stays where those are. The bounds are
prices of four decimals, which rounding to six leaves in place, so what comes out
stays there too (`averages_within`).
-/

namespace RossBot

open Lib

/-- `EmaState` after some prices. -/
def EmaState.after (period : ℕ) (prices : List Money) : EmaState :=
  prices.foldl (fun s price => (s.update price.val).1) (.new period)

/-- `VwapState` after some bars. -/
def VwapState.after (bars : List BarTick) : VwapState :=
  bars.foldl (fun s bar => (s.update bar.high.val bar.low.val bar.close.val bar.volume).1) .new

/-- The bars that traded. -/
def traded (bars : List BarTick) : List BarTick := bars.filter fun bar => decide (0 < bar.volume)

/-- `v` lies between the lowest of `lows` and the highest of `highs`. -/
def Within (lows highs : List Money) (v : ℚ) : Prop :=
  ∃ lo ∈ lows, ∃ hi ∈ highs, (∀ p ∈ lows, lo.val ≤ p.val) ∧ (∀ p ∈ highs, p.val ≤ hi.val) ∧
    lo.val ≤ v ∧ v ≤ hi.val

/-! ## Rounding to six decimals -/

theorem le_q6 {m : Money} {x : ℚ} (h : m.val ≤ x) : m.val ≤ q6 x := by
  obtain ⟨n, hn⟩ := m.onGrid
  have hscaled : ((n * 100 : ℤ) : ℚ) ≤ x * 1000000 := by
    push_cast
    linarith
  have hround : ((n * 100 : ℤ) : ℚ) ≤ roundHalfEven (x * 1000000) := by
    exact_mod_cast (Int.le_floor.mpr hscaled).trans (floor_le_roundHalfEven _)
  rw [q6, hn]
  push_cast at hround
  linarith

theorem q6_le {m : Money} {x : ℚ} (h : x ≤ m.val) : q6 x ≤ m.val := by
  obtain ⟨n, hn⟩ := m.onGrid
  have hscaled : x * 1000000 ≤ ((n * 100 : ℤ) : ℚ) := by
    push_cast
    linarith
  have hround : (roundHalfEven (x * 1000000) : ℚ) ≤ ((n * 100 : ℤ) : ℚ) := by
    exact_mod_cast (roundHalfEven_le_ceil _).trans (Int.ceil_le.mpr hscaled)
  rw [q6, hn]
  push_cast at hround
  linarith

/-- **What stays between two prices still does when it is rounded**, and the extreme ones
will do. -/
theorem within_q6 {lows highs : List Money} {x : ℚ} (hlows : lows ≠ []) (hhighs : highs ≠ [])
    (h : ∀ lo hi, (∀ p ∈ lows, lo ≤ p.val) → (∀ p ∈ highs, p.val ≤ hi) → x ∈ Set.Icc lo hi) :
    Within lows highs (q6 x) := by
  obtain ⟨p, hp⟩ := List.exists_mem_of_ne_nil lows hlows
  obtain ⟨q, hq⟩ := List.exists_mem_of_ne_nil highs hhighs
  obtain ⟨lo, hlo, hleast⟩ :=
    Set.exists_min_image {p | p ∈ lows} Money.val lows.finite_toSet ⟨p, hp⟩
  obtain ⟨hi, hhi, hgreatest⟩ :=
    Set.exists_max_image {p | p ∈ highs} Money.val highs.finite_toSet ⟨q, hq⟩
  obtain ⟨hge, hle⟩ := h lo.val hi.val hleast hgreatest
  exact ⟨lo, hlo, hi, hhi, hleast, hgreatest, le_q6 hge, q6_le hle⟩

/-! ## EMA -/

section Ema

variable {r : Set ℚ} {s : EmaState} {period : ℕ} {prices : List Money} {price : Money}

/-- The state after `prices`: still collecting them for the seed, or at an average in `r`. -/
structure EmaState.Tracks (s : EmaState) (period : ℕ) (prices : List Money) (r : Set ℚ) :
    Prop where
  period_eq : s.period = period
  seeding : s.ema = none → s.buf = prices.map (·.val) ∧ prices.length < period
  mem : ∀ e, s.ema = some e → e ∈ r

theorem EmaState.update_snd (s : EmaState) (x : ℚ) :
    (s.update x).2 = (s.update x).1.ema.map q6 := by
  unfold update
  cases hema : s.ema with
  | none =>
      dsimp only
      split <;> rfl
  | some e => rfl

theorem EmaState.k_mem (hperiod : 1 ≤ s.period) : s.k ∈ Set.Icc (0 : ℚ) 1 := by
  have hcast : (1 : ℚ) ≤ s.period := by exact_mod_cast hperiod
  constructor
  · exact div_nonneg zero_le_two (by linarith)
  · rw [k, div_le_one₀ (by linarith)]
    linarith

/-- One more price. -/
theorem EmaState.Tracks.update (h : s.Tracks period prices r) (hperiod : 1 ≤ period)
    (hr : Convex ℚ r) (hall : ∀ p ∈ prices ++ [price], p.val ∈ r) :
    (s.update price.val).1.Tracks period (prices ++ [price]) r := by
  unfold EmaState.update
  cases hema : s.ema with
  | none =>
      obtain ⟨hbuf, hlen⟩ := h.seeding hema
      have hbuf' : s.buf ++ [price.val] = (prices ++ [price]).map (·.val) := by
        rw [hbuf, List.map_append]
        rfl
      dsimp only
      rw [hbuf', h.period_eq, List.length_map]
      split
      · rename_i hshort
        exact ⟨rfl, fun _ => ⟨rfl, hshort⟩, fun e he => absurd he (by simp)⟩
      · -- the seed is the mean of exactly `period` prices
        rename_i hfull
        refine ⟨rfl, fun hnone => absurd hnone (by simp), ?_⟩
        rintro e he
        have hcount : ((prices ++ [price]).map (·.val)).length = period := by
          rw [List.length_map]
          rw [List.length_append, List.length_singleton] at hfull ⊢
          omega
        have hmean := mean_mem hr (l := (prices ++ [price]).map (·.val)) (by simp)
          (List.forall_mem_map.mpr hall)
        rw [hcount] at hmean
        rw [← Option.some.inj he]
        exact hmean
  | some e =>
      refine ⟨h.period_eq, fun hnone => absurd hnone (by simp), ?_⟩
      rintro e' he
      rw [← Option.some.inj he]
      exact smooth_mem hr (h.mem e hema) (hall price (by simp))
        (EmaState.k_mem (h.period_eq.symm ▸ hperiod))

theorem EmaState.after_tracks (hperiod : 1 ≤ period) (hr : Convex ℚ r)
    (hall : ∀ p ∈ prices, p.val ∈ r) : (EmaState.after period prices).Tracks period prices r := by
  induction prices using List.reverseRecOn with
  | nil => exact ⟨rfl, fun _ => ⟨rfl, hperiod⟩, fun e he => absurd he (by simp [after, new])⟩
  | append_singleton prices price ih =>
      rw [after, foldl_snoc]
      exact (ih fun p hp => hall p (List.mem_append_left _ hp)).update hperiod hr hall

end Ema

/-! ## VWAP -/

section Vwap

variable {r : Set ℚ} {s : VwapState} {bars : List BarTick} {bar : BarTick}

/-- The typical price of a bar. -/
def typical (bar : BarTick) : ℚ := (bar.high.val + bar.low.val + bar.close.val) / 3

/-- The state after `bars`: their volume, and once there is some an average in `r`. -/
structure VwapState.Tracks (s : VwapState) (bars : List BarTick) (r : Set ℚ) : Prop where
  vol_eq : s.vol = ((bars.map (·.volume)).sum : ℕ)
  pv_zero : s.vol = 0 → s.pv = 0
  mem : s.vol ≠ 0 → s.pv / s.vol ∈ r

/-- One more bar; one that did not trade may lie anywhere. -/
theorem VwapState.Tracks.update (h : s.Tracks bars r) (hr : Convex ℚ r)
    (hbar : 0 < bar.volume → typical bar ∈ r) :
    (s.update bar.high.val bar.low.val bar.close.val bar.volume).1.Tracks (bars ++ [bar]) r := by
  have hvol : 0 ≤ s.vol := by
    rw [h.vol_eq]
    exact Nat.cast_nonneg _
  have hvolume : (0 : ℚ) ≤ bar.volume := Nat.cast_nonneg _
  refine ⟨?_, ?_, ?_⟩
  · rw [List.map_append, List.sum_append, Nat.cast_add, ← h.vol_eq]
    simp [VwapState.update]
  · intro hzero
    have hsum : s.vol + bar.volume = 0 := hzero
    obtain ⟨hvol0, hvolume0⟩ := (add_eq_zero_iff_of_nonneg hvol hvolume).mp hsum
    show s.pv + _ * (bar.volume : ℚ) = 0
    rw [h.pv_zero hvol0, hvolume0, mul_zero, add_zero]
  · intro hne
    refine weighted_mem hr hvol hvolume h.pv_zero h.mem (fun hw => hbar ?_) hne
    exact Nat.pos_of_ne_zero fun hzero => hw (by rw [hzero, Nat.cast_zero])

theorem VwapState.after_tracks (hr : Convex ℚ r)
    (hall : ∀ bar ∈ bars, 0 < bar.volume → typical bar ∈ r) :
    (VwapState.after bars).Tracks bars r := by
  induction bars using List.reverseRecOn with
  | nil => exact ⟨by simp [after, new], fun _ => rfl, fun hne => absurd rfl hne⟩
  | append_singleton bars bar ih =>
      rw [after, foldl_snoc]
      exact (ih fun b hb => hall b (List.mem_append_left _ hb)).update hr (hall bar (by simp))

/-- The typical price of a bar lies within it. -/
theorem typical_mem (hlow : bar.low.val ≤ bar.close.val) (hhigh : bar.close.val ≤ bar.high.val) :
    typical bar ∈ Set.Icc bar.low.val bar.high.val := by
  unfold typical
  constructor <;> linarith

end Vwap

/-! ## What comes out -/

theorem ema_within (period : ℕ) (hperiod : 1 ≤ period) (before : List Money) (price : Money)
    {v : ℚ} (hv : ((EmaState.after period before).update price.val).2 = some v) :
    Within (before ++ [price]) (before ++ [price]) v := by
  have hafter : ((EmaState.after period before).update price.val).1 =
      EmaState.after period (before ++ [price]) := by
    rw [EmaState.after, EmaState.after, foldl_snoc]
  rw [EmaState.update_snd, hafter, Option.map_eq_some_iff] at hv
  obtain ⟨e, he, rfl⟩ := hv
  refine within_q6 (by simp) (by simp) ?_
  intro lo hi hlo hhi
  exact (EmaState.after_tracks hperiod (convex_Icc lo hi)
    fun p hp => ⟨hlo p hp, hhi p hp⟩).mem e he

theorem vwap_within (before : List BarTick) (bar : BarTick)
    (hbars : ∀ b ∈ before ++ [bar], b.low.val ≤ b.close.val ∧ b.close.val ≤ b.high.val) {v : ℚ}
    (hv : ((VwapState.after before).update bar.high.val bar.low.val bar.close.val bar.volume).2 =
      some v) :
    Within ((traded (before ++ [bar])).map (·.low)) ((traded (before ++ [bar])).map (·.high))
      v := by
  have hafter : (VwapState.after before).update bar.high.val bar.low.val bar.close.val bar.volume =
      (VwapState.after (before ++ [bar]), (VwapState.after (before ++ [bar])).value) := by
    rw [VwapState.after, VwapState.after, foldl_snoc]
    rfl
  rw [hafter] at hv
  have hvol : (VwapState.after (before ++ [bar])).vol ≠ 0 := by
    intro hzero
    rw [VwapState.value, if_pos hzero] at hv
    exact absurd hv (by simp)
  rw [VwapState.value, if_neg hvol, Option.some.injEq] at hv
  have hin : ∀ lo hi : ℚ, (∀ p ∈ (traded (before ++ [bar])).map (·.low), lo ≤ p.val) →
      (∀ p ∈ (traded (before ++ [bar])).map (·.high), p.val ≤ hi) →
      (VwapState.after (before ++ [bar])).Tracks (before ++ [bar]) (Set.Icc lo hi) := by
    intro lo hi hlo hhi
    refine VwapState.after_tracks (convex_Icc lo hi) ?_
    intro b hb hvolume
    have htraded : b ∈ traded (before ++ [bar]) :=
      List.mem_filter.mpr ⟨hb, decide_eq_true hvolume⟩
    obtain ⟨hge, hle⟩ := typical_mem (hbars b hb).1 (hbars b hb).2
    exact ⟨(hlo b.low (List.mem_map_of_mem htraded)).trans hge,
      hle.trans (hhi b.high (List.mem_map_of_mem htraded))⟩
  have hne : traded (before ++ [bar]) ≠ [] := by
    intro hnil
    -- then the average would lie in the empty interval
    have hempty := (hin 1 0 (by simp [hnil]) (by simp [hnil])).mem hvol
    exact absurd (hempty.1.trans hempty.2) (by norm_num)
  rw [← hv]
  refine within_q6 (by simpa using hne) (by simpa using hne) ?_
  intro lo hi hlo hhi
  exact (hin lo hi hlo hhi).mem hvol

/--
**The averages stay in range.** At each price of four decimals, what an EMA puts out
lies between the lowest and the highest price so far; and at each bar whose close
lies within it, what a VWAP puts out lies between the lowest low and the highest high
of the bars so far that traded.
-/
theorem averages_within (period : ℕ) (hperiod : 1 ≤ period) (prices : List Money)
    (bars : List BarTick)
    (hbars : ∀ bar ∈ bars, bar.low.val ≤ bar.close.val ∧ bar.close.val ≤ bar.high.val) :
    EachAt (fun before price => ∀ v,
      ((EmaState.after period before).update price.val).2 = some v →
        Within (before ++ [price]) (before ++ [price]) v) prices ∧
    EachAt (fun before bar => ∀ v,
      ((VwapState.after before).update bar.high.val bar.low.val bar.close.val bar.volume).2 =
          some v →
        Within ((traded (before ++ [bar])).map (·.low)) ((traded (before ++ [bar])).map (·.high))
          v) bars := by
  constructor
  · intro before price _ _ v hv
    exact ema_within period hperiod before price hv
  · intro before bar after hsplit v hv
    refine vwap_within before bar ?_ hv
    intro b hb
    refine hbars b ?_
    rw [hsplit, List.append_cons]
    exact List.mem_append_left _ hb

/-- A bar that traded, and one that did not and lies below it. -/
def quietBar : List BarTick :=
  [⟨"AAA", openingBell, "1m", cents 510, cents 540, cents 500, cents 520, 300⟩,
    ⟨"AAA", openingBell + 60, "1m", cents 410, cents 420, cents 400, cents 410, 0⟩]

example : ((VwapState.after quietBar).value) = some (5200000 / 1000000) := by decide +kernel

theorem averages_within_quietBar :
    EachAt (fun before price => ∀ v,
      ((EmaState.after 2 before).update price.val).2 = some v →
        Within (before ++ [price]) (before ++ [price]) v) [cents 500, cents 520, cents 510] ∧
    EachAt (fun before bar => ∀ v,
      ((VwapState.after before).update bar.high.val bar.low.val bar.close.val bar.volume).2 =
          some v →
        Within ((traded (before ++ [bar])).map (·.low)) ((traded (before ++ [bar])).map (·.high))
          v) quietBar :=
  averages_within 2 (by decide) [cents 500, cents 520, cents 510] quietBar (by decide +kernel)

end RossBot
