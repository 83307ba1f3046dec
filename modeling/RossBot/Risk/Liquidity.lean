import RossBot.Risk.Approval

/-!
# The liquidity caps

The rest of `core/risk/sizing.py`: the caps from the displayed book and from the
average daily volume. A book that shows nothing has the cap `0`, and a cap of `0`
is none for `compute_size` (`liquidityCaps_hold_iff`).
-/

namespace RossBot

/-- The configuration keys of the two caps. -/
structure LiquidityConfig where
  depthCapLevels : ℤ
  liquidityCapFraction : ℚ
  advCapFraction : ℚ

/-- `DEFAULTS`, as far as the caps read them. -/
def LiquidityConfig.defaults : LiquidityConfig where
  depthCapLevels := 3
  liquidityCapFraction := 10 / 100
  advCapFraction := 1 / 100

/-- `xs[:k]`, for any integer `k`. -/
def sliceTo {α : Type} (xs : List α) (k : ℤ) : List α :=
  if 0 ≤ k then xs.take k.toNat else xs.take (xs.length + k).toNat

/-- `sum(size for _, size in depth_asks[:levels])`. -/
def totalDisplayed (depthAsks : List (ℚ × ℤ)) (liq : LiquidityConfig) : ℤ :=
  ((sliceTo depthAsks liq.depthCapLevels).map (·.2)).sum

/-- `compute_adv_liquidity_cap`. -/
def computeAdvLiquidityCap (advShares : ℤ) (liq : LiquidityConfig) : ℤ :=
  if advShares ≤ 0 then 0 else max 1 (scaleDown advShares liq.advCapFraction)

/-- `compute_depth_cap`. -/
def computeDepthCap (depthAsks : List (ℚ × ℤ)) (liq : LiquidityConfig) : ℤ :=
  if sliceTo depthAsks liq.depthCapLevels = [] then 0
  else if totalDisplayed depthAsks liq ≤ 0 then 0
  else max 1 (scaleDown (totalDisplayed depthAsks liq) liq.liquidityCapFraction)

/-- There is a cap when there is volume. -/
theorem computeAdvLiquidityCap_cases (advShares : ℤ) (liq : LiquidityConfig) :
    (0 < advShares ∧ 0 < computeAdvLiquidityCap advShares liq) ∨
      (¬ 0 < advShares ∧ computeAdvLiquidityCap advShares liq = 0) := by
  unfold computeAdvLiquidityCap
  split
  · rename_i hnone
    exact Or.inr ⟨not_lt.mpr hnone, rfl⟩
  · rename_i hsome
    exact Or.inl ⟨not_le.mp hsome, lt_max_of_lt_left one_pos⟩

/-- There is a cap when something is displayed. -/
theorem computeDepthCap_cases (depthAsks : List (ℚ × ℤ)) (liq : LiquidityConfig) :
    (0 < totalDisplayed depthAsks liq ∧ 0 < computeDepthCap depthAsks liq) ∨
      (¬ 0 < totalDisplayed depthAsks liq ∧ computeDepthCap depthAsks liq = 0) := by
  unfold computeDepthCap
  split
  · rename_i hempty
    refine Or.inr ⟨?_, rfl⟩
    rw [totalDisplayed, hempty]
    exact lt_irrefl 0
  · split
    · rename_i hnone
      exact Or.inr ⟨not_lt.mpr hnone, rfl⟩
    · rename_i hsome
      exact Or.inl ⟨not_le.mp hsome, lt_max_of_lt_left one_pos⟩

section Caps

variable {signal : EntrySignal} {state : RiskState} {cfg : Config} {marketState : MarketState}
  {dayOfWeek : ℕ}

/-- Nothing is left of the order when the liquidity step comes, or the ceiling leaves nothing. -/
def EmptyOrder (signal : EntrySignal) (state : RiskState) (cfg : Config)
    (marketState : MarketState) (dayOfWeek : ℕ) : Prop :=
  cfg.maxSize ≤ 0 ∨ ∀ raw, rawSize signal state cfg = some raw →
    sizedBeforeLiquidity raw signal state cfg marketState dayOfWeek ≤ 0

/-- A cap that is positive holds. -/
theorem computeSize_le_cap {cap : ℤ} (hcap : 0 < cap) :
    computeSize signal state cfg marketState dayOfWeek (some cap) ≤ cap := by
  rcases (computeSize_nonneg signal state cfg marketState dayOfWeek (some cap)).eq_or_lt
    with hzero | hpos
  · exact hzero ▸ hcap.le
  · obtain ⟨raw, hraw⟩ := exists_rawSize hpos
    calc computeSize signal state cfg marketState dayOfWeek (some cap)
        ≤ liquidityCap (sizedBeforeLiquidity raw signal state cfg marketState dayOfWeek)
            (some cap) := (computeSize_le_last hraw hpos).1
      _ = min (sizedBeforeLiquidity raw signal state cfg marketState dayOfWeek) cap :=
          if_pos hcap
      _ ≤ cap := min_le_right ..

/-- A cap of `0` holds of an empty order only. -/
theorem computeSize_cap_zero : computeSize signal state cfg marketState dayOfWeek (some 0) ≤ 0 ↔
    EmptyOrder signal state cfg marketState dayOfWeek := by
  unfold EmptyOrder
  cases hraw : rawSize signal state cfg with
  | none =>
      have hzero : computeSize signal state cfg marketState dayOfWeek (some 0) = 0 := by
        rw [computeSize, hraw]
      exact iff_of_true hzero.le (Or.inr (by simp))
  | some raw =>
      have hignored (size : ℤ) : liquidityCap size (some 0) = size := by simp [liquidityCap]
      rw [computeSize_of_rawSize hraw, hignored, max_le_iff, min_le_iff]
      constructor
      · rintro ⟨_, h | h⟩
        · exact Or.inr fun _ hr => Option.some.inj hr ▸ h
        · exact Or.inl h
      · rintro (h | h)
        · exact ⟨le_refl 0, Or.inr h⟩
        · exact ⟨le_refl 0, Or.inl (h raw rfl)⟩

end Caps

/--
**When the size stays within the cap**: for the cap of a book, exactly when the
book displays something (or the order is empty anyway); for the cap of the daily
volume, exactly when there is volume.
-/
theorem liquidityCaps_hold_iff (liq : LiquidityConfig) (depthAsks : List (ℚ × ℤ)) (advShares : ℤ)
    (signal : EntrySignal) (state : RiskState) (cfg : Config) (marketState : MarketState)
    (dayOfWeek : ℕ) :
    (computeSize signal state cfg marketState dayOfWeek (some (computeDepthCap depthAsks liq))
        ≤ computeDepthCap depthAsks liq ↔
      0 < totalDisplayed depthAsks liq ∨ EmptyOrder signal state cfg marketState dayOfWeek) ∧
    (computeSize signal state cfg marketState dayOfWeek
        (some (computeAdvLiquidityCap advShares liq)) ≤ computeAdvLiquidityCap advShares liq ↔
      0 < advShares ∨ EmptyOrder signal state cfg marketState dayOfWeek) := by
  constructor
  · rcases computeDepthCap_cases depthAsks liq with ⟨hshown, hcap⟩ | ⟨hnone, hcap⟩
    · exact iff_of_true (computeSize_le_cap hcap) (Or.inl hshown)
    · rw [hcap, computeSize_cap_zero, or_iff_right hnone]
  · rcases computeAdvLiquidityCap_cases advShares liq with ⟨hvolume, hcap⟩ | ⟨hnone, hcap⟩
    · exact iff_of_true (computeSize_le_cap hcap) (Or.inl hvolume)
    · rw [hcap, computeSize_cap_zero, or_iff_right hnone]

/-- On an empty book, whose cap is `0`, the full order goes out. -/
theorem empty_book_uncapped :
    computeDepthCap [] LiquidityConfig.defaults = 0 ∧
      computeSize cleanSignal .fresh Config.defaults .hot 2
        (some (computeDepthCap [] LiquidityConfig.defaults)) = 2500 ∧
      ¬ ∀ liq depthAsks signal state cfg marketState dayOfWeek,
        computeSize signal state cfg marketState dayOfWeek (some (computeDepthCap depthAsks liq))
          ≤ computeDepthCap depthAsks liq := by
  have hcap : computeDepthCap [] LiquidityConfig.defaults = 0 := by decide +kernel
  have hsize : computeSize cleanSignal .fresh Config.defaults .hot 2
      (some (computeDepthCap [] LiquidityConfig.defaults)) = 2500 := by decide +kernel
  refine ⟨hcap, hsize, fun h => ?_⟩
  have hle := h LiquidityConfig.defaults [] cleanSignal .fresh Config.defaults .hot 2
  rw [hsize, hcap] at hle
  exact absurd hle (by decide)

end RossBot
