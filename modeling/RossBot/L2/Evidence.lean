import RossBot.L2.Provider

/-!
# What the bullish signals stand for

When `detect_absorb_break` and `detect_real_floor` say yes, in terms of the
snapshots (`detectAbsorbBreak_iff`, `detectRealFloor_iff`), and when that is the
evidence their signals promise: that the large seller was broken, that the floor
was there for `FLOOR_MIN_STABLE_SNAPS` snapshots.
-/

namespace RossBot

open Lib

variable {cfg : L2Config} {snaps : List DepthSnapshot} {agg : TapeAggregate}

/-- Some size reaches `n` when the largest does. -/
theorem le_maxSize {sizes : List ℤ} {n : ℤ} (hne : sizes ≠ []) :
    n ≤ maxSize sizes ↔ ∃ size ∈ sizes, n ≤ size := by
  obtain ⟨m, hm⟩ := Option.isSome_iff_exists.mp (List.isSome_max?_of_ne_nil hne)
  obtain ⟨hmem, hle⟩ := List.max?_eq_some_iff.mp hm
  rw [maxSize, hm, Option.getD_some]
  constructor
  · intro h
    exact ⟨m, hmem, h⟩
  · rintro ⟨size, hsize, h⟩
    exact h.trans (hle size hsize)

/-! ## Absorbed, then broken -/

/-- The early snapshots: the first half of the history. -/
def earlySnaps (snaps : List DepthSnapshot) : List DepthSnapshot := snaps.take (snaps.length / 2)

/-- A snapshot with a large seller at the ask. -/
def LargeAsk (cfg : L2Config) (s : DepthSnapshot) : Prop :=
  cfg.absorbAskMinShares ≤ s.bestAskSize

/-- The ask is now `ABSORB_BREAK_MIN_CENTS` above that of the snapshot. -/
def BrokenThrough (cfg : L2Config) (snaps : List DepthSnapshot) (s : DepthSnapshot) : Prop :=
  ∃ current ∈ snaps.getLast?,
    s.bestAsk.val + (cfg.absorbBreakMinCents : ℚ) / 100 ≤ current.bestAsk.val

theorem earlySnaps_ne_nil (h : 3 ≤ snaps.length) : earlySnaps snaps ≠ [] := by
  rw [earlySnaps, ← List.length_pos_iff, List.length_take]
  omega

/-- The lowest early ask is broken through when some early ask is. -/
theorem lowest_early_ask (h : 3 ≤ snaps.length) :
    ∃ low, ((earlySnaps snaps).map (·.bestAsk.val)).min? = some low ∧ ∀ breakCents price : ℚ,
      breakCents ≤ (price - low) * 100 ↔
        ∃ s ∈ earlySnaps snaps, s.bestAsk.val + breakCents / 100 ≤ price := by
  have hne : (earlySnaps snaps).map (·.bestAsk.val) ≠ [] := by
    simpa using earlySnaps_ne_nil h
  -- the lowest of the early asks is one of them
  obtain ⟨low, hlow⟩ := Option.isSome_iff_exists.mp (List.isSome_min?_of_ne_nil hne)
  obtain ⟨hmem, hle⟩ := List.min?_eq_some_iff.mp hlow
  obtain ⟨early, hearly, rfl⟩ := List.mem_map.mp hmem
  refine ⟨_, hlow, fun breakCents price => ?_⟩
  constructor
  · intro hbreak
    exact ⟨early, hearly, by linarith⟩
  · rintro ⟨s, hs, hbreak⟩
    have hlowest : early.bestAsk.val ≤ s.bestAsk.val := hle _ (List.mem_map_of_mem hs)
    linarith

/-- The newest snapshot of a history that has one. -/
theorem brokenThrough_iff {current : DepthSnapshot} (h : snaps.getLast? = some current)
    (s : DepthSnapshot) : BrokenThrough cfg snaps s ↔
      s.bestAsk.val + (cfg.absorbBreakMinCents : ℚ) / 100 ≤ current.bestAsk.val := by
  simp [BrokenThrough, h]

/--
`detect_absorb_break` says yes when some early ask was large, the tape is heavy
and some early ask, maybe another, is broken through.
-/
theorem detectAbsorbBreak_iff : detectAbsorbBreak cfg snaps agg = true ↔
    3 ≤ snaps.length ∧ (∃ s ∈ earlySnaps snaps, LargeAsk cfg s) ∧
      cfg.absorbTapeMinShares ≤ agg.totalShares ∧
      ∃ s ∈ earlySnaps snaps, BrokenThrough cfg snaps s := by
  -- fewer than three snapshots have no early ones
  by_cases hlen : snaps.length < 3
  · rw [detectAbsorbBreak, if_pos hlen]
    exact iff_of_false (by simp) (fun h => absurd h.1 (by omega))
  · have hthree : 3 ≤ snaps.length := not_lt.mp hlen
    have hne : (earlySnaps snaps).map (·.bestAskSize) ≠ [] := by
      simpa using earlySnaps_ne_nil hthree
    have hlarge : (∃ s ∈ earlySnaps snaps, LargeAsk cfg s) ↔
        cfg.absorbAskMinShares ≤ maxSize ((earlySnaps snaps).map (·.bestAskSize)) := by
      rw [le_maxSize hne]
      simp [LargeAsk]
    obtain ⟨low, hlow, hbroken⟩ := lowest_early_ask hthree
    have hsnaps : snaps ≠ [] := List.ne_nil_of_length_pos (by omega)
    have hcurrent := List.getLast?_eq_some_getLast hsnaps
    simp only [brokenThrough_iff hcurrent]
    rw [detectAbsorbBreak, if_neg hlen, hlarge, ← hbroken]
    show (if maxSize ((earlySnaps snaps).map (·.bestAskSize)) < _ then _ else _) = true ↔ _
    -- the sizes, then the tape, then the price
    split
    · rename_i hsmall
      exact iff_of_false (by simp) (fun h => absurd h.2.1 (not_le.mpr hsmall))
    · rename_i hsize
      split
      · rename_i hthin
        exact iff_of_false (by simp) (fun h => absurd h.2.2.1 (not_le.mpr hthin))
      · rename_i htape
        rw [earlySnaps] at hlow
        rw [hlow, hcurrent, decide_eq_true_eq]
        constructor
        · -- what is left of the code is the comparison of prices
          intro h
          exact ⟨hthree, not_lt.mp hsize, not_lt.mp htape, h⟩
        · rintro ⟨_, _, _, h⟩
          exact h

/-- The signal's promise: a large early seller is broken through. -/
def AbsorbMeansBroken (cfg : L2Config) (snaps : List DepthSnapshot) (agg : TapeAggregate) : Prop :=
  detectAbsorbBreak cfg snaps agg = true →
    ∃ s ∈ earlySnaps snaps, LargeAsk cfg s ∧ BrokenThrough cfg snaps s

/-- Large sellers and a break, but never in one early snapshot. -/
structure BrokenElsewhere (cfg : L2Config) (snaps : List DepthSnapshot)
    (agg : TapeAggregate) : Prop where
  /-- There is a history to look back on. -/
  history : 3 ≤ snaps.length
  /-- The tape is heavy. -/
  heavy : cfg.absorbTapeMinShares ≤ agg.totalShares
  /-- A large seller stood at an early ask. -/
  large : ∃ s ∈ earlySnaps snaps, LargeAsk cfg s
  /-- The ask is now above another early one. -/
  broken : ∃ s ∈ earlySnaps snaps, ¬ LargeAsk cfg s ∧ BrokenThrough cfg snaps s
  /-- It is above no large seller's. -/
  stands : ∀ s ∈ earlySnaps snaps, LargeAsk cfg s → ¬ BrokenThrough cfg snaps s

/--
**The promise fails** exactly when every large early seller still stands and the
ask that was broken through is that of a smaller one: the detector takes the
largest size and the lowest price of the early snapshots apart from each other.
-/
theorem absorbMeansBroken_iff (cfg : L2Config) (snaps : List DepthSnapshot)
    (agg : TapeAggregate) :
    AbsorbMeansBroken cfg snaps agg ↔ ¬ BrokenElsewhere cfg snaps agg := by
  rw [AbsorbMeansBroken, detectAbsorbBreak_iff]
  constructor
  · intro hpromise helsewhere
    obtain ⟨t, ht, _, htbroken⟩ := helsewhere.broken
    obtain ⟨s, hs, hlarge, hbroken⟩ :=
      hpromise ⟨helsewhere.history, helsewhere.large, helsewhere.heavy, t, ht, htbroken⟩
    exact helsewhere.stands s hs hlarge hbroken
  · rintro hnot ⟨hlen, hlarge, htape, t, ht, hbroken⟩
    by_contra hnone
    -- no large seller is broken, so the ask that is broken is a smaller one's
    have hstands : ∀ s ∈ earlySnaps snaps, LargeAsk cfg s → ¬ BrokenThrough cfg snaps s :=
      fun s hs hsize hthrough => hnone ⟨s, hs, hsize, hthrough⟩
    have hsmall : ¬ LargeAsk cfg t := fun hsize => hstands t ht hsize hbroken
    exact hnot ⟨hlen, htape, hlarge, ⟨t, ht, hsmall, hbroken⟩, hstands⟩

/-- A book with a small bid. -/
def offered (seconds : ℤ) (askCents shares : ℤ) : DepthTick :=
  ⟨"TEST", openingBell + seconds, [(cents 490, 500)], [(cents askCents, shares)]⟩

/-- A small seller at 5.00 is bought out; the large one at 5.20 stands when the ask is 5.10. -/
def sellerStands : List DepthTick :=
  [offered 0 500 300, offered 1 520 20000, offered 2 520 18000, offered 3 508 400,
    offered 4 510 400, offered 5 510 400]

/-- 3000 shares are bought meanwhile. -/
def heavyBuy : TapeTick := ⟨"TEST", openingBell + 4, cents 508, 3000, some .buy⟩

/-- The signal calls the seller broken, ten cents below it. -/
theorem absorbBreak_below_seller :
    ((l2After L2Config.defaults (.tape heavyBuy :: sellerStands.map .depth)).evaluate
        L2Config.defaults "TEST").2 = .absorbBreak
      ∧ ¬ ∀ cfg snaps agg, AbsorbMeansBroken cfg snaps agg := by
  refine ⟨by decide +kernel, fun h => ?_⟩
  let agg := aggregateOf 30 [⟨heavyBuy.ts, heavyBuy.price, heavyBuy.size, heavyBuy.side⟩]
  obtain ⟨s, hs, hlarge, hbroken⟩ :=
    h L2Config.defaults (sellerStands.filterMap DepthTick.snapshot) agg (by decide +kernel)
  have hnone : ∀ s ∈ earlySnaps (sellerStands.filterMap DepthTick.snapshot),
      ∀ current ∈ (sellerStands.filterMap DepthTick.snapshot).getLast?,
        5000 ≤ s.bestAskSize → current.bestAsk.val < s.bestAsk.val + 5 / 100 := by decide +kernel
  obtain ⟨current, hcurrent, hle⟩ := hbroken
  exact absurd hle (not_le.mpr (hnone s hs current hcurrent hlarge))

/-! ## A floor -/

/-- The latest `FLOOR_MIN_STABLE_SNAPS` snapshots. -/
def recentSnaps (cfg : L2Config) (snaps : List DepthSnapshot) : List DepthSnapshot :=
  snaps.rtake cfg.floorMinStableSnaps.toNat

/-- A snapshot with at least half the bid of a floor, in whole shares. -/
def HalfFloor (cfg : L2Config) (s : DepthSnapshot) : Prop :=
  cfg.floorBidMinShares / 2 ≤ s.bestBidSize

/-- The newest snapshot has the bid of a floor. -/
def FloorNow (cfg : L2Config) (snaps : List DepthSnapshot) : Prop :=
  ∃ current ∈ snaps.getLast?, cfg.floorBidMinShares ≤ current.bestBidSize

theorem lookback_eq_rtake {α : Type} {xs : List α} {k : ℤ} (hk : 1 ≤ k) :
    lookback xs k = xs.rtake k.toNat := by
  unfold lookback
  rw [List.rtake]
  split
  · exact if_pos (by omega)
  · rw [Nat.sub_eq_zero_of_le (by omega), List.drop_zero]

/-- The count of stable snapshots falls short when one of the latest few is not stable. -/
theorem stableCount_lt_iff : ((recentSnaps cfg snaps).countP fun s =>
      decide (cfg.floorBidMinShares / 2 ≤ s.bestBidSize) : ℤ) <
    min cfg.floorMinStableSnaps snaps.length ↔ ¬ ∀ s ∈ recentSnaps cfg snaps, HalfFloor cfg s := by
  have hlen := length_rtake cfg.floorMinStableSnaps.toNat snaps
  have hle := List.countP_le_length
    (p := fun s : DepthSnapshot => decide (cfg.floorBidMinShares / 2 ≤ s.bestBidSize))
    (l := recentSnaps cfg snaps)
  -- all of them hold half the floor exactly if the count is their number
  have hall : (∀ s ∈ recentSnaps cfg snaps, HalfFloor cfg s) ↔
      ((recentSnaps cfg snaps).countP fun s =>
        decide (cfg.floorBidMinShares / 2 ≤ s.bestBidSize)) =
          (recentSnaps cfg snaps).length := by
    rw [List.countP_eq_length]
    simp [HalfFloor]
  rw [hall]
  rw [recentSnaps] at hle ⊢
  omega

/--
`detect_real_floor` says yes when the newest bid is large, every snapshot of the
latest few has half of it and the tape confirms. It does not ask how many there are.
-/
theorem detectRealFloor_iff (hn : 1 ≤ cfg.floorMinStableSnaps) :
    detectRealFloor cfg snaps agg = true ↔
      FloorNow cfg snaps ∧ (∀ s ∈ recentSnaps cfg snaps, HalfFloor cfg s) ∧
        cfg.floorMinPrints ≤ agg.totalShares := by
  unfold detectRealFloor
  cases hlast : snaps.getLast? with
  -- without a snapshot there is no current bid
  | none => simp [FloorNow, hlast]
  | some current =>
      have hnow : FloorNow cfg snaps ↔ cfg.floorBidMinShares ≤ current.bestBidSize := by
        simp [FloorNow, hlast]
      rw [hnow, lookback_eq_rtake hn]
      show (if _ then _ else if ((recentSnaps cfg snaps).countP _ : ℤ) < _ then _ else _) = true ↔ _
      split
      · rename_i hsmall
        exact iff_of_false (by simp) (fun h => absurd h.1 (not_le.mpr hsmall))
      · rename_i hlarge
        split
        · rename_i hunstable
          exact iff_of_false (by simp) (fun h => absurd h.2.1 (stableCount_lt_iff.mp hunstable))
        · rename_i hhalf
          rw [decide_eq_true_eq]
          constructor
          · intro htape
            exact ⟨not_lt.mp hlarge, not_not.mp fun h => hhalf (stableCount_lt_iff.mpr h), htape⟩
          · rintro ⟨_, _, htape⟩
            exact htape

/-- The signal's promise: a floor in as many snapshots as are asked for, and prints on it. -/
def FloorProven (cfg : L2Config) (snaps : List DepthSnapshot) (agg : TapeAggregate) : Prop :=
  detectRealFloor cfg snaps agg = true →
    cfg.floorMinStableSnaps ≤ snaps.length ∧ (∀ s ∈ recentSnaps cfg snaps, HalfFloor cfg s) ∧
      FloorNow cfg snaps ∧ cfg.floorMinPrints ≤ agg.totalShares

/--
**The promise holds** when there are as many snapshots as are asked for, or the
floor fails on the few there are. It fails on every shorter history that shows one.
-/
theorem floorProven_iff (cfg : L2Config) (snaps : List DepthSnapshot) (agg : TapeAggregate)
    (hn : 1 ≤ cfg.floorMinStableSnaps) : FloorProven cfg snaps agg ↔
      cfg.floorMinStableSnaps ≤ snaps.length ∨ ¬ FloorNow cfg snaps ∨
      (∃ s ∈ snaps, ¬ HalfFloor cfg s) ∨ agg.totalShares < cfg.floorMinPrints := by
  rw [FloorProven, detectRealFloor_iff hn]
  by_cases hlen : cfg.floorMinStableSnaps ≤ snaps.length
  · refine iff_of_true ?_ (Or.inl hlen)
    rintro ⟨hnow, hhalf, htape⟩
    exact ⟨hlen, hhalf, hnow, htape⟩
  · -- the few there are are all recent
    have hrecent : recentSnaps cfg snaps = snaps := by
      rw [recentSnaps, List.rtake, Nat.sub_eq_zero_of_le (by omega), List.drop_zero]
    rw [hrecent]
    constructor
    · intro h
      by_contra hnone
      simp only [not_or, not_lt, not_exists, not_and, not_not] at hnone
      obtain ⟨_, hnow, hhalf, htape⟩ := hnone
      exact hlen (h ⟨hnow, hhalf, htape⟩).1
    · rintro (h | h | ⟨s, hs, h⟩ | h) ⟨hnow, hhalf, htape⟩
      · exact absurd h hlen
      · exact absurd hnow h
      · exact absurd (hhalf s hs) h
      · exact absurd htape (not_le.mpr h)

/-- 200 shares are sold into a bid. -/
def soldInto : TapePrint := ⟨openingBell, cents 500, 200, some .sell⟩

/-- A bid of 10000 shares in a single snapshot, and 200 shares sold into it. -/
def flashBid : List L2Event := [.tape ⟨"TEST", openingBell, cents 500, 200, some .sell⟩,
  .depth ⟨"TEST", openingBell, [(cents 500, 10000)], [(cents 501, 500)]⟩]

theorem floorProven_two_snapshots :
    detectRealFloor L2Config.defaults (snapsSince "TEST" [quietBook 0, quietBook 1])
        (aggregateOf 30 [soldInto]) = true ∧
      FloorProven L2Config.defaults (snapsSince "TEST" [quietBook 0, quietBook 1])
        (aggregateOf 30 [soldInto]) := by
  refine ⟨by decide +kernel, (floorProven_iff _ _ _ (by decide)).mpr (Or.inl ?_)⟩
  decide +kernel

/-- A flash bid is support, with the shipped settings, which ask for two snapshots. -/
theorem support_from_flash_bid :
    ((l2After L2Config.defaults flashBid).evaluate L2Config.defaults "TEST").2 = .support
      ∧ ¬ ∀ cfg snaps agg, 1 ≤ cfg.floorMinStableSnaps → FloorProven cfg snaps agg := by
  refine ⟨by decide +kernel, fun h => ?_⟩
  have hfloor := h L2Config.defaults (snapsSince "TEST" flashBid)
    (aggregateOf 30 [soldInto]) (by decide) (by decide +kernel)
  exact absurd hfloor.1 (by decide +kernel)

end RossBot
