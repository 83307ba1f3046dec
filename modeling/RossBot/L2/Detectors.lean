import Mathlib.Data.List.DropRight
import RossBot.Market

/-!
# Depth, tape and the L2 detectors

`adapters/l2/models.py`, `depth_book.py`, `tape_window.py` and `detectors.py`. The
ring buffer of depth snapshots and the rolling window of prints carry the checks
of their constructors as fields. Instants and the fraction `0.20` are exact here
where the source has floats.
-/

namespace RossBot

/-- The configuration keys the L2 engine reads. -/
structure L2Config where
  l2WindowSecs : ℤ
  l2DepthSnapshots : ℤ
  spoofBidMinShares : ℤ
  spoofDecaySecs : ℤ
  spoofMinPrints : ℤ
  icebergAbsorbedMin : ℤ
  icebergAdvanceMaxCents : ℤ
  icebergDisplayMax : ℤ
  floorBidMinShares : ℤ
  floorMinPrints : ℤ
  floorMinStableSnaps : ℤ
  absorbAskMinShares : ℤ
  absorbTapeMinShares : ℤ
  absorbBreakMinCents : ℤ

/-- `DEFAULTS`, as far as the L2 engine reads them. -/
def L2Config.defaults : L2Config where
  l2WindowSecs := 30
  l2DepthSnapshots := 20
  spoofBidMinShares := 20000
  spoofDecaySecs := 5
  spoofMinPrints := 100
  icebergAbsorbedMin := 5000
  icebergAdvanceMaxCents := 2
  icebergDisplayMax := 600
  floorBidMinShares := 10000
  floorMinPrints := 200
  floorMinStableSnaps := 2
  absorbAskMinShares := 5000
  absorbTapeMinShares := 3000
  absorbBreakMinCents := 5

/-! ## Depth -/

/-- `DepthTick`. -/
structure DepthTick where
  symbol : Symbol
  ts : Time
  bids : List (Money × ℤ)
  asks : List (Money × ℤ)

/-- `DepthSnapshot`. -/
structure DepthSnapshot where
  ts : Time
  bestBid : Money
  bestBidSize : ℤ
  bestAsk : Money
  bestAskSize : ℤ
  totalBidShares : ℤ
  totalAskShares : ℤ

/-- The snapshot of a tick, if the book has both sides. -/
def DepthTick.snapshot (tick : DepthTick) : Option DepthSnapshot :=
  match tick.bids, tick.asks with
  | bid :: _, ask :: _ => some
      { ts := tick.ts
        bestBid := bid.1
        bestBidSize := bid.2
        bestAsk := ask.1
        bestAskSize := ask.2
        totalBidShares := (tick.bids.map (·.2)).sum
        totalAskShares := (tick.asks.map (·.2)).sum }
  | _, _ => none

theorem DepthTick.snapshot_ts {tick : DepthTick} {snap : DepthSnapshot}
    (h : tick.snapshot = some snap) : snap.ts = tick.ts := by
  unfold DepthTick.snapshot at h
  split at h
  · rw [← Option.some.inj h]
  · exact absurd h (by simp)

/-- `DepthBook`: at most `maxSnapshots` snapshots, oldest first. -/
structure DepthBook where
  maxSnapshots : ℕ
  buf : List DepthSnapshot
  /-- The check of the constructor. -/
  two_le : 2 ≤ maxSnapshots
  bounded : buf.length ≤ maxSnapshots

/-- `DepthBook(max_snapshots)`; `none` is its `ValueError`. -/
def DepthBook.new (maxSnapshots : ℤ) : Option DepthBook :=
  if h : 2 ≤ maxSnapshots then some ⟨maxSnapshots.toNat, [], by omega, by simp⟩ else none

/-- `DepthBook.add`: an incomplete tick is skipped, a full buffer loses its oldest snapshot. -/
def DepthBook.add (book : DepthBook) (tick : DepthTick) : DepthBook :=
  match tick.snapshot with
  | none => book
  | some snap =>
      { book with
        buf := (book.buf ++ [snap]).rtake book.maxSnapshots
        bounded := by rw [List.rtake, List.length_drop]; omega }

/-! ## Tape -/

/-- `TapeTick`. -/
structure TapeTick where
  symbol : Symbol
  ts : Time
  price : Money
  size : ℤ
  side : Option Side

/-- `_Print`. -/
structure TapePrint where
  ts : Time
  price : Money
  size : ℤ
  side : Option Side

/-- `TapeAggregate`. -/
structure TapeAggregate where
  windowSecs : ℤ
  totalShares : ℤ
  buyShares : ℤ
  sellShares : ℤ
  priceFirst : ℚ
  priceLast : ℚ
  prints : ℕ

/-- `price_advance_cents`. -/
def TapeAggregate.priceAdvanceCents (agg : TapeAggregate) : ℚ :=
  (agg.priceLast - agg.priceFirst) * 100

/-- `is_empty`. -/
def TapeAggregate.isEmpty (agg : TapeAggregate) : Bool :=
  decide (agg.totalShares = 0) && decide (agg.prints = 0)

/-- `TapeAccumulator`: the prints of the window, oldest first. -/
structure TapeAccumulator where
  windowSecs : ℤ
  buf : List TapePrint
  lastInferredSide : Option Side
  /-- The check of the constructor. -/
  positive : 0 < windowSecs

/-- `TapeAccumulator(window_secs)`; `none` is its `ValueError`. -/
def TapeAccumulator.new (windowSecs : ℤ) : Option TapeAccumulator :=
  if h : 0 < windowSecs then some ⟨windowSecs, [], none, h⟩ else none

/-- `_infer_side`: the tick test. -/
def TapeAccumulator.inferSide (tape : TapeAccumulator) (price : Money) : Option Side :=
  match tape.buf.getLast? with
  | none => none
  | some prev =>
      if prev.price.val < price.val then some .buy
      else if price.val < prev.price.val then some .sell
      else tape.lastInferredSide

/-- `TapeAccumulator.add`. -/
def TapeAccumulator.add (tape : TapeAccumulator) (tick : TapeTick) : TapeAccumulator :=
  let side := match tick.side with
    | some side => some side
    | none => tape.inferSide tick.price
  { tape with
    buf := tape.buf ++ [⟨tick.ts, tick.price, tick.size, side⟩]
    lastInferredSide := side }

/-- `_evict`: the prints before the window fall out at the front. -/
def TapeAccumulator.evict (tape : TapeAccumulator) (now : Time) : TapeAccumulator :=
  { tape with buf := tape.buf.dropWhile fun p => decide (p.ts < now - tape.windowSecs) }

/-- The shares printed on one side. -/
def sharesOn (side : Side) (prints : List TapePrint) : ℤ :=
  ((prints.filter fun p => p.side = some side).map (·.size)).sum

/-- The statistics of some prints. -/
def aggregateOf (windowSecs : ℤ) (prints : List TapePrint) : TapeAggregate where
  windowSecs := windowSecs
  totalShares := (prints.map (·.size)).sum
  buyShares := sharesOn .buy prints
  sellShares := sharesOn .sell prints
  priceFirst := match prints.head? with
    | none => 0
    | some p => p.price.val
  priceLast := match prints.getLast? with
    | none => 0
    | some p => p.price.val
  prints := prints.length

/-- `TapeAccumulator.aggregate`: without `now`, the latest print is it. -/
def TapeAccumulator.aggregate (tape : TapeAccumulator) (now : Option Time) :
    TapeAccumulator × TapeAggregate :=
  let now := match now with
    | some t => some t
    | none => tape.buf.getLast?.map (·.ts)
  let tape := match now with
    | some t => tape.evict t
    | none => tape
  (tape, aggregateOf tape.windowSecs tape.buf)

/-! ## Detectors -/

/-- `max` of a non-empty sequence of sizes. -/
def maxSize (sizes : List ℤ) : ℤ := sizes.max?.getD 0

/-- `xs[-k:] if len(xs) >= k else xs`, for any integer `k`. -/
def lookback {α : Type} (xs : List α) (k : ℤ) : List α :=
  if k ≤ (xs.length : ℤ) then
    if 0 < k then xs.drop (xs.length - k.toNat) else xs.drop (-k).toNat
  else xs

/-- `detect_spoof`. -/
def detectSpoof (cfg : L2Config) (snaps : List DepthSnapshot) (agg : TapeAggregate) : Bool :=
  if snaps.length < 2 then false
  else
    let peakBidSize := maxSize (snaps.map (·.bestBidSize))
    if peakBidSize < cfg.spoofBidMinShares then false
    else
      match snaps.getLast?, snaps.find? fun s => decide (cfg.spoofBidMinShares ≤ s.bestBidSize) with
      | some current, some firstLarge =>
          if (peakBidSize : ℚ) * (20 / 100) < current.bestBidSize then false
          else if (cfg.spoofDecaySecs : ℚ) < current.ts - firstLarge.ts then false
          else decide (agg.totalShares < cfg.spoofMinPrints)
      | _, _ => false

/-- `detect_iceberg`. -/
def detectIceberg (cfg : L2Config) (agg : TapeAggregate) (snap : DepthSnapshot) : Bool :=
  if agg.isEmpty then false
  else if agg.totalShares < cfg.icebergAbsorbedMin then false
  else if cfg.icebergDisplayMax < snap.bestAskSize then false
  else decide (|agg.priceAdvanceCents| ≤ cfg.icebergAdvanceMaxCents)

/-- `detect_real_floor`. -/
def detectRealFloor (cfg : L2Config) (snaps : List DepthSnapshot) (agg : TapeAggregate) : Bool :=
  match snaps.getLast? with
  | none => false
  | some current =>
      if current.bestBidSize < cfg.floorBidMinShares then false
      else
        let recent := lookback snaps cfg.floorMinStableSnaps
        let stableCount := recent.countP fun s => decide (cfg.floorBidMinShares / 2 ≤ s.bestBidSize)
        if (stableCount : ℤ) < min cfg.floorMinStableSnaps snaps.length then false
        else decide (cfg.floorMinPrints ≤ agg.totalShares)

/-- `detect_absorb_break`. -/
def detectAbsorbBreak (cfg : L2Config) (snaps : List DepthSnapshot) (agg : TapeAggregate) : Bool :=
  if snaps.length < 3 then false
  else
    let earlySnaps := snaps.take (snaps.length / 2)
    if maxSize (earlySnaps.map (·.bestAskSize)) < cfg.absorbAskMinShares then false
    else if agg.totalShares < cfg.absorbTapeMinShares then false
    else
      match (earlySnaps.map (·.bestAsk.val)).min?, snaps.getLast? with
      | some earlyAskPrice, some current =>
          decide ((cfg.absorbBreakMinCents : ℚ) ≤ (current.bestAsk.val - earlyAskPrice) * 100)
      | _, _ => false

end RossBot
