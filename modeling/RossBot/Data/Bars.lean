import RossBot.L2.Detectors
import RossBot.Lib.Groups

/-!
# Bars from the tape

`core/data/bars.py`. A builder folds the prints of one symbol into bars of one
timeframe; a bar is put out once a print opens a later bucket, or by `flush`. A
print whose bucket lies before the current one changes nothing. What comes out
groups the prints that were on time by their bucket (`buildBars_groups`).

Timestamps are tz-aware and exact: the rounding of `datetime.timestamp()` to a
float is not modelled.
-/

namespace RossBot

/-- `timeframe_seconds`; `none` is its `ValueError`. -/
def timeframeSeconds (timeframe : String) : Option ℤ :=
  if timeframe = "10s" then some 10 else if timeframe = "1m" then some 60 else none

/-- The bucket of `secs` seconds an instant falls in, aligned to the epoch. -/
def bucketOf (secs : ℤ) (ts : Time) : Time :=
  let epoch := roundDown ts
  ((epoch - epoch % secs : ℤ) : ℚ)

/-- `bucket_start`. -/
def bucketStart (ts : Time) (timeframe : String) : Option Time :=
  (timeframeSeconds timeframe).map fun secs => bucketOf secs ts

/-- The four prices of a bar. They are set together. -/
structure Ohlc where
  openPrice : Money
  high : Money
  low : Money
  close : Money
  low_le_open : low.val ≤ openPrice.val
  low_le_close : low.val ≤ close.val
  open_le_high : openPrice.val ≤ high.val
  close_le_high : close.val ≤ high.val

/-- The first print of a bar. -/
def Ohlc.opened (price : Money) : Ohlc where
  openPrice := price
  high := price
  low := price
  close := price
  low_le_open := le_refl _
  low_le_close := le_refl _
  open_le_high := le_refl _
  close_le_high := le_refl _

/-- Each further one. -/
def Ohlc.traded (o : Ohlc) (price : Money) : Ohlc where
  openPrice := o.openPrice
  high := if o.high.val < price.val then price else o.high
  low := if price.val < o.low.val then price else o.low
  close := price
  low_le_open := by
    split
    · rename_i hlow
      exact hlow.le.trans o.low_le_open
    · exact o.low_le_open
  low_le_close := by
    split
    · exact le_refl _
    · rename_i hlow
      exact not_lt.mp hlow
  open_le_high := by
    split
    · rename_i hhigh
      exact o.open_le_high.trans hhigh.le
    · exact o.open_le_high
  close_le_high := by
    split
    · exact le_refl _
    · rename_i hhigh
      exact not_lt.mp hhigh

theorem Ohlc.traded_high (o : Ohlc) (price : Money) :
    (o.traded price).high = if o.high.val < price.val then price else o.high := rfl

theorem Ohlc.traded_low (o : Ohlc) (price : Money) :
    (o.traded price).low = if price.val < o.low.val then price else o.low := rfl

/-- `BarTick`, the volume an `int` as a print's size is. -/
structure BuiltBar extends Ohlc where
  symbol : Symbol
  ts : Time
  timeframe : String
  volume : ℤ

/-- `BarBuilder`. -/
structure BarBuilder where
  symbol : Symbol
  timeframe : String
  bucket : Option Time
  prices : Option Ohlc
  volume : ℤ
  /-- The check of the constructor. -/
  supported : (timeframeSeconds timeframe).isSome

/-- `BarBuilder(symbol, timeframe)`; `none` is its `ValueError`. -/
def BarBuilder.new (symbol : Symbol) (timeframe : String) : Option BarBuilder :=
  if h : (timeframeSeconds timeframe).isSome then some ⟨symbol, timeframe, none, none, 0, h⟩
  else none

/-- `_finalize`: the bucket stays. -/
def BarBuilder.finalize (b : BarBuilder) : BarBuilder × Option BuiltBar :=
  match b.bucket, b.prices with
  | some ts, some prices =>
      ({ b with prices := none, volume := 0 },
        some { prices with
          symbol := b.symbol, ts := ts, timeframe := b.timeframe, volume := b.volume })
  | _, _ => (b, none)

/-- `flush`. -/
def BarBuilder.flush (b : BarBuilder) : BarBuilder × Option BuiltBar := b.finalize

/-- A print's price and size go into the current bar. -/
def BarBuilder.absorb (b : BarBuilder) (tape : TapeTick) : BarBuilder :=
  { b with
    prices := some (match b.prices with
      | none => .opened tape.price
      | some prices => prices.traded tape.price)
    volume := b.volume + tape.size }

/-- `on_print`; `none` is the `ValueError` of a print of another symbol. -/
def BarBuilder.onPrint (b : BarBuilder) (tape : TapeTick) :
    Option (BarBuilder × Option BuiltBar) :=
  if tape.symbol ≠ b.symbol then none
  else
    (bucketStart tape.ts b.timeframe).map fun bucket =>
      match b.bucket with
      | none => ({ b with bucket := some bucket }.absorb tape, none)
      | some current =>
          if current < bucket then
            let (b, emitted) := b.finalize
            ({ b with bucket := some bucket }.absorb tape, emitted)
          else if bucket < current then (b, none)
          else (b.absorb tape, none)

/-- The prints one after another, and the bars they put out. -/
def BarBuilder.onPrints (b : BarBuilder) : List TapeTick → Option (BarBuilder × List BuiltBar)
  | [] => some (b, [])
  | tape :: prints => do
      let (b, bar) ← b.onPrint tape
      let (b, bars) ← b.onPrints prints
      return (b, bar.toList ++ bars)

/-- `build_bars`. -/
def buildBars (symbol : Symbol) (timeframe : String) (prints : List TapeTick) :
    Option (List BuiltBar) := do
  let builder ← BarBuilder.new symbol timeframe
  let (builder, bars) ← builder.onPrints prints
  let (_, final) := builder.flush
  return bars ++ final.toList

/-! ## What a bar sums up -/

/-- The bucket of a print. -/
def TapeTick.bucket (secs : ℤ) (p : TapeTick) : Time := bucketOf secs p.ts

/-- The prints whose bucket is at least every bucket seen before them. -/
def accepted (secs : ℤ) (prints : List TapeTick) : List TapeTick :=
  Lib.onTime (TapeTick.bucket secs) prints

/-- `prices` are those of the prints `ps`: the first, the highest, the lowest and the last. -/
structure Ohlc.Of (prices : Ohlc) (ps : List TapeTick) : Prop where
  openPrice : ps.head?.map (·.price) = some prices.openPrice
  high_mem : prices.high ∈ ps.map (·.price)
  le_high : ∀ p ∈ ps, p.price.val ≤ prices.high.val
  low_mem : prices.low ∈ ps.map (·.price)
  low_le : ∀ p ∈ ps, prices.low.val ≤ p.price.val
  close : ps.getLast?.map (·.price) = some prices.close

/-- `bar` is the bar of the prints `ps`. -/
structure BuiltBar.Of (bar : BuiltBar) (symbol : Symbol) (timeframe : String)
    (ps : List TapeTick) : Prop where
  symbol_eq : bar.symbol = symbol
  timeframe_eq : bar.timeframe = timeframe
  prices : bar.toOhlc.Of ps
  volume_eq : bar.volume = (ps.map (·.size)).sum

theorem Ohlc.of_opened (p : TapeTick) : (Ohlc.opened p.price).Of [p] where
  openPrice := rfl
  high_mem := by simp [Ohlc.opened]
  le_high := by simp [Ohlc.opened]
  low_mem := by simp [Ohlc.opened]
  low_le := by simp [Ohlc.opened]
  close := rfl

theorem Ohlc.Of.traded {prices : Ohlc} {ps : List TapeTick} (h : prices.Of ps) (p : TapeTick) :
    (prices.traded p.price).Of (ps ++ [p]) where
  openPrice := by
    cases ps with
    | nil => exact absurd h.openPrice (by simp)
    | cons first ps => exact h.openPrice
  high_mem := by
    rw [List.map_append, List.mem_append, Ohlc.traded_high]
    split
    · exact Or.inr (List.mem_singleton.mpr rfl)
    · exact Or.inl h.high_mem
  le_high := by
    -- a print raises the high or leaves it
    intro q hq
    have hold : prices.high.val ≤ (prices.traded p.price).high.val := by
      rw [Ohlc.traded_high]
      split
      · rename_i hhigh
        exact hhigh.le
      · exact le_refl _
    rcases List.mem_append.mp hq with hq | hq
    · exact (h.le_high q hq).trans hold
    · rw [List.mem_singleton.mp hq]
      exact (prices.traded p.price).close_le_high
  low_mem := by
    rw [List.map_append, List.mem_append, Ohlc.traded_low]
    split
    · exact Or.inr (List.mem_singleton.mpr rfl)
    · exact Or.inl h.low_mem
  low_le := by
    -- and lowers the low or leaves it
    intro q hq
    have hold : (prices.traded p.price).low.val ≤ prices.low.val := by
      rw [Ohlc.traded_low]
      split
      · rename_i hlow
        exact hlow.le
      · exact le_refl _
    rcases List.mem_append.mp hq with hq | hq
    · exact hold.trans (h.low_le q hq)
    · rw [List.mem_singleton.mp hq]
      exact (prices.traded p.price).low_le_close
  close := by rw [List.getLast?_append]; rfl

theorem Ohlc.Of.isGreatest_high {prices : Ohlc} {ps : List TapeTick} (h : prices.Of ps) :
    IsGreatest {v | ∃ p ∈ ps, p.price.val = v} prices.high.val := by
  obtain ⟨p, hp, hprice⟩ := List.mem_map.mp h.high_mem
  refine ⟨⟨p, hp, congrArg Money.val hprice⟩, ?_⟩
  rintro v ⟨q, hq, rfl⟩
  exact h.le_high q hq

theorem Ohlc.Of.isLeast_low {prices : Ohlc} {ps : List TapeTick} (h : prices.Of ps) :
    IsLeast {v | ∃ p ∈ ps, p.price.val = v} prices.low.val := by
  obtain ⟨p, hp, hprice⟩ := List.mem_map.mp h.low_mem
  refine ⟨⟨p, hp, congrArg Money.val hprice⟩, ?_⟩
  rintro v ⟨q, hq, rfl⟩
  exact h.low_le q hq

/-- The builder is in the middle of a bar: bucket `k`, made of the prints `ps`. -/
structure BarBuilder.Collecting (b : BarBuilder) (k : Time) (ps : List TapeTick) : Prop where
  bucket_eq : b.bucket = some k
  prices : ∃ prices, b.prices = some prices ∧ prices.Of ps
  volume_eq : b.volume = (ps.map (·.size)).sum

theorem BarBuilder.collecting_opened (b : BarBuilder) (k : Time) (p : TapeTick)
    (hprices : b.prices = none) (hvolume : b.volume = 0) :
    ({ b with bucket := some k }.absorb p).Collecting k [p] where
  bucket_eq := rfl
  prices := ⟨.opened p.price, by rw [absorb, hprices], Ohlc.of_opened p⟩
  volume_eq := by simp [absorb, hvolume]

theorem BarBuilder.Collecting.absorb {b : BarBuilder} {k : Time} {ps : List TapeTick}
    (h : b.Collecting k ps) (p : TapeTick) : (b.absorb p).Collecting k (ps ++ [p]) where
  bucket_eq := h.bucket_eq
  prices := by
    obtain ⟨prices, hprices, hof⟩ := h.prices
    exact ⟨prices.traded p.price, by rw [BarBuilder.absorb, hprices], hof.traded p⟩
  volume_eq := by
    rw [BarBuilder.absorb, h.volume_eq, List.map_append, List.sum_append]
    simp

/-- The bar a builder puts out is that of the prints it collected, and it starts over. -/
theorem BarBuilder.Collecting.finalize {b : BarBuilder} {k : Time} {ps : List TapeTick}
    (h : b.Collecting k ps) :
    ∃ bar, b.finalize = ({ b with prices := none, volume := 0 }, some bar) ∧ bar.ts = k ∧
      bar.Of b.symbol b.timeframe ps := by
  obtain ⟨prices, hprices, hof⟩ := h.prices
  refine ⟨_, by rw [BarBuilder.finalize, h.bucket_eq, hprices], rfl, ?_⟩
  exact ⟨rfl, rfl, hof, h.volume_eq⟩

/-! ## The builder groups what was on time -/

section Groups

variable {b : BarBuilder} {tape : TapeTick} {k : Time} {secs : ℤ} {ps : List TapeTick}

/-- `bars` are the bars of the prints `ps`, one a bucket. -/
abbrev BarsOf (secs : ℤ) (symbol : Symbol) (timeframe : String) :
    List TapeTick → List BuiltBar → Prop :=
  Lib.GroupedBy (TapeTick.bucket secs) BuiltBar.ts fun ps bar => bar.Of symbol timeframe ps

theorem BarBuilder.bucketStart_eq (hsecs : timeframeSeconds b.timeframe = some secs) :
    bucketStart tape.ts b.timeframe = some (tape.bucket secs) := by
  rw [bucketStart, hsecs, Option.map_some, TapeTick.bucket]

/-- A print that comes too late changes nothing. -/
theorem BarBuilder.onPrint_late (hsymbol : tape.symbol = b.symbol)
    (hsecs : timeframeSeconds b.timeframe = some secs) (hb : b.bucket = some k)
    (hlate : tape.bucket secs < k) : b.onPrint tape = some (b, none) := by
  rw [onPrint, if_neg (not_not.mpr hsymbol), bucketStart_eq hsecs, Option.map_some, hb]
  simp [hlate, hlate.le.not_gt]

theorem BarBuilder.onPrint_same (hsymbol : tape.symbol = b.symbol)
    (hsecs : timeframeSeconds b.timeframe = some secs) (hb : b.bucket = some k)
    (hsame : tape.bucket secs = k) : b.onPrint tape = some (b.absorb tape, none) := by
  rw [onPrint, if_neg (not_not.mpr hsymbol), bucketStart_eq hsecs, Option.map_some, hb]
  simp [hsame]

/-- A print of a later bucket finalises the current bar and opens the next. -/
theorem BarBuilder.onPrint_opens (hsymbol : tape.symbol = b.symbol)
    (hsecs : timeframeSeconds b.timeframe = some secs) (hb : b.bucket = some k)
    (hlater : k < tape.bucket secs) :
    b.onPrint tape =
      some ({ b.finalize.1 with bucket := some (tape.bucket secs) }.absorb tape,
        b.finalize.2) := by
  rw [onPrint, if_neg (not_not.mpr hsymbol), bucketStart_eq hsecs, Option.map_some, hb]
  simp only [if_pos hlater]

theorem BarBuilder.onPrint_later (hsymbol : tape.symbol = b.symbol)
    (hsecs : timeframeSeconds b.timeframe = some secs) (hb : b.Collecting k ps)
    (hlater : k < tape.bucket secs) :
    ∃ next bar, b.onPrint tape = some (next, some bar) ∧
      next.symbol = b.symbol ∧ next.timeframe = b.timeframe ∧
      next.Collecting (tape.bucket secs) [tape] ∧
      bar.ts = k ∧ bar.Of b.symbol b.timeframe ps := by
  obtain ⟨bar, hfinal, hts, hof⟩ := hb.finalize
  let closed : BarBuilder := { b with prices := none, volume := 0 }
  refine ⟨{ closed with bucket := some (tape.bucket secs) }.absorb tape, bar, ?_, rfl, rfl,
    closed.collecting_opened _ tape rfl rfl, hts, hof⟩
  rw [onPrint_opens hsymbol hsecs hb.bucket_eq hlater, hfinal]

/-- The first print. -/
theorem BarBuilder.onPrint_first (hsymbol : tape.symbol = b.symbol)
    (hsecs : timeframeSeconds b.timeframe = some secs) (hb : b.bucket = none) :
    b.onPrint tape =
      some ({ b with bucket := some (tape.bucket secs) }.absorb tape, none) := by
  rw [onPrint, if_neg (not_not.mpr hsymbol), bucketStart_eq hsecs, Option.map_some, hb]

/-- A run of prints, one print and the rest. -/
theorem BarBuilder.onPrints_cons {next b' : BarBuilder} {bar : Option BuiltBar}
    {bars : List BuiltBar} {prints : List TapeTick} (hprint : b.onPrint tape = some (next, bar))
    (hrun : next.onPrints prints = some (b', bars)) :
    b.onPrints (tape :: prints) = some (b', bar.toList ++ bars) := by
  rw [onPrints, hprint]
  simp [hrun]

/--
From a builder in the middle of a bar: `ps` and the prints that are still on time
come out grouped by bucket. `seen` are the buckets so far, the current one the
greatest of them.
-/
theorem BarBuilder.Collecting.onPrints (prints : List TapeTick) :
    ∀ {b : BarBuilder} {k : Time} {ps : List TapeTick} {seen : List Time},
      b.Collecting k ps → ps ≠ [] → (∀ p ∈ ps, p.bucket secs = k) →
      k ∈ seen → (∀ j ∈ seen, j ≤ k) → (∀ p ∈ prints, p.symbol = b.symbol) →
      timeframeSeconds b.timeframe = some secs →
      ∃ b' bars, b.onPrints prints = some (b', bars) ∧
        BarsOf secs b.symbol b.timeframe
          (ps ++ Lib.onTimeAfter (TapeTick.bucket secs) seen prints)
          (bars ++ b'.flush.2.toList) := by
  induction prints with
  | nil =>
      intro b k ps seen hb hne hps _ _ _ _
      obtain ⟨bar, hfinal, hts, hof⟩ := hb.finalize
      refine ⟨b, [], rfl, ?_⟩
      rw [flush, hfinal, List.nil_append]
      exact .cons hne (fun p hp => (hps p hp).trans hts.symm) (by simp [Lib.onTimeAfter]) hof .nil
  | cons tape prints ih =>
      intro b k ps seen hb hne hps hseen hgreatest hsymbols hsecs
      have hsymbol : tape.symbol = b.symbol := hsymbols tape List.mem_cons_self
      have hrest : ∀ p ∈ prints, p.symbol = b.symbol :=
        fun p hp => hsymbols p (List.mem_cons_of_mem _ hp)
      rcases lt_trichotomy (tape.bucket secs) k with hlate | hsame | hlater
      · -- too late: the greatest bucket stays
        have hcover : ∀ j ∈ tape.bucket secs :: seen, j ≤ k :=
          List.forall_mem_cons.mpr ⟨hlate.le, hgreatest⟩
        obtain ⟨b', bars, hrun, hgroups⟩ :=
          ih hb hne hps (List.mem_cons_of_mem _ hseen) hcover hrest hsecs
        refine ⟨b', bars, onPrints_cons (onPrint_late hsymbol hsecs hb.bucket_eq hlate) hrun, ?_⟩
        rw [Lib.onTimeAfter_cons_of_lt hseen hlate]
        exact hgroups
      · -- the bar goes on
        have hcover : ∀ j ∈ tape.bucket secs :: seen, j ≤ k :=
          List.forall_mem_cons.mpr ⟨hsame.le, hgreatest⟩
        have hkeys : ∀ p ∈ ps ++ [tape], p.bucket secs = k := by
          intro p hp
          rcases List.mem_append.mp hp with hp | hp
          · exact hps p hp
          · rw [List.mem_singleton.mp hp]
            exact hsame
        obtain ⟨b', bars, hrun, hgroups⟩ :=
          ih (hb.absorb tape) (by simp) hkeys (List.mem_cons_of_mem _ hseen) hcover hrest hsecs
        refine ⟨b', bars, onPrints_cons (onPrint_same hsymbol hsecs hb.bucket_eq hsame) hrun, ?_⟩
        rw [Lib.onTimeAfter_cons_of_le hgreatest hsame.ge]
        rw [List.append_assoc] at hgroups
        exact hgroups
      · -- the bar is put out, and what follows lies after it
        obtain ⟨next, bar, hprint, hsym, htf, hnext, hts, hof⟩ :=
          onPrint_later hsymbol hsecs hb hlater
        have hcover : ∀ j ∈ tape.bucket secs :: seen, j ≤ tape.bucket secs :=
          List.forall_mem_cons.mpr
            ⟨le_refl _, fun j hj => (hgreatest j hj).trans hlater.le⟩
        obtain ⟨b', bars, hrun, hgroups⟩ :=
          ih hnext (by simp) (by simp) List.mem_cons_self hcover (hsym ▸ hrest) (htf ▸ hsecs)
        refine ⟨b', bar :: bars, onPrints_cons hprint hrun, ?_⟩
        rw [Lib.onTimeAfter_cons_of_le hgreatest hlater.le]
        rw [hsym, htf] at hgroups
        refine .cons hne (fun p hp => (hps p hp).trans hts.symm) ?_ hof hgroups
        intro p hp
        rw [hts]
        rcases List.mem_cons.mp hp with rfl | hp
        · exact hlater
        · exact hlater.trans_le (Lib.le_of_mem_onTimeAfter hp List.mem_cons_self)

/-- From a builder that has seen nothing. -/
theorem BarBuilder.onPrints_barsOf {prints : List TapeTick} (hbucket : b.bucket = none)
    (hprices : b.prices = none) (hvolume : b.volume = 0)
    (hsymbols : ∀ p ∈ prints, p.symbol = b.symbol)
    (hsecs : timeframeSeconds b.timeframe = some secs) :
    ∃ b' bars, b.onPrints prints = some (b', bars) ∧
      BarsOf secs b.symbol b.timeframe (accepted secs prints) (bars ++ b'.flush.2.toList) := by
  cases prints with
  | nil =>
      -- no print: nothing is collected, and the flush has nothing
      refine ⟨b, [], rfl, ?_⟩
      rw [flush, finalize, hbucket]
      exact .nil
  | cons tape prints =>
      -- the first print opens a group, whatever its bucket
      obtain ⟨b', bars, hrun, hgroups⟩ :=
        (b.collecting_opened (tape.bucket secs) tape hprices hvolume).onPrints prints (by simp)
          (by simp) (List.mem_singleton.mpr rfl) (by simp)
          (fun p hp => hsymbols p (List.mem_cons_of_mem _ hp)) hsecs
      refine ⟨b', bars,
        onPrints_cons (onPrint_first (hsymbols tape List.mem_cons_self) hsecs hbucket) hrun, ?_⟩
      rw [accepted, Lib.onTime, Lib.onTimeAfter, if_pos (by simp)]
      exact hgroups

theorem buildBars_barsOf {symbol : Symbol} {timeframe : String} {prints : List TapeTick}
    (hsecs : timeframeSeconds timeframe = some secs)
    (hsymbols : ∀ p ∈ prints, p.symbol = symbol) :
    ∃ bars, buildBars symbol timeframe prints = some bars ∧
      BarsOf secs symbol timeframe (accepted secs prints) bars := by
  have hsupported : (timeframeSeconds timeframe).isSome := by rw [hsecs]; rfl
  obtain ⟨b', bars, hrun, hgroups⟩ :=
    BarBuilder.onPrints_barsOf (b := ⟨symbol, timeframe, none, none, 0, hsupported⟩)
      rfl rfl rfl hsymbols hsecs
  refine ⟨_, ?_, hgroups⟩
  rw [buildBars, BarBuilder.new, dif_pos hsupported]
  simp [hrun]

end Groups

/--
**The bars group the prints that were on time.** One bar for each bucket of an
accepted print, in strictly increasing order; a bar opens at the first accepted
print of its bucket, closes at the last, spans the lowest to the highest and
carries their volume; together the bars carry the accepted volume.
-/
theorem buildBars_groups (symbol : Symbol) (timeframe : String) (prints : List TapeTick)
    (secs : ℤ) (hsecs : timeframeSeconds timeframe = some secs)
    (hsymbols : ∀ p ∈ prints, p.symbol = symbol) :
    ∃ bars, buildBars symbol timeframe prints = some bars ∧
      (bars.map (·.ts)).Pairwise (· < ·) ∧
      (∀ ts, ts ∈ bars.map (·.ts) ↔ ts ∈ (accepted secs prints).map (·.bucket secs)) ∧
      (∀ bar ∈ bars, bar.Of symbol timeframe
        ((accepted secs prints).filter fun p => p.bucket secs = bar.ts)) ∧
      (bars.map (·.volume)).sum = ((accepted secs prints).map (·.size)).sum := by
  obtain ⟨bars, hbuild, hgroups⟩ := buildBars_barsOf hsecs hsymbols
  refine ⟨bars, hbuild, hgroups.increasing, fun _ => hgroups.mem_labels, ?_, ?_⟩
  · intro bar hbar
    exact hgroups.sums_filter hbar
  · exact hgroups.sum_eq fun _ _ h => h.volume_eq

/-- Two minutes of trading, and a print of the first that arrives in the second. -/
def straggler : List TapeTick :=
  [⟨"AAA", openingBell + 1, cents 500, 50, none⟩, ⟨"AAA", openingBell + 30, cents 540, 100, none⟩,
    ⟨"AAA", openingBell + 61, cents 530, 200, none⟩, ⟨"AAA", openingBell + 59, cents 490, 7, none⟩,
    ⟨"AAA", openingBell + 70, cents 520, 30, none⟩]

example : (accepted 60 straggler).map (·.size) = [50, 100, 200, 30] := by decide +kernel

example : (buildBars "AAA" "1m" straggler).map (·.map (·.volume)) = some [150, 230] := by
  decide +kernel

theorem buildBars_groups_straggler :
    ∃ bars, buildBars "AAA" "1m" straggler = some bars ∧
      (bars.map (·.ts)).Pairwise (· < ·) ∧
      (∀ ts, ts ∈ bars.map (·.ts) ↔ ts ∈ (accepted 60 straggler).map (·.bucket 60)) ∧
      (∀ bar ∈ bars, bar.Of "AAA" "1m"
        ((accepted 60 straggler).filter fun p => p.bucket 60 = bar.ts)) ∧
      (bars.map (·.volume)).sum = ((accepted 60 straggler).map (·.size)).sum :=
  buildBars_groups "AAA" "1m" straggler 60 rfl (by simp [straggler])

end RossBot
