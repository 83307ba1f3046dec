import RossBot.Data.Flushes
import RossBot.Lib.Dict

/-!
# Several timeframes of one tape

`core/data/bars.py`, `MultiTimeframeBarBuilder`: every print goes to a builder of each
timeframe. The builders know nothing of each other; what one puts out is what it would
have put out alone (`Fanned.emitted`). Over a tape in order of time nothing is late, a
minute is cut into whole ten-second buckets (`bucketOf_minute`), and so each minute bar
aggregates the ten-second bars of its minute (`minutes_aggregate`).
-/

namespace RossBot

/-- `MultiTimeframeBarBuilder`. -/
structure MultiTimeframeBarBuilder where
  symbol : Symbol
  builders : Lib.Dict String BarBuilder

/-- `MultiTimeframeBarBuilder(symbol, timeframes)`; `none` is the `ValueError` of a builder. -/
def MultiTimeframeBarBuilder.new (symbol : Symbol) (timeframes : List String := ["10s", "1m"]) :
    Option MultiTimeframeBarBuilder :=
  (timeframes.foldlM (fun builders timeframe =>
    (BarBuilder.new symbol timeframe).map (builders.set timeframe)) ∅).map fun builders =>
      ⟨symbol, builders⟩

/-- The call goes to every builder. -/
def MultiTimeframeBarBuilder.callAll (m : MultiTimeframeBarBuilder) (c : BarCall) :
    MultiTimeframeBarBuilder × List BuiltBar :=
  ({ m with builders := m.builders.mapValues fun builder => (builder.call c).1 },
    m.builders.items.filterMap fun item => (item.2.call c).2)

/-- `on_print`; `none` when a builder raises. -/
def MultiTimeframeBarBuilder.onPrint (m : MultiTimeframeBarBuilder) (tape : TapeTick) :
    Option (MultiTimeframeBarBuilder × List BuiltBar) :=
  if m.builders.items.all fun item => (item.2.onPrint tape).isSome then
    some (m.callAll (.onPrint tape))
  else none

/-- `flush`. -/
def MultiTimeframeBarBuilder.flush (m : MultiTimeframeBarBuilder) :
    MultiTimeframeBarBuilder × List BuiltBar :=
  m.callAll .flush

/-- The prints one after another, and the bars they put out. -/
def MultiTimeframeBarBuilder.onPrints (m : MultiTimeframeBarBuilder) :
    List TapeTick → Option (MultiTimeframeBarBuilder × List BuiltBar)
  | [] => some (m, [])
  | tape :: prints => do
      let (m, bars) ← m.onPrint tape
      let (m, rest) ← m.onPrints prints
      return (m, bars ++ rest)

/-- All bars of a tape, those of one final flush with them. -/
def MultiTimeframeBarBuilder.emitted (m : MultiTimeframeBarBuilder) (prints : List TapeTick) :
    Option (List BuiltBar) := do
  let (m, bars) ← m.onPrints prints
  return bars ++ m.flush.2

/-- `bar` has the first open, the highest high, the lowest low, the last close and the
volume of `parts`. -/
structure BuiltBar.Aggregates (bar : BuiltBar) (parts : List BuiltBar) : Prop where
  openPrice : parts.head?.map (·.openPrice) = some bar.openPrice
  high_mem : bar.high ∈ parts.map (·.high)
  le_high : ∀ part ∈ parts, part.high.val ≤ bar.high.val
  low_mem : bar.low ∈ parts.map (·.low)
  low_le : ∀ part ∈ parts, bar.low.val ≤ part.low.val
  close : parts.getLast?.map (·.close) = some bar.close
  volume_eq : bar.volume = (parts.map (·.volume)).sum

/-! ## Each builder works as if it were alone -/

section Fanned

variable {m : MultiTimeframeBarBuilder} {b : BarBuilder} {tape : TapeTick} {symbol : Symbol}
  {timeframe : String}

theorem BarBuilder.finalize_keeps (b : BarBuilder) :
    b.finalize.1.symbol = b.symbol ∧ b.finalize.1.timeframe = b.timeframe ∧
      ∀ bar, b.finalize.2 = some bar → bar.timeframe = b.timeframe := by
  unfold finalize
  split
  · refine ⟨rfl, rfl, ?_⟩
    rintro bar hbar
    rw [← Option.some.inj hbar]
  · exact ⟨rfl, rfl, fun bar hbar => absurd hbar (by simp)⟩

/-- A builder stays at its symbol and its timeframe, and so do its bars. -/
theorem BarBuilder.call_keeps (b : BarBuilder) (c : BarCall) :
    (b.call c).1.symbol = b.symbol ∧ (b.call c).1.timeframe = b.timeframe ∧
      ∀ bar, (b.call c).2 = some bar → bar.timeframe = b.timeframe := by
  cases c with
  | flush => exact b.finalize_keeps
  | onPrint tape =>
      have hnone : ∀ bar : BuiltBar, none = some bar → bar.timeframe = b.timeframe :=
        fun bar hbar => absurd hbar (by simp)
      rw [call]
      unfold onPrint
      split
      · -- another symbol: nothing changes
        exact ⟨rfl, rfl, hnone⟩
      · cases bucketStart tape.ts b.timeframe with
        | none => exact ⟨rfl, rfl, hnone⟩
        | some bucket =>
            rw [Option.map_some, Option.getD_some]
            split
            · -- a late print is ignored; a print of a new bucket closes the bar
              exact ⟨rfl, rfl, hnone⟩
            · split
              · exact b.finalize_keeps
              · split <;> exact ⟨rfl, rfl, hnone⟩

/-- A print of the builder's symbol does not raise. -/
theorem BarBuilder.onPrint_eq_call (hsymbol : tape.symbol = b.symbol) :
    b.onPrint tape = some (b.call (.onPrint tape)) := by
  obtain ⟨secs, hsecs⟩ := Option.isSome_iff_exists.mp b.supported
  have hsome : (b.onPrint tape).isSome := by
    rw [onPrint, if_neg (not_not.mpr hsymbol), bucketStart_eq hsecs]
    rfl
  obtain ⟨next, hnext⟩ := Option.isSome_iff_exists.mp hsome
  rw [call, hnext, Option.getD_some]

/-- Each builder is of the symbol, and under its timeframe. -/
def MultiTimeframeBarBuilder.Fanned (m : MultiTimeframeBarBuilder) (symbol : Symbol) : Prop :=
  ∀ timeframe b, m.builders.get? timeframe = some b →
    b.symbol = symbol ∧ b.timeframe = timeframe

namespace MultiTimeframeBarBuilder

theorem callAll_get? (m : MultiTimeframeBarBuilder) (c : BarCall) (timeframe : String) :
    (m.callAll c).1.builders.get? timeframe =
      (m.builders.get? timeframe).map fun b => (b.call c).1 :=
  Lib.Dict.get?_mapValues _ _ _

theorem Fanned.callAll (hm : m.Fanned symbol) (c : BarCall) : (m.callAll c).1.Fanned symbol := by
  intro timeframe b' hb'
  rw [callAll_get?, Option.map_eq_some_iff] at hb'
  obtain ⟨b, hb, rfl⟩ := hb'
  obtain ⟨hsymbol, htf, -⟩ := b.call_keeps c
  obtain ⟨hsymbol', htf'⟩ := hm timeframe b hb
  exact ⟨hsymbol.trans hsymbol', htf.trans htf'⟩

/-- Of what a call puts out, the part of one timeframe is from its builder. -/
theorem Fanned.callAll_filter (hm : m.Fanned symbol) (hb : m.builders.get? timeframe = some b)
    (c : BarCall) :
    (m.callAll c).2.filter (·.timeframe = timeframe) = (b.call c).2.toList := by
  refine Lib.Dict.filter_filterMap ?_ hb
  intro item hitem bar hbar
  obtain ⟨-, htf⟩ := hm item.1 item.2 (Lib.Dict.mem_items.mp hitem)
  exact ((item.2.call_keeps c).2.2 bar hbar).trans htf

/-- A print of the symbol goes to every builder. -/
theorem Fanned.onPrint (hm : m.Fanned symbol) (hsymbol : tape.symbol = symbol) :
    m.onPrint tape = some (m.callAll (.onPrint tape)) := by
  rw [MultiTimeframeBarBuilder.onPrint, if_pos]
  rw [List.all_eq_true]
  intro item hitem
  obtain ⟨hsym, -⟩ := hm item.1 item.2 (Lib.Dict.mem_items.mp hitem)
  rw [BarBuilder.onPrint_eq_call (hsymbol.trans hsym.symm)]
  rfl

/-- Over a run of prints, what there is of one timeframe is what its builder puts out alone. -/
theorem Fanned.onPrints (prints : List TapeTick) :
    ∀ {m : MultiTimeframeBarBuilder}, m.Fanned symbol → (∀ p ∈ prints, p.symbol = symbol) →
      ∃ m' bars, m.onPrints prints = some (m', bars) ∧ m'.Fanned symbol ∧
        ∀ timeframe b, m.builders.get? timeframe = some b →
          ∃ b' own, b.onPrints prints = some (b', own) ∧
            m'.builders.get? timeframe = some b' ∧
            bars.filter (·.timeframe = timeframe) = own := by
  induction prints with
  | nil =>
      intro m hm _
      exact ⟨m, [], rfl, hm, fun timeframe b hb => ⟨b, [], rfl, hb, rfl⟩⟩
  | cons tape prints ih =>
      intro m hm hsymbols
      have hsymbol : tape.symbol = symbol := hsymbols tape List.mem_cons_self
      obtain ⟨m', bars, hrun, hm', hown⟩ := ih (hm.callAll (.onPrint tape))
        fun p hp => hsymbols p (List.mem_cons_of_mem _ hp)
      refine ⟨m', (m.callAll (.onPrint tape)).2 ++ bars, ?_, hm', ?_⟩
      · rw [MultiTimeframeBarBuilder.onPrints, hm.onPrint hsymbol]
        simp [hrun]
      · intro timeframe b hb
        -- the print reaches the builder of every timeframe
        have hsym : tape.symbol = b.symbol := hsymbol.trans (hm timeframe b hb).1.symm
        have hnext : (m.callAll (.onPrint tape)).1.builders.get? timeframe =
            some (b.call (.onPrint tape)).1 := by
          rw [callAll_get?, hb]
          rfl
        obtain ⟨b', own, hprints, hb', hbars⟩ := hown timeframe _ hnext
        refine ⟨b', (b.call (.onPrint tape)).2.toList ++ own,
          BarBuilder.onPrints_cons (BarBuilder.onPrint_eq_call hsym) hprints, hb', ?_⟩
        rw [List.filter_append, hm.callAll_filter hb, hbars]

/-- And so it is with the final flush. -/
theorem Fanned.emitted (hm : m.Fanned symbol) (prints : List TapeTick)
    (hsymbols : ∀ p ∈ prints, p.symbol = symbol) :
    ∃ bars, m.emitted prints = some bars ∧
      ∀ timeframe b, m.builders.get? timeframe = some b →
        ∃ b' own, b.onPrints prints = some (b', own) ∧
          bars.filter (·.timeframe = timeframe) = own ++ b'.flush.2.toList := by
  obtain ⟨m', bars, hrun, hm', hown⟩ := Fanned.onPrints prints hm hsymbols
  refine ⟨bars ++ m'.flush.2, by simp [MultiTimeframeBarBuilder.emitted, hrun], ?_⟩
  intro timeframe b hb
  obtain ⟨b', own, hprints, hb', hbars⟩ := hown timeframe b hb
  refine ⟨b', own, hprints, ?_⟩
  rw [List.filter_append, hbars, MultiTimeframeBarBuilder.flush, hm'.callAll_filter hb']
  rfl

theorem foldlM_get? (timeframes : List String) :
    ∀ {d d' : Lib.Dict String BarBuilder},
      timeframes.foldlM (fun builders timeframe =>
        (BarBuilder.new symbol timeframe).map (builders.set timeframe)) d = some d' →
      ∀ timeframe, d'.get? timeframe =
        if timeframe ∈ timeframes then BarBuilder.new symbol timeframe else d.get? timeframe := by
  induction timeframes with
  | nil =>
      intro d d' h timeframe
      rw [if_neg List.not_mem_nil, Option.some.inj h]
  | cons first timeframes ih =>
      intro d d' h timeframe
      rw [List.foldlM_cons] at h
      cases hfirst : BarBuilder.new symbol first with
      | none => simp [hfirst] at h
      | some b =>
          rw [hfirst] at h
          rw [ih h timeframe, Lib.Dict.get?_set]
          by_cases hrest : timeframe ∈ timeframes
          · -- a timeframe that comes again is set again
            rw [if_pos hrest, if_pos (List.mem_cons_of_mem _ hrest)]
          · by_cases hsame : timeframe = first
            · rw [if_neg hrest, if_pos hsame, hsame, if_pos List.mem_cons_self, hfirst]
            · rw [if_neg hrest, if_neg hsame, if_neg (by simp [hsame, hrest])]

/-- A new builder has a new one for each of its timeframes. -/
theorem new_get? {timeframes : List String}
    (hm : MultiTimeframeBarBuilder.new symbol timeframes = some m) (timeframe : String) :
    m.builders.get? timeframe =
      if timeframe ∈ timeframes then BarBuilder.new symbol timeframe else none := by
  rw [new, Option.map_eq_some_iff] at hm
  obtain ⟨builders, hbuilders, rfl⟩ := hm
  exact foldlM_get? timeframes hbuilders timeframe

theorem fanned_new {timeframes : List String}
    (hm : MultiTimeframeBarBuilder.new symbol timeframes = some m) : m.Fanned symbol := by
  intro timeframe b hb
  rw [new_get? hm] at hb
  split at hb
  · have hmirrors := BarBuilder.mirrors_new hb
    exact ⟨hmirrors.symbol_eq, hmirrors.timeframe_eq⟩
  · exact absurd hb (by simp)

end MultiTimeframeBarBuilder

end Fanned

/-! ## The ten-second buckets of a minute -/

theorem timeframeSeconds_pos {timeframe : String} {secs : ℤ}
    (h : timeframeSeconds timeframe = some secs) : 0 < secs := by
  unfold timeframeSeconds at h
  split_ifs at h <;> rw [← Option.some.inj h] <;> decide

theorem bucketOf_mono {secs : ℤ} (hsecs : 0 < secs) {ts ts' : Time} (h : ts ≤ ts') :
    bucketOf secs ts ≤ bucketOf secs ts' := by
  have hfloor : ∀ epoch : ℤ, epoch - epoch % secs = secs * (epoch / secs) := by
    intro epoch
    have := Int.mul_ediv_add_emod epoch secs
    omega
  unfold bucketOf
  rw [Int.cast_le, hfloor, hfloor]
  exact Int.mul_le_mul_of_nonneg_left (Int.ediv_le_ediv hsecs (roundDown_mono h)) hsecs.le

/-- The minute of a ten-second bucket is that of its prints. -/
theorem bucketOf_minute (ts : Time) : bucketOf 60 (bucketOf 10 ts) = bucketOf 60 ts := by
  unfold bucketOf
  rw [roundDown_intCast, Int.cast_inj]
  omega

/-- Nothing is late in a tape in order of time. -/
theorem accepted_eq_self {secs : ℤ} (hsecs : 0 < secs) {prints : List TapeTick}
    (hsorted : prints.Pairwise fun p q => p.ts ≤ q.ts) : accepted secs prints = prints :=
  Lib.onTime_eq_self (hsorted.imp fun h => bucketOf_mono hsecs h)

/-! ## Minutes aggregate -/

section Minutes

variable {symbol : Symbol} {prints : List TapeTick} {tens minutes : List BuiltBar}
  {bar : BuiltBar}

/-- The ten-second bars of the minute of `bar`. -/
def partsOf (bar : BuiltBar) (tens : List BuiltBar) : List BuiltBar :=
  tens.filter fun part => bucketOf 60 part.ts = bar.ts

/-- They are the bars of the prints of the minute. -/
theorem barsOf_partsOf (htens : BarsOf 10 symbol "10s" prints tens) (bar : BuiltBar) :
    BarsOf 10 symbol "10s" (prints.filter fun p => p.bucket 60 = bar.ts) (partsOf bar tens) := by
  have hparts := htens.filter fun k => decide (bucketOf 60 k = bar.ts)
  simp only [TapeTick.bucket, bucketOf_minute] at hparts
  exact hparts

/-- A minute bar aggregates the ten-second bars of its minute. -/
theorem aggregates_partsOf (htens : BarsOf 10 symbol "10s" prints tens)
    (hminutes : BarsOf 60 symbol "1m" prints minutes) (hbar : bar ∈ minutes) :
    bar.Aggregates (partsOf bar tens) := by
  have hof : bar.Of symbol "1m" (prints.filter fun p => p.bucket 60 = bar.ts) :=
    hminutes.sums_filter hbar
  have hparts := barsOf_partsOf htens bar
  -- the highest of the minute is that of one of its parts
  have hhigh : IsGreatest {v | ∃ part ∈ partsOf bar tens, part.high.val = v} bar.high.val :=
    (hparts.isGreatest_iff (fun _ _ h => h.prices.isGreatest_high) _).mp
      hof.prices.isGreatest_high
  have hlow : IsLeast {v | ∃ part ∈ partsOf bar tens, part.low.val = v} bar.low.val :=
    (hparts.isLeast_iff (fun _ _ h => h.prices.isLeast_low) _).mp hof.prices.isLeast_low
  obtain ⟨highest, hhighest, hsame_high⟩ := hhigh.1
  obtain ⟨lowest, hlowest, hsame_low⟩ := hlow.1
  refine ⟨?_, List.mem_map.mpr ⟨highest, hhighest, Money.ext hsame_high⟩,
    fun part hpart => hhigh.2 ⟨part, hpart, rfl⟩,
    List.mem_map.mpr ⟨lowest, hlowest, Money.ext hsame_low⟩,
    fun part hpart => hlow.2 ⟨part, hpart, rfl⟩, ?_, ?_⟩
  · -- the first part opens it
    rw [← hof.prices.openPrice]
    exact (hparts.head_eq fun _ _ h => h.prices.openPrice).symm
  · -- the last one closes it
    rw [← hof.prices.close]
    exact (hparts.getLast_eq fun _ _ h => h.prices.close).symm
  · rw [hof.volume_eq]
    exact (hparts.sum_eq fun _ _ h => h.volume_eq).symm

end Minutes

/-- A new builder over a tape in order of time: its bars are of all the prints. -/
theorem BarBuilder.onPrints_barsOf_sorted {b b' : BarBuilder} {own : List BuiltBar}
    {symbol : Symbol} {timeframe : String} {secs : ℤ} {prints : List TapeTick}
    (hb : BarBuilder.new symbol timeframe = some b)
    (hsecs : timeframeSeconds timeframe = some secs) (hsymbols : ∀ p ∈ prints, p.symbol = symbol)
    (hsorted : prints.Pairwise fun p q => p.ts ≤ q.ts)
    (hrun : b.onPrints prints = some (b', own)) :
    BarsOf secs symbol timeframe prints (own ++ b'.flush.2.toList) := by
  obtain ⟨rfl, rfl, hbucket, hbuilding, -, -⟩ := BarBuilder.mirrors_new hb
  obtain ⟨hprices, hvolume⟩ := hbuilding.of_nil
  obtain ⟨b₁, own₁, hrun₁, hbars⟩ := b.onPrints_barsOf hbucket hprices hvolume hsymbols hsecs
  obtain ⟨rfl, rfl⟩ := Prod.mk.inj (Option.some.inj (hrun₁.symm.trans hrun))
  rw [accepted_eq_self (timeframeSeconds_pos hsecs) hsorted] at hbars
  exact hbars

/-- The bars of one timeframe among those of all. -/
theorem MultiTimeframeBarBuilder.emitted_barsOf {m : MultiTimeframeBarBuilder} {symbol : Symbol}
    {timeframes : List String} {prints : List TapeTick}
    (hm : MultiTimeframeBarBuilder.new symbol timeframes = some m)
    (hsymbols : ∀ p ∈ prints, p.symbol = symbol)
    (hsorted : prints.Pairwise fun p q => p.ts ≤ q.ts) :
    ∃ bars, m.emitted prints = some bars ∧
      ∀ timeframe ∈ timeframes, ∀ secs, timeframeSeconds timeframe = some secs →
        BarsOf secs symbol timeframe prints (bars.filter (·.timeframe = timeframe)) := by
  obtain ⟨bars, hemitted, hown⟩ := (fanned_new hm).emitted prints hsymbols
  refine ⟨bars, hemitted, ?_⟩
  intro timeframe htimeframe secs hsecs
  have hsupported : (timeframeSeconds timeframe).isSome := by rw [hsecs]; rfl
  have hnew : BarBuilder.new symbol timeframe = some ⟨symbol, timeframe, none, none, 0, hsupported⟩ :=
    dif_pos hsupported
  have hget := new_get? hm timeframe
  rw [if_pos htimeframe, hnew] at hget
  obtain ⟨b', own, hrun, hbars⟩ := hown timeframe _ hget
  rw [hbars]
  exact BarBuilder.onPrints_barsOf_sorted hnew hsecs hsymbols hsorted hrun

/--
**The timeframes agree.** Over a tape of one symbol in order of time, each minute bar
put out, the one of the final flush with them, has the first open, the highest high,
the lowest low, the last close and the volume of the ten-second bars put out for the
same minute.
-/
theorem minutes_aggregate (symbol : Symbol) (timeframes : List String)
    (hten : "10s" ∈ timeframes) (hminute : "1m" ∈ timeframes) (m : MultiTimeframeBarBuilder)
    (hm : MultiTimeframeBarBuilder.new symbol timeframes = some m) (prints : List TapeTick)
    (hsymbols : ∀ p ∈ prints, p.symbol = symbol)
    (hsorted : prints.Pairwise fun p q => p.ts ≤ q.ts) :
    ∃ bars, m.emitted prints = some bars ∧
      ∀ bar ∈ bars, bar.timeframe = "1m" →
        bar.Aggregates (partsOf bar (bars.filter (·.timeframe = "10s"))) := by
  obtain ⟨bars, hemitted, hbars⟩ := MultiTimeframeBarBuilder.emitted_barsOf hm hsymbols hsorted
  refine ⟨bars, hemitted, ?_⟩
  intro bar hbar htimeframe
  exact aggregates_partsOf (hbars "10s" hten 10 rfl) (hbars "1m" hminute 60 rfl)
    (List.mem_filter.mpr ⟨hbar, decide_eq_true htimeframe⟩)

/-- Two minutes of trading, with a gap between. -/
def twoMinutes : List TapeTick :=
  [⟨"AAA", openingBell + 1, cents 500, 50, none⟩, ⟨"AAA", openingBell + 9, cents 540, 100, none⟩,
    ⟨"AAA", openingBell + 31, cents 490, 7, none⟩, ⟨"AAA", openingBell + 150, cents 520, 30, none⟩]

theorem minutes_aggregate_twoMinutes :
    ∃ m, MultiTimeframeBarBuilder.new "AAA" = some m ∧ ∃ bars, m.emitted twoMinutes = some bars ∧
      ∀ bar ∈ bars, bar.timeframe = "1m" →
        bar.Aggregates (partsOf bar (bars.filter (·.timeframe = "10s"))) := by
  have hsome : (MultiTimeframeBarBuilder.new "AAA").isSome := by decide
  obtain ⟨m, hm⟩ := Option.isSome_iff_exists.mp hsome
  exact ⟨m, hm, minutes_aggregate "AAA" ["10s", "1m"] (by simp) (by simp) m hm twoMinutes
    (by simp [twoMinutes]) (by simp [twoMinutes]; norm_num)⟩

end RossBot
