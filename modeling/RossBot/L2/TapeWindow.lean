import RossBot.L2.Detectors
import RossBot.Lib.Runs
import RossBot.Lib.Window

/-!
# The window of the tape

`adapters/l2/tape_window.py`: `add` and `aggregate(now)` in any order. `_evict` takes
prints from the front and stops at the first that is recent enough, so a print that
comes late, behind a more recent one, is counted until that one is too old as well.
The aggregate sums up the window exactly while no such print is there
(`aggregates_iff`).
-/

namespace RossBot

open Lib

/-- One call of an accumulator. -/
inductive TapeCall where
  | add (tick : TapeTick)
  | aggregate (now : Time)

namespace TapeAccumulator

/-- What the call makes of the accumulator. -/
def call (tape : TapeAccumulator) : TapeCall → TapeAccumulator
  | .add tick => tape.add tick
  | .aggregate now => (tape.aggregate (some now)).1

/-- The print a call records, with the side `add` gives it. -/
def recorded (tape : TapeAccumulator) : TapeCall → List TapePrint
  | .add tick => (tape.add tick).buf.getLast?.toList
  | .aggregate _ => []

/-- The accumulator after some calls, and all prints they recorded. -/
def calls (tape : TapeAccumulator) (cs : List TapeCall) : TapeAccumulator × List TapePrint :=
  cs.foldl (fun s c => (s.1.call c, s.2 ++ s.1.recorded c)) (tape, [])

end TapeAccumulator

/-- The print of a tick is in the window that is read at `now`. -/
def inWindow (windowSecs : ℤ) (now ts : Time) : Bool := decide (now - windowSecs ≤ ts)

/-- The counts of an aggregate are those of some prints. -/
structure TapeAggregate.Counts (agg : TapeAggregate) (prints : List TapePrint) : Prop where
  totalShares : agg.totalShares = (prints.map (·.size)).sum
  buyShares : agg.buyShares = sharesOn .buy prints
  sellShares : agg.sellShares = sharesOn .sell prints
  prints_eq : agg.prints = prints.length

/-- What `aggregate` says after some calls is what all prints of its window come to. -/
def TapeAccumulator.AggregatesWindow (tape : TapeAccumulator) (before : List TapeCall) :
    TapeCall → Prop
  | .add _ => True
  | .aggregate now => ((tape.calls before).1.aggregate (some now)).2.Counts
      ((tape.calls before).2.filter fun p => inWindow tape.windowSecs now p.ts)

/-- The instants of the ticks, as they were added. -/
def addedTs (cs : List TapeCall) : List Time :=
  cs.filterMap fun
    | .add tick => some tick.ts
    | .aggregate _ => none

/-- The instants of the reads. -/
def readTs (cs : List TapeCall) : List Time :=
  cs.filterMap fun
    | .add _ => none
    | .aggregate now => some now

/-- At a read, no tick older than the window has been added after one within it. -/
def NoneBehind (windowSecs : ℤ) (before : List TapeCall) : TapeCall → Prop
  | .add _ => True
  | .aggregate now => (addedTs before).Pairwise fun t u =>
      inWindow windowSecs now t = true → inWindow windowSecs now u = true

/-! ## What is left in the buffer -/

/-- The buffer is what was recorded, less a front that was too old for one of the reads. -/
structure TapeAccumulator.Keeps (tape : TapeAccumulator) (windowSecs : ℤ)
    (prints : List TapePrint) (reads : List Time) : Prop where
  windowSecs_eq : tape.windowSecs = windowSecs
  left : LeftOf (fun p => ∃ now ∈ reads, p.ts < now - windowSecs) prints tape.buf

section Calls

variable {tape : TapeAccumulator} {windowSecs : ℤ} {prints : List TapePrint} {reads : List Time}
  {now : Time}

theorem TapeAccumulator.buf_add (tape : TapeAccumulator) (tick : TapeTick) :
    (tape.add tick).buf = tape.buf ++ tape.recorded (.add tick) := by
  rw [recorded, add, List.getLast?_concat]
  rfl

theorem TapeAccumulator.recorded_ts (tape : TapeAccumulator) (tick : TapeTick) :
    (tape.recorded (.add tick)).map (·.ts) = [tick.ts] := by
  rw [recorded, add, List.getLast?_concat]
  rfl

theorem TapeAccumulator.calls_snoc (tape : TapeAccumulator) (cs : List TapeCall) (c : TapeCall) :
    tape.calls (cs ++ [c]) =
      ((tape.calls cs).1.call c, (tape.calls cs).2 ++ (tape.calls cs).1.recorded c) := by
  rw [calls, foldl_snoc, calls]

theorem TapeAccumulator.Keeps.add (h : tape.Keeps windowSecs prints reads) (tick : TapeTick) :
    (tape.add tick).Keeps windowSecs (prints ++ tape.recorded (.add tick)) reads := by
  refine ⟨h.windowSecs_eq, ?_⟩
  rw [tape.buf_add]
  exact h.left.append _

theorem TapeAccumulator.Keeps.evict (h : tape.Keeps windowSecs prints reads) (now : Time) :
    (tape.evict now).Keeps windowSecs prints (reads ++ [now]) := by
  refine ⟨h.windowSecs_eq, ?_⟩
  have hleft : LeftOf (fun p => ∃ t ∈ reads ++ [now], p.ts < t - windowSecs) prints tape.buf := by
    refine h.left.mono ?_
    rintro p ⟨t, ht, hlt⟩
    exact ⟨t, List.mem_append_left _ ht, hlt⟩
  refine hleft.dropWhile fun p hp => ?_
  rw [h.windowSecs_eq] at hp
  exact ⟨now, List.mem_append_right _ (List.mem_singleton.mpr rfl), of_decide_eq_true hp⟩

/-- The buffer after any calls. -/
theorem TapeAccumulator.calls_keeps (hnew : TapeAccumulator.new windowSecs = some tape)
    (cs : List TapeCall) :
    (tape.calls cs).1.Keeps windowSecs (tape.calls cs).2 (readTs cs) := by
  induction cs using List.reverseRecOn with
  | nil =>
      rw [new] at hnew
      split at hnew
      · rw [← Option.some.inj hnew]
        exact ⟨rfl, LeftOf.refl _ _⟩
      · exact absurd hnew (by simp)
  | append_singleton cs c ih =>
      rw [calls_snoc]
      cases c with
      -- a print is appended and nothing is evicted
      | add tick =>
          have hreads : readTs (cs ++ [.add tick]) = readTs cs := by simp [readTs]
          rw [hreads]
          exact ih.add tick
      -- a reading evicts, and reads what is left
      | aggregate now =>
          have hreads : readTs (cs ++ [.aggregate now]) = readTs cs ++ [now] := by simp [readTs]
          rw [hreads, recorded, List.append_nil]
          exact ih.evict now

theorem TapeAccumulator.calls_ts (tape : TapeAccumulator) (cs : List TapeCall) :
    (tape.calls cs).2.map (·.ts) = addedTs cs := by
  induction cs using List.reverseRecOn with
  | nil => rfl
  | append_singleton cs c ih =>
      rw [calls_snoc, List.map_append, ih]
      cases c with
      | add tick => simp [recorded_ts, addedTs]
      | aggregate now => simp [recorded, addedTs]

/-! ## What a read finds -/

/-- After a read that is no earlier than those before it, the buffer is what was recorded less
the whole front that is too old. -/
theorem TapeAccumulator.Keeps.buf_evict (h : tape.Keeps windowSecs prints reads) {now : Time}
    (hnow : ∀ t ∈ reads, t ≤ now) :
    (tape.evict now).buf = prints.dropWhile fun p => !inWindow windowSecs now p.ts := by
  have hold : (fun p : TapePrint => decide (p.ts < now - tape.windowSecs)) =
      fun p => !inWindow windowSecs now p.ts := by
    funext p
    simp only [inWindow, h.windowSecs_eq, ← not_le, decide_not]
  rw [TapeAccumulator.evict, hold]
  refine h.left.dropWhile_eq ?_
  rintro p ⟨t, ht, hlt⟩
  have hle := hnow t ht
  simp only [inWindow, Bool.not_eq_true', decide_eq_false_iff_not, not_le]
  linarith

/-- The summary of the prints that stay is that of the window if none stands behind it. -/
theorem counts_iff (prints : List TapePrint) :
    (aggregateOf windowSecs (prints.dropWhile fun p => !inWindow windowSecs now p.ts)).Counts
        (prints.filter fun p => inWindow windowSecs now p.ts)
      ↔ (prints.map (·.ts)).Pairwise fun t u =>
          inWindow windowSecs now t = true → inWindow windowSecs now u = true := by
  -- `evict` stops at the first print inside, so an older one behind it stays
  let old : TapePrint → Bool := fun p => !inWindow windowSecs now p.ts
  have hrecent : (prints.filter fun p => inWindow windowSecs now p.ts) =
      prints.filter fun p => !old p := by
    simp only [old, Bool.not_not]
  have hbehind : ((prints.map (·.ts)).Pairwise fun t u =>
      inWindow windowSecs now t = true → inWindow windowSecs now u = true) ↔
      prints.Pairwise fun p q => old q = true → old p = true := by
    rw [List.pairwise_map]
    refine List.Pairwise.iff fun p q => ?_
    simp only [old, Bool.not_eq_true', ← Bool.not_eq_true, not_imp_not]
  rw [hrecent, hbehind]
  constructor
  · -- the lengths agree only if nothing old stands behind something recent
    intro hcounts
    exact length_dropWhile_eq_iff.mp hcounts.prints_eq
  · intro hnone
    have heq : prints.dropWhile old = prints.filter fun p => !old p :=
      dropWhile_eq_filter_not_iff.mpr hnone
    rw [← heq]
    exact ⟨rfl, rfl, rfl, rfl⟩

/-- **A read sums up the window exactly while no older print stands behind one within it.** -/
theorem TapeAccumulator.aggregatesWindow_iff (hnew : TapeAccumulator.new windowSecs = some tape)
    {before : List TapeCall} {now : Time} (hnow : ∀ t ∈ readTs before, t ≤ now) :
    tape.AggregatesWindow before (.aggregate now) ↔
      NoneBehind windowSecs before (.aggregate now) := by
  have hkeeps := calls_keeps hnew before
  have hwindow : tape.windowSecs = windowSecs := (calls_keeps hnew []).windowSecs_eq
  have hread : ((tape.calls before).1.aggregate (some now)).2 =
      aggregateOf windowSecs
        ((tape.calls before).2.dropWhile fun p => !inWindow windowSecs now p.ts) := by
    rw [← hkeeps.buf_evict hnow, ← hkeeps.windowSecs_eq]
    rfl
  rw [AggregatesWindow, NoneBehind, hread, hwindow, counts_iff, calls_ts]

end Calls

/-- **Every read of a run sums up its window exactly while no older print stands behind one
within it.** The reads are no earlier than those before them. -/
theorem TapeAccumulator.aggregates_iff {windowSecs : ℤ} {tape : TapeAccumulator}
    (hnew : TapeAccumulator.new windowSecs = some tape) {cs : List TapeCall}
    (hreads : (readTs cs).Pairwise (· ≤ ·)) :
    EachAt tape.AggregatesWindow cs ↔ EachAt (NoneBehind windowSecs) cs := by
  have hcall : ∀ before c after, cs = before ++ c :: after →
      (tape.AggregatesWindow before c ↔ NoneBehind windowSecs before c) := by
    intro before c after hsplit
    -- adding promises nothing
    cases c with
    | add tick => exact Iff.rfl
    | aggregate now =>
        have hts : readTs cs = readTs before ++ now :: readTs after := by
          simp [hsplit, readTs]
        -- the times read so far are not above this one
        rw [hts, List.pairwise_append] at hreads
        exact aggregatesWindow_iff hnew fun t ht => hreads.2.2 t ht now List.mem_cons_self
  constructor
  · intro h before c after hsplit
    exact (hcall before c after hsplit).mp (h before c after hsplit)
  · intro h before c after hsplit
    exact (hcall before c after hsplit).mpr (h before c after hsplit)

/-- Shares bought some seconds after the opening bell. -/
def boughtAt (seconds : ℤ) (shares : ℤ) : TapeCall :=
  .add ⟨"TEST", openingBell + seconds, cents 500, shares, some .buy⟩

/-- A window of thirty seconds, with nothing in it. -/
def thirtySeconds : TapeAccumulator := ⟨30, [], none, by decide⟩

/-- A print forty seconds old comes after a new one, and both are read. -/
def latePrint : List TapeCall :=
  [boughtAt 100 100, boughtAt 60 200, .aggregate (openingBell + 100)]

theorem TapeAccumulator.aggregate_latePrint :
    TapeAccumulator.new 30 = some thirtySeconds
      ∧ (readTs latePrint).Pairwise (· ≤ ·)
      ∧ (∀ now ∈ readTs latePrint, ∀ t ∈ addedTs latePrint, t ≤ now)
      ∧ ¬ EachAt thirtySeconds.AggregatesWindow latePrint := by
  refine ⟨rfl, by decide +kernel, by decide +kernel, ?_⟩
  intro h
  have hread := h [boughtAt 100 100, boughtAt 60 200] (.aggregate (openingBell + 100)) [] rfl
  exact absurd hread.totalShares (by decide +kernel)

/-- What was added before the read: a late print that is still recent. -/
def recentPrint : List TapeCall := [boughtAt 60 200, boughtAt 95 100, boughtAt 80 400]

theorem TapeAccumulator.aggregates_recentPrint :
    EachAt thirtySeconds.AggregatesWindow
      (recentPrint ++ [.aggregate (openingBell + 100)]) := by
  have hnew : TapeAccumulator.new 30 = some thirtySeconds := rfl
  have hadds : EachAt (NoneBehind 30) recentPrint := by
    refine eachAt_nil.extend fun c hc before => ?_
    simp only [List.mem_cons, List.not_mem_nil, or_false] at hc
    rcases hc with rfl | rfl | rfl <;> trivial
  refine (aggregates_iff hnew (by decide +kernel)).mpr (eachAt_snoc.mpr ⟨hadds, ?_⟩)
  rw [NoneBehind]
  decide +kernel

end RossBot
