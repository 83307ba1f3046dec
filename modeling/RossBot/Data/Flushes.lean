import RossBot.Data.Bars
import RossBot.Lib.Cuts

/-!
# Flushing in the middle of a bar

`core/data/bars.py`: `on_print` and `flush` in any order. `flush` puts the bar in
progress out, and `_finalize` resets its prices and its volume but not its bucket.
So every accepted print is in one bar, published or in progress (`Mirrors.parts`), but
a print that comes after a flush in the same bucket starts a second bar of it, and the
bucket is published twice once that one is closed too (`published_iff`).
-/

namespace RossBot

/-- One call of a builder. -/
inductive BarCall where
  | onPrint (tape : TapeTick)
  | flush

/-- What the call does; one that raises leaves the builder as it was. -/
def BarBuilder.call (b : BarBuilder) : BarCall → BarBuilder × Option BuiltBar
  | .onPrint tape => (b.onPrint tape).getD (b, none)
  | .flush => b.flush

/-- The builder after some calls, and the bars they put out. -/
def BarBuilder.calls (b : BarBuilder) (cs : List BarCall) : BarBuilder × List BuiltBar :=
  cs.foldl (fun s c => ((s.1.call c).1, s.2 ++ (s.1.call c).2.toList)) (b, [])

/-- What a builder of `symbol` reads: a print of its symbol, or a cut. -/
def BarCall.read (symbol : Symbol) : BarCall → Option (Option TapeTick)
  | .onPrint tape => if tape.symbol = symbol then some (some tape) else none
  | .flush => some none

/-- What it reads of some calls. -/
def feedOf (symbol : Symbol) (cs : List BarCall) : List (Option TapeTick) :=
  cs.filterMap (BarCall.read symbol)

/-- The bar in progress is made of the prints `ps`. -/
def BarBuilder.Building (b : BarBuilder) (ps : List TapeTick) : Prop :=
  (ps = [] ∧ b.prices = none ∧ b.volume = 0) ∨ ∃ k, b.Collecting k ps

/--
What is promised of the bars: no bucket comes twice, and the accepted prints are
those of the published bars, one after another, and then of the bar in progress.
-/
structure BarBuilder.Published (b : BarBuilder) (secs : ℤ) (cs : List BarCall) : Prop where
  increasing : ((b.calls cs).2.map (·.ts)).Pairwise (· < ·)
  parts : ∃ groups current,
    accepted secs (Lib.elements (feedOf b.symbol cs)) = groups.flatten ++ current ∧
    List.Forall₂ (fun (bar : BuiltBar) ps =>
      bar.Of b.symbol b.timeframe ps ∧ ∀ p ∈ ps, p.bucket secs = bar.ts) (b.calls cs).2 groups ∧
    (b.calls cs).1.Building current

/-- No bar is closed that holds only what came after a flush of its bucket. -/
def ClosesWhole (secs : ℤ) (symbol : Symbol) (cs : List BarCall) : Prop :=
  Lib.EachAt (fun before c => Lib.Closes (TapeTick.bucket secs) before c →
    ¬ Lib.Straddles (TapeTick.bucket secs) before) (feedOf symbol cs)

instance (secs : ℤ) (symbol : Symbol) (cs : List BarCall) : Decidable (ClosesWhole secs symbol cs) :=
  inferInstanceAs (Decidable (Lib.EachAt _ _))

/-! ## The builder is such a reader -/

/-- A builder and what it has put out, as the reader of the prints and the cuts. -/
structure BarBuilder.Mirrors (b : BarBuilder) (bars : List BuiltBar)
    (s : Lib.Cutter TapeTick Time) (symbol : Symbol) (timeframe : String) : Prop where
  symbol_eq : b.symbol = symbol
  timeframe_eq : b.timeframe = timeframe
  bucket_eq : b.bucket = s.last
  building : b.Building s.current
  idle : s.last = none → s.current = []
  published : List.Forall₂ (fun (bar : BuiltBar) g =>
    bar.ts = g.1 ∧ bar.Of symbol timeframe g.2) bars s.groups

section Mirrors

variable {b : BarBuilder} {tape : TapeTick} {k : Time} {secs : ℤ} {ps : List TapeTick}
  {bars : List BuiltBar} {s : Lib.Cutter TapeTick Time} {symbol : Symbol} {timeframe : String}

theorem BarBuilder.Collecting.ne_nil (h : b.Collecting k ps) : ps ≠ [] := by
  obtain ⟨prices, -, hof⟩ := h.prices
  rintro rfl
  exact absurd hof.openPrice (by simp)

/-- Nothing in progress: there are no prices yet. -/
theorem BarBuilder.Building.of_nil (h : b.Building []) : b.prices = none ∧ b.volume = 0 := by
  rcases h with ⟨-, hnone⟩ | ⟨k, hk⟩
  · exact hnone
  · exact absurd rfl hk.ne_nil

/-- Something in progress is in the bucket of the builder. -/
theorem BarBuilder.Building.collecting (h : b.Building ps) (hps : ps ≠ [])
    (hb : b.bucket = some k) : b.Collecting k ps := by
  rcases h with ⟨hnil, -⟩ | ⟨j, hj⟩
  · exact absurd hnil hps
  · obtain rfl : j = k := Option.some.inj (hj.bucket_eq.symm.trans hb)
    exact hj

/-- A print of the current bucket goes into the bar in progress. -/
theorem BarBuilder.Building.absorb (h : b.Building ps) (hb : b.bucket = some k)
    (p : TapeTick) : (b.absorb p).Collecting k (ps ++ [p]) := by
  by_cases hps : ps = []
  · subst hps
    obtain ⟨hprices, hvolume⟩ := h.of_nil
    have hself : b = { b with bucket := some k } := by rw [← hb]
    rw [hself]
    exact b.collecting_opened k p hprices hvolume
  · exact (h.collecting hps hb).absorb p

/-- `_finalize` closes the stretch. -/
theorem BarBuilder.Mirrors.finalize (h : b.Mirrors bars s symbol timeframe) :
    b.finalize.1.Mirrors (bars ++ b.finalize.2.toList)
      { s with groups := s.closed, current := [] } symbol timeframe := by
  by_cases hcurrent : s.current = []
  · -- there is nothing to put out
    have hprices : b.prices = none := (hcurrent ▸ h.building).of_nil.1
    have hfinal : b.finalize = (b, none) := by
      rw [BarBuilder.finalize, hprices]
      cases b.bucket <;> rfl
    have hclosed : s.closed = s.groups := by
      cases hlast : s.last with
      | none => rw [Lib.Cutter.closed, hlast]
      | some k => exact Lib.Cutter.closed_of_nil hlast hcurrent
    rw [hfinal, hclosed, ← hcurrent]
    simpa using h
  · cases hlast : s.last with
    | none => exact absurd (h.idle hlast) hcurrent
    | some k =>
        have hcollecting := h.building.collecting hcurrent (h.bucket_eq.trans hlast)
        obtain ⟨bar, hfinal, hts, hof⟩ := hcollecting.finalize
        rw [hfinal, Lib.Cutter.closed_of_ne_nil hlast hcurrent]
        refine ⟨h.symbol_eq, h.timeframe_eq, h.bucket_eq.trans hlast, Or.inl ⟨rfl, rfl, rfl⟩,
          fun _ => rfl, ?_⟩
        rw [h.symbol_eq, h.timeframe_eq] at hof
        exact List.rel_append h.published (.cons ⟨hts, hof⟩ .nil)

/-- A bar is opened in the bucket of its first print. -/
theorem BarBuilder.Mirrors.opened (h : b.Mirrors bars s symbol timeframe)
    (hcurrent : s.current = []) (tape : TapeTick) :
    ({ b with bucket := some (tape.bucket secs) }.absorb tape).Mirrors bars
      { s with last := some (tape.bucket secs), current := [tape] } symbol timeframe := by
  obtain ⟨hprices, hvolume⟩ := (hcurrent ▸ h.building).of_nil
  exact ⟨h.symbol_eq, h.timeframe_eq, rfl,
    Or.inr ⟨_, b.collecting_opened _ tape hprices hvolume⟩, fun hlast => absurd hlast (by simp),
    h.published⟩

/-- `on_print` with a print of the symbol is one element of the reader. -/
theorem BarBuilder.Mirrors.onPrint (h : b.Mirrors bars s symbol timeframe)
    (hsecs : timeframeSeconds timeframe = some secs) (hsymbol : tape.symbol = symbol) :
    ∃ next emitted, b.onPrint tape = some (next, emitted) ∧
      next.Mirrors (bars ++ emitted.toList) (s.step (TapeTick.bucket secs) (some tape))
        symbol timeframe := by
  have hsym : tape.symbol = b.symbol := hsymbol.trans h.symbol_eq.symm
  have htf : timeframeSeconds b.timeframe = some secs := h.timeframe_eq ▸ hsecs
  cases hlast : s.last with
  | none =>
      refine ⟨_, _, onPrint_first hsym htf (h.bucket_eq.trans hlast), ?_⟩
      rw [Lib.Cutter.step_first hlast]
      simpa using h.opened (h.idle hlast) tape
  | some k =>
      have hb : b.bucket = some k := h.bucket_eq.trans hlast
      rcases lt_trichotomy (tape.bucket secs) k with hlate | hsame | hlater
      · refine ⟨_, _, onPrint_late hsym htf hb hlate, ?_⟩
        rw [Lib.Cutter.step_late hlast hlate]
        simpa using h
      · refine ⟨_, _, onPrint_same hsym htf hb hsame, ?_⟩
        rw [Lib.Cutter.step_same hlast hsame]
        refine ⟨h.symbol_eq, h.timeframe_eq, h.bucket_eq,
          Or.inr ⟨k, h.building.absorb hb tape⟩, fun hnone => ?_, by simpa using h.published⟩
        exact absurd (hlast.symm.trans hnone) (by simp)
      · refine ⟨_, _, onPrint_opens hsym htf hb hlater, ?_⟩
        rw [Lib.Cutter.step_later hlast hlater]
        exact h.finalize.opened rfl tape

/-- One call is what the reader makes of it. -/
theorem BarBuilder.Mirrors.call (h : b.Mirrors bars s symbol timeframe)
    (hsecs : timeframeSeconds timeframe = some secs) (c : BarCall) :
    (b.call c).1.Mirrors (bars ++ (b.call c).2.toList)
      ((c.read symbol).elim s (s.step (TapeTick.bucket secs))) symbol timeframe := by
  cases c with
  | flush => exact h.finalize
  | onPrint tape =>
      by_cases hsymbol : tape.symbol = symbol
      · obtain ⟨next, emitted, hprint, hnext⟩ := h.onPrint hsecs hsymbol
        rw [BarBuilder.call, hprint, BarCall.read, if_pos hsymbol]
        exact hnext
      · -- the call raises
        have hprint : b.onPrint tape = none := by
          rw [BarBuilder.onPrint, if_pos (h.symbol_eq ▸ hsymbol)]
        rw [BarBuilder.call, hprint, BarCall.read, if_neg hsymbol]
        simpa using h

theorem feedOf_snoc (symbol : Symbol) (cs : List BarCall) (c : BarCall) :
    feedOf symbol (cs ++ [c]) = feedOf symbol cs ++ (c.read symbol).toList := by
  rw [feedOf, List.filterMap_append, feedOf]
  cases hread : c.read symbol <;> simp [hread]

theorem BarBuilder.calls_snoc (b : BarBuilder) (cs : List BarCall) (c : BarCall) :
    b.calls (cs ++ [c]) =
      (((b.calls cs).1.call c).1, (b.calls cs).2 ++ ((b.calls cs).1.call c).2.toList) := by
  rw [calls, List.foldl_append, List.foldl_cons, List.foldl_nil, calls]

/-- A run of calls. -/
theorem BarBuilder.Mirrors.calls (h : b.Mirrors [] .start symbol timeframe)
    (hsecs : timeframeSeconds timeframe = some secs) (cs : List BarCall) :
    (b.calls cs).1.Mirrors (b.calls cs).2
      (.after (TapeTick.bucket secs) (feedOf symbol cs)) symbol timeframe := by
  induction cs using List.reverseRecOn with
  | nil => exact h
  | append_singleton cs c ih =>
      rw [BarBuilder.calls_snoc, feedOf_snoc]
      cases hread : c.read symbol with
      | none =>
          have hcall := ih.call hsecs c
          rw [hread] at hcall
          simpa using hcall
      | some r =>
          have hcall := ih.call hsecs c
          rw [hread] at hcall
          rw [Option.toList_some, Lib.Cutter.after_snoc]
          exact hcall

/-- The bars are labelled as the stretches are. -/
theorem BarBuilder.Mirrors.labels (h : b.Mirrors bars s symbol timeframe) :
    bars.map (·.ts) = s.groups.map Prod.fst := by
  have hts : List.Forall₂ (· = ·) (bars.map (·.ts)) (s.groups.map Prod.fst) :=
    List.forall₂_map_left_iff.mpr
      (List.forall₂_map_right_iff.mpr (h.published.imp fun _ _ => And.left))
  rwa [List.forall₂_eq_eq_eq] at hts

/-- A new builder mirrors a reader that has seen nothing. -/
theorem BarBuilder.mirrors_new (hb : BarBuilder.new symbol timeframe = some b) :
    b.Mirrors [] .start symbol timeframe := by
  rw [new] at hb
  split at hb
  · obtain rfl := Option.some.inj hb
    exact ⟨rfl, rfl, rfl, Or.inl ⟨rfl, rfl, rfl⟩, fun _ => rfl, .nil⟩
  · exact absurd hb (by simp)

/-- Every accepted print is in a published bar or in the one in progress, whatever is called. -/
theorem BarBuilder.Mirrors.parts (h : b.Mirrors [] .start symbol timeframe)
    (hsecs : timeframeSeconds timeframe = some secs) (cs : List BarCall) :
    ∃ groups current,
      accepted secs (Lib.elements (feedOf symbol cs)) = groups.flatten ++ current ∧
      List.Forall₂ (fun (bar : BuiltBar) ps =>
        bar.Of symbol timeframe ps ∧ ∀ p ∈ ps, p.bucket secs = bar.ts) (b.calls cs).2 groups ∧
      (b.calls cs).1.Building current := by
  have hafter := h.calls hsecs cs
  refine ⟨_, _, (Lib.Cutter.flatten_after _ _).symm, ?_, hafter.building⟩
  have hkeys := fun g hg =>
    (Lib.Cutter.keys_after (TapeTick.bucket secs) (feedOf symbol cs) g hg).2
  have hboth := (List.forall₂_and_left _ _).mpr ⟨hkeys, hafter.published.flip⟩
  refine List.forall₂_map_right_iff.mpr (hboth.flip.imp ?_)
  rintro bar g ⟨hg, hts, hof⟩
  exact ⟨hof, fun p hp => (hg p hp).trans hts.symm⟩

end Mirrors

/--
**The bars of a builder are published as promised exactly when no bar is closed that
holds only what came after a flush of its bucket.** For any prints and flushes, in
any order.
-/
theorem BarBuilder.published_iff (symbol : Symbol) (timeframe : String) (secs : ℤ)
    (hsecs : timeframeSeconds timeframe = some secs) (b : BarBuilder)
    (hb : BarBuilder.new symbol timeframe = some b) (cs : List BarCall) :
    b.Published secs cs ↔ ClosesWhole secs symbol cs := by
  have hstart := BarBuilder.mirrors_new hb
  have hafter := hstart.calls hsecs cs
  rw [ClosesWhole, ← Lib.Cutter.increasing_iff, ← hafter.labels]
  constructor
  · intro h
    exact h.increasing
  · intro h
    refine ⟨h, ?_⟩
    rw [hstart.symbol_eq, hstart.timeframe_eq]
    exact hstart.parts hsecs cs

/-- A print, the end of the session, a print of the same minute after it, and the end again. -/
def flushedTwice : List BarCall :=
  [.onPrint ⟨"AAA", openingBell + 5, cents 500, 100, none⟩, .flush,
    .onPrint ⟨"AAA", openingBell + 20, cents 510, 100, none⟩, .flush]

theorem not_published_flushedTwice :
    ∃ b, BarBuilder.new "AAA" "1m" = some b ∧ ¬ b.Published 60 flushedTwice := by
  refine ⟨⟨"AAA", "1m", none, none, 0, rfl⟩, rfl, fun h => ?_⟩
  have hts : ((⟨"AAA", "1m", none, none, 0, rfl⟩ : BarBuilder).calls flushedTwice).2.map (·.ts) =
      [openingBell, openingBell] := by
    decide +kernel
  have hincreasing := h.increasing
  rw [hts] at hincreasing
  exact absurd hincreasing (by simp)

/-- Two prints of 9:30 with one of another symbol between them, one of 9:31, a late one of 9:30, the
end of the session, one more of 9:31 after it, and nothing that would close that bar. -/
def flushedOnce : List BarCall :=
  [.onPrint ⟨"AAA", openingBell + 5, cents 500, 100, none⟩,
    .onPrint ⟨"BBB", openingBell + 20, cents 900, 100, none⟩,
    .onPrint ⟨"AAA", openingBell + 40, cents 510, 300, none⟩,
    .onPrint ⟨"AAA", openingBell + 70, cents 505, 200, none⟩,
    .onPrint ⟨"AAA", openingBell + 50, cents 490, 100, none⟩, .flush,
    .onPrint ⟨"AAA", openingBell + 90, cents 515, 100, none⟩]

/-- Two minutes are published, once each. -/
theorem published_iff_flushedOnce :
    (⟨"AAA", "1m", none, none, 0, rfl⟩ : BarBuilder).Published 60 flushedOnce :=
  (BarBuilder.published_iff "AAA" "1m" 60 rfl _ rfl flushedOnce).mpr (by decide +kernel)

end RossBot
