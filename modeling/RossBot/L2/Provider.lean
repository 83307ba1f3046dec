import RossBot.L2.Detectors
import RossBot.Lib.Runs
import RossBot.Lib.Window

/-!
# The L2 provider and its window

`adapters/l2/provider.py`: depth and tape ticks come in, and `evaluate` reads one
signal off what was kept. Prints fall out of the tape's window only in `evaluate`,
and the instant it evicts by is that of the latest depth snapshot, not that of the
latest print. So what it counts are the prints not older than one window before
that snapshot (`counted_eq`), however much later the tape has gone on.
-/

namespace RossBot

open Lib

/-- `L2MicrostructureProvider`. -/
structure L2Provider where
  books : Symbol → Option DepthBook
  tapes : Symbol → Option TapeAccumulator

namespace L2Provider

/-- `L2MicrostructureProvider(config)`. -/
def new : L2Provider := ⟨fun _ => none, fun _ => none⟩

/-- `on_depth`; a `ValueError` of the new book keeps nothing. -/
def onDepth (cfg : L2Config) (p : L2Provider) (tick : DepthTick) : L2Provider :=
  let book := match p.books tick.symbol with
    | some book => some book
    | none => DepthBook.new cfg.l2DepthSnapshots
  match book with
  | none => p
  | some book => { p with books := Function.update p.books tick.symbol (some (book.add tick)) }

/-- `on_tape`; a `ValueError` of the new window keeps nothing. -/
def onTape (cfg : L2Config) (p : L2Provider) (tick : TapeTick) : L2Provider :=
  let tape := match p.tapes tick.symbol with
    | some tape => some tape
    | none => TapeAccumulator.new cfg.l2WindowSecs
  match tape with
  | none => p
  | some tape => { p with tapes := Function.update p.tapes tick.symbol (some (tape.add tick)) }

/-- `reset`. -/
def reset (p : L2Provider) (symbol : Symbol) : L2Provider :=
  { books := Function.update p.books symbol none
    tapes := Function.update p.tapes symbol none }

/-- The detectors of `evaluate`, danger first. -/
def detect (cfg : L2Config) (snaps : List DepthSnapshot) (snap : DepthSnapshot)
    (agg : TapeAggregate) : L2Signal :=
  if detectSpoof cfg snaps agg then .spoof
  else if detectIceberg cfg agg snap then .iceberg
  else if detectAbsorbBreak cfg snaps agg then .absorbBreak
  else if detectRealFloor cfg snaps agg then .support
  else .unknown

/-- `evaluate`. -/
def evaluate (cfg : L2Config) (p : L2Provider) (symbol : Symbol) : L2Provider × L2Signal :=
  match p.books symbol, p.tapes symbol with
  | some book, some tape =>
      match book.buf.getLast? with
      | none => (p, .unknown)
      | some snap =>
          let r := tape.aggregate (some snap.ts)
          ({ p with tapes := Function.update p.tapes symbol (some r.1) },
            detect cfg book.buf snap r.2)
  | _, _ => (p, .unknown)

/-- The prints the aggregate of `evaluate` counts: those left in the window once it has evicted. -/
def counted (p : L2Provider) (symbol : Symbol) : List TapePrint :=
  match p.books symbol, p.tapes symbol with
  | some book, some tape =>
      match book.buf.getLast? with
      | none => []
      | some snap => (tape.aggregate (some snap.ts)).1.buf
  | _, _ => []

end L2Provider

/-! ## Histories -/

/-- What happens to a provider. -/
inductive L2Event where
  | depth (tick : DepthTick)
  | tape (tick : TapeTick)
  | reset (symbol : Symbol)
  | evaluate (symbol : Symbol)

/-- What an event makes of the provider. -/
def L2Provider.answer (cfg : L2Config) (p : L2Provider) : L2Event → L2Provider
  | .depth tick => p.onDepth cfg tick
  | .tape tick => p.onTape cfg tick
  | .reset symbol => p.reset symbol
  | .evaluate symbol => (p.evaluate cfg symbol).1

/-- The provider after some events. -/
def l2After (cfg : L2Config) (events : List L2Event) : L2Provider :=
  events.foldl (L2Provider.answer cfg) .new

/-- The depth stream of a symbol. -/
def depthStream (symbol : Symbol) (events : List L2Event) : List DepthTick :=
  events.filterMap fun e => match e with
    | .depth tick => if tick.symbol = symbol then some tick else none
    | _ => none

/-- The tape of a symbol. -/
def tapeStream (symbol : Symbol) (events : List L2Event) : List TapeTick :=
  events.filterMap fun e => match e with
    | .tape tick => if tick.symbol = symbol then some tick else none
    | _ => none

/-- The events of a symbol since its last reset. -/
def sinceReset (symbol : Symbol) (events : List L2Event) : List L2Event :=
  events.rtakeWhile fun e => match e with
    | .reset sym => decide (sym ≠ symbol)
    | _ => true

/-- The prints of a symbol since its last reset. -/
def printsSince (symbol : Symbol) (events : List L2Event) : List TapeTick :=
  tapeStream symbol (sinceReset symbol events)

/-- The snapshots of a symbol since its last reset; an incomplete tick makes none. -/
def snapsSince (symbol : Symbol) (events : List L2Event) : List DepthSnapshot :=
  (depthStream symbol (sinceReset symbol events)).filterMap DepthTick.snapshot

variable {cfg : L2Config} {events : List L2Event} {symbol : Symbol} {p : L2Provider}

theorem sinceReset_snoc (e : L2Event) : sinceReset symbol (events ++ [e])
    = match e with
      | .reset sym => if sym = symbol then [] else sinceReset symbol events ++ [e]
      | _ => sinceReset symbol events ++ [e] := by
  unfold sinceReset
  rw [List.rtakeWhile_concat]
  cases e with
  | reset sym => by_cases hsym : sym = symbol <;> simp [hsym]
  | depth | tape | evaluate => simp

theorem printsSince_depth (tick : DepthTick) :
    printsSince symbol (events ++ [.depth tick]) = printsSince symbol events := by
  rw [printsSince, sinceReset_snoc]
  simp [printsSince, tapeStream]

theorem printsSince_tape (tick : TapeTick) : printsSince symbol (events ++ [.tape tick])
    = printsSince symbol events ++ if tick.symbol = symbol then [tick] else [] := by
  rw [printsSince, sinceReset_snoc]
  by_cases hsym : tick.symbol = symbol <;> simp [printsSince, tapeStream, hsym]

theorem printsSince_reset (sym : Symbol) : printsSince symbol (events ++ [.reset sym])
    = if sym = symbol then [] else printsSince symbol events := by
  rw [printsSince, sinceReset_snoc]
  by_cases hsym : sym = symbol <;> simp [printsSince, tapeStream, hsym]

theorem printsSince_evaluate (sym : Symbol) :
    printsSince symbol (events ++ [.evaluate sym]) = printsSince symbol events := by
  rw [printsSince, sinceReset_snoc]
  simp [printsSince, tapeStream]

theorem snapsSince_depth (tick : DepthTick) : snapsSince symbol (events ++ [.depth tick])
    = snapsSince symbol events
      ++ if tick.symbol = symbol then tick.snapshot.toList else [] := by
  rw [snapsSince, sinceReset_snoc]
  by_cases hsym : tick.symbol = symbol
  · cases hsnap : tick.snapshot <;> simp [snapsSince, depthStream, hsym, hsnap]
  · simp [snapsSince, depthStream, hsym]

theorem snapsSince_tape (tick : TapeTick) :
    snapsSince symbol (events ++ [.tape tick]) = snapsSince symbol events := by
  rw [snapsSince, sinceReset_snoc]
  simp [snapsSince, depthStream]

theorem snapsSince_reset (sym : Symbol) : snapsSince symbol (events ++ [.reset sym])
    = if sym = symbol then [] else snapsSince symbol events := by
  rw [snapsSince, sinceReset_snoc]
  by_cases hsym : sym = symbol <;> simp [snapsSince, depthStream, hsym]

theorem snapsSince_evaluate (sym : Symbol) :
    snapsSince symbol (events ++ [.evaluate sym]) = snapsSince symbol events := by
  rw [snapsSince, sinceReset_snoc]
  simp [snapsSince, depthStream]

/-! ## What the provider keeps of its history -/

/-- What a print says of its tick. -/
def TapePrint.seen (p : TapePrint) : Time × Money × ℤ := (p.ts, p.price, p.size)

/-- What of a tick a print keeps; the side may be inferred. -/
def TapeTick.seen (t : TapeTick) : Time × Money × ℤ := (t.ts, t.price, t.size)

/-- What a book that saw some snapshots holds: the latest of them is its latest. -/
def BookTracks (cfg : L2Config) (snaps : List DepthSnapshot) : Option DepthBook → Prop
  | none => 2 ≤ cfg.l2DepthSnapshots → snaps = []
  | some book => 2 ≤ cfg.l2DepthSnapshots ∧ book.buf.getLast? = snaps.getLast?

/-- What a window that saw some prints holds: all but the first, each of which was too old for one
of the snapshots. -/
def TapeTracks (cfg : L2Config) (prints : List TapeTick) (snaps : List DepthSnapshot) :
    Option TapeAccumulator → Prop
  | none => 0 < cfg.l2WindowSecs → prints = []
  | some tape => tape.windowSecs = cfg.l2WindowSecs
      ∧ ∃ gone kept, prints = gone ++ kept ∧ tape.buf.map (·.seen) = kept.map (·.seen)
        ∧ ∀ t ∈ gone, ∃ snap ∈ snaps, t.ts < snap.ts - cfg.l2WindowSecs

/-- The latest snapshot of a book is that of the latest complete tick. -/
theorem DepthBook.getLast_add (book : DepthBook) (tick : DepthTick) :
    (book.add tick).buf.getLast? = (book.buf ++ tick.snapshot.toList).getLast? := by
  unfold DepthBook.add
  cases tick.snapshot with
  | none => simp
  | some snap =>
      obtain ⟨n, hn⟩ : ∃ n, book.maxSnapshots = n + 1 :=
        Nat.exists_eq_succ_of_ne_zero (by have := book.two_le; omega)
      dsimp only
      rw [hn, List.rtake_concat_succ]
      simp

theorem TapeAccumulator.seen_add (tape : TapeAccumulator) (tick : TapeTick) :
    (tape.add tick).buf.map (·.seen) = tape.buf.map (·.seen) ++ [tick.seen] := by
  unfold TapeAccumulator.add
  rw [List.map_append]
  rfl

variable {snaps : List DepthSnapshot} {prints : List TapeTick}

/-- Snapshots that come later make no print less old. -/
theorem TapeTracks.of_append {tape : Option TapeAccumulator} (h : TapeTracks cfg prints snaps tape)
    (later : List DepthSnapshot) : TapeTracks cfg prints (snaps ++ later) tape := by
  cases tape with
  | none => exact h
  | some tape =>
      obtain ⟨hw, gone, kept, hsplit, hkept, hgone⟩ := h
      refine ⟨hw, gone, kept, hsplit, hkept, fun t ht => ?_⟩
      obtain ⟨snap, hsnap, hlt⟩ := hgone t ht
      exact ⟨snap, List.mem_append_left _ hsnap, hlt⟩

/-- A depth tick. -/
theorem BookTracks.onDepth {tick : DepthTick} (h : BookTracks cfg snaps (p.books tick.symbol)) :
    BookTracks cfg (snaps ++ tick.snapshot.toList) ((p.onDepth cfg tick).books tick.symbol) := by
  -- a book that is there takes the snapshot in
  have hadd : ∀ book : DepthBook, 2 ≤ cfg.l2DepthSnapshots → book.buf.getLast? = snaps.getLast? →
      BookTracks cfg (snaps ++ tick.snapshot.toList) (some (book.add tick)) := by
    intro book hn hlast
    refine ⟨hn, ?_⟩
    rw [DepthBook.getLast_add, List.getLast?_append, List.getLast?_append, hlast]
  unfold L2Provider.onDepth
  cases hbook : p.books tick.symbol with
  | some book =>
      rw [hbook] at h
      dsimp only
      rw [Function.update_self]
      exact hadd book h.1 h.2
  | none =>
      rw [hbook] at h
      -- a book is made for the first tick, if the configuration lets it
      by_cases hn : 2 ≤ cfg.l2DepthSnapshots
      · have hnew : DepthBook.new cfg.l2DepthSnapshots
            = some ⟨cfg.l2DepthSnapshots.toNat, [], by omega, by simp⟩ := dif_pos hn
        rw [hnew]
        dsimp only
        rw [Function.update_self]
        exact hadd _ hn (by rw [h hn])
      · have hnew : DepthBook.new cfg.l2DepthSnapshots = none := dif_neg hn
        rw [hnew]
        dsimp only
        rw [hbook]
        exact fun hn' => absurd hn' hn

/-- A print. -/
theorem TapeTracks.onTape {tick : TapeTick}
    (h : TapeTracks cfg prints snaps (p.tapes tick.symbol)) :
    TapeTracks cfg (prints ++ [tick]) snaps ((p.onTape cfg tick).tapes tick.symbol) := by
  have hadd : ∀ tape, TapeTracks cfg prints snaps (some tape) →
      TapeTracks cfg (prints ++ [tick]) snaps (some (tape.add tick)) := by
    -- what was evicted stays evicted, what is kept grows at its end
    rintro tape ⟨hw, gone, kept, hsplit, hkept, hgone⟩
    refine ⟨hw, gone, kept ++ [tick], ?_, ?_, hgone⟩
    · rw [hsplit, List.append_assoc]
    · rw [TapeAccumulator.seen_add, hkept, List.map_append]
      rfl
  unfold L2Provider.onTape
  cases htape : p.tapes tick.symbol with
  | some tape =>
      rw [htape] at h
      dsimp only
      rw [Function.update_self]
      exact hadd tape h
  | none =>
      rw [htape] at h
      -- a tape is made for the first print, if the configuration lets it
      by_cases hn : 0 < cfg.l2WindowSecs
      · have hnew : TapeAccumulator.new cfg.l2WindowSecs
            = some ⟨cfg.l2WindowSecs, [], none, hn⟩ := dif_pos hn
        rw [hnew]
        dsimp only
        rw [Function.update_self]
        exact hadd _ ⟨rfl, [], [], by rw [h hn]; rfl, rfl, by simp⟩
      · have hnew : TapeAccumulator.new cfg.l2WindowSecs = none := dif_neg hn
        rw [hnew]
        dsimp only
        rw [htape]
        exact fun hn' => absurd hn' hn

/-- An eviction drops the same of the ticks as of their prints. -/
theorem evict_seen {tape : TapeAccumulator} {kept : List TapeTick}
    (hw : tape.windowSecs = cfg.l2WindowSecs)
    (hkept : tape.buf.map (·.seen) = kept.map (·.seen)) (now : Time) :
    (tape.evict now).buf.map (·.seen)
      = (kept.dropWhile fun t => decide (t.ts < now - cfg.l2WindowSecs)).map (·.seen) := by
  have hdrop := congrArg
    (List.dropWhile fun x : Time × Money × ℤ => decide (x.1 < now - cfg.l2WindowSecs)) hkept
  rw [List.dropWhile_map, List.dropWhile_map] at hdrop
  change (tape.buf.dropWhile fun p => decide (p.ts < now - tape.windowSecs)).map (·.seen) = _
  rw [hw]
  exact hdrop

/-- An eviction by one of the snapshots. -/
theorem TapeTracks.evict {tape : TapeAccumulator} {snap : DepthSnapshot}
    (h : TapeTracks cfg prints snaps (some tape)) (hsnap : snap ∈ snaps) :
    TapeTracks cfg prints snaps (some (tape.evict snap.ts)) := by
  obtain ⟨hw, gone, kept, hsplit, hkept, hgone⟩ := h
  have hleft : LeftOf (fun t : TapeTick => ∃ s ∈ snaps, t.ts < s.ts - cfg.l2WindowSecs)
      prints kept := ⟨gone, hsplit, hgone⟩
  obtain ⟨gone', hsplit', hgone'⟩ := hleft.dropWhile
    (p := fun t => decide (t.ts < snap.ts - cfg.l2WindowSecs))
    fun t ht => ⟨snap, hsnap, of_decide_eq_true ht⟩
  exact ⟨hw, gone', _, hsplit', evict_seen hw hkept snap.ts, hgone'⟩

/-- What `evaluate` leaves in the window of a symbol. -/
theorem TapeTracks.evaluate (hbook : BookTracks cfg snaps (p.books symbol))
    (h : TapeTracks cfg prints snaps (p.tapes symbol)) :
    TapeTracks cfg prints snaps ((p.evaluate cfg symbol).1.tapes symbol) := by
  unfold L2Provider.evaluate
  cases hb : p.books symbol with
  -- no book, no tape, or no snapshot: nothing is evicted
  | none => exact h
  | some book =>
      cases ht : p.tapes symbol with
      | none => rw [ht] at h; dsimp only; rw [ht]; exact h
      | some tape =>
          rw [ht] at h
          rw [hb] at hbook
          dsimp only
          cases hlast : book.buf.getLast? with
          | none => dsimp only; rw [ht]; exact h
          | some snap =>
              -- evicted by a snapshot that came
              have hsnap : snap ∈ snaps := List.mem_of_getLast? (hbook.2 ▸ hlast)
              dsimp only
              rw [Function.update_self]
              exact h.evict hsnap

theorem L2Provider.evaluate_books (cfg : L2Config) (p : L2Provider) (sym : Symbol) :
    (p.evaluate cfg sym).1.books = p.books := by
  unfold L2Provider.evaluate
  split
  · split <;> rfl
  · rfl

theorem L2Provider.evaluate_tapes_ne {sym : Symbol} (h : symbol ≠ sym) :
    (p.evaluate cfg sym).1.tapes symbol = p.tapes symbol := by
  unfold L2Provider.evaluate
  split
  · split
    · rfl
    · exact Function.update_of_ne h _ _
  · rfl

theorem L2Provider.onDepth_tapes (cfg : L2Config) (p : L2Provider) (tick : DepthTick) :
    (p.onDepth cfg tick).tapes = p.tapes := by
  unfold L2Provider.onDepth
  dsimp only
  split <;> rfl

theorem L2Provider.onDepth_books_ne {tick : DepthTick} (h : symbol ≠ tick.symbol) :
    (p.onDepth cfg tick).books symbol = p.books symbol := by
  unfold L2Provider.onDepth
  dsimp only
  split
  · rfl
  · exact Function.update_of_ne h _ _

theorem L2Provider.onTape_books (cfg : L2Config) (p : L2Provider) (tick : TapeTick) :
    (p.onTape cfg tick).books = p.books := by
  unfold L2Provider.onTape
  dsimp only
  split <;> rfl

theorem L2Provider.onTape_tapes_ne {tick : TapeTick} (h : symbol ≠ tick.symbol) :
    (p.onTape cfg tick).tapes symbol = p.tapes symbol := by
  unfold L2Provider.onTape
  dsimp only
  split
  · rfl
  · exact Function.update_of_ne h _ _

/-- What a provider keeps of the history of a symbol. -/
structure L2Provider.Tracks (cfg : L2Config) (p : L2Provider) (events : List L2Event)
    (symbol : Symbol) : Prop where
  book : BookTracks cfg (snapsSince symbol events) (p.books symbol)
  tape : TapeTracks cfg (printsSince symbol events) (snapsSince symbol events) (p.tapes symbol)

theorem L2Provider.Tracks.depth (h : p.Tracks cfg events symbol) (tick : DepthTick) :
    (p.onDepth cfg tick).Tracks cfg (events ++ [.depth tick]) symbol where
  book := by
    rw [snapsSince_depth]
    by_cases hsym : tick.symbol = symbol
    · rw [if_pos hsym]
      subst hsym
      exact h.book.onDepth
    · rw [if_neg hsym, List.append_nil, onDepth_books_ne (Ne.symm hsym)]
      exact h.book
  tape := by
    rw [snapsSince_depth, printsSince_depth, onDepth_tapes]
    exact h.tape.of_append _

theorem L2Provider.Tracks.print (h : p.Tracks cfg events symbol) (tick : TapeTick) :
    (p.onTape cfg tick).Tracks cfg (events ++ [.tape tick]) symbol where
  book := by
    rw [snapsSince_tape, onTape_books]
    exact h.book
  tape := by
    rw [snapsSince_tape, printsSince_tape]
    by_cases hsym : tick.symbol = symbol
    · rw [if_pos hsym]
      subst hsym
      exact h.tape.onTape
    · rw [if_neg hsym, List.append_nil, onTape_tapes_ne (Ne.symm hsym)]
      exact h.tape

theorem L2Provider.Tracks.reset (h : p.Tracks cfg events symbol) (sym : Symbol) :
    (p.reset sym).Tracks cfg (events ++ [.reset sym]) symbol := by
  by_cases hsym : sym = symbol
  · -- everything of the symbol is forgotten
    subst hsym
    have hbook : (p.reset sym).books sym = none := Function.update_self ..
    have htape : (p.reset sym).tapes sym = none := Function.update_self ..
    refine ⟨?_, ?_⟩
    · rw [snapsSince_reset, if_pos rfl, hbook]
      exact fun _ => rfl
    · rw [printsSince_reset, if_pos rfl, htape]
      exact fun _ => rfl
  · -- the others keep theirs
    have hbook : (p.reset sym).books symbol = p.books symbol :=
      Function.update_of_ne (Ne.symm hsym) ..
    have htape : (p.reset sym).tapes symbol = p.tapes symbol :=
      Function.update_of_ne (Ne.symm hsym) ..
    refine ⟨?_, ?_⟩
    · rw [snapsSince_reset, if_neg hsym, hbook]
      exact h.book
    · rw [snapsSince_reset, printsSince_reset, if_neg hsym, if_neg hsym, htape]
      exact h.tape

theorem L2Provider.Tracks.evaluate (h : p.Tracks cfg events symbol) (sym : Symbol) :
    (p.evaluate cfg sym).1.Tracks cfg (events ++ [.evaluate sym]) symbol where
  book := by
    rw [snapsSince_evaluate, evaluate_books]
    exact h.book
  tape := by
    rw [snapsSince_evaluate, printsSince_evaluate]
    by_cases hsym : sym = symbol
    · subst hsym
      exact h.tape.evaluate h.book
    · rw [evaluate_tapes_ne (Ne.symm hsym)]
      exact h.tape

theorem L2Provider.Tracks.answer (h : p.Tracks cfg events symbol) (e : L2Event) :
    (p.answer cfg e).Tracks cfg (events ++ [e]) symbol := by
  cases e with
  | depth tick => exact h.depth tick
  | tape tick => exact h.print tick
  | reset sym => exact h.reset sym
  | evaluate sym => exact h.evaluate sym

/-- **What the provider keeps of any history**, for every symbol. -/
theorem l2After_tracks (cfg : L2Config) (events : List L2Event) (symbol : Symbol) :
    (l2After cfg events).Tracks cfg events symbol := by
  induction events using List.reverseRecOn with
  | nil => exact ⟨fun _ => rfl, fun _ => rfl⟩
  | append_singleton events e ih =>
      rw [l2After, foldl_snoc]
      exact ih.answer e

/-! ## The window -/

/-- The prints an evaluation counts lie within one span of the window. -/
def CountedWithinWindow (cfg : L2Config) (events : List L2Event) (symbol : Symbol) : Prop :=
  ∀ a ∈ (l2After cfg events).counted symbol, ∀ b ∈ (l2After cfg events).counted symbol,
    b.ts - a.ts ≤ cfg.l2WindowSecs

/-- The ticks of both feeds of a symbol came in order. -/
structure InOrder (symbol : Symbol) (events : List L2Event) : Prop where
  depth : (depthStream symbol events).Pairwise fun a b => a.ts ≤ b.ts
  tape : (tapeStream symbol events).Pairwise fun a b => a.ts ≤ b.ts

theorem InOrder.printsSince (h : InOrder symbol events) :
    (RossBot.printsSince symbol events).Pairwise fun a b => a.ts ≤ b.ts :=
  h.tape.sublist ((List.rtakeWhile_suffix _ _).sublist.filterMap _)

theorem InOrder.snapsSince (h : InOrder symbol events) :
    (RossBot.snapsSince symbol events).Pairwise fun a b => a.ts ≤ b.ts := by
  have hsince : (depthStream symbol (sinceReset symbol events)).Pairwise fun a b => a.ts ≤ b.ts :=
    h.depth.sublist ((List.rtakeWhile_suffix _ _).sublist.filterMap _)
  refine List.pairwise_filterMap.mpr (hsince.imp ?_)
  intro a b hle a' ha b' hb
  rw [DepthTick.snapshot_ts ha, DepthTick.snapshot_ts hb]
  exact hle

/-- No snapshot is later than the latest. -/
theorem InOrder.le_latest (h : InOrder symbol events) {snap : DepthSnapshot}
    (hsnap : (RossBot.snapsSince symbol events).getLast? = some snap) :
    ∀ s ∈ RossBot.snapsSince symbol events, s.ts ≤ snap.ts := by
  intro s hs
  obtain ⟨front, hfront⟩ := List.getLast?_eq_some_iff.mp hsnap
  have hall := h.snapsSince
  rw [hfront] at hs hall
  rcases List.mem_append.mp hs with hs | hs
  · exact (List.pairwise_append.mp hall).2.2 s hs snap (List.mem_singleton.mpr rfl)
  · rw [List.mem_singleton.mp hs]

/-- **What an evaluation counts** are the prints since the reset that are not older than one window
before the latest snapshot. -/
theorem counted_eq (h : InOrder symbol events) {snap : DepthSnapshot}
    (hw : 0 < cfg.l2WindowSecs) (hn : 2 ≤ cfg.l2DepthSnapshots)
    (hsnap : (snapsSince symbol events).getLast? = some snap) :
    ((l2After cfg events).counted symbol).map (·.seen)
      = ((printsSince symbol events).filter
          fun t => decide (snap.ts - cfg.l2WindowSecs ≤ t.ts)).map (·.seen) := by
  obtain ⟨hbook, htape⟩ := l2After_tracks cfg events symbol
  unfold L2Provider.counted
  -- with a snapshot there is a book
  cases hb : (l2After cfg events).books symbol with
  | none =>
      rw [hb] at hbook
      rw [hbook hn] at hsnap
      exact absurd hsnap (by simp)
  | some book =>
      rw [hb] at hbook
      -- without a tape there was no print
      cases ht : (l2After cfg events).tapes symbol with
      | none =>
          rw [ht] at htape
          rw [htape hw]
          rfl
      | some tape =>
          rw [ht] at htape
          obtain ⟨hw', gone, kept, hsplit, hkept, hgone⟩ := htape
          have hlast : book.buf.getLast? = some snap := hbook.2.trans hsnap
          have hleft : LeftOf (fun t : TapeTick => ∃ s ∈ snapsSince symbol events,
              t.ts < s.ts - cfg.l2WindowSecs) (printsSince symbol events) kept :=
            ⟨gone, hsplit, hgone⟩
          -- what was evicted before would be evicted now
          have hdrop : kept.dropWhile (fun t => decide (t.ts < snap.ts - cfg.l2WindowSecs)) =
              (printsSince symbol events).dropWhile
                fun t => decide (t.ts < snap.ts - cfg.l2WindowSecs) := by
            refine hleft.dropWhile_eq ?_
            rintro t ⟨s, hs, hlt⟩
            have hle := h.le_latest hsnap s hs
            rw [decide_eq_true_eq]
            linarith
          rw [← dropWhile_eq_filter h.printsSince (snap.ts - cfg.l2WindowSecs), ← hdrop]
          dsimp only
          rw [hlast]
          exact evict_seen hw' hkept snap.ts

/-- Prints are counted only by a provider with a valid window and a snapshot. -/
theorem valid_of_mem_counted {a : TapePrint} (ha : a ∈ (l2After cfg events).counted symbol) :
    0 < cfg.l2WindowSecs ∧ 2 ≤ cfg.l2DepthSnapshots
      ∧ ∃ snap, (snapsSince symbol events).getLast? = some snap := by
  obtain ⟨hbook, htape⟩ := l2After_tracks cfg events symbol
  unfold L2Provider.counted at ha
  -- prints are only counted against a snapshot
  cases hb : (l2After cfg events).books symbol with
  | none =>
      rw [hb] at ha
      exact absurd ha (by simp)
  | some book =>
      rw [hb] at hbook ha
      cases ht : (l2After cfg events).tapes symbol with
      | none =>
          rw [ht] at ha
          exact absurd ha (by simp)
      | some tape =>
          rw [ht] at htape ha
          dsimp only at ha
          cases hlast : book.buf.getLast? with
          | none =>
              rw [hlast] at ha
              exact absurd ha (by simp)
          | some snap =>
              exact ⟨htape.1 ▸ tape.positive, hbook.1, snap, hbook.2.symm.trans hlast⟩

/-- The instants counted are those of the prints in reach of the latest snapshot. -/
theorem counted_ts_iff (h : InOrder symbol events) {snap : DepthSnapshot}
    (hw : 0 < cfg.l2WindowSecs) (hn : 2 ≤ cfg.l2DepthSnapshots)
    (hsnap : (snapsSince symbol events).getLast? = some snap) {t : Time} :
    (∃ a ∈ (l2After cfg events).counted symbol, a.ts = t)
      ↔ ∃ a ∈ printsSince symbol events, snap.ts - cfg.l2WindowSecs ≤ a.ts ∧ a.ts = t := by
  have hts : ((l2After cfg events).counted symbol).map (·.ts)
      = ((printsSince symbol events).filter
          fun t => decide (snap.ts - cfg.l2WindowSecs ≤ t.ts)).map (·.ts) := by
    have hseen := congrArg (List.map Prod.fst) (counted_eq h hw hn hsnap)
    rw [List.map_map, List.map_map] at hseen
    exact hseen
  rw [← List.mem_map, hts, List.mem_map]
  simp [and_assoc]

/-- **The prints an evaluation counts lie within one window exactly when the tape it reaches back
to does**: no two prints since the reset, neither older than one window before the latest snapshot,
are further apart than the window. -/
theorem countedWithinWindow_iff (cfg : L2Config) (events : List L2Event) (symbol : Symbol)
    (h : InOrder symbol events) :
    CountedWithinWindow cfg events symbol
      ↔ (0 < cfg.l2WindowSecs → 2 ≤ cfg.l2DepthSnapshots →
          ∀ snap ∈ (snapsSince symbol events).getLast?, ∀ a ∈ printsSince symbol events,
            ∀ b ∈ printsSince symbol events, snap.ts - cfg.l2WindowSecs ≤ a.ts →
              snap.ts - cfg.l2WindowSecs ≤ b.ts → b.ts - a.ts ≤ cfg.l2WindowSecs) := by
  constructor
  · intro hall hw hn snap hsnap a ha b hb hra hrb
    obtain ⟨a', ha', hta⟩ := (counted_ts_iff h hw hn hsnap).mpr ⟨a, ha, hra, rfl⟩
    obtain ⟨b', hb', htb⟩ := (counted_ts_iff h hw hn hsnap).mpr ⟨b, hb, hrb, rfl⟩
    rw [← hta, ← htb]
    exact hall a' ha' b' hb'
  · intro hall a ha b hb
    obtain ⟨hw, hn, snap, hsnap⟩ := valid_of_mem_counted ha
    obtain ⟨a', ha', hra, hta⟩ := (counted_ts_iff h hw hn hsnap).mp ⟨a, ha, rfl⟩
    obtain ⟨b', hb', hrb, htb⟩ := (counted_ts_iff h hw hn hsnap).mp ⟨b, hb, rfl⟩
    rw [← hta, ← htb]
    exact hall hw hn snap hsnap a' ha' b' hb' hra hrb

/-- While the depth feed is not behind the tape, all that is counted lies within one window. -/
theorem countedWithinWindow_of_depth_ahead (h : InOrder symbol events)
    (hahead : ∀ snap ∈ (snapsSince symbol events).getLast?,
      ∀ t ∈ printsSince symbol events, t.ts ≤ snap.ts) : CountedWithinWindow cfg events symbol := by
  intro a ha b hb
  obtain ⟨hw, hn, snap, hsnap⟩ := valid_of_mem_counted ha
  obtain ⟨a', -, hra, hta⟩ := (counted_ts_iff h hw hn hsnap).mp ⟨a, ha, rfl⟩
  obtain ⟨b', hb', -, htb⟩ := (counted_ts_iff h hw hn hsnap).mp ⟨b, hb, rfl⟩
  have hle := hahead snap hsnap b' hb'
  rw [← hta, ← htb]
  linarith

/-- A signal other than `UNKNOWN` was read off what was counted. -/
theorem evaluate_counted (hsignal : (p.evaluate cfg symbol).2 ≠ .unknown) :
    ∃ snaps snap windowSecs, (p.evaluate cfg symbol).2
      = L2Provider.detect cfg snaps snap (aggregateOf windowSecs (p.counted symbol)) := by
  unfold L2Provider.evaluate at hsignal ⊢
  unfold L2Provider.counted
  -- the three ways to know nothing
  cases hb : p.books symbol with
  | none =>
      rw [hb] at hsignal
      exact absurd rfl hsignal
  | some book =>
      cases ht : p.tapes symbol with
      | none =>
          rw [hb, ht] at hsignal
          exact absurd rfl hsignal
      | some tape =>
          rw [hb, ht] at hsignal
          dsimp only at hsignal ⊢
          cases hlast : book.buf.getLast? with
          | none =>
              rw [hlast] at hsignal
              exact absurd rfl hsignal
          | some snap => exact ⟨book.buf, snap, tape.windowSecs, rfl⟩

/-- A book with 10000 shares bid and 500 offered. -/
def quietBook (seconds : ℤ) : L2Event :=
  .depth ⟨"TEST", openingBell + seconds, [(cents 500, 10000)], [(cents 501, 500)]⟩

/-- 150 shares are bought. -/
def smallBuy (seconds : ℤ) : L2Event :=
  .tape ⟨"TEST", openingBell + seconds, cents 501, 150, some .buy⟩

/-- Depth and tape side by side. -/
def steadyFeeds : List L2Event := [quietBook 0, smallBuy 1, quietBook 20, smallBuy 25]

theorem countedWithinWindow_steadyFeeds : InOrder "TEST" steadyFeeds
    ∧ CountedWithinWindow L2Config.defaults steadyFeeds "TEST" := by
  have hinOrder : InOrder "TEST" steadyFeeds := ⟨by decide +kernel, by decide +kernel⟩
  refine ⟨hinOrder, (countedWithinWindow_iff _ _ _ hinOrder).mpr ?_⟩
  intro _ _ snap _
  have hspan : ∀ a ∈ printsSince "TEST" steadyFeeds, ∀ b ∈ printsSince "TEST" steadyFeeds,
      b.ts - a.ts ≤ L2Config.defaults.l2WindowSecs := by decide +kernel
  intro a ha b hb _ _
  exact hspan a ha b hb

/-- The depth feed stalls after a second, and the tape prints again 99 seconds later. -/
def stalledDepth : List L2Event := [quietBook 0, quietBook 1, smallBuy 1, smallBuy 100]

/-- Two prints 99 seconds apart confirm a floor in a window of 30 seconds. -/
theorem support_from_stale_tape :
    ((l2After L2Config.defaults stalledDepth).evaluate L2Config.defaults "TEST").2 = .support
      ∧ ¬ ∀ cfg events symbol, InOrder symbol events → CountedWithinWindow cfg events symbol := by
  refine ⟨by decide +kernel, fun h => ?_⟩
  have hinOrder : InOrder "TEST" stalledDepth := ⟨by decide +kernel, by decide +kernel⟩
  have hspan : ¬ ∀ a ∈ (l2After L2Config.defaults stalledDepth).counted "TEST",
      ∀ b ∈ (l2After L2Config.defaults stalledDepth).counted "TEST",
        b.ts - a.ts ≤ L2Config.defaults.l2WindowSecs := by decide +kernel
  exact hspan (h L2Config.defaults stalledDepth "TEST" hinOrder)

end RossBot
