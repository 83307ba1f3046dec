import RossBot.Live.Flatten

/-!
# Reconciliation

`_reconcile_loop` drops every tracked symbol that the broker's position map does
not have. The map can lack a symbol that is held for two reasons: the call
failed, and `get_broker_positions` reads a failure as an empty account; or the
shares were bought after the broker took the snapshot, and `_open` was read
after the answer came. Quantities are compared and logged, and never corrected.
-/

namespace RossBot

open Lib World

/-! ## What happened since -/

/-- The events after the broker last took a snapshot. -/
def sinceSnapshot (log : List Event) : List Event :=
  log.reverse.takeWhile fun
    | .snapshot _ => false
    | _ => true

/-- The events after the reconcile loop last asked for the positions. -/
def sinceRequest (log : List Event) : List Event :=
  log.reverse.takeWhile fun
    | .snapshotRequested => false
    | _ => true

/-- The broker's holding of a symbol rose after the snapshot. -/
def boughtSince (symbol : Symbol) (log : List Event) : Bool :=
  (sinceSnapshot log).any fun
    | .bought s => decide (s = symbol)
    | _ => false

/-- The position was opened while the snapshot was being fetched. -/
def openedSince (ref : ℕ) (log : List Event) : Bool :=
  (sinceRequest log).any fun
    | .opened p => decide (p.ref = ref)
    | _ => false

/-! ## Held positions are kept -/

/-- The answer of the positions call that this move learns of. -/
def positionsReply (m : Move World Label) : Option (Option (List PositionRow)) :=
  match m.label with
  | .reconcileResume _ =>
      match m.pre.reconcileTask with
      | .awaitPositions (.answered reply) => some reply
      | _ => none
  | _ => none

/-- A symbol is tracked as it was, by all three stores. -/
structure Keeps (w w' : World) (s : Symbol) : Prop where
  opens : w'.opens.get? s = w.opens.get? s
  engine : w'.engine.position s = w.engine.position s
  risk : w'.risk.openPositions.get? s = w.risk.openPositions.get? s

/-- An iteration drops no position that the broker holds. -/
structure KeepsHeld (m : Move World Label) : Prop where
  /-- A tracked symbol that the broker holds stays tracked. -/
  held : ∀ reply, positionsReply m = some reply → ∀ s p, m.pre.opens.get? s = some p →
    0 < m.pre.holding s → m.post.opens.get? s = some p
  /-- A failed call changes nothing. -/
  failed : positionsReply m = some none → ∀ s, Keeps m.pre m.post s
  /-- An entry that was acknowledged while the snapshot was being fetched is kept. -/
  entered : ∀ reply, positionsReply m = some reply → ∀ s p, m.pre.opens.get? s = some p →
    openedSince p.ref m.pre.log = true → Keeps m.pre m.post s

/-- **No iteration of the run drops a position that the broker holds.** -/
def ReconcileKeeps {env : Env} (x : LiveRun env) : Prop := ∀ m ∈ x.moves, KeepsHeld m

/-- The call failed while a position was tracked; or the snapshot lacks a tracked symbol that
was bought after it was taken and is still held, or opened while it was being fetched. -/
def strands (m : Move World Label) : Bool :=
  match positionsReply m with
  | some none => !m.pre.opens.items.isEmpty
  | some (some rows) =>
      m.pre.opens.items.any fun b => !(getBrokerPositions (some rows)).contains b.1
        && (boughtSince b.1 m.pre.log && decide (0 < m.pre.holding b.1)
          || openedSince b.2.ref m.pre.log)
  | none => false

/-! ## Quantities -/

/-- An iteration of the reconcile loop, from its request for the positions to its answer, without
an order in flight. -/
structure QuietIteration {env : Env} (x : LiveRun env) (wake : Move World Label)
    (during : List (Move World Label)) (resume : Move World Label) : Prop where
  moves : ∃ before after, x.moves = before ++ wake :: (during ++ resume :: after)
  begins : wake.label = .reconcileWake
  ends : ∃ price, resume.label = .reconcileResume price
  one : ∀ m ∈ during, ∀ price, m.label ≠ .reconcileResume price
  quiet : ∀ m ∈ wake :: (during ++ [resume]), m.pre.ordering = false ∧ m.pre.flattening = false

/-- The reconcile loop has a snapshot, and it is what the broker holds. -/
def World.trueSnapshot (w : World) : Bool :=
  match w.reconcileTask with
  | .awaitPositions (.answered (some rows)) => decide (rows = w.positionRows)
  | _ => false

/-- What is tracked has the quantity that the broker holds, for every symbol that both have. -/
def QtyAgrees (opens : Dict Symbol LivePosition) (w : World) : Prop :=
  ∀ s p, opens.get? s = some p → 0 < w.holding s → p.shares = w.holding s

/-- **Every quiet iteration with a true snapshot leaves the quantities in agreement.** -/
def DriftCorrected {env : Env} (x : LiveRun env) : Prop :=
  ∀ wake during resume, QuietIteration x wake during resume → resume.pre.trueSnapshot = true →
    QtyAgrees resume.post.opens resume.post

/-! ## The snapshot -/

/-- A snapshot has every symbol that is held, except those bought since it was taken. -/
def SnapshotInv (w : World) : Prop :=
  ∀ rows, w.reconcileTask = .awaitPositions (.answered (some rows)) → ∀ s, 0 < w.holding s →
    (getBrokerPositions (some rows)).contains s = true ∨ boughtSince s w.log = true

namespace World

variable {env : Env} {w w' : World}

theorem snapshotInv_init : SnapshotInv (init env) := fun _ h => absurd h (by simp [init])

theorem sinceSnapshot_append (log : List Event) {es : List Event}
    (h : ∀ e ∈ es, ∀ ok, e ≠ .snapshot ok) :
    sinceSnapshot (log ++ es) = es.reverse ++ sinceSnapshot log := by
  unfold sinceSnapshot
  rw [List.reverse_append, List.takeWhile_append_of_pos]
  intro e he
  cases e with
  | snapshot ok => exact absurd rfl (h _ (List.mem_reverse.mp he) ok)
  | _ => rfl

theorem boughtSince_append {s : Symbol} {log es : List Event} (h : ∀ e ∈ es, ∀ ok, e ≠ .snapshot ok) :
    boughtSince s (log ++ es) = true ↔ .bought s ∈ es ∨ boughtSince s log = true := by
  unfold boughtSince
  rw [sinceSnapshot_append log h, List.any_append, Bool.or_eq_true]
  refine or_congr ?_ Iff.rfl
  rw [List.any_eq_true]
  constructor
  · rintro ⟨e, he, hb⟩
    cases e with
    | bought s' => rw [of_decide_eq_true hb] at he; exact List.mem_reverse.mp he
    | _ => exact absurd hb (by simp)
  · intro he
    exact ⟨_, List.mem_reverse.mpr he, decide_eq_true rfl⟩

/-- A true snapshot has every symbol that is held. -/
theorem positionRows_held {s : Symbol} (h : 0 < w.holding s) :
    (getBrokerPositions (some w.positionRows)).contains s = true := by
  unfold holding at h
  cases hq : w.holdings.get? s with
  | none => rw [hq] at h; exact absurd h (by simp)
  | some q =>
      rw [hq] at h
      change 0 < q at h
      have hrow : (⟨s, some (q : ℚ)⟩ : PositionRow) ∈ w.positionRows := by
        unfold positionRows
        refine List.mem_map.mpr ⟨(s, q), List.mem_filter.mpr ⟨Dict.mem_items.mpr hq, ?_⟩, rfl⟩
        simpa using h.ne'
      have hround : roundDown (q : ℚ) = q := by
        unfold roundDown
        rw [if_pos (by exact_mod_cast h.le), Int.floor_intCast]
      exact Dict.contains_iff.mpr (getBrokerPositions_of_row hrow rfl (by rw [hround]; exact h))

/-- Setting a holding records every rise from nothing. -/
theorem setHolding_held (symbol : Symbol) (qty : ℤ) :
    ∃ es, (w.setHolding symbol qty).log = w.log ++ es
      ∧ ∀ s, 0 < (w.setHolding symbol qty).holding s → 0 < w.holding s ∨ .bought s ∈ es := by
  have hset : ∀ s, (w.setHolding symbol qty).holding s
      = if s = symbol then qty else w.holding s := by
    intro s
    change ((w.holdings.set symbol qty).get? s).getD 0 = _
    rw [Dict.get?_set]
    split <;> rfl
  -- a holding that rises is noted as bought
  by_cases hlt : w.holding symbol < qty
  · refine ⟨[.bought symbol], if_pos hlt, ?_⟩
    intro s h
    rw [hset] at h
    split at h
    · rename_i hs
      exact Or.inr (List.mem_singleton.mpr (by rw [hs]))
    · exact Or.inl h
  · -- one that does not rise was there before
    refine ⟨[], ?_, ?_⟩
    · rw [List.append_nil]
      exact if_neg hlt
    · intro s h
      rw [hset] at h
      split at h
      · rename_i hs
        exact Or.inl (hs ▸ lt_of_lt_of_le h (not_lt.mp hlt))
      · exact Or.inl h

/-- What is held after a flatten was held before it. -/
theorem flattenHoldings_held {closed : List Symbol} {s : Symbol}
    (h : 0 < (w.flattenHoldings closed).holding s) : 0 < w.holding s := by
  have key : ∀ (closed : List Symbol) (d : Dict Symbol ℤ),
      0 < ((closed.foldl (fun h s => h.set s 0) d).get? s).getD 0 → 0 < (d.get? s).getD 0 := by
    intro closed
    induction closed with
    | nil => exact fun d h => h
    | cons c closed ih =>
        intro d h
        have hd := ih (d.set c 0) h
        rw [Dict.get?_set] at hd
        split at hd
        · exact absurd hd (by simp)
        · exact hd
  exact key closed w.holdings h

/-- Shares that are held after a step were held before it, or were bought in it. -/
theorem holding_step {l : Label} (hr : Reached env w) (hs : step env w l = some w')
    {es : List Event} (hlog : w'.log = w.log ++ es) {s : Symbol} (h : 0 < w'.holding s) :
    0 < w.holding s ∨ .bought s ∈ es := by
  by_cases hw : .holdings ∈ l.writes
  · cases l with
    -- a fill of a BUY, or of a SELL
    | barAnswer reply filled =>
        obtain ⟨o, rest, -, -, -, rfl⟩ | ⟨o, bar, rest, -, -, -, rfl⟩ := barAnswer_cases hs
        · obtain ⟨fs, hfs, hheld⟩ := setHolding_held (w := w) o.signal.symbol
            (w.holding o.signal.symbol + filled)
          rw [← List.append_cancel_left (hfs.symm.trans hlog)]
          exact hheld s h
        · obtain ⟨fs, hfs, hheld⟩ := setHolding_held (w := w) o.symbol
            (w.holding o.symbol - filled)
          dsimp only at hlog
          rw [hfs, List.append_assoc] at hlog
          rw [← List.append_cancel_left hlog]
          exact (hheld s h).imp_right (List.mem_append_left _)
    | stopAnswer reply filled =>
        obtain ⟨o, rest, -, -, -, rfl⟩ := stopAnswer_cases hs
        obtain ⟨fs, hfs, hheld⟩ := setHolding_held (w := w) o.symbol (w.holding o.symbol - filled)
        dsimp only at hlog
        rw [hfs, List.append_assoc] at hlog
        rw [← List.append_cancel_left hlog]
        exact (hheld s h).imp_right (List.mem_append_left _)
    -- a flatten only sells
    | eodAnswer reply closed =>
        obtain ⟨-, -, rfl⟩ := eodAnswer_cases hs
        exact Or.inl (flattenHoldings_held h)
    | watchdogAnswer reply closed =>
        obtain ⟨attempt, -, -, rfl⟩ := watchdogAnswer_cases hs
        exact Or.inl (flattenHoldings_held h)
    -- somebody else trades in the account
    | brokerMove symbol qty =>
        obtain ⟨fs, hfs, hheld⟩ := setHolding_held (w := w) symbol qty
        rw [← Option.some.inj hs] at hlog h
        rw [← List.append_cancel_left (hfs.symm.trans hlog)]
        exact hheld s h
    | _ => simp [Label.writes] at hw
  · have hsame : w'.holdings = w.holdings := (hr.footprint hs).same .holdings hw
    unfold holding at h ⊢
    exact Or.inl (hsame ▸ h)

/--
**Preserved by every step.**

When the broker takes the snapshot it lists what is held. After that a holding that is
new was bought since, and the log says so.
-/
theorem snapshotInv_step {l : Label} (hr : Reached env w) (h : SnapshotInv w)
    (hs : step env w l = some w') : SnapshotInv w' := by
  obtain ⟨es, hlog, hem⟩ := (hr.footprint hs).log
  intro rows hrows s hheld
  -- a step that takes no snapshot only adds to what was bought since
  have kept : w.reconcileTask = .awaitPositions (.answered (some rows)) →
      (∀ e ∈ es, ∀ ok, e ≠ .snapshot ok) →
      (getBrokerPositions (some rows)).contains s = true ∨ boughtSince s w'.log = true := by
    intro hold hno
    rw [hlog, boughtSince_append hno]
    rcases holding_step hr hs hlog hheld with hbefore | hbought
    · exact (h rows hold s hbefore).imp_right Or.inr
    · exact Or.inr (Or.inl hbought)
  by_cases hw : .reconcileTask ∈ l.writes
  · cases l with
    | reconcileWake =>
        obtain ⟨-, rfl | rfl⟩ := reconcileWake_cases (task_some hs).2
        · exact absurd hrows (by simp)
        · refine absurd hrows ?_
          unfold reconcileLoop
          split <;> simp
    | reconcileResume price =>
        obtain ⟨reply, hb, rfl⟩ := reconcileResume_cases (task_some hs).2
        refine absurd hrows ?_
        unfold reconcileLoop
        split <;> simp
    | reconcileAnswer ok =>
        obtain ⟨hb, rfl⟩ := reconcileAnswer_cases hs
        cases ok with
        | false => exact absurd hrows (by simp)
        | true =>
            have hr' : w.positionRows = rows := by simpa using hrows
            exact Or.inl (hr' ▸ positionRows_held hheld)
    | _ => simp [Label.writes] at hw
  · refine kept (((hr.footprint hs).same .reconcileTask hw).symm.trans hrows) ?_
    intro e he ok heq
    have hemit := hem e he
    rw [heq] at hemit
    revert hw hemit
    cases l <;> simp [Label.writes, Label.emits]

theorem snapshotInv_reached (h : Reached env w) : SnapshotInv w :=
  h.invariant snapshotInv_init fun _ _ _ hr hi hs => snapshotInv_step hr hi hs

/-! ## What an iteration drops -/

/-- What one iteration does to the book: the tracked symbols that the map lacks are gone from
all three stores, and the rest of the book stays. -/
theorem reconcileResume_drops {price : Symbol → ℚ}
    (hs : step env w (.reconcileResume price) = some w') :
    ∃ reply, w.reconcileTask = .awaitPositions (.answered reply)
      ∧ (∀ s, (getBrokerPositions reply).contains s = true ∨ w.opens.get? s = none →
          Keeps w w' s)
      ∧ ∀ s, (getBrokerPositions reply).contains s = false → w'.opens.get? s = none := by
  obtain ⟨reply, hb, rfl⟩ := reconcileResume_cases (task_some hs).2
  refine ⟨reply, hb, ?_, ?_⟩
  · -- what the broker has, or nobody tracks, is left alone
    intro s hs
    have hout : s ∉ (w.orphans (getBrokerPositions reply)).map Prod.fst := by
      intro hm
      obtain ⟨b, hb, rfl⟩ := List.mem_map.mp hm
      obtain ⟨htr, hno⟩ := mem_orphans.mp hb
      rcases hs with hs | hs
      · rw [Dict.contains_eq_false.mpr hno] at hs
        exact absurd hs (by simp)
      · exact absurd (htr.symm.trans hs) (by simp)
    refine ⟨?_, ?_, ?_⟩
    · exact (retireAll_opens price _ s).trans (if_neg hout)
    · exact (retireAll_engine price _ s).trans (if_neg hout)
    · exact (retireAll_risk price _ s).trans (if_neg hout)
  · -- what it has not is dropped
    intro s hs
    refine (retireAll_opens price _ s).trans ?_
    split
    · rfl
    · rename_i hout
      cases hg : w.opens.get? s with
      | none => rfl
      | some p =>
          exact absurd (List.mem_map.mpr
            ⟨(s, p), mem_orphans.mpr ⟨hg, Dict.contains_eq_false.mp hs⟩, rfl⟩) hout

/--
**An iteration drops no held position exactly when it strands none.**

It drops what the snapshot does not list. That is a position which the broker holds
when the call failed, when the symbol was bought after the snapshot was taken, or when
its entry was accepted while the snapshot was on its way.
-/
theorem reconcileResume_keeps {price : Symbol → ℚ} (hr : Reached env w)
    (hs : step env w (.reconcileResume price) = some w') :
    KeepsHeld ⟨w, .reconcileResume price, w'⟩
      ↔ strands ⟨w, .reconcileResume price, w'⟩ = false := by
  obtain ⟨reply, hb, hkept, hdrop⟩ := reconcileResume_drops hs
  have hreply : positionsReply ⟨w, .reconcileResume price, w'⟩ = some reply := by
    simp [positionsReply, hb]
  cases reply with
  | none =>
      -- the call failed: everything tracked is dropped
      have hstr : strands ⟨w, .reconcileResume price, w'⟩ = !w.opens.items.isEmpty := by
        simp [strands, hreply]
      rw [hstr, Bool.not_eq_false', List.isEmpty_iff, Dict.items_eq_nil]
      constructor
      · intro h s
        rw [← (h.failed hreply s).opens]
        exact hdrop s rfl
      · intro hnone
        refine ⟨?_, fun _ s => hkept s (Or.inr (hnone s)), ?_⟩
        · intro r _ s p hp _
          exact absurd (hp.symm.trans (hnone s)) (by simp)
        · intro r _ s p hp _
          exact hkept s (Or.inr (hnone s))
  | some rows =>
      have hstr : strands ⟨w, .reconcileResume price, w'⟩ = w.opens.items.any fun b =>
          !(getBrokerPositions (some rows)).contains b.1
            && (boughtSince b.1 w.log && decide (0 < w.holding b.1)
              || openedSince b.2.ref w.log) := by
        simp [strands, hreply]
      rw [hstr, List.any_eq_false]
      constructor
      · intro h b hmem hbad
        have htr : w.opens.get? b.1 = some b.2 := Dict.mem_items.mp hmem
        rw [Bool.and_eq_true, Bool.not_eq_true', Bool.or_eq_true, Bool.and_eq_true,
          decide_eq_true_eq] at hbad
        obtain ⟨hno, ⟨-, hheld⟩ | hopened⟩ := hbad
        · have hpost := h.held _ hreply b.1 b.2 htr hheld
          exact absurd (hpost.symm.trans (hdrop b.1 hno)) (by simp)
        · have hpost := (h.entered _ hreply b.1 b.2 htr hopened).opens
          exact absurd ((hpost.trans htr).symm.trans (hdrop b.1 hno)) (by simp)
      · intro h
        -- a position that is held or new is in the snapshot
        have listed : ∀ s p, w.opens.get? s = some p →
            boughtSince s w.log = true ∧ 0 < w.holding s ∨ openedSince p.ref w.log = true →
            (getBrokerPositions (some rows)).contains s = true := by
          intro s p hp hlate
          have hgood := h (s, p) (Dict.mem_items.mpr hp)
          rw [Bool.and_eq_true, Bool.not_eq_true', Bool.or_eq_true, Bool.and_eq_true,
            decide_eq_true_eq] at hgood
          by_contra hno
          exact hgood ⟨by simpa using hno, hlate⟩
        refine ⟨?_, ?_, ?_⟩
        · intro r _ s p hp hheld
          have hin : (getBrokerPositions (some rows)).contains s = true := by
            rcases snapshotInv_reached hr rows hb s hheld with hin | hbought
            · exact hin
            · exact listed s p hp (Or.inl ⟨hbought, hheld⟩)
          exact (hkept s (Or.inl hin)).opens.trans hp
        · intro hfail
          exact absurd (hreply.symm.trans hfail) (by simp)
        · intro r _ s p hp hopened
          exact hkept s (Or.inl (listed s p hp (Or.inr hopened)))

end World

/-- **No held position is dropped exactly in the runs in which no iteration strands one**: the
call succeeds or nothing is tracked, and every tracked symbol that was bought since the snapshot
and is still held, or opened while it was being fetched, is in it. -/
theorem reconcileKeeps_iff {env : Env} (x : LiveRun env) :
    ReconcileKeeps x ↔ ∀ m ∈ x.moves, strands m = false := by
  refine forall₂_congr fun m hm => ?_
  obtain ⟨w, l, w'⟩ := m
  cases l with
  | reconcileResume price => exact reconcileResume_keeps (x.reachable_pre hm) (x.step_of_mem hm)
  | _ =>
      refine ⟨fun _ => rfl, fun _ => ⟨?_, ?_, ?_⟩⟩
      · intro r hr
        exact absurd hr (by simp [positionsReply])
      · intro hr
        exact absurd hr (by simp [positionsReply])
      · intro r hr
        exact absurd hr (by simp [positionsReply])

/-- One failed `get_all_positions` while the breakout is held. -/
def positionsUnavailable : LiveRun tradingDay :=
  play (beforeBreakout ++ breakout 100 ++
    [.tick 30, .reconcileWake, .reconcileAnswer false, .reconcileResume fun _ => 0])

/-- The position is dropped, while the broker holds its hundred shares. -/
theorem reconcileKeeps_positionsUnavailable :
    positionsUnavailable.final.holding "TEST" = 100 ∧ ¬ ReconcileKeeps positionsUnavailable := by
  refine ⟨by decide +kernel, ?_⟩
  intro h
  have hbad : positionsUnavailable.moves.any (fun m => m.pre.opens.contains "TEST"
      && decide (0 < m.pre.holding "TEST") && !m.post.opens.contains "TEST"
      && (positionsReply m).isSome) = true := by decide +kernel
  obtain ⟨m, hm, hm'⟩ := List.any_eq_true.mp hbad
  rw [Bool.and_eq_true, Bool.and_eq_true, Bool.and_eq_true, decide_eq_true_eq] at hm'
  obtain ⟨⟨⟨hpre, hheld⟩, hpost⟩, hreply⟩ := hm'
  obtain ⟨p, hp⟩ := Dict.contains_iff.mp hpre
  obtain ⟨reply, hreply⟩ := Option.isSome_iff_exists.mp hreply
  have hnone := Dict.contains_eq_false.mp (by simpa using hpost)
  have hkept := (h m hm).held reply hreply "TEST" p hp hheld
  exact absurd (hkept.symm.trans hnone) (by simp)

/-! ## What an iteration leaves alone -/

namespace World

variable {env : Env} {w w' : World}

/-- The symbols and their quantities are the same. -/
def SameShares (w w' : World) : Prop :=
  ∀ s, (w'.opens.get? s).map (·.shares) = (w.opens.get? s).map (·.shares)

theorem sameShares_of_remarked (h : Remarked w.opens w'.opens) : SameShares w w' := by
  intro s
  rcases h s with he | ⟨p, m, hp, he⟩
  · rw [he]
  · rw [he, hp]; rfl

/-- Agreement is about symbols and quantities only. -/
theorem qtyAgrees_of_shares {o o' : Dict Symbol LivePosition}
    (h : ∀ s, (o'.get? s).map (·.shares) = (o.get? s).map (·.shares)) (hq : QtyAgrees o w) :
    QtyAgrees o' w := by
  intro s p hp hpos
  have he := h s
  rw [hp] at he
  obtain ⟨q, hq', hshares⟩ := Option.map_eq_some_iff.mp he.symm
  have hp' : q.shares = p.shares := hshares
  rw [← hp']
  exact hq s q hq' hpos

/-- During a quiet iteration the tracked quantities stay as they were. -/
theorem sameShares_during {x : LiveRun env} {wake resume : Move World Label}
    {during : List (Move World Label)} (h : QuietIteration x wake during resume) :
    SameShares wake.pre resume.pre := by
  obtain ⟨before, after, hmoves⟩ := h.moves
  have hmem : ∀ m ∈ wake :: during, m ∈ x.moves := by
    intro m hm
    rw [hmoves, ← List.cons_append]
    exact List.mem_append_right _ (List.mem_append_left _ hm)
  have hrun := x.run
  rw [hmoves] at hrun
  -- the segment of the iteration is itself a run, from the request on
  have hseg := hrun.between.invariant_of
    (C := fun m => m ∈ wake :: during) (I := fun w => Reached env w ∧ SameShares wake.pre w)
    ⟨x.reachable_pre (hmem wake List.mem_cons_self), fun _ => rfl⟩ ?_ fun _ hm => hm
  · exact hseg.2
  · rintro v l v' - ⟨hr, hsame⟩ hs hC
    refine ⟨hr.next hs, ?_⟩
    have hq := h.quiet _ (by rw [← List.cons_append]; exact List.mem_append_left _ hC)
    have hl : ∀ price, l ≠ .reconcileResume price := by
      intro price
      rcases List.mem_cons.mp hC with he | hm
      · have hlab : l = .reconcileWake := (congrArg Move.label he).trans h.begins
        rw [hlab]
        simp
      · exact h.one _ hm price
    intro s
    exact (sameShares_of_remarked (remarked_of_quiet hr hs hq.1 hq.2 hl) s).trans (hsame s)

/-- An iteration neither trades nor rewrites a quantity: what both sides have stays as it is. -/
theorem reconcileResume_qty {price : Symbol → ℚ}
    (hs : step env w (.reconcileResume price) = some w') (htrue : w.trueSnapshot = true) :
    QtyAgrees w'.opens w' ↔ QtyAgrees w.opens w := by
  obtain ⟨reply, hb, hkept, hdrop⟩ := reconcileResume_drops hs
  -- the reconciliation sends nothing to the broker
  have hheld : ∀ s, w'.holding s = w.holding s := by
    obtain ⟨reply, -, rfl⟩ := reconcileResume_cases (task_some hs).2
    obtain ⟨o, e, r, es, h, -⟩ :=
      retireAll_footprint env w price (w.orphans (getBrokerPositions reply))
    intro s
    rw [h]; rfl
  -- a true snapshot lists what is held
  have hlisted : ∀ s, 0 < w.holding s → (getBrokerPositions reply).contains s = true := by
    intro s hpos
    unfold trueSnapshot at htrue
    rw [hb] at htrue
    cases reply with
    | none => exact absurd htrue (by simp)
    | some rows =>
        rw [of_decide_eq_true htrue]
        exact positionRows_held hpos
  unfold QtyAgrees
  refine forall₂_congr fun s p => ?_
  rw [hheld s]
  constructor
  · intro h hp hpos
    exact h (((hkept s (Or.inl (hlisted s hpos))).opens).trans hp) hpos
  · intro h hp hpos
    exact h (((hkept s (Or.inl (hlisted s hpos))).opens).symm.trans hp) hpos

end World

/-- **Drift is corrected exactly in the runs that have none to correct**: in every quiet
iteration, the quantities tracked when it began are those in the snapshot. -/
theorem driftCorrected_iff {env : Env} (x : LiveRun env) :
    DriftCorrected x ↔ ∀ wake during resume, QuietIteration x wake during resume →
      resume.pre.trueSnapshot = true → QtyAgrees wake.pre.opens resume.pre := by
  refine forall₃_congr fun wake during resume => ?_
  refine forall₂_congr fun h htrue => ?_
  obtain ⟨before, after, hmoves⟩ := h.moves
  obtain ⟨price, hprice⟩ := h.ends
  have hs := x.step_of_mem (show resume ∈ x.moves by rw [hmoves]; simp)
  rw [hprice] at hs
  rw [reconcileResume_qty hs htrue]
  have hsame := sameShares_during h
  exact ⟨qtyAgrees_of_shares fun s => (hsame s).symm, qtyAgrees_of_shares hsame⟩

/-- The moves of the iteration that a run ends with: request, snapshot, answer. -/
def lastIteration (moves : List (Move World Label)) :
    Option (Move World Label × Move World Label × Move World Label) :=
  match moves.reverse with
  | ⟨pre, .reconcileResume price, post⟩ :: ⟨mid, .reconcileAnswer ok, mid'⟩
      :: ⟨start, .reconcileWake, start'⟩ :: _ =>
      some (⟨start, .reconcileWake, start'⟩, ⟨mid, .reconcileAnswer ok, mid'⟩,
        ⟨pre, .reconcileResume price, post⟩)
  | _ => none

theorem quietIteration_last {env : Env} {x : LiveRun env} {wake answer resume : Move World Label}
    (h : lastIteration x.moves = some (wake, answer, resume))
    (hq : ∀ m ∈ [wake, answer, resume], m.pre.ordering = false ∧ m.pre.flattening = false) :
    QuietIteration x wake [answer] resume := by
  unfold lastIteration at h
  split at h
  · rename_i pre price post mid ok mid' start start' rest hmoves
    obtain ⟨rfl, hrest⟩ := Prod.mk.inj (Option.some.inj h)
    obtain ⟨rfl, rfl⟩ := Prod.mk.inj hrest
    refine ⟨⟨rest.reverse, [], ?_⟩, rfl, ⟨price, rfl⟩, by simp, hq⟩
    rw [← List.reverse_reverse x.moves, hmoves]
    simp
  · exact absurd h (by simp)

/-- The broker accepts the breakout order and fills sixty shares of it; a reconciliation follows. -/
def partialFill : LiveRun tradingDay :=
  play (beforeBreakout ++ breakout 60 ++
    [.tick 30, .reconcileWake, .reconcileAnswer true, .reconcileResume fun _ => 0])

/-- The session goes on tracking a hundred shares. -/
theorem driftCorrected_partialFill : ¬ DriftCorrected partialFill := by
  intro h
  have hlast : (lastIteration partialFill.moves).any (fun i =>
      [i.1, i.2.1, i.2.2].all (fun m => !m.pre.ordering && !m.pre.flattening)
        && i.2.2.pre.trueSnapshot
        && decide ((i.2.2.post.opens.get? "TEST").map (·.shares) = some 100)
        && decide (i.2.2.post.holding "TEST" = 60)) = true := by decide +kernel
  obtain ⟨⟨wake, answer, resume⟩, hi, hend⟩ := (Option.any_eq_true _ _).mp hlast
  rw [Bool.and_eq_true, Bool.and_eq_true, Bool.and_eq_true, decide_eq_true_eq,
    decide_eq_true_eq, List.all_eq_true] at hend
  obtain ⟨⟨⟨hquiet, htrue⟩, hshares⟩, hheld⟩ := hend
  have hiter := quietIteration_last hi fun m hm => by simpa using hquiet m hm
  obtain ⟨p, hp, hp100⟩ := Option.map_eq_some_iff.mp hshares
  have hagree := h wake [answer] resume hiter htrue "TEST" p hp (by rw [hheld]; norm_num)
  have hp100' : p.shares = 100 := hp100
  rw [hheld, hp100'] at hagree
  exact absurd hagree (by norm_num)

end RossBot
