import RossBot.Live.Book

/-!
# One position, one close

Each of the five tasks reads a position, waits for the broker, and deletes the
position from `_open` when the answer comes; nothing keeps two of them off the
same position meanwhile. What they then do twice is to sell its shares, and to
call `record_close`.

A position is safe in the runs in which the tasks take turns: `serialised` says
when a SELL, a flatten or a reconciliation would step on another that is in
flight. `Single` is what such runs keep.
-/

namespace RossBot

open Lib World

/-! ## Sales in flight -/

/-- A SELL on its way, with its answer when there is one. -/
abbrev Sale := SellOrder × Call OrderAck

/-- The SELL of the bar loop. -/
def BarTask.sale : BarTask → List Sale
  | .awaitExitAck order _ _ call => [(order, call)]
  | _ => []

/-- The SELL of the stop loop. -/
def StopTask.sale : StopTask → List Sale
  | .awaitSellAck order _ call => [(order, call)]
  | _ => []

/-- The broker has taken the order. -/
def took : Call OrderAck → Bool
  | .answered reply => reply.any (·.accepted)
  | .sent => false

/-- The EOD loop's flatten was accepted, and the loop has not learned of it. -/
def EodTask.took : EodTask → Bool
  | .awaitFlatten (.answered reply) => flattenAccepted reply
  | _ => false

/-- The watchdog's flatten was accepted, and the watchdog has not learned of it. -/
def WatchdogTask.took : WatchdogTask → Bool
  | .awaitFlatten _ (.answered reply) => flattenAccepted reply
  | _ => false

/-- The SELLs in flight. -/
def World.sales (w : World) : List Sale := w.barTask.sale ++ w.stopTask.sale

/-- A SELL of this position is in flight. -/
def World.sells (w : World) (ref : ℕ) : Bool := w.sales.any fun b => decide (b.1.pos.ref = ref)

/-- An accepted flatten is in flight. -/
def World.flattened (w : World) : Bool := w.eodTask.took || w.watchdogTask.took

/-! ## The property -/

/-- How often `record_close` was called for a position. -/
def recordCloses (ref : ℕ) (log : List Event) : ℕ :=
  log.countP fun
    | .recordClose p => decide (p.ref = ref)
    | _ => false

/-- No task will learn of an answer that it has not learned of. -/
def World.settled (w : World) : Bool := w.cancelled || (w.sales.isEmpty && !w.flattening)

/-- Every position is sold at most once, and closed once. -/
structure SoldOnce (w : World) : Prop where
  /-- No more shares are sold than were bought. -/
  sold : ∀ p ∈ openedPositions w.log, soldShares p.ref w.log ≤ p.shares
  /-- `record_close` was called once for what is no longer tracked, and not for what is. -/
  closed : ∀ p ∈ openedPositions w.log,
    recordCloses p.ref w.log = if w.isTracked p.symbol p then 0 else 1
  /-- What was sold has been recorded, once no answer is outstanding. -/
  recorded : w.settled = true → ∀ p ∈ openedPositions w.log, soldShares p.ref w.log ≠ 0 →
    recordCloses p.ref w.log = 1

/-- **In every state of the run, every position is sold at most once and closed once.** -/
def SingleClose {env : Env} (x : LiveRun env) : Prop := ∀ w, x.Visits w → SoldOnce w

/-- The tasks take turns: a SELL is sent only of a tracked position that no other SELL or flatten
is closing; a flatten is sent only while no SELL is in flight, and sells no BUY that the session
has not learned of; a reconciliation drops nothing that is being sold; and the tasks are not
cancelled while a SELL or a flatten is in flight. -/
def serialised (m : Move World Label) : Bool :=
  match m.label with
  | .barQuote _ => m.post.barTask.sale.all fun b => !m.pre.flattening && !m.pre.sells b.1.pos.ref
  | .stopQuote _ =>
      m.post.stopTask.sale.all fun b => !m.pre.flattening && !m.pre.sells b.1.pos.ref
        && m.pre.isTracked b.1.symbol b.1.pos
  | .eodWake => !m.post.eodTask.flattening || m.pre.sales.isEmpty
  | .watchdogWake => !m.post.watchdogTask.flattening || m.pre.sales.isEmpty
  | .eodAnswer _ closed => m.pre.pendingEntry.all fun b => !closed.contains b.2.1
  | .watchdogAnswer _ closed => m.pre.pendingEntry.all fun b => !closed.contains b.2.1
  | .reconcileResume _ =>
      match m.pre.reconcileTask with
      | .awaitPositions (.answered reply) =>
          (m.pre.orphans (getBrokerPositions reply)).all fun b => !m.pre.sells b.2.ref
      | _ => true
  | .cancel => m.pre.sales.isEmpty && !m.pre.flattening
  | _ => true

/-! ## Counting -/

/-- Events that the counts look at. -/
def Event.trades : Event → Bool
  | .opened _ | .sellAccepted _ | .flattenFilled _ _ | .recordClose _ => true
  | _ => false

theorem soldShares_append (ref : ℕ) (es fs : List Event) :
    soldShares ref (es ++ fs) = soldShares ref es + soldShares ref fs := by
  induction es with
  | nil => simp [soldShares]
  | cons e es ih =>
      cases e with
      | sellAccepted p => simp only [List.cons_append, soldShares, ih, add_assoc]
      | flattenFilled r q => simp only [List.cons_append, soldShares, ih, add_assoc]
      | _ => exact ih

theorem recordCloses_append (ref : ℕ) (es fs : List Event) :
    recordCloses ref (es ++ fs) = recordCloses ref es + recordCloses ref fs :=
  List.countP_append

/-- Other events count for nothing. -/
theorem counts_of_quiet {es : List Event} (h : ∀ e ∈ es, e.trades = false) :
    openedPositions es = [] ∧ ∀ ref, soldShares ref es = 0 ∧ recordCloses ref es = 0 := by
  induction es with
  | nil => exact ⟨rfl, fun _ => ⟨rfl, rfl⟩⟩
  | cons e es ih =>
      obtain ⟨h1, h2⟩ := ih fun e he => h e (List.mem_cons_of_mem _ he)
      have he := h e List.mem_cons_self
      cases e with
      | opened | sellAccepted | flattenFilled | recordClose => exact absurd he (by simp [Event.trades])
      | _ => exact ⟨h1, h2⟩

theorem soldShares_sellAccepted (ref : ℕ) (p : LivePosition) :
    soldShares ref [.sellAccepted p] = if p.ref = ref then p.shares else 0 := by
  simp [soldShares]

/-- What an accepted flatten of `closed` sells of one position. -/
def fillOf (closed : List Symbol) (log : List Event) (p : LivePosition) : Option Event :=
  if p.symbol ∈ closed ∧ soldShares p.ref log < p.shares then
    some (.flattenFilled p.ref (p.shares - soldShares p.ref log))
  else none

theorem soldShares_fillOf (closed : List Symbol) (log : List Event) (p : LivePosition) (r : ℕ) :
    soldShares r (fillOf closed log p).toList
      = if p.ref = r ∧ p.symbol ∈ closed ∧ soldShares p.ref log < p.shares then
          p.shares - soldShares p.ref log
        else 0 := by
  unfold fillOf
  by_cases hc : p.symbol ∈ closed ∧ soldShares p.ref log < p.shares
  · rw [if_pos hc]
    by_cases hr : p.ref = r
    · rw [if_pos ⟨hr, hc⟩]
      simp [soldShares, hr]
    · rw [if_neg fun h => hr h.1]
      simp [soldShares, hr]
  · rw [if_neg hc, if_neg fun h => hc h.2]
    rfl

theorem soldShares_fills_cons (closed : List Symbol) (log : List Event) (p : LivePosition)
    (ps : List LivePosition) (r : ℕ) :
    soldShares r ((p :: ps).filterMap (fillOf closed log))
      = soldShares r (fillOf closed log p).toList
        + soldShares r (ps.filterMap (fillOf closed log)) := by
  rw [← soldShares_append]
  congr 1
  cases hp : fillOf closed log p with
  | none => rw [List.filterMap_cons_none hp]; rfl
  | some e => rw [List.filterMap_cons_some hp]; rfl

/-- A flatten sells nothing under other identities. -/
theorem soldShares_fills_other {closed : List Symbol} {log : List Event} {ps : List LivePosition}
    {r : ℕ} (h : ∀ p ∈ ps, p.ref ≠ r) : soldShares r (ps.filterMap (fillOf closed log)) = 0 := by
  induction ps with
  | nil => rfl
  | cons p ps ih =>
      rw [soldShares_fills_cons, soldShares_fillOf, if_neg fun hc => h p List.mem_cons_self hc.1,
        ih fun q hq => h q (List.mem_cons_of_mem _ hq), add_zero]

/-- A flatten sells of each position what is left of it. -/
theorem soldShares_fills {closed : List Symbol} {log : List Event} {ps : List LivePosition}
    (hnd : (ps.map (·.ref)).Nodup) {p : LivePosition} (hp : p ∈ ps) :
    soldShares p.ref (ps.filterMap (fillOf closed log))
      = if p.symbol ∈ closed ∧ soldShares p.ref log < p.shares then
          p.shares - soldShares p.ref log
        else 0 := by
  induction ps with
  | nil => exact absurd hp (by simp)
  | cons q ps ih =>
      rw [List.map_cons, List.nodup_cons] at hnd
      rw [soldShares_fills_cons, soldShares_fillOf]
      -- either the position is the one at the head, or the head is another object
      rcases List.mem_cons.mp hp with rfl | hp
      · rw [soldShares_fills_other, add_zero]
        · simp
        · intro q hq href
          exact hnd.1 (List.mem_map.mpr ⟨q, hq, href⟩)
      · have hne : q.ref ≠ p.ref := by
          intro href
          exact hnd.1 (List.mem_map.mpr ⟨p, hp, href.symm⟩)
        rw [if_neg fun hc => hne hc.1, zero_add]
        exact ih hnd.2 hp

/-! ## What the turns keep -/

/-- The book, the log, the SELLs in flight, and whether an accepted flatten is. -/
structure Single (opens : Dict Symbol LivePosition) (log : List Event) (sales : List Sale)
    (flat : Bool) : Prop where
  /-- A position is tracked under one symbol. -/
  place : ∀ {s s' p q}, opens.get? s = some p → opens.get? s' = some q → p.ref = q.ref → s = s'
  /-- What is tracked was opened. -/
  known : ∀ {s p}, opens.get? s = some p → ∃ q ∈ openedPositions log, q.ref = p.ref
  /-- Nothing happened yet to what was not opened. -/
  fresh : ∀ r, (∀ p ∈ openedPositions log, p.ref ≠ r) →
    soldShares r log = 0 ∧ recordCloses r log = 0
  /-- A position is sold whole or not at all. -/
  whole : ∀ p ∈ openedPositions log,
    soldShares p.ref log = 0 ∨ soldShares p.ref log = p.shares
  /-- What is tracked is not closed, and only sold by something in flight. -/
  held : ∀ {s p}, opens.get? s = some p → recordCloses p.ref log = 0
    ∧ (soldShares p.ref log = 0 ∨ flat = true
      ∨ ∃ b ∈ sales, b.1.pos.ref = p.ref ∧ took b.2 = true)
  /-- What is no longer tracked was closed once. -/
  gone : ∀ p ∈ openedPositions log, (∀ s q, opens.get? s = some q → q.ref ≠ p.ref) →
    recordCloses p.ref log = 1
  /-- A SELL in flight is of a tracked position, and sold it if it was accepted. -/
  sale : ∀ b ∈ sales, (∃ p, opens.get? b.1.symbol = some p ∧ p.ref = b.1.pos.ref)
    ∧ (∃ m, { b.1.pos with highWatermark := m } ∈ openedPositions log)
    ∧ soldShares b.1.pos.ref log = if took b.2 then b.1.pos.shares else 0
  /-- No two SELLs in flight are of one position. -/
  apart : (sales.map fun b => b.1.pos.ref).Nodup

namespace Single

variable {opens opens' : Dict Symbol LivePosition} {log es : List Event} {sales sales' : List Sale}
  {flat flat' : Bool}

/-- What is tracked stays so while the accepted SELLs of it stay in flight. -/
theorem still_held (h : Single opens log sales flat) {s : Symbol} {p : LivePosition}
    (hp : opens.get? s = some p)
    (hkeep : ∀ b ∈ sales, b.1.pos.ref = p.ref → took b.2 = true → b ∈ sales') :
    recordCloses p.ref log = 0 ∧ (soldShares p.ref log = 0 ∨ flat = true
      ∨ ∃ b ∈ sales', b.1.pos.ref = p.ref ∧ took b.2 = true) := by
  refine ⟨(h.held hp).1, ?_⟩
  rcases (h.held hp).2 with h0 | hf | ⟨b, hb, href, ht⟩
  · exact Or.inl h0
  · exact Or.inr (Or.inl hf)
  · exact Or.inr (Or.inr ⟨b, hkeep b hb href ht, href, ht⟩)

/-- Events that count for nothing change nothing. -/
theorem quiet (h : Single opens log sales flat) (hes : ∀ e ∈ es, e.trades = false) :
    Single opens (log ++ es) sales flat := by
  obtain ⟨hopen, hcount⟩ := counts_of_quiet hes
  have ho : openedPositions (log ++ es) = openedPositions log := by
    rw [openedPositions_append, hopen, List.append_nil]
  have hs : ∀ r, soldShares r (log ++ es) = soldShares r log := by
    intro r; rw [soldShares_append, (hcount r).1, add_zero]
  have hc : ∀ r, recordCloses r (log ++ es) = recordCloses r log := by
    intro r; rw [recordCloses_append, (hcount r).2, add_zero]
  constructor
  · exact h.place
  · rw [ho]
    -- nothing here trades, so each count is what it was
    exact h.known
  · simpa only [ho, hs, hc] using h.fresh
  · simpa only [ho, hs] using h.whole
  · intro s p hp
    rw [hs, hc]
    exact h.held hp
  · simpa only [ho, hc] using h.gone
  · simpa only [ho, hs] using h.sale
  · exact h.apart

/-- Watermarks do not matter. -/
theorem remarked (h : Single opens log sales flat) (hm : Remarked opens opens') :
    Single opens' log sales flat := by
  -- a mark changes the high of a position, never its identity
  have back : ∀ {s p'}, opens'.get? s = some p' → ∃ p, opens.get? s = some p ∧ p.ref = p'.ref := by
    intro s p' hp'
    rcases hm s with he | ⟨p, m, hp, he⟩
    · exact ⟨p', he ▸ hp', rfl⟩
    · refine ⟨p, hp, ?_⟩
      rw [Option.some.inj (hp'.symm.trans he)]
  have forth : ∀ {s p}, opens.get? s = some p → ∃ p', opens'.get? s = some p' ∧ p'.ref = p.ref := by
    intro s p hp
    rcases hm s with he | ⟨p0, m, hp0, he⟩
    · exact ⟨p, he.trans hp, rfl⟩
    · refine ⟨_, he, ?_⟩
      rw [Option.some.inj (hp.symm.trans hp0)]
  refine ⟨?_, ?_, h.fresh, h.whole, ?_, ?_, ?_, h.apart⟩
  · intro s s' p q hp hq href
    obtain ⟨p0, hp0, hpr⟩ := back hp
    obtain ⟨q0, hq0, hqr⟩ := back hq
    exact h.place hp0 hq0 (hpr.trans (href.trans hqr.symm))
  · intro s p hp
    obtain ⟨p0, hp0, hpr⟩ := back hp
    rw [← hpr]
    exact h.known hp0
  · intro s p hp
    obtain ⟨p0, hp0, hpr⟩ := back hp
    rw [← hpr]
    exact h.held hp0
  · intro p hp hno
    refine h.gone p hp ?_
    intro s q hq
    obtain ⟨q', hq', hqr⟩ := forth hq
    rw [← hqr]
    exact hno s q' hq'
  · intro b hb
    obtain ⟨⟨p, hp, hpr⟩, h2, h3⟩ := h.sale b hb
    obtain ⟨p', hp', hpr'⟩ := forth hp
    exact ⟨⟨p', hp', hpr'.trans hpr⟩, h2, h3⟩

/-- The order of the SELLs does not matter, and those that were not accepted can be forgotten. -/
theorem forget (h : Single opens log sales flat) (hsub : ∀ b ∈ sales', b ∈ sales)
    (hkeep : ∀ b ∈ sales, took b.2 = true → b ∈ sales')
    (hnd : (sales'.map fun b => b.1.pos.ref).Nodup) : Single opens log sales' flat := by
  refine ⟨h.place, h.known, h.fresh, h.whole, ?_, h.gone, fun b hb => h.sale b (hsub b hb), hnd⟩
  intro s p hp
  exact h.still_held hp fun b hb _ ht => hkeep b hb ht

/-- The order of the SELLs does not matter. -/
theorem reorder (h : Single opens log sales flat) (hp : sales'.Perm sales) :
    Single opens log sales' flat :=
  h.forget (fun _ hb => hp.mem_iff.mp hb) (fun _ hb _ => hp.mem_iff.mpr hb)
    ((hp.map _).nodup_iff.mpr h.apart)

/-- A SELL is sent of a tracked position that nothing is closing. -/
theorem send (h : Single opens log sales false) {o : SellOrder} {p : LivePosition}
    (hp : opens.get? o.symbol = some p) (href : p.ref = o.pos.ref)
    (hopened : ∃ m, { o.pos with highWatermark := m } ∈ openedPositions log)
    (hno : ∀ b ∈ sales, b.1.pos.ref ≠ o.pos.ref) : Single opens log ((o, .sent) :: sales) false := by
  have hzero : soldShares o.pos.ref log = 0 := by
    rw [← href]
    rcases (h.held hp).2 with h0 | hf | ⟨b, hb, hbr, -⟩
    · exact h0
    · exact absurd hf (by simp)
    · exact absurd (hbr.trans href) (hno b hb)
  refine ⟨h.place, h.known, h.fresh, h.whole, ?_, h.gone, ?_, ?_⟩
  · -- what is tracked was sold by what was in flight before
    intro s q hq
    exact h.still_held hq fun b hb _ _ => List.mem_cons_of_mem _ hb
  · -- the new SELL has sold nothing yet
    intro b hb
    rcases List.mem_cons.mp hb with rfl | hb
    · exact ⟨⟨p, hp, href⟩, hopened, hzero⟩
    · exact h.sale b hb
  · -- its identity is new among those in flight
    rw [List.map_cons, List.nodup_cons]
    refine ⟨?_, h.apart⟩
    intro hm
    obtain ⟨b, hb, hbr⟩ := List.mem_map.mp hm
    exact hno b hb hbr

/--
**The broker answers a SELL.**

From a rejection or an exception nothing follows. An acceptance sells the whole
position. It was unsold, since a SELL that has no answer has sold nothing; and the
other SELLs in flight are of other positions, so their counts stay.
-/
theorem answer (hnd : ((openedPositions log).map (·.ref)).Nodup) {o : SellOrder}
    {reply : Option OrderAck} (h : Single opens log ((o, .sent) :: sales) flat) :
    Single opens (log ++ if reply.any (·.accepted) then [.sellAccepted o.pos] else [])
      ((o, .answered reply) :: sales) flat := by
  obtain ⟨hplace, ⟨m, hm⟩, hzero⟩ := h.sale _ List.mem_cons_self
  have hzero' : soldShares o.pos.ref log = 0 := hzero
  -- no other SELL in flight is of the same position
  have hother : ∀ b ∈ sales, b.1.pos.ref ≠ o.pos.ref := by
    have hap := h.apart
    rw [List.map_cons, List.nodup_cons] at hap
    intro b hb href
    exact hap.1 (List.mem_map.mpr ⟨b, hb, href⟩)
  cases hacc : reply.any (·.accepted) with
  | false =>
      -- refused: nothing is sold
      rw [if_neg (by simp), List.append_nil]
      refine ⟨h.place, h.known, h.fresh, h.whole, ?_, h.gone, ?_, h.apart⟩
      · intro s p hp
        refine h.still_held hp fun b hb _ ht => ?_
        rcases List.mem_cons.mp hb with rfl | hb
        · exact absurd ht (by simp [took])
        · exact List.mem_cons_of_mem _ hb
      · intro b hb
        rcases List.mem_cons.mp hb with rfl | hb
        · refine ⟨hplace, ⟨m, hm⟩, ?_⟩
          rw [hzero', took, hacc]; rfl
        · exact h.sale b (List.mem_cons_of_mem _ hb)
  | true =>
      rw [if_pos rfl]
      have ho : openedPositions (log ++ [.sellAccepted o.pos]) = openedPositions log := by
        rw [openedPositions_append_of_none (by simp)]
      have hc : ∀ r, recordCloses r (log ++ [.sellAccepted o.pos]) = recordCloses r log := by
        intro r; rw [recordCloses_append]; rfl
      have hs : ∀ r, soldShares r (log ++ [.sellAccepted o.pos])
          = soldShares r log + if o.pos.ref = r then o.pos.shares else 0 := by
        intro r; rw [soldShares_append, soldShares_sellAccepted]
      -- accepted: the position is sold from here on, and no other is
      have hself : soldShares o.pos.ref (log ++ [.sellAccepted o.pos]) = o.pos.shares := by
        rw [hs, hzero', if_pos rfl, zero_add]
      have hne : ∀ r, r ≠ o.pos.ref →
          soldShares r (log ++ [.sellAccepted o.pos]) = soldShares r log := by
        intro r hr; rw [hs, if_neg hr.symm, add_zero]
      refine ⟨h.place, ?_, ?_, ?_, ?_, ?_, ?_, h.apart⟩
      · rw [ho]
        exact h.known
      · intro r hr
        rw [ho] at hr
        rw [hne r (hr _ hm).symm, hc]
        exact h.fresh r hr
      · intro p hp
        rw [ho] at hp
        by_cases href : p.ref = o.pos.ref
        · have hpos := List.inj_on_of_nodup_map hnd hp hm href
          rw [href, hself, hpos]
          exact Or.inr rfl
        · rw [hne _ href]
          exact h.whole p hp
      · intro s p hp
        rw [hc]
        by_cases href : p.ref = o.pos.ref
        · exact ⟨(h.held hp).1, Or.inr (Or.inr ⟨_, List.mem_cons_self, href.symm, hacc⟩)⟩
        · rw [hne _ href]
          refine h.still_held hp fun b hb hbr _ => ?_
          rcases List.mem_cons.mp hb with rfl | hb
          · exact absurd hbr.symm href
          · exact List.mem_cons_of_mem _ hb
      · intro p hp hno
        rw [ho] at hp
        rw [hc]
        exact h.gone p hp hno
      · intro b hb
        rw [ho]
        rcases List.mem_cons.mp hb with rfl | hb
        · refine ⟨hplace, ⟨m, hm⟩, ?_⟩
          rw [hself, took, hacc]; rfl
        · obtain ⟨h1, h2, h3⟩ := h.sale b (List.mem_cons_of_mem _ hb)
          refine ⟨h1, h2, ?_⟩
          rw [hne _ (hother b hb)]
          exact h3

/--
**A tracked position is closed, by its SELL, a flatten, or a reconciliation.**

Its identity leaves the book with its symbol, so it is the one whose count of closes
goes from none to one. What else is tracked has another identity, and every SELL in
flight that is left is of such a one.
-/
theorem retire (h : Single opens log sales flat) {s : Symbol} {sold p : LivePosition} {x : ℚ}
    {r : RiskState} (hp : opens.get? s = some p) (href : sold.ref = p.ref)
    (hsub : ∀ b ∈ sales', b ∈ sales ∧ b.1.pos.ref ≠ p.ref)
    (hkeep : ∀ b ∈ sales, b.1.pos.ref ≠ p.ref → b ∈ sales')
    (hnd : (sales'.map fun b => b.1.pos.ref).Nodup) :
    Single (opens.erase s) (log ++ [.recordClose sold, .closed p x r]) sales' flat := by
  have ho : openedPositions (log ++ [.recordClose sold, .closed p x r]) = openedPositions log := by
    rw [openedPositions_append_of_none (by simp)]
  have hs : ∀ r', soldShares r' (log ++ [.recordClose sold, .closed p x r]) = soldShares r' log := by
    intro r'; rw [soldShares_append]; exact add_zero _
  have hself : recordCloses p.ref (log ++ [.recordClose sold, .closed p x r]) = 1 := by
    rw [recordCloses_append, (h.held hp).1]
    simp [recordCloses, href]
  have hne : ∀ r', r' ≠ p.ref →
      recordCloses r' (log ++ [.recordClose sold, .closed p x r]) = recordCloses r' log := by
    intro r' hr'
    rw [recordCloses_append]
    simp [recordCloses, href, hr'.symm]
  -- what stays tracked has another identity
  have hstays : ∀ {s' q}, (opens.erase s).get? s' = some q → opens.get? s' = some q ∧ q.ref ≠ p.ref := by
    intro s' q hq
    rw [Dict.get?_erase] at hq
    split at hq
    · exact absurd hq (by simp)
    · rename_i hss
      exact ⟨hq, fun he => hss (h.place hq hp he)⟩
  refine ⟨?_, ?_, ?_, ?_, ?_, ?_, ?_, hnd⟩
  · intro s1 s2 p1 p2 h1 h2 he
    exact h.place (hstays h1).1 (hstays h2).1 he
  · intro s' q hq
    rw [ho]
    exact h.known (hstays hq).1
  · -- the closed position was opened, so an identity that was not is another one
    intro r' hr'
    rw [ho] at hr'
    have hfresh := h.fresh r' hr'
    have hr'p : r' ≠ p.ref := by
      obtain ⟨q, hq, hqr⟩ := h.known hp
      rintro rfl
      exact hr' q hq hqr
    rw [hs, hne r' hr'p]
    exact hfresh
  · intro q hq
    rw [ho] at hq
    rw [hs]
    exact h.whole q hq
  · -- another SELL in flight stays in flight
    intro s' q hq
    obtain ⟨hq', hqp⟩ := hstays hq
    rw [hs, hne _ hqp]
    exact h.still_held hq' fun b hb hbr _ => hkeep b hb (hbr ▸ hqp)
  · -- the position itself has just been closed; the others were closed before
    intro q hq hno
    rw [ho] at hq
    by_cases hqp : q.ref = p.ref
    · rw [hqp]; exact hself
    · rw [hne _ hqp]
      refine h.gone q hq ?_
      intro s' q' hq'
      by_cases hss : s' = s
      · subst hss
        rw [Option.some.inj (hq'.symm.trans hp)]
        exact fun he => hqp he.symm
      · exact hno s' q' (by rw [Dict.get?_erase_ne _ hss]; exact hq')
  · -- the SELLs left are of other symbols
    intro b hb
    obtain ⟨hb', hbp⟩ := hsub b hb
    obtain ⟨⟨q, hq, hqr⟩, h2, h3⟩ := h.sale b hb'
    rw [ho, hs]
    refine ⟨⟨q, ?_, hqr⟩, h2, h3⟩
    have hss : b.1.symbol ≠ s := by
      intro he
      rw [he] at hq
      rw [Option.some.inj (hp.symm.trans hq)] at hbp
      exact hbp hqr.symm
    rw [Dict.get?_erase_ne _ hss]
    exact hq

/-- A SELL is over, and its position closed. -/
theorem sold {o : SellOrder} {call : Call OrderAck} (h : Single opens log ((o, call) :: sales) flat)
    {p : LivePosition} {x : ℚ} {r : RiskState} (hp : opens.get? o.symbol = some p) :
    Single (opens.erase o.symbol) (log ++ [.recordClose o.pos, .closed p x r]) sales flat := by
  obtain ⟨⟨q, hq, hqr⟩, -, -⟩ := h.sale _ List.mem_cons_self
  have href : o.pos.ref = p.ref := by
    rw [Option.some.inj (hp.symm.trans hq)]
    exact hqr.symm
  have hap := h.apart
  rw [List.map_cons, List.nodup_cons] at hap
  refine h.retire hp href ?_ ?_ hap.2
  · intro b hb
    refine ⟨List.mem_cons_of_mem _ hb, ?_⟩
    intro hbr
    exact hap.1 (List.mem_map.mpr ⟨b, hb, hbr.trans href.symm⟩)
  · intro b hb hbr
    rcases List.mem_cons.mp hb with rfl | hb
    · exact absurd href hbr
    · exact hb

/-- A SELL that was not accepted is over. -/
theorem refused {o : SellOrder} {call : Call OrderAck}
    (h : Single opens log ((o, call) :: sales) flat) (ht : took call = false) :
    Single opens log sales flat := by
  have hap := h.apart
  rw [List.map_cons, List.nodup_cons] at hap
  refine h.forget (fun b hb => List.mem_cons_of_mem _ hb) ?_ hap.2
  intro b hb htb
  rcases List.mem_cons.mp hb with rfl | hb
  · exact absurd (ht.symm.trans htb) (by simp)
  · exact hb

/--
**An accepted entry gets tracked.**

The position takes the place of nothing, and its identity is new. So it is unsold and
unclosed, no SELL in flight is of it, and whatever is no longer tracked is an older
position.
-/
theorem opened (h : Single opens log sales flat) {symbol : Symbol} {p : LivePosition}
    (hnone : opens.get? symbol = none) (hnew : ∀ q ∈ openedPositions log, q.ref ≠ p.ref) :
    Single (opens.set symbol p) (log ++ [.opened p]) sales flat := by
  have ho : openedPositions (log ++ [.opened p]) = openedPositions log ++ [p] := by
    rw [openedPositions_append]; rfl
  have hs : ∀ r, soldShares r (log ++ [.opened p]) = soldShares r log := by
    intro r; rw [soldShares_append]; exact add_zero _
  have hc : ∀ r, recordCloses r (log ++ [.opened p]) = recordCloses r log := by
    intro r; rw [recordCloses_append]; rfl
  obtain ⟨hzero, hnoclose⟩ := h.fresh p.ref hnew
  have hmem : ∀ {q}, q ∈ openedPositions log → q ∈ openedPositions log ++ [p] :=
    fun hq => List.mem_append_left _ hq
  have hfar : ∀ {s q}, opens.get? s = some q → q.ref ≠ p.ref := by
    intro s q hq
    obtain ⟨q', hq', hqr⟩ := h.known hq
    rw [← hqr]
    exact hnew q' hq'
  have hcases : ∀ {s q}, (opens.set symbol p).get? s = some q →
      (s = symbol ∧ q = p) ∨ opens.get? s = some q := by
    intro s q hq
    rw [Dict.get?_set] at hq
    split at hq
    · rename_i hsym
      exact Or.inl ⟨hsym, (Option.some.inj hq).symm⟩
    · exact Or.inr hq
  refine ⟨?_, ?_, ?_, ?_, ?_, ?_, ?_, h.apart⟩
  · -- a fresh identity stands under one symbol only
    intro s s' q q' hq hq' href
    rcases hcases hq with ⟨hsym, hqp⟩ | hold
    · rcases hcases hq' with ⟨hsym', -⟩ | hold'
      · exact hsym.trans hsym'.symm
      · exact absurd (hqp ▸ href).symm (hfar hold')
    · rcases hcases hq' with ⟨-, hqp'⟩ | hold'
      · exact absurd (hqp' ▸ href) (hfar hold)
      · exact h.place hold hold' href
  · intro s q hq
    rw [ho]
    rcases hcases hq with ⟨-, rfl⟩ | hq
    · exact ⟨q, List.mem_append_right _ (List.mem_singleton.mpr rfl), rfl⟩
    · obtain ⟨q', hq', hqr⟩ := h.known hq
      exact ⟨q', hmem hq', hqr⟩
  · intro r hr
    rw [ho] at hr
    rw [hs, hc]
    exact h.fresh r fun q hq => hr q (hmem hq)
  · -- a new position is unsold
    intro q hq
    rw [ho] at hq
    rw [hs]
    rcases List.mem_append.mp hq with hq | hq
    · exact h.whole q hq
    · rw [List.mem_singleton.mp hq]
      exact Or.inl hzero
  · intro s q hq
    rw [hs, hc]
    rcases hcases hq with ⟨-, rfl⟩ | hq
    · exact ⟨hnoclose, Or.inl hzero⟩
    · exact h.held hq
  · -- a new position is tracked, so what is gone is an older one
    intro q hq hno
    rw [ho] at hq
    rw [hc]
    rcases List.mem_append.mp hq with hq | hq
    · refine h.gone q hq ?_
      intro s q' hq'
      refine hno s q' ?_
      have hss : s ≠ symbol := by
        rintro rfl
        exact absurd (hnone.symm.trans hq') (by simp)
      rw [Dict.get?_set_ne _ _ hss]
      exact hq'
    · have hqp : q = p := List.mem_singleton.mp hq
      exact absurd (congrArg (·.ref) hqp).symm (hno symbol p (Dict.get?_set_self ..))
  · -- a SELL in flight is of a tracked symbol, and the new one was not
    intro b hb
    obtain ⟨⟨q, hq, hqr⟩, ⟨m, hm⟩, h3⟩ := h.sale b hb
    rw [ho, hs]
    refine ⟨⟨q, ?_, hqr⟩, ⟨m, hmem hm⟩, h3⟩
    have hss : b.1.symbol ≠ symbol := by
      intro he
      rw [he] at hq
      exact absurd (hnone.symm.trans hq) (by simp)
    rw [Dict.get?_set_ne _ _ hss]
    exact hq

/--
**An accepted flatten sells what is left of the positions it closes.**

No SELL is in flight beside it, so a position is unsold or sold whole, and it sells
the first kind whole. That they are still tracked is what the flag is for: the loop
that asked learns of the answer in a later step.
-/
theorem flatten (h : Single opens log [] flat) (hnd : ((openedPositions log).map (·.ref)).Nodup)
    (closed : List Symbol) :
    Single opens (log ++ (openedPositions log).filterMap (fillOf closed log)) [] true := by
  have hfill : ∀ e ∈ (openedPositions log).filterMap (fillOf closed log),
      ∃ r q, e = .flattenFilled r q := by
    intro e he
    obtain ⟨p, -, hpe⟩ := List.mem_filterMap.mp he
    unfold fillOf at hpe
    split at hpe
    · exact ⟨_, _, (Option.some.inj hpe).symm⟩
    · exact absurd hpe (by simp)
  have ho : openedPositions (log ++ (openedPositions log).filterMap (fillOf closed log))
      = openedPositions log := by
    rw [openedPositions_append_of_none]
    intro e he p hp
    obtain ⟨r, q, hrq⟩ := hfill e he
    exact absurd (hrq.symm.trans hp) (by simp)
  have hc : ∀ r, recordCloses r (log ++ (openedPositions log).filterMap (fillOf closed log))
      = recordCloses r log := by
    intro r
    rw [recordCloses_append]
    have hzero : recordCloses r ((openedPositions log).filterMap (fillOf closed log)) = 0 := by
      unfold recordCloses
      rw [List.countP_eq_zero]
      intro e he
      obtain ⟨r, q, rfl⟩ := hfill e he
      simp
    rw [hzero, add_zero]
  refine ⟨h.place, ?_, ?_, ?_, ?_, ?_, by simp, h.apart⟩
  · rw [ho]
    exact h.known
  · intro r hr
    rw [ho] at hr
    rw [hc, soldShares_append, soldShares_fills_other hr, add_zero]
    exact h.fresh r hr
  · -- the flatten sells exactly what is left
    intro p hp
    rw [ho] at hp
    rw [soldShares_append, soldShares_fills hnd hp]
    split
    · rw [add_sub_cancel]
      exact Or.inr rfl
    · rw [add_zero]
      exact h.whole p hp
  · -- any tracked position may be sold now: the flatten is in flight
    intro s p hp
    rw [hc]
    exact ⟨(h.held hp).1, Or.inr (Or.inl rfl)⟩
  · intro p hp hno
    rw [ho] at hp
    rw [hc]
    exact h.gone p hp hno

/-- The answer to a flatten that was not accepted changes nothing. -/
theorem widen (h : Single opens log sales flat) (hf : flat = true → flat' = true) :
    Single opens log sales flat' := by
  refine ⟨h.place, h.known, h.fresh, h.whole, ?_, h.gone, h.sale, h.apart⟩
  intro s p hp
  refine ⟨(h.held hp).1, ?_⟩
  rcases (h.held hp).2 with h0 | hflat | hb
  · exact Or.inl h0
  · exact Or.inr (Or.inl (hf hflat))
  · exact Or.inr (Or.inr hb)

/-- With nothing tracked, nothing is left to learn. -/
theorem emptied (h : Single opens log sales flat) (hno : ∀ s, opens.get? s = none)
    (hsales : sales = []) : Single opens log [] flat' := by
  subst hsales
  refine ⟨h.place, h.known, h.fresh, h.whole, ?_, h.gone, h.sale, h.apart⟩
  intro s p hp
  exact absurd ((hno s).symm.trans hp) (by simp)

end Single

/-! ## The stop loop's own list -/

/-- The positions that the iteration in progress still has before it. -/
def StopTask.holds : StopTask → List (Symbol × LivePosition)
  | .awaitQuote symbol pos rest => (symbol, pos) :: rest
  | .awaitSellAck _ rest _ => rest
  | _ => []

namespace World

variable {env : Env} {w w' : World}

/-- The stop loop holds positions that were opened, tracked or not. -/
def StopHolds (w : World) : Prop :=
  ∀ b ∈ w.stopTask.holds, ∃ m, { b.2 with highWatermark := m } ∈ openedPositions w.log

theorem stopHolds_init : StopHolds (init env) := fun b hb => absurd hb (by simp [init, StopTask.holds])

@[simp] theorem nextStop_holds (rest : List (Symbol × LivePosition)) :
    (nextStop env rest w).stopTask.holds = rest := by
  cases rest with
  | cons b rest => rfl
  | nil =>
      change (w.stopLoop env).holds = []
      unfold stopLoop
      split <;> rfl

/-- The list is what was tracked when the iteration began, or less. -/
theorem holds_step {l : Label} (hr : Reached env w) (hs : step env w l = some w')
    {b : Symbol × LivePosition} (hb : b ∈ w'.stopTask.holds) :
    b ∈ w.stopTask.holds ∨ w.opens.get? b.1 = some b.2 := by
  by_cases hw : .stopTask ∈ l.writes
  · cases l with
    | stopWake =>
        obtain ⟨due, -, -, ⟨-, rfl⟩ | ⟨-, rfl⟩⟩ := stopWake_cases (task_some hs).2
        · rw [nextStop_holds] at hb
          exact absurd hb (by simp)
        · rw [nextStop_holds] at hb
          exact Or.inr (Dict.mem_items.mp hb)
    | stopQuote quote =>
        obtain ⟨symbol, pos, rest, hst, hq⟩ := stopQuote_cases (task_some hs).2
        -- the iteration goes on with a shorter list
        have hrest : b ∈ rest := by
          cases hq with
          | raised | held => rw [nextStop_holds] at hb; exact hb
          | fired => exact hb
        rw [hst]
        exact Or.inl (List.mem_cons_of_mem _ hrest)
    | stopResume =>
        obtain ⟨o, rest, reply, hst, hq⟩ := stopResume_cases (task_some hs).2
        have hrest : b ∈ rest := by
          cases hq <;> · rw [nextStop_holds] at hb; exact hb
        rw [hst]
        exact Or.inl hrest
    | stopAnswer reply filled =>
        obtain ⟨o, rest, hst, -, -, rfl⟩ := stopAnswer_cases hs
        rw [hst]
        exact Or.inl hb
    | _ => simp [Label.writes] at hw
  · have hsame : w'.stopTask = w.stopTask := (hr.footprint hs).same .stopTask hw
    exact Or.inl (hsame ▸ hb)

theorem stopHolds_step {l : Label} (hr : Reached env w) (h : StopHolds w)
    (hs : step env w l = some w') : StopHolds w' := by
  obtain ⟨es, hlog, -⟩ := (hr.footprint hs).log
  intro b hb
  have hopened : ∃ m, { b.2 with highWatermark := m } ∈ openedPositions w.log := by
    rcases holds_step hr hs hb with hb | hb
    · exact h b hb
    · exact (identity_reached hr).tracked hb
  obtain ⟨m, hm⟩ := hopened
  rw [hlog, openedPositions_append]
  exact ⟨m, List.mem_append_left _ hm⟩

theorem stopHolds_reached (h : Reached env w) : StopHolds w :=
  h.invariant stopHolds_init fun _ _ _ hr hi hs => stopHolds_step hr hi hs

/-! ## Every serialised step keeps it -/

/-- **What serialised runs keep.** -/
structure Serial (w : World) : Prop where
  single : Single w.opens w.log w.sales w.flattened
  /-- No SELL is in flight beside a flatten. -/
  alone : w.flattening = true → w.sales = []
  /-- Nothing is in flight when the tasks are cancelled. -/
  stopped : w.cancelled = true → w.sales = [] ∧ w.flattening = false

theorem serial_init : Serial (init env) := by
  refine ⟨?_, fun _ => rfl, fun h => absurd h (by simp [init])⟩
  refine ⟨?_, ?_, fun _ _ => ⟨rfl, rfl⟩, ?_, ?_, ?_, ?_, List.nodup_nil⟩
  · intro s s' p q hp
    exact absurd hp (by simp [init])
  · intro s p hp
    exact absurd hp (by simp [init])
  · intro p hp
    exact absurd hp (by simp [init, openedPositions])
  · intro s p hp
    exact absurd hp (by simp [init])
  · intro p hp
    exact absurd hp (by simp [init, openedPositions])
  · intro b hb
    exact absurd hb (by simp [init, sales, BarTask.sale, StopTask.sale])

variable (env w) in
@[simp] theorem nextStop_sale (rest : List (Symbol × LivePosition)) :
    (nextStop env rest w).stopTask.sale = [] := by
  cases rest with
  | cons b rest => rfl
  | nil =>
      change (w.stopLoop env).sale = []
      unfold stopLoop
      split <;> rfl

theorem flattening_of_flattened (h : w.flattened = true) : w.flattening = true := by
  unfold flattened at h
  rw [Bool.or_eq_true] at h
  unfold flattening
  rcases h with h | h
  · cases he : w.eodTask with
    | awaitFlatten call => rfl
    | sleeping | ended => rw [he] at h; exact absurd h (by simp [EodTask.took])
  · cases he : w.watchdogTask with
    | awaitFlatten attempt call => simp [WatchdogTask.flattening]
    | sleeping | delaying | ended => rw [he] at h; exact absurd h (by simp [WatchdogTask.took])

/-- A step that sells nothing and closes nothing; a flatten may be sent beside no SELL. -/
theorem serial_quiet (h : Serial w) (ho : Remarked w.opens w'.opens) {es : List Event}
    (hlog : w'.log = w.log ++ es) (hes : ∀ e ∈ es, e.trades = false) (hsales : w'.sales = w.sales)
    (htook : w'.flattened = w.flattened)
    (halone : w'.flattening = true → w.flattening = true ∨ w.sales = [])
    (hc : w'.cancelled = true → w.cancelled = true ∧ w'.flattening = w.flattening) : Serial w' := by
  refine ⟨?_, ?_, ?_⟩
  · rw [hlog, hsales, htook]
    exact (h.single.remarked ho).quiet hes
  · intro hfl
    rw [hsales]
    rcases halone hfl with hfl | hnil
    · exact h.alone hfl
    · exact hnil
  · intro hcan
    obtain ⟨hcan, hfl⟩ := hc hcan
    rw [hsales, hfl]
    exact h.stopped hcan

/-- A step that sells nothing, closes nothing, and leaves what is in flight in flight. -/
theorem serial_calm (h : Serial w) (ho : Remarked w.opens w'.opens) {es : List Event}
    (hlog : w'.log = w.log ++ es) (hes : ∀ e ∈ es, e.trades = false)
    (hsales : w'.sales = w.sales) (heod : w'.eodTask = w.eodTask)
    (hwd : w'.watchdogTask = w.watchdogTask) (hc : w'.cancelled = w.cancelled) : Serial w' := by
  have hflat : w'.flattening = w.flattening := by unfold flattening; rw [heod, hwd]
  have htook : w'.flattened = w.flattened := by unfold flattened; rw [heod, hwd]
  exact serial_quiet h ho hlog hes hsales htook (fun hfl => Or.inl (hflat ▸ hfl))
    fun hcan => ⟨hc ▸ hcan, hflat⟩

/-- A SELL of a tracked position is sent while nothing is closing it. -/
theorem single_send (h : Serial w) {o : SellOrder} {p : LivePosition}
    (hflat : w.flattening = false) (hsells : w.sells o.pos.ref = false)
    (hp : w.opens.get? o.symbol = some p) (href : p.ref = o.pos.ref)
    (hopened : ∃ m, { o.pos with highWatermark := m } ∈ openedPositions w.log) :
    w.flattened = false ∧ Single w.opens w.log ((o, .sent) :: w.sales) false := by
  have hf : w.flattened = false := by
    cases hf : w.flattened with
    | false => rfl
    | true => exact absurd (hflat.symm.trans (flattening_of_flattened hf)) (by simp)
  refine ⟨hf, ?_⟩
  have hs := h.single
  rw [hf] at hs
  refine hs.send hp href hopened ?_
  intro b hb hbr
  unfold sells at hsells
  rw [List.any_eq_false] at hsells
  exact hsells b hb (decide_eq_true hbr)

theorem serial_barQuote {quote : Option QuoteTick} (hr : Reached env w) (h : Serial w)
    (hs : step env w (.barQuote quote) = some w')
    (hc : serialised ⟨w, .barQuote quote, w'⟩ = true) : Serial w' := by
  obtain ⟨hcan, hq⟩ := task_some hs
  -- judged while frozen or ended: no order
  obtain ⟨bar, scan, l2, hb, ⟨-, rfl⟩ | ⟨-, hj⟩⟩ := barQuote_cases hq
  · exact serial_calm h (.refl _) (List.append_nil _).symm (by simp)
      (by simp [sales, BarTask.sale, hb]) rfl rfl rfl
  · cases hj with
    | quiet | lost | scale | buy =>
        exact serial_calm h (.refl _) rfl (by simp [Event.trades])
          (by simp [sales, BarTask.sale, hb]) rfl rfl rfl
    | @sell e sigs snap pos hsnap hcon hpos hcl =>
        -- the condition keeps a second SELL of the position away
        have hcond : w.flattening = false ∧ w.sells pos.ref = false := by
          simpa [serialised, BarTask.sale] using hc
        obtain ⟨hf, hsend⟩ := single_send h (o := ⟨snap.symbol, pos, bar.close.val⟩) hcond.1 hcond.2
          hpos rfl ((identity_reached hr).tracked hpos)
        have hsales : w.sales = w.stopTask.sale := by simp [sales, BarTask.sale, hb]
        refine ⟨?_, ?_, fun hc' => absurd (hcan.symm.trans hc') (by simp)⟩
        · change Single w.opens _ ([(_, .sent)] ++ w.stopTask.sale) w.flattened
          rw [hf, ← hsales]
          exact hsend.quiet (by simp [Event.trades])
        · intro hflat
          exact absurd (hcond.1.symm.trans hflat) (by simp)

/--
**The bar loop reads the broker's answer.**

An accepted BUY is tracked, an accepted SELL retires its position, and anything else
changes nothing. The stop loop's own SELL stays where it is, of another position; a
flatten is only there when no SELL is, and then the answer is that of a BUY.
-/
theorem serial_barResume (hr : Reached env w) (h : Serial w)
    (hs : step env w .barResume = some w') : Serial w' := by
  obtain ⟨hcan, hq⟩ := task_some hs
  -- the SELL of the stop loop stays, and a flatten is only there beside no SELL at all
  have lift : ∀ {v : World}, Single v.opens v.log v.stopTask.sale w.flattened →
      v.barTask.sale = [] → v.stopTask = w.stopTask → v.eodTask = w.eodTask →
      v.watchdogTask = w.watchdogTask → v.cancelled = w.cancelled → Serial v := by
    intro v hsingle hbar hstop heod hwd hc
    have hflat : v.flattened = w.flattened := by unfold flattened; rw [heod, hwd]
    have hsales : v.sales = v.stopTask.sale := by rw [sales, hbar, List.nil_append]
    refine ⟨?_, ?_, fun hc' => absurd (hcan.symm.trans (hc ▸ hc')) (by simp)⟩
    · rw [hsales, hflat]
      exact hsingle
    · intro hfl
      have hfl' : w.flattening = true := by
        unfold flattening at hfl ⊢; rwa [heod, hwd] at hfl
      rw [hsales, hstop]
      exact (List.append_eq_nil_iff.mp (h.alone hfl')).2
  cases barResume_cases (noRest_reached hr) hq with
  | buyRaised hb | buyRejected hb =>
      have hsales : w.sales = w.stopTask.sale := by simp [sales, BarTask.sale, hb]
      exact lift (hsales ▸ h.single) rfl rfl rfl rfl rfl
  | @opened o ack hb hacc =>
      have hsales : w.sales = w.stopTask.sale := by simp [sales, BarTask.sale, hb]
      refine lift ?_ rfl rfl rfl rfl rfl
      have hsingle := h.single
      rw [hsales] at hsingle
      refine hsingle.opened (p := entryPosition o ack) ((tracked_reached hr).entry hb).2 ?_
      exact ((identity_reached hr).entry hb).2
  | @sellRaised o bar hb =>
      have hsales : w.sales = (o, .answered none) :: w.stopTask.sale := by
        simp [sales, BarTask.sale, hb]
      have hsingle := h.single
      rw [hsales] at hsingle
      exact lift (hsingle.refused rfl) rfl rfl rfl rfl rfl
  | @sellRejected o bar ack hb hacc =>
      have hsales : w.sales = (o, .answered (some ack)) :: w.stopTask.sale := by
        simp [sales, BarTask.sale, hb]
      have hsingle := h.single
      rw [hsales] at hsingle
      exact lift (hsingle.refused (by simpa [took] using hacc)) rfl rfl rfl rfl rfl
  | @sold o bar ack p hb hacc hp =>
      have hsales : w.sales = (o, .answered (some ack)) :: w.stopTask.sale := by
        simp [sales, BarTask.sale, hb]
      have hsingle := h.single
      rw [hsales] at hsingle
      exact lift (hsingle.sold hp) rfl rfl rfl rfl rfl
  | @soldTwice o bar ack hb hacc hnone =>
      have hmem : (o, .answered (some ack)) ∈ w.sales := by simp [sales, BarTask.sale, hb]
      obtain ⟨⟨p, hp, -⟩, -, -⟩ := h.single.sale _ hmem
      exact absurd (hnone.symm.trans hp) (by simp)

/-- Going on with an iteration once the stop loop's SELL is over. -/
theorem serial_nextStop {v : World} {rest : List (Symbol × LivePosition)} (h : Serial w)
    (hcan : w.cancelled = false) (hsingle : Single v.opens v.log w.barTask.sale w.flattened)
    (hbar : v.barTask = w.barTask) (heod : v.eodTask = w.eodTask)
    (hwd : v.watchdogTask = w.watchdogTask) (hc : v.cancelled = w.cancelled) :
    Serial (nextStop env rest v) := by
  -- the loop moves on: its own sale is gone, the bar loop's is not
  obtain ⟨t, es, heq, hes⟩ := nextStop_footprint env v rest
  have hsale := nextStop_sale env v rest
  rw [heq] at hsale ⊢
  change t.sale = [] at hsale
  have hsales : v.barTask.sale ++ t.sale = w.barTask.sale := by
    rw [hsale, List.append_nil, hbar]
  refine ⟨?_, ?_, fun hc' => absurd (hcan.symm.trans (hc ▸ hc')) (by simp)⟩
  · change Single v.opens (v.log ++ es) (v.barTask.sale ++ t.sale)
      (v.eodTask.took || v.watchdogTask.took)
    rw [hsales, heod, hwd]
    exact hsingle.quiet fun e he => hes e he ▸ rfl
  · intro hfl
    change (v.eodTask.flattening || v.watchdogTask.flattening) = true at hfl
    rw [heod, hwd] at hfl
    change v.barTask.sale ++ t.sale = []
    rw [hsales]
    exact (List.append_eq_nil_iff.mp (h.alone hfl)).1

theorem serial_stopWake (h : Serial w) (hs : step env w .stopWake = some w') : Serial w' := by
  obtain ⟨hcan, hq⟩ := task_some hs
  obtain ⟨due, hst, -, hcase⟩ := stopWake_cases hq
  have hsingle : Single w.opens (w.log ++ [.poll w.opens.items]) w.barTask.sale w.flattened := by
    have hsales : w.sales = w.barTask.sale := by simp [sales, StopTask.sale, hst]
    rw [← hsales]
    exact h.single.quiet (by simp [Event.trades])
  rcases hcase with ⟨-, rfl⟩ | ⟨-, rfl⟩
  · exact serial_nextStop h hcan hsingle rfl rfl rfl rfl
  · exact serial_nextStop h hcan hsingle rfl rfl rfl rfl

theorem serial_stopQuote {quote : Option QuoteTick} (hr : Reached env w) (h : Serial w)
    (hs : step env w (.stopQuote quote) = some w')
    (hc : serialised ⟨w, .stopQuote quote, w'⟩ = true) : Serial w' := by
  obtain ⟨hcan, hq⟩ := task_some hs
  obtain ⟨symbol, pos, rest, hst, hq⟩ := stopQuote_cases hq
  have hsales : w.sales = w.barTask.sale := by simp [sales, StopTask.sale, hst]
  have hsingle := h.single
  rw [hsales] at hsingle
  cases hq with
  | raised =>
      exact serial_nextStop h hcan (hsingle.quiet (by simp [Event.trades])) rfl rfl rfl rfl
  | held _ hm =>
      exact serial_nextStop h hcan ((hsingle.remarked hm).quiet (by simp [Event.trades]))
        rfl rfl rfl rfl
  | @fired q o' _ hm =>
      -- the position is tracked still, and nobody else is selling it
      have hcond : (w.flattening = false ∧ w.sells pos.ref = false)
          ∧ w.isTracked symbol pos = true := by
        simpa [serialised, StopTask.sale, stopOrder] using hc
      obtain ⟨⟨hflat, hsells⟩, htr⟩ := hcond
      unfold isTracked at htr
      rw [Option.any_eq_true] at htr
      obtain ⟨p, hp, href⟩ := htr
      have hopened := stopHolds_reached hr (symbol, pos) (by rw [hst]; exact List.mem_cons_self)
      obtain ⟨hf, hsend⟩ := single_send h (o := stopOrder symbol pos q.bid.val) hflat hsells
        hp (of_decide_eq_true href) hopened
      refine ⟨?_, ?_, fun hc' => absurd (hcan.symm.trans hc') (by simp)⟩
      · change Single o' _ (w.barTask.sale ++ [(_, .sent)]) w.flattened
        rw [hf, ← hsales]
        exact ((hsend.remarked hm).quiet (by simp [Event.trades])).reorder
          (List.perm_append_singleton ..)
      · intro hfl
        exact absurd (hflat.symm.trans hfl) (by simp)

theorem serial_stopResume (h : Serial w) (hs : step env w .stopResume = some w') :
    Serial w' := by
  obtain ⟨hcan, hq⟩ := task_some hs
  obtain ⟨o, rest, reply, hst, hq⟩ := stopResume_cases hq
  have hsingle : Single w.opens w.log ((o, .answered reply) :: w.barTask.sale) w.flattened := by
    refine h.single.reorder ?_
    rw [sales, hst]
    exact (List.perm_append_singleton ..).symm
  cases hq with
  | refused hno => exact serial_nextStop h hcan (hsingle.refused hno) rfl rfl rfl rfl
  | sold hacc hp => exact serial_nextStop h hcan (hsingle.sold hp) rfl rfl rfl rfl
  | soldTwice hacc hnone =>
      obtain ⟨⟨p, hp, -⟩, -, -⟩ := hsingle.sale _ List.mem_cons_self
      exact absurd (hnone.symm.trans hp) (by simp)

/-- The broker answers a SELL, and its holding changes. -/
theorem single_answer {o : SellOrder} {rest : List Sale} (reply : Option OrderAck) (qty : ℤ)
    (hr : Reached env w) (h : Single w.opens w.log ((o, .sent) :: rest) w.flattened) :
    Single w.opens ((w.setHolding o.symbol qty).log
        ++ if reply.any (·.accepted) then [.sellAccepted o.pos] else [])
      ((o, .answered reply) :: rest) w.flattened := by
  obtain ⟨es, heq, hes⟩ := setHolding_footprint (w := w) o.symbol qty
  have hquiet : ∀ e ∈ es, e.trades = false := fun e he => (hes e he).1 ▸ rfl
  rw [heq]
  refine (h.quiet hquiet).answer ?_
  rw [openedPositions_append, (counts_of_quiet hquiet).1, List.append_nil]
  exact (identity_reached hr).unique

/-- The broker answers the bar loop. -/
theorem serial_barAnswer {reply : Option OrderAck} {filled : ℤ} (hr : Reached env w)
    (h : Serial w) (hs : step env w (.barAnswer reply filled) = some w') : Serial w' := by
  obtain ⟨o, rest, hb, -, -, rfl⟩ | ⟨o, bar, rest, hb, -, -, rfl⟩ := barAnswer_cases hs
  · -- a BUY: nothing is sold
    obtain ⟨es, heq, hes⟩ := setHolding_footprint (w := w) o.signal.symbol
      (w.holding o.signal.symbol + filled)
    rw [heq]
    exact serial_calm h (.refl _) rfl (fun e he => (hes e he).1 ▸ rfl)
      (by simp [sales, BarTask.sale, hb]) rfl rfl rfl
  · -- a SELL: it is the first of those in flight
    have hsales : w.sales = (o, .sent) :: w.stopTask.sale := by simp [sales, BarTask.sale, hb]
    have hne : w.sales ≠ [] := by rw [hsales]; simp
    have hanswer := single_answer reply (w.holding o.symbol - filled) hr
      (hsales ▸ h.single)
    obtain ⟨es, heq, -⟩ := setHolding_footprint (w := w) o.symbol (w.holding o.symbol - filled)
    rw [heq] at hanswer ⊢
    exact ⟨hanswer, fun hfl => absurd (h.alone hfl) hne, fun hc => absurd (h.stopped hc).1 hne⟩

/-- The broker answers the stop loop. -/
theorem serial_stopAnswer {reply : Option OrderAck} {filled : ℤ} (hr : Reached env w)
    (h : Serial w) (hs : step env w (.stopAnswer reply filled) = some w') : Serial w' := by
  obtain ⟨o, rest, hst, -, -, rfl⟩ := stopAnswer_cases hs
  have hperm : w.sales.Perm ((o, .sent) :: w.barTask.sale) := by
    rw [sales, hst]
    exact List.perm_append_singleton ..
  have hne : w.sales ≠ [] := by
    rw [sales, hst]
    exact List.append_ne_nil_of_right_ne_nil _ (by simp [StopTask.sale])
  have hanswer := single_answer reply (w.holding o.symbol - filled) hr
    (h.single.reorder hperm.symm)
  obtain ⟨es, heq, -⟩ := setHolding_footprint (w := w) o.symbol (w.holding o.symbol - filled)
  rw [heq] at hanswer ⊢
  exact ⟨hanswer.reorder (List.perm_append_singleton ..), fun hfl => absurd (h.alone hfl) hne,
    fun hc => absurd (h.stopped hc).1 hne⟩

/-! ## Flattens and reconciliations -/

/-- A flatten that sells no BUY in flight sells what is left of the opened positions. -/
theorem flattenFills_eq {closed : List Symbol}
    (hpend : ∀ b ∈ w.pendingEntry, b.2.1 ∉ closed) :
    w.flattenFills closed = (openedPositions w.log).filterMap (fillOf closed w.log) := by
  unfold flattenFills
  rw [List.filterMap_append, List.filterMap_map]
  -- the BUY in flight contributes nothing
  refine (congrArg (_ ++ ·) (List.filterMap_eq_nil_iff.mpr ?_)).trans (List.append_nil _)
  rintro ⟨ref, symbol, shares⟩ hb
  exact if_neg fun hc => hpend _ hb hc.1

/-- A flatten's answer leaves the book in order. -/
theorem single_flatten {reply : Option (List OrderAck)} {closed : List Symbol} {flat : Bool}
    (hr : Reached env w) (h : Single w.opens w.log [] w.flattened)
    (hacc : flattenAccepted reply = true ∨ closed = [])
    (hpend : ∀ b ∈ w.pendingEntry, b.2.1 ∉ closed) (hold : w.flattened = true → flat = true)
    (hflat : flattenAccepted reply = true → flat = true) :
    Single w.opens (w.log ++ w.flattenFills closed) [] flat := by
  rw [flattenFills_eq hpend]
  rcases hacc with hacc | rfl
  · -- accepted: the positions of `closed` are sold whole
    rw [hflat hacc]
    exact h.flatten (identity_reached hr).unique closed
  · -- not accepted: nothing is sold
    have hnil : (openedPositions w.log).filterMap (fillOf [] w.log) = [] := by
      rw [List.filterMap_eq_nil_iff]
      intro p _
      exact if_neg fun hc => absurd hc.1 (by simp)
    rw [hnil, List.append_nil]
    exact h.widen hold

variable (env) in
/-- Closing positions that nothing is selling leaves the book in order. -/
theorem single_retireAll (price : Symbol → ℚ) {bs : List (Symbol × LivePosition)}
    (h : Single w.opens w.log w.sales w.flattened) (hnd : (bs.map Prod.fst).Nodup)
    (hbs : ∀ b ∈ bs, w.opens.get? b.1 = some b.2)
    (hno : ∀ b ∈ bs, ∀ c ∈ w.sales, c.1.pos.ref ≠ b.2.ref) :
    Single (retireAll env price w bs).opens (retireAll env price w bs).log w.sales w.flattened := by
  refine retireAll_induction (I := fun v => Single v.opens v.log w.sales w.flattened) price ?_
    hnd hbs h
  intro v s p x hm hp hv
  refine hv.retire hp rfl (fun c hc => ⟨hc, hno _ hm c hc⟩) (fun c hc _ => hc) hv.apart

variable (env w) in
/-- The tasks are not touched by retiring. -/
theorem retireAll_tasks (price : Symbol → ℚ) (bs : List (Symbol × LivePosition)) :
    (retireAll env price w bs).barTask = w.barTask
      ∧ (retireAll env price w bs).stopTask = w.stopTask
      ∧ (retireAll env price w bs).eodTask = w.eodTask
      ∧ (retireAll env price w bs).watchdogTask = w.watchdogTask
      ∧ (retireAll env price w bs).cancelled = w.cancelled := by
  obtain ⟨o, e, r, es, h, -⟩ := retireAll_footprint env w price bs
  rw [h]
  exact ⟨rfl, rfl, rfl, rfl, rfl⟩

/-- A flatten is over, and everything was closed. -/
theorem serial_closeAll {v : World} {price : Symbol → ℚ} (h : Serial w)
    (hfl : w.flattening = true) (hcan : w.cancelled = false)
    (hopens : v.opens = (retireAll env price w w.opens.items).opens)
    (hlog : v.log = (retireAll env price w w.opens.items).log)
    (hbar : v.barTask = (retireAll env price w w.opens.items).barTask)
    (hstop : v.stopTask = (retireAll env price w w.opens.items).stopTask)
    (hc : v.cancelled = (retireAll env price w w.opens.items).cancelled) : Serial v := by
  obtain ⟨hbar', hstop', -, -, hc'⟩ := retireAll_tasks env w price w.opens.items
  -- a flatten is under way, so no SELL is
  have hnil := h.alone hfl
  have hsales : v.sales = [] := by
    unfold sales
    rw [hbar, hstop, hbar', hstop']
    exact hnil
  have hcan' : v.cancelled = false := (hc.trans hc').trans hcan
  refine ⟨?_, fun _ => hsales, fun h' => absurd (hcan'.symm.trans h') (by simp)⟩
  rw [hopens, hlog, hsales]
  refine (single_retireAll env price h.single w.opens.nodup (fun b hb => Dict.mem_items.mp hb)
    ?_).emptied (retireAll_items price) hnil
  rw [hnil]
  simp

@[simp] theorem eodLoop_took : w.eodLoop.took = false := by
  unfold eodLoop; split <;> rfl

@[simp] theorem eodLoop_flattening : w.eodLoop.flattening = false := by
  unfold eodLoop; split <;> rfl

@[simp] theorem watchdogLoop_took : (w.watchdogLoop env).took = false := by
  unfold watchdogLoop; split <;> rfl

@[simp] theorem watchdogLoop_flattening : (w.watchdogLoop env).flattening = false := by
  unfold watchdogLoop; split <;> rfl

/-- What the EOD loop waits for is all that changed about flattens. -/
theorem flattened_eod {t : EodTask} (h : t.took = w.eodTask.took) :
    { w with eodTask := t }.flattened = w.flattened := by
  change (t.took || w.watchdogTask.took) = (w.eodTask.took || w.watchdogTask.took)
  rw [h]

/-- What the watchdog waits for is all that changed about flattens. -/
theorem flattened_watchdog {t : WatchdogTask} (h : t.took = w.watchdogTask.took) :
    { w with watchdogTask := t }.flattened = w.flattened := by
  change (w.eodTask.took || t.took) = (w.eodTask.took || w.watchdogTask.took)
  rw [h]

theorem serial_eodWake (h : Serial w) (hs : step env w .eodWake = some w')
    (hc : serialised ⟨w, .eodWake, w'⟩ = true) : Serial w' := by
  obtain ⟨hcan, hq⟩ := task_some hs
  obtain ⟨⟨due, hst⟩, ⟨-, rfl⟩ | rfl⟩ := eodWake_cases hq
  · have hsales : w.sales = [] := by simpa [serialised, EodTask.flattening] using hc
    exact serial_quiet h (.refl _) rfl (by simp [Event.trades]) rfl
      (flattened_eod (by rw [hst]; rfl)) (fun _ => Or.inr hsales)
      fun hc' => absurd (hcan.symm.trans hc') (by simp)
  · refine serial_quiet h (.refl _) (List.append_nil _).symm (by simp) rfl
      (flattened_eod (by rw [hst, eodLoop_took]; rfl)) (fun hfl => Or.inl ?_)
      fun hc' => absurd (hcan.symm.trans hc') (by simp)
    simp only [flattening, eodLoop_flattening, Bool.false_or] at hfl
    simp [flattening, hfl]

theorem serial_watchdogWake (h : Serial w) (hs : step env w .watchdogWake = some w')
    (hc : serialised ⟨w, .watchdogWake, w'⟩ = true) : Serial w' := by
  obtain ⟨hcan, hq⟩ := task_some hs
  have hno : ∀ {v : World}, v.cancelled = w.cancelled → v.cancelled = true →
      w.cancelled = true ∧ v.flattening = w.flattening :=
    fun hv hc' => absurd (hcan.symm.trans (hv ▸ hc')) (by simp)
  -- back to sleep: one flatten less is in flight
  have sleeps : ∀ {v : World}, v.eodTask = w.eodTask → v.watchdogTask = w.watchdogLoop env →
      v.flattening = true → w.flattening = true ∨ w.sales = [] := by
    intro v heod hwd hfl
    unfold flattening at hfl ⊢
    rw [heod, hwd, watchdogLoop_flattening, Bool.or_false] at hfl
    exact Or.inl (by rw [hfl]; rfl)
  cases watchdogWake_cases hq with
  | quiet hst | givesUp hst =>
      exact serial_quiet h (.refl _) (List.append_nil _).symm (by simp) rfl
        (flattened_watchdog (by rw [hst, watchdogLoop_took]; rfl)) (sleeps rfl rfl) (hno rfl)
  | thaws hst | freezes hst =>
      exact serial_quiet h (.refl _) rfl (by simp [Event.trades]) rfl
        (flattened_watchdog (by rw [hst, watchdogLoop_took]; rfl)) (sleeps rfl rfl) (hno rfl)
  | flattens hst | retries hst =>
      have hsales : w.sales = [] := by simpa [serialised, WatchdogTask.flattening] using hc
      exact serial_quiet h (.refl _) rfl (by simp [Event.trades]) rfl
        (flattened_watchdog (by rw [hst]; rfl)) (fun _ => Or.inr hsales) (hno rfl)

/-- The EOD loop learns of its flatten. -/
theorem serial_eodResume {price : Symbol → ℚ} (h : Serial w)
    (hs : step env w (.eodResume price) = some w') : Serial w' := by
  obtain ⟨hcan, hq⟩ := task_some hs
  obtain ⟨reply, hst, hcase⟩ := eodResume_cases hq
  have hfl : w.flattening = true := by simp [flattening, EodTask.flattening, hst]
  rcases hcase with ⟨rfl, rfl⟩ | ⟨acks, rfl, rfl⟩
  · exact serial_quiet h (.refl _) (List.append_nil _).symm (by simp) rfl
      (flattened_eod (by rw [hst]; rfl)) (fun _ => Or.inl hfl)
      fun hc' => absurd (hcan.symm.trans hc') (by simp)
  · exact serial_closeAll h hfl hcan rfl rfl rfl rfl rfl

/-- The watchdog learns of its flatten. -/
theorem serial_watchdogResume {price : Symbol → ℚ} (h : Serial w)
    (hs : step env w (.watchdogResume price) = some w') : Serial w' := by
  obtain ⟨hcan, hq⟩ := task_some hs
  obtain ⟨attempt, reply, hst, hcase⟩ := watchdogResume_cases hq
  have hfl : w.flattening = true := by simp [flattening, WatchdogTask.flattening, hst]
  rcases hcase with ⟨hnone, rfl⟩ | ⟨ack, acks, rfl, rfl⟩
  · refine serial_quiet h (.refl _) (List.append_nil _).symm (by simp) rfl
      (flattened_watchdog ?_) (fun _ => Or.inl hfl)
      fun hc' => absurd (hcan.symm.trans hc') (by simp)
    rw [hst]
    rcases hnone with rfl | rfl <;> rfl
  · exact serial_closeAll h hfl hcan rfl rfl rfl rfl rfl

/-- The reconcile loop drops what the broker does not have. -/
theorem serial_reconcileResume {price : Symbol → ℚ} (h : Serial w)
    (hs : step env w (.reconcileResume price) = some w')
    (hc : serialised ⟨w, .reconcileResume price, w'⟩ = true) : Serial w' := by
  obtain ⟨hcan, hq⟩ := task_some hs
  obtain ⟨reply, hst, rfl⟩ := reconcileResume_cases hq
  -- none of the orphans is being sold
  have hno : ∀ b ∈ w.orphans (getBrokerPositions reply), ∀ c ∈ w.sales,
      c.1.pos.ref ≠ b.2.ref := by
    have hall : (w.orphans (getBrokerPositions reply)).all (fun b => !w.sells b.2.ref) = true := by
      simpa [serialised, hst] using hc
    intro b hb c hcs href
    have hb' := List.all_eq_true.mp hall b hb
    rw [Bool.not_eq_true', sells, List.any_eq_false] at hb'
    exact hb' c hcs (decide_eq_true href)
  obtain ⟨hbar, hstop, heod, hwd, hcan'⟩ :=
    retireAll_tasks env w price (w.orphans (getBrokerPositions reply))
  have hsingle := single_retireAll env price h.single
    ((List.filter_sublist.map Prod.fst).nodup w.opens.nodup) (fun b hb => (mem_orphans.mp hb).1) hno
  refine ⟨?_, ?_, fun hc' => absurd (hcan.symm.trans (hcan' ▸ hc')) (by simp)⟩
  · change Single _ _ ((retireAll env price w (w.orphans (getBrokerPositions reply))).barTask.sale
      ++ (retireAll env price w (w.orphans (getBrokerPositions reply))).stopTask.sale)
      ((retireAll env price w (w.orphans (getBrokerPositions reply))).eodTask.took
        || (retireAll env price w (w.orphans (getBrokerPositions reply))).watchdogTask.took)
    rw [hbar, hstop, heod, hwd]
    -- the note that the reconciliation is done trades nothing
    refine hsingle.quiet ?_
    intro e he
    cases reply with
    | none => simp at he
    | some rows => rw [List.mem_singleton.mp he]; rfl
  · intro hfl
    change ((retireAll env price w (w.orphans (getBrokerPositions reply))).eodTask.flattening
        || (retireAll env price w (w.orphans (getBrokerPositions reply))).watchdogTask.flattening)
      = true at hfl
    rw [heod, hwd] at hfl
    change (retireAll env price w (w.orphans (getBrokerPositions reply))).barTask.sale
      ++ (retireAll env price w (w.orphans (getBrokerPositions reply))).stopTask.sale = []
    rw [hbar, hstop]
    exact h.alone hfl

/-- The broker carries out a flatten. -/
theorem serial_flattenAnswer {v : World} {reply : Option (List OrderAck)} {closed : List Symbol}
    (hr : Reached env w) (h : Serial w) (hfl : w.flattening = true)
    (hacc : flattenAccepted reply = true ∨ closed = [])
    (hpend : ∀ b ∈ w.pendingEntry, b.2.1 ∉ closed) (hopens : v.opens = w.opens)
    (hlog : v.log = w.log ++ w.flattenFills closed) (hsales : v.sales = w.sales)
    (hold : w.flattened = true → v.flattened = true)
    (htook : flattenAccepted reply = true → v.flattened = true) (hc : v.cancelled = w.cancelled) :
    Serial v := by
  have hnil := h.alone hfl
  have hsingle := h.single
  rw [hnil] at hsingle
  refine ⟨?_, fun _ => hsales.trans hnil, fun hc' => ?_⟩
  · rw [hopens, hlog, hsales, hnil]
    exact single_flatten hr hsingle hacc hpend hold htook
  · exact absurd (hfl.symm.trans (h.stopped (hc ▸ hc')).2) (by simp)

theorem serial_eodAnswer {reply : Option (List OrderAck)} {closed : List Symbol}
    (hr : Reached env w) (h : Serial w) (hs : step env w (.eodAnswer reply closed) = some w')
    (hc : serialised ⟨w, .eodAnswer reply closed, w'⟩ = true) : Serial w' := by
  obtain ⟨hst, hacc, rfl⟩ := eodAnswer_cases hs
  have hfl : w.flattening = true := by simp [flattening, EodTask.flattening, hst]
  have hpend : ∀ b ∈ w.pendingEntry, b.2.1 ∉ closed := by
    intro b hb
    simpa using List.all_eq_true.mp hc b hb
  refine serial_flattenAnswer hr h hfl hacc hpend rfl rfl rfl ?_ ?_ rfl
  · intro hold
    unfold flattened at hold
    rw [hst] at hold
    change (flattenAccepted reply || w.watchdogTask.took) = true
    rw [show w.watchdogTask.took = true from hold, Bool.or_true]
  · intro ht
    change (flattenAccepted reply || w.watchdogTask.took) = true
    rw [ht, Bool.true_or]

theorem serial_watchdogAnswer {reply : Option (List OrderAck)} {closed : List Symbol}
    (hr : Reached env w) (h : Serial w) (hs : step env w (.watchdogAnswer reply closed) = some w')
    (hc : serialised ⟨w, .watchdogAnswer reply closed, w'⟩ = true) : Serial w' := by
  obtain ⟨attempt, hst, hacc, rfl⟩ := watchdogAnswer_cases hs
  have hfl : w.flattening = true := by simp [flattening, WatchdogTask.flattening, hst]
  have hpend : ∀ b ∈ w.pendingEntry, b.2.1 ∉ closed := by
    intro b hb
    simpa using List.all_eq_true.mp hc b hb
  refine serial_flattenAnswer hr h hfl hacc hpend rfl rfl rfl ?_ ?_ rfl
  · intro hold
    unfold flattened at hold
    rw [hst, show (WatchdogTask.awaitFlatten attempt .sent).took = false from rfl,
      Bool.or_false] at hold
    change (w.eodTask.took || flattenAccepted reply) = true
    rw [hold, Bool.true_or]
  · intro ht
    change (w.eodTask.took || flattenAccepted reply) = true
    rw [ht, Bool.or_true]

/--
**Preserved by every serialised step.**

The labels fall into those that send a SELL or a flatten, which the condition lets
through only when nobody else is closing; those that bring an answer; those that act
on one; and the rest, which touch neither.
-/
theorem serial_step {l : Label} (hr : Reached env w) (h : Serial w)
    (hs : step env w l = some w') (hc : serialised ⟨w, l, w'⟩ = true) : Serial w' := by
  cases l with
  | barQuote quote => exact serial_barQuote hr h hs hc
  | barResume => exact serial_barResume hr h hs
  | stopWake => exact serial_stopWake h hs
  | stopQuote quote => exact serial_stopQuote hr h hs hc
  | stopResume => exact serial_stopResume h hs
  | eodWake => exact serial_eodWake h hs hc
  | eodResume price => exact serial_eodResume h hs
  | reconcileResume price => exact serial_reconcileResume h hs hc
  | watchdogWake => exact serial_watchdogWake h hs hc
  | watchdogResume price => exact serial_watchdogResume h hs
  | barAnswer reply filled => exact serial_barAnswer hr h hs
  | stopAnswer reply filled => exact serial_stopAnswer hr h hs
  | eodAnswer reply closed => exact serial_eodAnswer hr h hs hc
  | watchdogAnswer reply closed => exact serial_watchdogAnswer hr h hs hc
  | takeBar bar =>
      obtain ⟨hb, ⟨-, rfl⟩ | ⟨-, -, rfl⟩ | ⟨scan, -, -, -, rfl⟩⟩ := takeBar_cases (task_some hs).2
      · exact serial_calm h (.refl _) (List.append_nil _).symm (by simp)
          (by simp [sales, BarTask.sale, hb]) rfl rfl rfl
      all_goals
        exact serial_calm h (.refl _) rfl (by simp [Event.trades])
          (by simp [sales, BarTask.sale, hb]) rfl rfl rfl
  | feedEnds =>
      obtain ⟨hb, rfl⟩ := feedEnds_cases (task_some hs).2
      exact serial_calm h (.refl _) (List.append_nil _).symm (by simp)
        (by simp [sales, BarTask.sale, hb]) rfl rfl rfl
  | cancel =>
      have hcond : w.sales = [] ∧ w.flattening = false := by
        simpa [serialised] using hc
      simp only [step] at hs
      split at hs
      · rw [← Option.some.inj hs]
        exact ⟨h.single, h.alone, fun _ => hcond⟩
      · exact absurd hs (by simp)
  | tick dt | reconcileWake | reconcileAnswer ok | brokerMove symbol qty | stop =>
      -- these touch neither a SELL nor a flatten
      have hf := hr.footprint hs
      obtain ⟨es, hlog, hes⟩ := hf.log
      have hbar : w'.barTask = w.barTask := hf.same .barTask (by simp [Label.writes])
      have hstop : w'.stopTask = w.stopTask := hf.same .stopTask (by simp [Label.writes])
      have hopens : w'.opens = w.opens := hf.same .opens (by simp [Label.writes])
      refine serial_calm h (by rw [hopens]; exact .refl _) hlog ?_
        (by rw [sales, hbar, hstop]; rfl) (hf.same .eodTask (by simp [Label.writes]))
        (hf.same .watchdogTask (by simp [Label.writes]))
        (hf.same .cancelled (by simp [Label.writes]))
      intro e he
      have hemit := hes e he
      cases e <;> first | rfl | exact absurd hemit (by simp [Label.emits])

/--
**What the turns keep is what was promised of each position.**

Sold whole or not at all, so never twice. What is tracked was not closed, what is not
was closed once; and once nothing is in flight a tracked position is unsold, as the
only thing that could have sold it would be.
-/
theorem soldOnce_of_serial (hr : Reached env w) (h : Serial w) : SoldOnce w := by
  have hid := identity_reached hr
  have htr := tracked_reached hr
  have held : ∀ p, w.isTracked p.symbol p = true →
      recordCloses p.ref w.log = 0 ∧ (w.settled = true → soldShares p.ref w.log = 0) := by
    intro p hp
    unfold isTracked at hp
    rw [Option.any_eq_true] at hp
    obtain ⟨q, hq, href⟩ := hp
    rw [← of_decide_eq_true href]
    refine ⟨(h.single.held hq).1, ?_⟩
    intro hset
    have hidle : w.sales = [] ∧ w.flattening = false := by
      unfold settled at hset
      rw [Bool.or_eq_true] at hset
      rcases hset with hcan | hset
      · exact h.stopped hcan
      · simpa using hset
    rcases (h.single.held hq).2 with h0 | hf | ⟨b, hb, -⟩
    · exact h0
    · exact absurd (hidle.2.symm.trans (flattening_of_flattened hf)) (by simp)
    · rw [hidle.1] at hb
      exact absurd hb (by simp)
  have gone : ∀ p ∈ openedPositions w.log, w.isTracked p.symbol p = false →
      recordCloses p.ref w.log = 1 := by
    intro p hp hno
    refine h.single.gone p hp ?_
    intro s q hq href
    obtain ⟨m, hm⟩ := hid.tracked hq
    have hqp := hid.eq_of_ref hm hp href
    have hsym : p.symbol = s := by
      rw [← htr.symbol hq, ← hqp]
    have htracked : w.isTracked p.symbol p = true := by
      unfold isTracked
      rw [hsym, hq]
      exact decide_eq_true href
    rw [hno] at htracked
    exact absurd htracked (by simp)
  refine ⟨?_, ?_, ?_⟩
  · -- sold whole or not at all, and no position has a negative size
    intro p hp
    rcases h.single.whole p hp with h0 | h1
    · rw [h0]; exact (htr.opened p hp).le
    · exact h1.le
  · -- tracked or gone
    intro p hp
    cases hq : w.isTracked p.symbol p with
    | true => exact (held p hq).1
    | false => exact gone p hp hq
  · -- a tracked position is unsold once nothing is in flight
    intro hset p hp hsold
    cases hq : w.isTracked p.symbol p with
    | true => exact absurd ((held p hq).2 hset) hsold
    | false => exact gone p hp hq

end World

/-- **In every run whose tasks take turns, every position is sold at most once and closed once.** -/
theorem singleClose_of {env : Env} (x : LiveRun env)
    (hx : ∀ m ∈ x.moves, serialised m = true) : SingleClose x := by
  intro w hw
  have hserial : Serial w := x.invariant_of (C := fun m => serialised m = true) (I := Serial)
    serial_init (fun v l v' hr hi hs hc => serial_step hr hi hs hc) hx hw
  exact soldOnce_of_serial (x.reachable hw) hserial

/-- The breakout is bought, and the stop loop sells it. -/
def stoppedOutAlone : LiveRun tradingDay :=
  play (beforeBreakout ++ breakout 100 ++
    [.tick 1, .stopWake, .stopQuote (bidAsk 1020 1025), .stopAnswer acceptedAck 100, .stopResume])

/-- In this run the tasks take turns. -/
theorem singleClose_stoppedOutAlone : SingleClose stoppedOutAlone := by
  have hx : stoppedOutAlone.moves.all serialised = true := by decide +kernel
  exact singleClose_of stoppedOutAlone fun m hm => List.all_eq_true.mp hx m hm

/-- The breakout fails: the bar loop sends its exit, the stop loop its stop, and the broker takes
both. -/
def soldByBoth : LiveRun tradingDay :=
  play (beforeBreakout ++ breakout 100 ++
    [.tick 1, .stopWake, .takeBar (minuteBar 34 1040 1040 1010 1010 3000),
      .barQuote (bidAsk 1008 1013), .stopQuote (bidAsk 1008 1013), .barAnswer acceptedAck 100,
      .stopAnswer acceptedAck 100, .barResume, .stopResume])

/-- Two hundred shares of a position of a hundred are sold, and its close is recorded twice. -/
theorem singleClose_soldByBoth : soldShares 0 soldByBoth.final.log = 200
    ∧ recordCloses 0 soldByBoth.final.log = 2 ∧ ¬ SingleClose soldByBoth := by
  have hsold : soldShares 0 soldByBoth.final.log = 200 := by decide +kernel
  refine ⟨hsold, by decide +kernel, ?_⟩
  intro h
  have hopened : (openedPositions soldByBoth.final.log).map (fun p => (p.ref, p.shares))
      = [(0, 100)] := by decide +kernel
  obtain ⟨p, hl, hp⟩ := List.map_eq_singleton_iff.mp hopened
  have hle := (h _ soldByBoth.visits_final).sold p (by rw [hl]; exact List.mem_singleton.mpr rfl)
  rw [show p.ref = 0 from congrArg Prod.fst hp, show p.shares = 100 from congrArg Prod.snd hp,
    hsold] at hle
  exact absurd hle (by norm_num)

end RossBot
