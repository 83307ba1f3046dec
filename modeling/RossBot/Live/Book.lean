import RossBot.Live.Steps

/-!
# The book

Three components keep a copy of every position: `_open`, the strategy engine and
the risk manager. A step changes the copies in one of seven ways (`BookStep`);
everything else it does is an aside. What the copies always agree on, whatever
the tasks do to each other, is `BookInv`.
-/

namespace RossBot

open Lib

/-- Events that belong to the book: an entry, an exit, or a scale-out. -/
def Event.onBook : Event → Bool
  | .buySubmitted _ | .opened _ | .recordClose _ | .closed _ _ _ | .scaleSignal _ _ => true
  | _ => false

namespace World

variable {env : Env} {w w' : World}

/-! ## What one step can do to the book -/

/-- The book is not touched. -/
structure Aside (w w' : World) : Prop where
  opens : w'.opens = w.opens
  engine : w'.engine = w.engine
  risk : w'.risk = w.risk
  nextRef : w'.nextRef = w.nextRef
  log : ∃ es, w'.log = w.log ++ es ∧ ∀ e ∈ es, e.onBook = false

/-- **What one step can do to the book.** -/
inductive BookStep (env : Env) (w w' : World) : Prop where
  | aside : Aside w w' → BookStep env w w'
  /-- A bar went through the strategy engine. -/
  | judged {bar : BarTick} {scan : ScanResult} {l2 : L2Signal} : w.cancelled = false →
      w.barTask = .awaitQuote bar scan l2 → Judged env w bar w' → BookStep env w w'
  | opened {o : EntryOrder} {ack : OrderAck} :
      w.barTask = .awaitEntryAck o [] (.answered (some ack)) → ack.accepted = true →
      w'.barTask = .awaitBar → Aside (w.openPosition o ack) w' → BookStep env w w'
  /-- One position was sold. -/
  | sold {o : SellOrder} {p : LivePosition} : w.opens.get? o.symbol = some p →
      Aside (w.retire env o.symbol o.pos p o.limit) w' → BookStep env w w'
  /-- A sale was recorded for a symbol that was no longer tracked. -/
  | soldTwice {o : SellOrder} : w.opens.get? o.symbol = none →
      Aside (w.recordClose env o.symbol o.pos) w' → BookStep env w w'
  /-- A watermark moved. -/
  | remarked {o : Dict Symbol LivePosition} : Remarked w.opens o →
      Aside { w with opens := o } w' → BookStep env w w'
  /-- A flatten or a reconciliation dropped tracked positions. -/
  | dropped {price : Symbol → ℚ} {bs : List (Symbol × LivePosition)} :
      (bs.map Prod.fst).Nodup → (∀ b ∈ bs, w.opens.get? b.1 = some b.2) →
      Aside (retireAll env price w bs) w' → BookStep env w w'

theorem Aside.of_footprint {l : Label} (h : Footprint l w w') (ho : .opens ∉ l.writes)
    (he : .engine ∉ l.writes) (hr : .risk ∉ l.writes)
    (hn : .nextRef ∉ l.writes) (hl : ∀ e, l.emits e = true → e.onBook = false) : Aside w w' := by
  obtain ⟨es, hes, hem⟩ := h.log
  exact ⟨h.same .opens ho, h.same .engine he, h.same .risk hr, h.same .nextRef hn, es, hes,
    fun e hm => hl e (hem e hm)⟩

theorem Aside.trans {u v w : World} (h : Aside u v) (h' : Aside v w) : Aside u w := by
  obtain ⟨es, he, hes⟩ := h.log
  obtain ⟨fs, hf, hfs⟩ := h'.log
  refine ⟨h'.opens.trans h.opens, h'.engine.trans h.engine, h'.risk.trans h.risk,
    h'.nextRef.trans h.nextRef, es ++ fs, ?_, ?_⟩
  · rw [hf, he, List.append_assoc]
  · intro e hm
    rcases List.mem_append.mp hm with hm | hm
    · exact hes e hm
    · exact hfs e hm

theorem aside_nextStop (rest : List (Symbol × LivePosition)) : Aside w (nextStop env rest w) := by
  obtain ⟨t, es, h, hes⟩ := nextStop_footprint env w rest
  rw [h]
  exact ⟨rfl, rfl, rfl, rfl, es, rfl, fun e hm => hes e hm ▸ rfl⟩

/--
**Every step does one of the seven.**

An inversion lemma for `_open`, the engine and the risk manager together: the
invariants that compare the three look at these cases, and no longer at the labels.
-/
theorem step_book {l : Label} (hr : Reached env w) (hs : step env w l = some w') :
    BookStep env w w' := by
  have hf := hr.footprint hs
  cases l with
  | barQuote quote =>
      obtain ⟨hc, hq⟩ := task_some hs
      obtain ⟨bar, scan, l2, hb, ⟨-, rfl⟩ | ⟨-, hj⟩⟩ := barQuote_cases hq
      · exact .aside ⟨rfl, rfl, rfl, rfl, [], by simp, by simp⟩
      · exact .judged hc hb hj
  | barResume =>
      cases barResume_cases (noRest_reached hr) (task_some hs).2 with
      | buyRaised | buyRejected | sellRaised | sellRejected =>
          exact .aside ⟨rfl, rfl, rfl, rfl, [], by simp, by simp⟩
      | opened hb ha => exact .opened hb ha rfl ⟨rfl, rfl, rfl, rfl, [], by simp, by simp⟩
      | sold hb ha ho => exact .sold ho ⟨rfl, rfl, rfl, rfl, [], by simp, by simp⟩
      | soldTwice hb ha ho => exact .soldTwice ho ⟨rfl, rfl, rfl, rfl, [], by simp, by simp⟩
  | stopQuote quote =>
      obtain ⟨symbol, pos, rest, -, hq⟩ := stopQuote_cases (task_some hs).2
      cases hq with
      | raised =>
          refine .aside (Aside.trans ?_ (aside_nextStop rest))
          refine ⟨rfl, rfl, rfl, rfl, _, rfl, ?_⟩
          intro e he; rw [List.mem_singleton.mp he]; rfl
      | held hf ho =>
          refine .remarked ho (Aside.trans ?_ (aside_nextStop rest))
          refine ⟨rfl, rfl, rfl, rfl, _, rfl, ?_⟩
          intro e he; rw [List.mem_singleton.mp he]; rfl
      | fired hf ho =>
          refine .remarked ho ⟨rfl, rfl, rfl, rfl, [_, _], rfl, ?_⟩
          intro e he
          rcases List.mem_pair.mp he with rfl | rfl <;> rfl
  | stopResume =>
      obtain ⟨o, rest, reply, -, hq⟩ := stopResume_cases (task_some hs).2
      cases hq with
      | refused => exact .aside (aside_nextStop rest)
      | sold ha ho => exact .sold ho (aside_nextStop rest)
      | soldTwice ha ho => exact .soldTwice ho (aside_nextStop rest)
  | eodResume price =>
      obtain ⟨reply, -, ⟨-, rfl⟩ | ⟨acks, -, rfl⟩⟩ := eodResume_cases (task_some hs).2
      · exact .aside ⟨rfl, rfl, rfl, rfl, [], by simp, by simp⟩
      · exact .dropped w.opens.nodup (fun b hb => Dict.mem_items.mp hb)
          ⟨rfl, rfl, rfl, rfl, [], by simp, by simp⟩
  | reconcileResume price =>
      obtain ⟨reply, -, rfl⟩ := reconcileResume_cases (task_some hs).2
      refine @BookStep.dropped _ _ _ price (w.orphans (getBrokerPositions reply))
        ((List.filter_sublist.map Prod.fst).nodup w.opens.nodup)
        (fun b hb => (mem_orphans.mp hb).1) ⟨rfl, rfl, rfl, rfl, _, rfl, ?_⟩
      intro e he
      cases reply with
      | none => simp at he
      | some rows => rw [List.mem_singleton.mp he]; rfl
  | watchdogResume price =>
      obtain ⟨attempt, reply, -, ⟨-, rfl⟩ | ⟨ack, acks, -, rfl⟩⟩ :=
        watchdogResume_cases (task_some hs).2
      · exact .aside ⟨rfl, rfl, rfl, rfl, [], by simp, by simp⟩
      · exact .dropped w.opens.nodup (fun b hb => Dict.mem_items.mp hb)
          ⟨rfl, rfl, rfl, rfl, [], by simp, by simp⟩
  | _ =>
      -- the other labels write nothing of the book
      refine .aside (.of_footprint hf (by simp [Label.writes]) (by simp [Label.writes])
        (by simp [Label.writes]) (by simp [Label.writes]) ?_)
      intro e he
      cases e <;> first | rfl | exact absurd he (by simp [Label.emits])

/-! ## What is tracked after a step -/

/-- The position an accepted entry becomes. -/
def entryPosition (o : EntryOrder) (ack : OrderAck) : LivePosition :=
  { ref := o.ref
    symbol := o.signal.symbol
    entryTs := o.bar.ts
    entryPrice := o.limit
    stopPrice := o.signal.stopPrice
    targetPrice := o.signal.targetPrice
    shares := o.shares
    riskPerShare := o.signal.riskPerShare
    brokerOrderId := ack.brokerOrderId
    highWatermark := o.limit }

theorem openPosition_opens (o : EntryOrder) (ack : OrderAck) :
    (w.openPosition o ack).opens = w.opens.set o.signal.symbol (entryPosition o ack) := rfl

theorem openPosition_log (o : EntryOrder) (ack : OrderAck) :
    (w.openPosition o ack).log = w.log ++ [.opened (entryPosition o ack)] := rfl

theorem openedPositions_append (es fs : List Event) :
    openedPositions (es ++ fs) = openedPositions es ++ openedPositions fs :=
  List.filterMap_append

theorem openedPositions_append_of_none {es fs : List Event}
    (h : ∀ e ∈ fs, ∀ p, e ≠ .opened p) : openedPositions (es ++ fs) = openedPositions es := by
  have hnil : openedPositions fs = [] := by
    unfold openedPositions
    rw [List.filterMap_eq_nil_iff]
    intro e he
    cases e with
    | opened p => exact absurd rfl (h _ he p)
    | _ => rfl
  rw [openedPositions_append, hnil, List.append_nil]

theorem Aside.openedPositions (ha : Aside w w') :
    openedPositions w'.log = openedPositions w.log := by
  obtain ⟨es, he, hes⟩ := ha.log
  rw [he, openedPositions_append_of_none]
  intro e hm p hp
  have hbook := hes e hm
  rw [hp] at hbook
  exact absurd hbook (by simp [Event.onBook])

/-- **Nothing else gets tracked.** Either no position is opened, and what is tracked after the
step was tracked before it, up to its watermark; or the step tracks the entry that the bar loop
just learned was accepted. -/
theorem BookStep.opened_or (h : BookStep env w w') :
    (openedPositions w'.log = openedPositions w.log
        ∧ ∀ s p', w'.opens.get? s = some p' →
          ∃ p m, w.opens.get? s = some p ∧ p' = { p with highWatermark := m })
      ∨ ∃ o ack, w.barTask = .awaitEntryAck o [] (.answered (some ack)) ∧ ack.accepted = true
        ∧ w'.barTask = .awaitBar
        ∧ w'.opens = w.opens.set o.signal.symbol (entryPosition o ack)
        ∧ w'.engine = (w.openPosition o ack).engine
        ∧ openedPositions w'.log = openedPositions w.log ++ [entryPosition o ack] := by
  -- a position that stays as it was
  have kept : ∀ {s p'}, w.opens.get? s = some p' →
      ∃ p m, w.opens.get? s = some p ∧ p' = { p with highWatermark := m } :=
    fun {s p'} h => ⟨p', p'.highWatermark, h, rfl⟩
  cases h with
  | aside ha => exact Or.inl ⟨ha.openedPositions, fun s p' hp => kept (ha.opens ▸ hp)⟩
  | judged _ _ hj =>
      refine Or.inl ?_
      cases hj <;>
      · refine ⟨?_, fun s p' hp => kept hp⟩
        rw [openedPositions_append_of_none (by simp)]
  | @opened o ack hb hacc hb' ha =>
      refine Or.inr ⟨o, ack, hb, hacc, hb', ha.opens, ha.engine, ?_⟩
      rw [ha.openedPositions, openPosition_log, openedPositions_append]
      rfl
  | @sold o q hq ha =>
      refine Or.inl ⟨ha.openedPositions.trans ?_, ?_⟩
      · rw [retire, openedPositions_append_of_none (by simp)]
      · intro s p' hp
        have ho : w'.opens = w.opens.erase o.symbol := ha.opens
        rw [ho, Dict.get?_erase] at hp
        split at hp
        · exact absurd hp (by simp)
        · exact kept hp
  | soldTwice hn ha =>
      refine Or.inl ⟨ha.openedPositions.trans ?_, fun s p' hp => kept (ha.opens ▸ hp)⟩
      rw [recordClose, openedPositions_append_of_none (by simp)]
  | remarked hm ha =>
      refine Or.inl ⟨ha.openedPositions, ?_⟩
      intro s p' hp
      rw [ha.opens] at hp
      rcases hm s with he | ⟨p, m, hp0, he⟩
      · exact kept (he ▸ hp)
      · exact ⟨p, m, hp0, Option.some.inj (hp.symm.trans he)⟩
  | @dropped price bs hnd hbs ha =>
      refine Or.inl ⟨ha.openedPositions.trans ?_, ?_⟩
      · obtain ⟨o, e, r, es, h, hes⟩ := retireAll_footprint env w price bs
        rw [h, openedPositions_append_of_none]
        intro e he p hp
        rcases hes e he with ⟨q, hq⟩ | ⟨q, x, r, hq⟩
        · exact absurd (hp.symm.trans hq) (by simp)
        · exact absurd (hp.symm.trans hq) (by simp)
      · intro s p' hp
        rw [ha.opens, retireAll_opens] at hp
        split at hp
        · exact absurd hp (by simp)
        · exact kept hp

/-- A symbol that is not tracked gets tracked only as the bar loop leaves its handler. -/
theorem BookStep.stays_untracked (h : BookStep env w w') (hb : w'.barTask ≠ .awaitBar)
    {s : Symbol} (hn : w.opens.get? s = none) : w'.opens.get? s = none := by
  rcases h.opened_or with ⟨-, hold⟩ | ⟨o, ack, -, -, hb', -, -, -⟩
  · cases hg : w'.opens.get? s with
    | none => rfl
    | some p' =>
        obtain ⟨p, m, hp, -⟩ := hold s p' hg
        exact absurd (hn.symm.trans hp) (by simp)
  · exact absurd hb' hb

/--
**Where an entry order in flight comes from: it was in flight before, or was just sent.**

In the first case only its answer has come. In the second its symbol was not tracked,
and its identity is the one that was next.
-/
theorem entry_step {l : Label} (hr : Reached env w) (hs : step env w l = some w')
    {o : EntryOrder} {rest : List Signal} {call : Call OrderAck}
    (hb : w'.barTask = .awaitEntryAck o rest call) :
    (∃ call', w.barTask = .awaitEntryAck o rest call' ∧ w'.nextRef = w.nextRef)
      ∨ ∃ bar sig, sig.symbol = bar.symbol ∧ w.opens.get? bar.symbol = none
        ∧ w.entryOrder env sig bar = some o ∧ w'.nextRef = w.nextRef + 1 := by
  have hf := hr.footprint hs
  by_cases hw : .barTask ∈ l.writes
  · cases l with
    | takeBar bar =>
        obtain ⟨hb0, ⟨-, rfl⟩ | ⟨-, -, rfl⟩ | ⟨scan, -, -, -, rfl⟩⟩ :=
          takeBar_cases (task_some hs).2
        · exact absurd hb (by simp)
        · exact absurd (hb0.symm.trans hb) (by simp)
        · exact absurd hb (by simp)
    | feedEnds =>
        obtain ⟨-, rfl⟩ := feedEnds_cases (task_some hs).2
        exact absurd hb (by simp)
    | barQuote quote =>
        obtain ⟨bar, -, -, -, ⟨-, rfl⟩ | ⟨-, hj⟩⟩ := barQuote_cases (task_some hs).2
        · exact absurd hb (by simp)
        · cases hj with
          | quiet | lost | scale | sell => exact absurd hb (by simp)
          | buy hsym hpos hopen hm ho =>
              obtain ⟨rfl, -, -⟩ := BarTask.awaitEntryAck.inj hb
              exact Or.inr ⟨bar, _, hsym, hopen, ho, rfl⟩
    | barResume =>
        cases barResume_cases (noRest_reached hr) (task_some hs).2 <;> exact absurd hb (by simp)
    | barAnswer reply filled =>
        have hn : w'.nextRef = w.nextRef := hf.same .nextRef (by simp [Label.writes])
        obtain ⟨o', rest', hb0, -, -, rfl⟩ | ⟨o', bar, rest', -, -, -, rfl⟩ := barAnswer_cases hs
        · obtain ⟨rfl, rfl, -⟩ := BarTask.awaitEntryAck.inj hb
          exact Or.inl ⟨_, hb0, hn⟩
        · exact absurd hb (by simp)
    | _ => simp [Label.writes] at hw
  · -- a step that leaves the bar loop alone hands out no identity
    have hn : .nextRef ∉ l.writes := by
      revert hw
      cases l <;> simp [Label.writes]
    have hsame : w'.barTask = w.barTask := hf.same .barTask hw
    exact Or.inl ⟨call, hsame ▸ hb, hf.same .nextRef hn⟩

/-! ## What always holds -/

/-- **What the three copies agree on, whatever the tasks do to each other.** The engine may
have lost a position that is tracked, but has none that is not. -/
structure Copies (w : World) : Prop where
  /-- The risk manager has the tracked symbols, with their entry prices. -/
  risk : ∀ s, w.risk.openPositions.get? s = (w.opens.get? s).map (·.entryPrice)
  /-- The engine's positions are tracked, with the same stop. -/
  engine : ∀ {s e}, w.engine.position s = some e → ∃ p, w.opens.get? s = some p
    ∧ e.symbol = s ∧ e.entryPrice = .of p.entryPrice ∧ e.currentStop = p.stopPrice

theorem copies_aside (h : Copies w) (ha : Aside w w') : Copies w' := by
  refine ⟨?_, ?_⟩
  · rw [ha.risk, ha.opens]; exact h.risk
  · rw [ha.engine, ha.opens]; exact h.engine

/-- A symbol leaves all three copies at once. -/
theorem copies_retire {symbol : Symbol} {sold p : LivePosition} {exit : ℚ} (h : Copies w) :
    Copies (w.retire env symbol sold p exit) := by
  refine ⟨?_, ?_⟩
  · -- the risk manager drops the symbol with `_open`
    intro s
    change (w.risk.openPositions.erase symbol).get? s
      = ((w.opens.erase symbol).get? s).map (·.entryPrice)
    rw [Dict.get?_erase, Dict.get?_erase]
    split
    · rfl
    · exact h.risk s
  · -- so does the engine
    intro s e he
    change (w.engine.closePosition symbol).position s = some e at he
    change ∃ q, (w.opens.erase symbol).get? s = some q ∧ _
    rw [StrategyEngine.position_closePosition] at he
    rw [Dict.get?_erase]
    split at he
    · exact absurd he (by simp)
    · rename_i hs
      rw [if_neg hs]
      exact h.engine he

/-- Closing a symbol that is not tracked changes no copy. -/
theorem copies_recordClose {symbol : Symbol} {sold : LivePosition} (h : Copies w)
    (hn : w.opens.get? symbol = none) : Copies (w.recordClose env symbol sold) := by
  refine ⟨?_, ?_⟩
  · intro s
    change (w.risk.openPositions.erase symbol).get? s = (w.opens.get? s).map (·.entryPrice)
    rw [Dict.get?_erase]
    split
    · rename_i hs
      rw [hs, hn]; rfl
    · exact h.risk s
  · intro s e he
    change (w.engine.closePosition symbol).position s = some e at he
    rw [StrategyEngine.position_closePosition] at he
    split at he
    · exact absurd he (by simp)
    · exact h.engine he

/-- A bar keeps an engine position or clears it, but never moves its stop. -/
theorem copies_judged {bar : BarTick} (h : Copies w) (hj : Judged env w bar w') : Copies w' := by
  -- a mark moves the high, nothing that is compared
  have hmarked : ∀ e : StrategyEngine, Marked bar w.engine e → ∀ {s : Symbol}
      {q : PositionSnapshot}, e.position s = some q → ∃ p, w.opens.get? s = some p
        ∧ q.symbol = s ∧ q.entryPrice = .of p.entryPrice ∧ q.currentStop = p.stopPrice := by
    intro e hm s q hq
    rcases hm s with he | ⟨q0, hq0, he⟩
    · exact h.engine (he ▸ hq)
    · have hqq : q = q0.mark bar.close := Option.some.inj (hq.symm.trans he)
      rw [hqq, PositionSnapshot.mark_symbol, PositionSnapshot.mark_entryPrice,
        PositionSnapshot.mark_currentStop]
      exact h.engine hq0
  -- closing clears the engine's own copy only
  have hcleared : ∀ e : StrategyEngine, Cleared bar w.engine e → ∀ {s : Symbol}
      {q : PositionSnapshot}, e.position s = some q → ∃ p, w.opens.get? s = some p
        ∧ q.symbol = s ∧ q.entryPrice = .of p.entryPrice ∧ q.currentStop = p.stopPrice := by
    intro e hc s q hq
    rw [hc s] at hq
    split at hq
    · exact absurd hq (by simp)
    · exact h.engine hq
  cases hj with
  | quiet hm => exact ⟨h.risk, hmarked _ hm⟩
  | lost _ hc _ => exact ⟨h.risk, hcleared _ hc⟩
  | scale _ _ hm => exact ⟨h.risk, hmarked _ hm⟩
  | buy _ _ _ hm _ => exact ⟨h.risk, hmarked _ hm⟩
  | sell _ _ _ hc => exact ⟨h.risk, hcleared _ hc⟩

theorem copies_openPosition {o : EntryOrder} {ack : OrderAck} (h : Copies w) :
    Copies (w.openPosition o ack) := by
  refine ⟨?_, ?_⟩
  · -- the limit is what the risk manager records
    intro s
    rw [openPosition_opens, Dict.get?_set]
    change (w.risk.openPositions.set o.signal.symbol o.limit).get? s = _
    rw [Dict.get?_set]
    split
    · rfl
    · exact h.risk s
  · -- and what the engine does, with the stop of the signal
    intro s e he
    rw [openPosition_opens, Dict.get?_set]
    change (w.engine.openPosition o.signal.symbol o.limit o.signal.stopPrice.val
      o.signal.targetPrice.val o.shares o.bar.ts).position s = some e at he
    rw [StrategyEngine.position_openPosition] at he
    split at he
    · rename_i hs
      rw [if_pos hs]
      refine ⟨_, rfl, ?_⟩
      rw [← Option.some.inj he]
      exact ⟨hs.symm, rfl, Money.of_val _⟩
    · rename_i hs
      rw [if_neg hs]
      exact h.engine he

theorem copies_remarked {o : Dict Symbol LivePosition} (h : Copies w) (hm : Remarked w.opens o) :
    Copies { w with opens := o } := by
  refine ⟨?_, ?_⟩
  · intro s
    change w.risk.openPositions.get? s = (o.get? s).map (·.entryPrice)
    rw [h.risk s]
    rcases hm s with he | ⟨p, m, hp, he⟩
    · rw [he]
    · rw [he, hp]; rfl
  · intro s e he
    obtain ⟨p, hp, h1, h2, h3⟩ := h.engine he
    rcases hm s with ho | ⟨p', m, hp', ho⟩
    · exact ⟨p, ho.trans hp, h1, h2, h3⟩
    · rw [hp] at hp'
      have hpp := Option.some.inj hp'
      subst hpp
      exact ⟨_, ho, h1, h2, h3⟩

theorem copies_step {l : Label} (hr : Reached env w) (h : Copies w)
    (hs : step env w l = some w') : Copies w' := by
  cases step_book hr hs with
  | aside ha => exact copies_aside h ha
  | judged _ _ hj => exact copies_judged h hj
  | opened _ _ _ ha => exact copies_aside (copies_openPosition h) ha
  | sold _ ha => exact copies_aside (copies_retire h) ha
  | soldTwice hn ha => exact copies_aside (copies_recordClose h hn) ha
  | remarked hm ha => exact copies_aside (copies_remarked h hm) ha
  | dropped hnd hbs ha =>
      exact copies_aside (retireAll_induction _ (fun v s p x _ _ hv => copies_retire hv) hnd hbs h) ha

theorem copies_init : Copies (init env) := by
  have hpos : ∀ (syms : List Symbol) (e : StrategyEngine) (s : Symbol), e.position s = none →
      (syms.foldl (fun e s => e.resetSession s 0) e).position s = none := by
    intro syms
    induction syms with
    | nil => intro e s h; exact h
    | cons sym syms ih =>
        intro e s h
        refine ih _ _ ?_
        rw [StrategyEngine.position_resetSession]
        split
        · rfl
        · exact h
  refine ⟨fun s => rfl, ?_⟩
  intro s e h
  have hnone : (init env).engine.position s = none := hpos env.symbols .new s rfl
  rw [hnone] at h
  exact absurd h (by simp)

theorem copies_reached (h : Reached env w) : Copies w :=
  h.invariant copies_init fun _ _ _ hr hi hs => copies_step hr hi hs

/-! ## Well-formed positions -/

/-- Every tracked position is one that a well-formed entry order became. -/
structure Tracked (w : World) : Prop where
  /-- Positions are stored under their own symbol. -/
  symbol : ∀ {s p}, w.opens.get? s = some p → p.symbol = s
  /-- A tracked position has shares. -/
  shares : ∀ {s p}, w.opens.get? s = some p → 0 < p.shares
  /-- An entry in flight is for shares of a symbol that is not tracked. -/
  entry : ∀ {o rest call}, w.barTask = .awaitEntryAck o rest call →
    0 < o.shares ∧ w.opens.get? o.signal.symbol = none
  /-- So had every position that was ever opened. -/
  opened : ∀ p ∈ openedPositions w.log, 0 < p.shares

theorem tracked_init : Tracked (init env) :=
  ⟨fun h => absurd h (by simp [init]), fun h => absurd h (by simp [init]),
    fun h => absurd h (by simp [init]), fun p hp => absurd hp (by simp [init, openedPositions])⟩

theorem tracked_step {l : Label} (hr : Reached env w) (h : Tracked w)
    (hs : step env w l = some w') : Tracked w' := by
  have hb := step_book hr hs
  have hsym : ∀ {s p'}, w'.opens.get? s = some p' → p'.symbol = s ∧ 0 < p'.shares := by
    intro s p' hp'
    rcases hb.opened_or with ⟨-, hold⟩ | ⟨o, ack, ho, -, -, hset, -, -⟩
    · obtain ⟨p, m, hp, rfl⟩ := hold s p' hp'
      have hps : p.symbol = s := h.symbol hp
      have hpos : 0 < p.shares := h.shares hp
      exact ⟨hps, hpos⟩
    · rw [hset, Dict.get?_set] at hp'
      split at hp'
      · rename_i hs
        rw [← Option.some.inj hp', hs]
        exact ⟨rfl, (h.entry ho).1⟩
      · exact ⟨h.symbol hp', h.shares hp'⟩
  refine ⟨fun hp => (hsym hp).1, fun hp => (hsym hp).2, ?_, ?_⟩
  · -- `runSignals` sent the entry for an untracked symbol, and only its own answer tracks it
    intro o rest call ho
    have hb' : w'.barTask ≠ .awaitBar := by rw [ho]; simp
    rcases entry_step hr hs ho with ⟨call', ho', -⟩ | ⟨bar, sig, hsig, hn, heo, -⟩
    · exact ⟨(h.entry ho').1, hb.stays_untracked hb' (h.entry ho').2⟩
    · obtain ⟨hos, -, -, -, hpos, -⟩ := entryOrder_some heo
      refine ⟨hpos, hb.stays_untracked hb' ?_⟩
      rw [hos, hsig]
      exact hn
  · intro p hp
    rcases hb.opened_or with ⟨he, -⟩ | ⟨o, ack, ho, -, -, -, -, he⟩
    · exact h.opened p (he ▸ hp)
    · rw [he] at hp
      rcases List.mem_append.mp hp with hp | hp
      · exact h.opened p hp
      · rw [List.mem_singleton.mp hp]
        exact (h.entry ho).1

theorem tracked_reached (h : Reached env w) : Tracked w :=
  h.invariant tracked_init fun _ _ _ hr hi hs => tracked_step hr hi hs

/-! ## Identities -/

theorem BookStep.nextRef_le (h : BookStep env w w') : w.nextRef ≤ w'.nextRef := by
  cases h with
  | aside ha => exact ha.nextRef.ge
  | judged _ _ hj =>
      cases hj with
      | buy => exact Nat.le_succ _
      | quiet | lost | scale | sell => exact le_rfl
  | opened _ _ _ ha => exact ha.nextRef.ge
  | sold _ ha => exact ha.nextRef.ge
  | soldTwice _ ha => exact ha.nextRef.ge
  | remarked _ ha => exact ha.nextRef.ge
  | @dropped price bs hnd hbs ha =>
      obtain ⟨o, e, r, es, h, -⟩ := retireAll_footprint env w price bs
      have hn : (retireAll env price w bs).nextRef = w.nextRef := by rw [h]
      exact (ha.nextRef.trans hn).ge

/-- **A position's identity names it.** -/
structure Identity (w : World) : Prop where
  /-- Identities in use are below the next one. -/
  fresh : ∀ p ∈ openedPositions w.log, p.ref < w.nextRef
  /-- The identity of an entry in flight is in use by no position yet. -/
  entry : ∀ {o rest call}, w.barTask = .awaitEntryAck o rest call →
    o.ref < w.nextRef ∧ ∀ p ∈ openedPositions w.log, p.ref ≠ o.ref
  /-- No two positions share an identity. -/
  unique : ((openedPositions w.log).map (·.ref)).Nodup
  /-- A tracked position is one of those opened, up to its watermark. -/
  tracked : ∀ {s p}, w.opens.get? s = some p →
    ∃ m, { p with highWatermark := m } ∈ openedPositions w.log

theorem identity_init : Identity (init env) :=
  ⟨by simp [init, openedPositions], fun h => absurd h (by simp [init]),
    by simp [init, openedPositions], fun h => absurd h (by simp [init])⟩

/--
**Preserved by every step.**

Identities are handed out one by one, when an entry is sent, and go with it until it is
tracked; so the one in flight is in use by nobody, and tracking it makes no two
positions of one identity. A mark changes a watermark and nothing else.
-/
theorem identity_step {l : Label} (hr : Reached env w) (h : Identity w)
    (hs : step env w l = some w') : Identity w' := by
  have hb := step_book hr hs
  have hle := hb.nextRef_le
  rcases hb.opened_or with ⟨he, hold⟩ | ⟨o, ack, ho, -, hw', hset, -, he⟩
  · -- nothing was opened
    refine ⟨?_, ?_, ?_, ?_⟩
    · intro p hp
      exact Nat.lt_of_lt_of_le (h.fresh p (he ▸ hp)) hle
    · intro o rest call ho
      rw [he]
      rcases entry_step hr hs ho with ⟨call', ho', hn⟩ | ⟨bar, sig, -, -, heo, hn⟩
      · rw [hn]; exact h.entry ho'
      · obtain ⟨-, -, href, -, -, -⟩ := entryOrder_some heo
        rw [hn, href]
        exact ⟨Nat.lt_succ_self _, fun p hp => Nat.ne_of_lt (h.fresh p hp)⟩
    · rw [he]; exact h.unique
    · intro s p' hp'
      obtain ⟨p, m, hp, rfl⟩ := hold s p' hp'
      obtain ⟨m', hm'⟩ := h.tracked hp
      rw [he]
      exact ⟨m', hm'⟩
  · -- the entry of the bar loop was opened, and is no longer in flight
    refine ⟨?_, ?_, ?_, ?_⟩
    · intro p hp
      rw [he] at hp
      rcases List.mem_append.mp hp with hp | hp
      · exact Nat.lt_of_lt_of_le (h.fresh p hp) hle
      · rw [List.mem_singleton.mp hp]
        exact Nat.lt_of_lt_of_le (h.entry ho).1 hle
    · intro o' rest call ho'
      exact absurd (ho'.symm.trans hw') (by simp)
    · rw [he, List.map_append, List.nodup_append]
      refine ⟨h.unique, List.nodup_singleton _, ?_⟩
      intro a ha b hb' hab
      obtain ⟨p, hp, rfl⟩ := List.mem_map.mp ha
      rw [List.map_singleton, List.mem_singleton] at hb'
      exact (h.entry ho).2 p hp (hab.trans hb')
    · intro s p' hp'
      rw [he]
      rw [hset, Dict.get?_set] at hp'
      split at hp'
      · refine ⟨o.limit, List.mem_append_right _ ?_⟩
        rw [← Option.some.inj hp']
        exact List.mem_singleton.mpr rfl
      · obtain ⟨m, hm⟩ := h.tracked hp'
        exact ⟨m, List.mem_append_left _ hm⟩

theorem identity_reached (h : Reached env w) : Identity w :=
  h.invariant identity_init fun _ _ _ hr hi hs => identity_step hr hi hs

/-- Two opened positions of one identity are one position. -/
theorem Identity.eq_of_ref (h : Identity w) {p q : LivePosition}
    (hp : p ∈ openedPositions w.log) (hq : q ∈ openedPositions w.log) (he : p.ref = q.ref) :
    p = q :=
  List.inj_on_of_nodup_map h.unique hp hq he

end World

/-! ## Orders in flight -/

/-- The bar loop waits for the answer to an order. -/
def BarTask.ordering : BarTask → Bool
  | .awaitEntryAck .. | .awaitExitAck .. => true
  | _ => false

/-- The stop loop waits for the answer to an order. -/
def StopTask.ordering : StopTask → Bool
  | .awaitSellAck .. => true
  | _ => false

/-- The EOD loop waits for the answer to a flatten. -/
def EodTask.flattening : EodTask → Bool
  | .awaitFlatten _ => true
  | _ => false

/-- The watchdog waits for the answer to a flatten. -/
def WatchdogTask.flattening : WatchdogTask → Bool
  | .awaitFlatten .. => true
  | _ => false

namespace World

variable {env : Env} {w w' : World}

/-- An order is in flight. -/
def ordering (w : World) : Bool := w.barTask.ordering || w.stopTask.ordering

/-- A flatten is in flight. -/
def flattening (w : World) : Bool := w.eodTask.flattening || w.watchdogTask.flattening

/-- Without an order or a flatten in flight, what is tracked changes only by watermarks. -/
theorem remarked_of_quiet {l : Label} (hr : Reached env w) (hs : step env w l = some w')
    (hord : w.ordering = false) (hflat : w.flattening = false)
    (hl : ∀ price, l ≠ .reconcileResume price) : Remarked w.opens w'.opens := by
  by_cases hw : .opens ∈ l.writes
  · cases l with
    | barResume =>
        cases barResume_cases (noRest_reached hr) (task_some hs).2 with
        | buyRaised hb | buyRejected hb | opened hb | sellRaised hb | sellRejected hb | sold hb
        | soldTwice hb => simp [ordering, BarTask.ordering, hb] at hord
    -- a look at a position may raise its high
    | stopQuote quote =>
        obtain ⟨symbol, pos, rest, -, hq⟩ := stopQuote_cases (task_some hs).2
        cases hq with
        | raised => rw [(aside_nextStop rest).opens]; exact .refl _
        | held _ ho => rw [(aside_nextStop rest).opens]; exact ho
        | fired _ ho => exact ho
    | stopResume =>
        obtain ⟨o, rest, reply, hb, -⟩ := stopResume_cases (task_some hs).2
        simp [ordering, StopTask.ordering, hb] at hord
    | eodResume price =>
        obtain ⟨reply, hb, -⟩ := eodResume_cases (task_some hs).2
        simp [flattening, EodTask.flattening, hb] at hflat
    | watchdogResume price =>
        obtain ⟨attempt, reply, hb, -⟩ := watchdogResume_cases (task_some hs).2
        simp [flattening, WatchdogTask.flattening, hb] at hflat
    -- the reconciliation is left out
    | reconcileResume price => exact absurd rfl (hl price)
    | _ => simp [Label.writes] at hw
  · rw [(hr.footprint hs).same .opens hw]
    exact .refl _

end World

/-! ## A trading day

The runs that single out one behaviour below all begin alike: a quiet half hour,
a surge, a pullback, and the breakout that is bought. -/

/-- The shipped configuration, one prime symbol, a hot market. New York is five hours behind. -/
def tradingDay : Env where
  cfg := Config.defaults
  symbols := ["TEST"]
  scanResults := fun s =>
    if s = "TEST" then some ⟨⟨some (.of 20), some 4000000, false⟩, true, .prime⟩ else none
  l2Signals := fun _ => .support
  marketState := .hot
  equity := 50000
  brokerIsAlpaca := true
  timeOfDay := fun t => (t - 18000) - 86400 * ⌊(t - 18000) / 86400⌋
  dayOfWeek := fun t => ((⌊(t - 18000) / 86400⌋ + 3) % 7).toNat
  startTime := openingBell
  startHoldings := ∅

/-- The one-minute bar of minute `i`. -/
def minuteBar (i : ℕ) (o h l c : ℤ) (volume : ℕ) : BarTick :=
  ⟨"TEST", openingBell + 60 * i, "1m", cents o, cents h, cents l, cents c, volume⟩

/-- Bid and ask. -/
def bidAsk (bid ask : ℤ) : Option QuoteTick := some ⟨cents bid, cents ask⟩

/-- The broker takes an order. -/
def acceptedAck : Option OrderAck := some ⟨"client", some "broker", true, "accepted", none⟩

/-- The broker refuses an order. -/
def rejectedAck : Option OrderAck := some ⟨"client", some "broker", false, "rejected", none⟩

/-- Everything up to the breakout bar, which waits for its quote. -/
def beforeBreakout : List Label :=
  (List.range 30).flatMap (fun i =>
    [.takeBar (minuteBar i 1000 1000 1000 1000 1000), .barQuote (bidAsk 998 1003)])
  ++ [.takeBar (minuteBar 30 1000 1020 1000 1020 3000), .barQuote (bidAsk 1018 1023),
    .takeBar (minuteBar 31 1020 1040 1020 1040 3000), .barQuote (bidAsk 1038 1043),
    .takeBar (minuteBar 32 1040 1040 1028 1030 1000), .barQuote (bidAsk 1028 1033),
    .takeBar (minuteBar 33 1030 1046 1030 1045 3000)]

/-- The breakout is bought: 100 shares at 10.50, with the stop at 10.28. -/
def breakout (filled : ℤ) : List Label :=
  [.barQuote (bidAsk 1042 1047), .barAnswer acceptedAck filled, .barResume]

/-- A run of the trading day. -/
def play (labels : List Label) : LiveRun tradingDay := (Execution.start _ _).play labels

end RossBot
