import RossBot.Demo.Halt
import RossBot.Demo.Refs

/-!
# The stop of a trade

`manual_trade` buys through `manual_order`, which tracks the position with a stop
of its own making, twenty cents under the limit; the stop that was asked for is
written once `manual_order` has reported, some awaits later. The exit monitor sees
the stop that was asked for as long as the step that wrote it last is one that sets
that very stop (`stoppedAsRequested_iff`): one of the operator's, and never a scale-out,
which moves the stop up to the entry price.
-/

namespace RossBot

open Lib

/-! ## What is claimed -/

/-- An accepted BUY of `manual_trade`. -/
structure Trade where
  /-- The object it is tracked as. -/
  ref : ℕ
  opened : DemoPosition
  /-- The stop that was asked for. -/
  stop : ℚ

/-- The trade a handler opens when the broker answers it. -/
def OperatorTask.trade (ref : ℕ) (ack : OrderAck) : OperatorTask → Option Trade
  | .orderAck symbol .buy qty limitPrice now (some stop) =>
      if ack.accepted then some ⟨ref, Desk.manualPosition symbol qty limitPrice now, stop⟩ else none
  | _ => none

/-- The trade a step opens. -/
def Desk.trade (s : Desk) : DeskLabel → Option Trade
  | .taskAck i ack => (s.tasks i).trade s.nextRef ack
  | _ => none

/-- The trades opened in a run. -/
def tradesOf (ms : List (Move Desk DeskLabel)) : List Trade :=
  ms.filterMap fun m => m.pre.trade m.label

/-- A quote that `_run_exits` holds a position against: the object, the bid, and the `now` of the
iteration. -/
def Desk.quoted (s : Desk) : DeskLabel → Option (ℕ × ℚ × Time)
  | .exitQuote (some quote) =>
      match s.engine with
      | .exitQuote now _ ref _ => some (ref, quote.bid.val, now)
      | _ => none
  | _ => none

/-- **The exit monitor sees the stop that was asked for**, at every look at the position of a trade;
so P1 sells none of it at a bid above that stop. -/
def StoppedAsRequested (before : List (Move Desk DeskLabel)) (m : Move Desk DeskLabel) : Prop :=
  ∀ ref bid now, m.pre.quoted m.label = some (ref, bid, now) →
    ∀ t ∈ tradesOf before, t.ref = ref →
      (m.pre.objects ref).stopPrice = t.stop
        ∧ (exitDecision (m.pre.objects ref) bid now = .full .p1HardStop → bid ≤ t.stop)

/-- The steps of `manual_trade` and of `_run_exits`. -/
def DeskLabel.tradesOrExits : DeskLabel → Bool
  | .tick _ | .request _ (.manualTrade _ _ _ _) | .taskAck _ _ | .taskResume _ => true
  | .iterate scan strategy => !scan && !strategy
  | .exitQuote _ | .ack _ | .resume => true
  | _ => false

/-! ## What the stop really is -/

/-- The stop an entry in the books writes to an object: the one it is opened with, the price it
was bought at once half of it is sold, or the one that is set. -/
def Desk.writesStop (s : Desk) (ref : ℕ) : Posting → Option ℚ
  | .opens pos => if s.nextRef = ref then some pos.stopPrice else none
  | .scales exit _ => if exit.ref = ref then some (s.objects ref).entryPrice else none
  | .restops r stop => if r = ref then some stop else none
  | _ => none

/-- A step that sets the stop a trade asked for: the trade is opened, and the stop of
`manual_order`'s making is the same; a `manual_trade` that asked for it goes on while its symbol is
tracked as the trade; or `move_stop` is called with it. -/
inductive Desk.SetsStop (s : Desk) (t : Trade) : DeskLabel → Prop where
  | opens {i : ℕ} {ack : OrderAck} : s.trade (.taskAck i ack) = some t →
      t.opened.stopPrice = t.stop → s.SetsStop t (.taskAck i ack)
  | goesOn {i : ℕ} {symbol : Symbol} : s.tasks i = .orderReported symbol true t.stop →
      s.positions.get? symbol = some t.ref → s.SetsStop t (.taskResume i)
  | moves {i : ℕ} {symbol : Symbol} {price : ℚ} : s.positions.get? symbol = some t.ref →
      quantize2 price = t.stop → s.SetsStop t (.request i (.moveStop symbol price))

/-- Of the steps so far that wrote the stop of a trade's position, the last one set what the trade
asked for. -/
def AskedLast (env : DemoEnv) (before : List (Move Desk DeskLabel)) (t : Trade) : Prop :=
  ∃ a w b, before = a ++ w :: b ∧ w.pre.SetsStop t w.label
    ∧ ∀ m ∈ b, m.pre.writesStop t.ref (m.pre.posting env m.label) = none

/-- So it is whenever the position of a trade is looked at. -/
def QuotedAsAsked (env : DemoEnv) (before : List (Move Desk DeskLabel))
    (m : Move Desk DeskLabel) : Prop :=
  ∀ ref bid now, m.pre.quoted m.label = some (ref, bid, now) →
    ∀ t ∈ tradesOf before, t.ref = ref → AskedLast env before t

theorem exitDecision_p1_iff {pos : DemoPosition} {price : ℚ} {now : Time} :
    exitDecision pos price now = .full .p1HardStop ↔ price ≤ pos.stopPrice := by
  unfold exitDecision
  dsimp only
  by_cases hstop : price ≤ pos.stopPrice
  · simp [hstop]
  · rw [if_neg hstop]
    refine iff_of_false ?_ hstop
    split_ifs <;> simp

section Stops

variable {env : DemoEnv} {s s' : Desk} {l : DeskLabel} {ref : ℕ} {t : Trade}
  {ms : List (Move Desk DeskLabel)}

namespace Desk

/-- A trade is opened by the entry in the books that tracks it. -/
theorem trade_posting (env : DemoEnv) (h : s.trade l = some t) :
    s.posting env l = .opens t.opened ∧ t.ref = s.nextRef := by
  cases l with
  | taskAck i ack =>
      -- only an accepted BUY that carries a stop opens a trade
      rw [trade] at h
      change (s.tasks i).acked ack = _ ∧ _
      cases htask : s.tasks i with
      | orderAck symbol side qty limitPrice now stop =>
          rw [htask] at h
          cases side with
          | sell => exact absurd h (by simp [OperatorTask.trade])
          | buy =>
              cases stop with
              | none => exact absurd h (by simp [OperatorTask.trade])
              | some stop =>
                  rw [OperatorTask.trade] at h
                  split at h
                  · rename_i hacc
                    obtain rfl := Option.some.inj h
                    exact ⟨by rw [OperatorTask.acked, if_pos hacc], rfl⟩
                  · exact absurd h (by simp)
      | _ => rw [htask] at h; exact absurd h (by simp [OperatorTask.trade])
  | _ => exact absurd h (by simp [trade])

/-- The stop of an object changes as an entry writes it. -/
theorem stopPrice_post (p : Posting) :
    ((s.post p).objects ref).stopPrice
      = (s.writesStop ref p).getD (s.objects ref).stopPrice := by
  -- an update of one object is seen by the trades that point at it
  have hupdate : ∀ (r : ℕ) (pos : DemoPosition),
      (Function.update s.objects r pos ref).stopPrice
        = (if r = ref then some pos.stopPrice else none).getD (s.objects ref).stopPrice := by
    intro r pos
    by_cases hr : r = ref
    · rw [hr, Function.update_self, if_pos rfl]; rfl
    · rw [Function.update_of_ne (Ne.symm hr), if_neg hr]; rfl
  cases p with
  | opens pos => exact hupdate s.nextRef pos
  | restops r stop => exact hupdate r _
  | scales exit half =>
      -- a scale-out writes the breakeven stop into the object it sold from
      rw [post, objects_bookScaleOut, hupdate, writesStop]
      by_cases hr : exit.ref = ref
      · rw [if_pos hr, if_pos hr, hr]
      · rw [if_neg hr, if_neg hr]
  | _ => rfl

theorem stopPrice_step (ref : ℕ) (hs : s.step env l = some s') :
    (s'.objects ref).stopPrice
      = (s.writesStop ref (s.posting env l)).getD (s.objects ref).stopPrice := by
  rw [(step_posts hs).objects, stopPrice_post]

/-- Nothing changes the price a position was bought at. -/
theorem entryPrice_post (p : Posting) (href : ref < s.nextRef) :
    ((s.post p).objects ref).entryPrice = (s.objects ref).entryPrice := by
  -- every posting that writes an old object keeps its entry price
  have hupdate : ∀ (r : ℕ) (pos : DemoPosition), pos.entryPrice = (s.objects r).entryPrice →
      (Function.update s.objects r pos ref).entryPrice = (s.objects ref).entryPrice := by
    intro r pos hpos
    rw [Function.update_apply]
    split
    · rename_i hr
      rw [hpos, hr]
    · rfl
  cases p with
  | opens pos =>
      change (Function.update s.objects s.nextRef pos ref).entryPrice = _
      rw [Function.update_of_ne href.ne]
  | restops r stop => exact hupdate r _ rfl
  | scales exit half =>
      rw [post, objects_bookScaleOut]
      exact hupdate exit.ref _ rfl
  | _ => rfl

theorem restop_eq_restops {symbol : Symbol} {stop stop' : ℚ}
    (h : s.restop symbol stop = .restops ref stop') :
    s.positions.get? symbol = some ref ∧ stop = stop' := by
  unfold restop at h
  split at h
  · exact absurd h (by simp)
  · rename_i r hget
    obtain ⟨rfl, rfl⟩ := Posting.restops.inj h
    exact ⟨hget, rfl⟩

/--
**Only `manual_trade` and `move_stop` set a stop.**

A scale-out writes one as well, but as part of its own posting, and to the entry price.
The other postings are fills and closes.
-/
theorem setsStop_of_restops (h : s.posting env l = .restops t.ref t.stop) : s.SetsStop t l := by
  cases l with
  -- the operator's task goes on to write its stop, if the order was accepted
  | taskResume i =>
      rw [posting] at h
      cases htask : s.tasks i with
      | orderReported symbol accepted stop =>
          rw [htask, resumed] at h
          split at h
          · rename_i hacc
            obtain ⟨hget, rfl⟩ := restop_eq_restops h
            exact .goesOn (hacc ▸ htask) hget
          · exact absurd h (by simp)
      | _ => rw [htask] at h; exact absurd h (by simp [resumed])
  | request i q =>
      rw [posting] at h
      -- the operator moves the stop of whatever is open
      cases q with
      | moveStop symbol price =>
          obtain ⟨hget, hstop⟩ := restop_eq_restops h
          exact .moves hget hstop
      | flattenAll | killSwitch =>
          rw [requested] at h
          split at h <;> exact absurd h (by simp)
      | _ => exact absurd h (by simp [requested])
  -- a fill opens a position, scales one or closes one, and restops none
  | ack ack =>
      rw [posting] at h
      unfold EngineTask.acked at h
      split at h
      · split at h <;> exact absurd h (by simp)
      all_goals exact absurd h (by simp)
  | taskAck i ack =>
      rw [posting] at h
      unfold OperatorTask.acked at h
      split at h
      · exact absurd h (by simp)
      · exact absurd h (by simp)
      · split at h <;> exact absurd h (by simp)
      · exact absurd h (by simp)
  | taskFlattened i =>
      rw [posting] at h
      unfold OperatorTask.flattened at h
      split at h <;> exact absurd h (by simp)
  | replayClose pos x reason =>
      rw [posting] at h
      unfold replayed at h
      split at h <;> exact absurd h (by simp)
  | _ => exact absurd h (by simp [posting])

/-- What sets the stop that was asked for writes it. -/
theorem SetsStop.writes (h : s.SetsStop t l) :
    s.writesStop t.ref (s.posting env l) = some t.stop := by
  cases h with
  | opens htrade hsame =>
      obtain ⟨hp, href⟩ := trade_posting env htrade
      rw [hp, writesStop, if_pos href.symm, hsame]
  | goesOn htask hget =>
      rw [posting, htask, resumed, if_pos rfl, restop, hget]
      exact if_pos rfl
  | moves hget hprice =>
      rw [posting, requested, restop, hget, hprice]
      exact if_pos rfl

theorem SetsStop.of_trade (h : s.trade l = some t) (hsame : t.opened.stopPrice = t.stop) :
    s.SetsStop t l := by
  cases l with
  | taskAck i ack => exact .opens h hsame
  | _ => exact absurd h (by simp [trade])

end Desk

/-- **An object's stop is the one written last.** -/
theorem exists_lastWrite (h : Run (Desk.step env) (Desk.init env) ms s) (href : ref < s.nextRef) :
    ∃ a w b, ms = a ++ w :: b
      ∧ w.pre.writesStop ref (w.pre.posting env w.label) = some (s.objects ref).stopPrice
      ∧ ∀ m ∈ b, m.pre.writesStop ref (m.pre.posting env m.label) = none := by
  induction h with
  | start => exact absurd href (Nat.not_lt_zero _)
  | @move ms s s' l hr hs ih =>
      have hstop := Desk.stopPrice_step ref hs
      cases hw : s.writesStop ref (s.posting env l) with
      | some stop =>
          rw [hw, Option.getD_some] at hstop
          exact ⟨ms, ⟨s, l, s'⟩, [], rfl, by rw [hw, hstop], by simp⟩
      | none =>
          rw [hw, Option.getD_none] at hstop
          rw [(Desk.step_posts hs).nextRef] at href
          rcases Desk.lt_nextRef_post.mp href with hlt | ⟨⟨pos, hp⟩, rfl⟩
          · obtain ⟨a, w, b, rfl, hwrites, hnone⟩ := ih hlt
            refine ⟨a, w, b ++ [⟨s, l, s'⟩], by simp, by rw [hwrites, hstop], ?_⟩
            intro m hm
            rcases List.mem_append.mp hm with hm | hm
            · exact hnone m hm
            · rw [List.mem_singleton.mp hm]; exact hw
          · -- a new object is written to
            rw [hp, Desk.writesStop, if_pos rfl] at hw
            exact absurd hw (by simp)

/-- Until it is written again, the stop stays. -/
theorem stopPrice_lastWrite {s₀ : Desk} {a b : List (Move Desk DeskLabel)}
    {w : Move Desk DeskLabel} {stop : ℚ} (h : Run (Desk.step env) s₀ (a ++ w :: b) s)
    (hw : w.pre.writesStop ref (w.pre.posting env w.label) = some stop)
    (hb : ∀ m ∈ b, m.pre.writesStop ref (m.pre.posting env m.label) = none) :
    (s.objects ref).stopPrice = stop := by
  rw [List.append_cons] at h
  obtain ⟨s₁, hwritten, hafter⟩ := h.split
  have hstep := hwritten.step_of_mem w (by simp)
  rw [hwritten.post_last] at hstep
  refine hafter.invariant_of (C := fun m => m.pre.writesStop ref (m.pre.posting env m.label) = none)
    (I := fun s => (s.objects ref).stopPrice = stop) ?_ ?_ hb
  · rw [Desk.stopPrice_step _ hstep, hw, Option.getD_some]
  · intro s l s' _ hstop hs hnone
    rw [Desk.stopPrice_step _ hs, hnone, Option.getD_none, hstop]

/-- The object of a trade exists. -/
theorem tradesOf_lt (h : Run (Desk.step env) (Desk.init env) ms s) :
    ∀ t ∈ tradesOf ms, t.ref < s.nextRef := by
  induction h with
  | start => simp [tradesOf]
  | @move ms s s' l hr hs ih =>
      intro t ht
      have hbooks := Desk.step_posts hs
      rw [hbooks.nextRef, Desk.lt_nextRef_post]
      rw [tradesOf, List.filterMap_append, List.mem_append] at ht
      rcases ht with ht | ht
      · exact Or.inl (ih t ht)
      · obtain ⟨m, hm, htrade⟩ := List.mem_filterMap.mp ht
        rw [List.mem_singleton.mp hm] at htrade
        obtain ⟨hp, href⟩ := Desk.trade_posting env htrade
        exact Or.inr ⟨⟨_, hp⟩, href⟩

/-- A position keeps the price its trade was filled at. -/
theorem entryPrice_trade (h : Run (Desk.step env) (Desk.init env) ms s) :
    ∀ t ∈ tradesOf ms, (s.objects t.ref).entryPrice = t.opened.entryPrice := by
  induction h with
  | start => simp [tradesOf]
  | @move ms s s' l hr hs ih =>
      intro t ht
      rw [(Desk.step_posts hs).objects]
      rw [tradesOf, List.filterMap_append, List.mem_append] at ht
      rcases ht with ht | ht
      · rw [Desk.entryPrice_post _ (tradesOf_lt hr t ht), ih t ht]
      · obtain ⟨m, hm, htrade⟩ := List.mem_filterMap.mp ht
        rw [List.mem_singleton.mp hm] at htrade
        obtain ⟨hp, href⟩ := Desk.trade_posting env htrade
        rw [hp, href]
        exact congrArg DemoPosition.entryPrice (Function.update_self ..)

/-- A trade whose stop is not written after `w` was opened by then. -/
theorem mem_tradesOf_lastWrite {a b : List (Move Desk DeskLabel)} {w : Move Desk DeskLabel}
    (ht : t ∈ tradesOf (a ++ w :: b))
    (hb : ∀ m ∈ b, m.pre.writesStop t.ref (m.pre.posting env m.label) = none) :
    t ∈ tradesOf a ∨ w.pre.trade w.label = some t := by
  obtain ⟨m, hm, htrade⟩ := List.mem_filterMap.mp ht
  rcases List.mem_append.mp hm with hm | hm
  · exact Or.inl (List.mem_filterMap.mpr ⟨m, hm, htrade⟩)
  rcases List.mem_cons.mp hm with rfl | hm
  · exact Or.inr htrade
  · -- opening it would have written the stop
    obtain ⟨hp, href⟩ := Desk.trade_posting env htrade
    have hwrites := hb m hm
    rw [hp, Desk.writesStop, if_pos href.symm] at hwrites
    exact absurd hwrites (by simp)

end Stops

/-! ## What is sent for a trade -/

/-- The limit of a trade is its entry, rounded to cents, and the offset. -/
theorem quantize2_add_offset (x : ℚ) :
    quantize2 (quantize2 x + demoBuyOffset) = quantize2 x + demoBuyOffset := by
  have hoffset : OnCents demoBuyOffset := ⟨5, by norm_num [demoBuyOffset]⟩
  exact ((onCents_quantize2 x).add hoffset).quantize2_eq

/-- Every order that `manual_trade` sends has its size, its limit and its stop as `K` says. -/
def TradesAs (env : DemoEnv) (K : ℤ → ℚ → ℚ → Prop) : Prop :=
  ∀ (r : DemoRisk) (entry stop : ℚ) (qty : ℤ), quantize2 stop < quantize2 entry → 0 < qty →
    qty ≤ r.budgetShares env.cfg.perTradeRisk (quantize2 entry - quantize2 stop) →
      K qty (quantize2 entry + demoBuyOffset) (quantize2 stop)

/-- What a handler waits for is as `K` says, if it is the order of a trade. -/
def OperatorTask.Trading (K : ℤ → ℚ → ℚ → Prop) : OperatorTask → Prop
  | .orderAck _ .buy qty limitPrice _ (some stop) => K qty limitPrice stop
  | _ => True

theorem OperatorTask.trading_of_waits {K : ℤ → ℚ → ℚ → Prop} {k : OperatorTask}
    (h : k.waits = true) : k.Trading K := by
  cases k with
  | orderAck => exact absurd h (by simp [OperatorTask.waits])
  | _ => trivial

/-- A trade is opened as it was ordered. -/
theorem OperatorTask.Trading.trade {K : ℤ → ℚ → ℚ → Prop} {k : OperatorTask} (h : k.Trading K)
    {ref : ℕ} {ack : OrderAck} {t : Trade} (ht : k.trade ref ack = some t) :
    K t.opened.shares t.opened.entryPrice t.stop := by
  cases k with
  | orderAck symbol side qty limitPrice now stop =>
      cases side with
      | sell => exact absurd ht (by simp [OperatorTask.trade])
      | buy =>
          cases stop with
          | none => exact absurd ht (by simp [OperatorTask.trade])
          | some stop =>
              rw [OperatorTask.trade] at ht
              split at ht
              · rw [← Option.some.inj ht]; exact h
              · exact absurd ht (by simp)
  | _ => exact absurd ht (by simp [OperatorTask.trade])

namespace Desk

variable {env : DemoEnv} {s s' : Desk} {l : DeskLabel} {i : ℕ} {K : ℤ → ℚ → ℚ → Prop}

/-- The orders of the handlers are as `K` says. -/
def Trading (K : ℤ → ℚ → ℚ → Prop) (s : Desk) : Prop := ∀ i, (s.tasks i).Trading K

theorem Trading.toTask (h : s.Trading K) {t : Desk} {k : OperatorTask} (ht : t.tasks = s.tasks)
    (hk : k.Trading K) : (t.setTask i k).Trading K := by
  intro j
  rw [tasks_setTask]
  split
  · exact hk
  · rw [ht]; exact h j

theorem Trading.congr (h : s.Trading K) (ht : s'.tasks = s.tasks) : s'.Trading K := by
  intro j
  rw [ht]
  exact h j

/-- So is what `manual_trade` sends. -/
theorem Trading.manualTrade (hK : TradesAs env K) (h : s.Trading K) (symbol : Symbol)
    (entry stop : ℚ) (shares : ℤ) : (manualTrade env i symbol entry stop shares s).Trading K := by
  rcases manualTrade_cases env s i symbol entry stop shares with
    ⟨r, hr, -⟩ | ⟨-, -, hstop, n, hpos, hn, hr⟩
  · rw [hr]
    exact h.congr rfl
  · rw [hr, sendManual, quantize2_add_offset]
    exact h.toTask rfl (hK s.risk entry stop n hstop hpos hn)

/-- `manual_order` by itself sends no stop along. -/
theorem Trading.manualOrder (h : s.Trading K) (symbol : Symbol) (side : Side) (qty : ℤ)
    (limitPrice : ℚ) : (manualOrder env i symbol side qty limitPrice none s).Trading K := by
  rcases manualOrder_cases env s i symbol side qty limitPrice none with
    ⟨r, hr, -⟩ | ⟨-, hr⟩ | ⟨-, -, hr⟩
  · rw [hr]; exact h.congr rfl
  · rw [hr]; exact h.toTask rfl trivial
  · rw [hr]; exact h.toTask rfl trivial

theorem Trading.handle (hK : TradesAs env K) (h : s.Trading K) (q : Request) :
    (s.handle env i q).Trading K := by
  cases q with
  | manualTrade symbol entry stop shares => exact h.manualTrade hK symbol entry stop shares
  | manualOrder symbol side qty limitPrice => exact h.manualOrder symbol side qty limitPrice
  | haltDay => exact h.congr rfl
  | setOverride o => cases o <;> exact h.congr rfl
  -- these read the book, and at most set a task
  | closePosition | triggerScan | flattenAll | killSwitch =>
      simp only [Desk.handle]
      split
      all_goals first
        | exact h.congr rfl
        | exact h.toTask rfl trivial
  | pause | resume | moveStop =>
      simp only [Desk.handle]
      split <;> exact h.congr rfl
  -- no position, too few shares and no quote are answered at once
  | scaleOutPosition symbol =>
      simp only [Desk.handle]
      split
      · exact h
      · split
        · exact h
        · split
          · exact h
          · exact h.toTask rfl trivial

theorem Trading.step (hK : TradesAs env K) (h : s.Trading K) (hs : s.step env l = some s') :
    s'.Trading K := by
  cases step_cases hs with
  | ticks | waits | approves | sendsEntry | sendsScale | sendsExit | switches | haltsDay
  | killsOffline => exact h.congr rfl
  | booksLoop _ hp => exact h.congr hp.tasks.2
  | settles => exact h.congr (tasks_post _)
  | asks _ hk => exact h.toTask rfl (OperatorTask.trading_of_waits hk)
  | flattens | kills | taskCloses | taskScales | killReturns => exact h.toTask rfl trivial
  | finishes _ _ hp hk => exact h.toTask hp.tasks.2 (OperatorTask.trading_of_waits hk)
  | @sendsManual i q symbol side qty limitPrice stop hfree =>
      -- which request it was says what it sent
      have hq : some (s.handle env i q) = some (sendManual i symbol side qty limitPrice stop s) := by
        rw [← hs, Desk.step, Desk.request, hfree]
      rw [← Option.some.inj hq]
      exact h.handle hK q

/-- **Every trade of a run is as it was ordered.** -/
theorem trades_as (hK : TradesAs env K) {ms : List (Move Desk DeskLabel)}
    (h : Run (Desk.step env) (Desk.init env) ms s) :
    ∀ t ∈ tradesOf ms, K t.opened.shares t.opened.entryPrice t.stop := by
  intro t ht
  obtain ⟨m, hm, htrade⟩ := List.mem_filterMap.mp ht
  obtain ⟨ms', -, hbefore⟩ := h.before m hm
  have hinv : m.pre.Trading K := Reachable.invariant (fun _ => trivial)
    (fun _ _ _ _ h hs => h.step hK hs) ⟨ms', hbefore⟩
  obtain ⟨pre, l, post⟩ := m
  cases l with
  | taskAck i ack => exact (hinv i).trade htrade
  | _ => exact absurd htrade (by simp [Desk.trade])

end Desk

/-- The stop of a trade is below its limit. -/
theorem tradesAs_below (env : DemoEnv) : TradesAs env fun _ limitPrice stop => stop < limitPrice := by
  intro _ entry stop _ hstop _ _
  have hoffset : (0 : ℚ) < demoBuyOffset := by norm_num [demoBuyOffset]
  exact hstop.trans (lt_add_of_pos_right _ hoffset)

/-! ## When the stop is the one that was asked for -/

/-- A step that writes the stop a trade asked for, and is not written over, is one of the operator's
that sets it: its own opening, or no opening at all, and no scale-out, as the entry price is above
the stop. -/
theorem setsStop_of_lastWrite {env : DemoEnv} {s : Desk} {t : Trade}
    {a b : List (Move Desk DeskLabel)} {w : Move Desk DeskLabel}
    (h : Run (Desk.step env) (Desk.init env) (a ++ w :: b) s) (ht : t ∈ tradesOf (a ++ w :: b))
    (hw : w.pre.writesStop t.ref (w.pre.posting env w.label) = some t.stop)
    (hb : ∀ m ∈ b, m.pre.writesStop t.ref (m.pre.posting env m.label) = none) :
    w.pre.SetsStop t w.label := by
  have hbefore : Run (Desk.step env) (Desk.init env) a w.pre := by
    obtain ⟨s₁, ha, hafter⟩ := h.split
    rw [hafter.pre_head]
    exact ha
  have hopened := mem_tradesOf_lastWrite ht hb
  cases hp : w.pre.posting env w.label with
  | opens pos =>
      rw [hp, Desk.writesStop, Option.ite_none_right_eq_some] at hw
      rcases hopened with hopened | hopened
      · -- its own opening came before, under an identity of its own
        exact absurd (tradesOf_lt hbefore t hopened) (hw.1 ▸ lt_irrefl _)
      · obtain ⟨hp', -⟩ := Desk.trade_posting env hopened
        rw [hp', Posting.opens.injEq] at hp
        exact .of_trade hopened (hp ▸ Option.some.inj hw.2)
  | scales exit half =>
      rw [hp, Desk.writesStop, Option.ite_none_right_eq_some] at hw
      rcases hopened with hopened | hopened
      · -- it would set the stop to the entry price
        have hbelow := Desk.trades_as (tradesAs_below env) hbefore t hopened
        rw [← entryPrice_trade hbefore t hopened, Option.some.inj hw.2] at hbelow
        exact absurd hbelow (lt_irrefl _)
      · obtain ⟨hp', -⟩ := Desk.trade_posting env hopened
        rw [hp'] at hp
        exact absurd hp (by simp)
  | restops ref stop =>
      rw [hp, Desk.writesStop, Option.ite_none_right_eq_some, Option.some.injEq] at hw
      exact Desk.setsStop_of_restops (by rw [hp, hw.1, hw.2])
  | _ =>
      rw [hp] at hw
      exact absurd hw (by simp [Desk.writesStop])

/-- A trade at 10.00 with its stop at 9.50 is filled, and the loop asks for a quote before
`manual_trade` goes on. -/
def filledTrade : List DeskLabel :=
  [.request 0 (.manualTrade "TEST" 10 (95 / 10) 100), .taskAck 0 orderTaken, .iterate false false]

def filledRun : DeskRun deskDay := (Execution.start _ _).play filledTrade

end RossBot
