import RossBot.Demo.Halt
import RossBot.Demo.Refs

/-!
# The operator's own orders

`manual_order` tracks an accepted BUY by writing a new position over whatever its
symbol was tracked as, and an accepted SELL not at all. So the shares tracked are
the net of the orders only as long as there is no SELL, and no second BUY
(`netted_iff`).
-/

namespace RossBot

open Lib

/-! ## What is claimed -/

/-- The steps of `manual_order` and `manual_trade`. -/
def DeskLabel.manual : DeskLabel → Bool
  | .tick _ | .request _ (.manualOrder _ _ _ _) | .request _ (.manualTrade _ _ _ _)
  | .taskAck _ _ | .taskResume _ => true
  | _ => false

/-- One step of `manual_order` or `manual_trade`. -/
def Desk.manualStep (env : DemoEnv) (s : Desk) (l : DeskLabel) : Option Desk :=
  if l.manual then s.step env l else none

/-- Any interleaving of such calls. -/
abbrev ManualRun (env : DemoEnv) := Execution (Desk.manualStep env) (Desk.init env)

/-- An accepted order, filled. -/
structure Fill where
  symbol : Symbol
  side : Side
  qty : ℤ

/-- What it adds to the account. -/
def Fill.signed (f : Fill) : ℤ :=
  match f.side with
  | .buy => f.qty
  | .sell => -f.qty

/-- The order of a handler that the broker's answer fills. -/
def OperatorTask.filled (ack : OrderAck) : OperatorTask → Option Fill
  | .orderAck symbol side qty _ _ _ => if ack.accepted then some ⟨symbol, side, qty⟩ else none
  | _ => none

/-- The manual order a step fills. -/
def Desk.filled (s : Desk) : DeskLabel → Option Fill
  | .taskAck i a => (s.tasks i).filled a
  | _ => none

/-- The manual orders filled in a run. -/
def manualFills (ms : List (Move Desk DeskLabel)) : List Fill :=
  ms.filterMap fun m => m.pre.filled m.label

/-- Buys minus sells. -/
def netShares (symbol : Symbol) (fills : List Fill) : ℤ :=
  ((fills.filter fun f => f.symbol = symbol).map Fill.signed).sum

/-- The shares tracked under a symbol. -/
def Desk.heldShares (s : Desk) (symbol : Symbol) : ℤ :=
  match s.positions.get? symbol with
  | none => 0
  | some ref => (s.objects ref).shares

/-- `record_close` was called. -/
def DemoEvent.recording : DemoEvent → Bool
  | .recordedClose _ _ _ => true
  | _ => false

/-- **What is tracked is the net of the orders**, and the P&L of every SELL is in the journal and
recorded. -/
structure Netted (fills : List Fill) (s : Desk) : Prop where
  held : ∀ symbol, s.heldShares symbol = netShares symbol fills
  journaled : s.closedTrades.length = fills.countP fun f => f.side = .sell
  recorded : s.log.countP DemoEvent.recording = fills.countP fun f => f.side = .sell

/-- A filled order is a BUY of a symbol that is not tracked with shares. -/
def BuysAfresh (m : Move Desk DeskLabel) : Prop :=
  ∀ f, m.pre.filled m.label = some f → f.side = .buy ∧ m.pre.heldShares f.symbol = 0

/-! ## Only orders -/

/-- The handler is of `manual_order` or `manual_trade`. -/
def OperatorTask.ordering : OperatorTask → Bool
  | .done | .orderAck _ _ _ _ _ _ | .orderReported _ _ _ => true
  | _ => false

namespace Desk

variable {env : DemoEnv} {s s' : Desk} {l : DeskLabel}

/-- What a step of the two can be. -/
inductive Ordered (env : DemoEnv) (s : Desk) (l : DeskLabel) : Prop where
  /-- No order is filled, and at most a stop is set. -/
  | none : s.filled l = Option.none → s.journals (s.posting env l) = [] →
      (s.post (s.posting env l)).log = s.log →
      (∀ symbol, (s.post (s.posting env l)).heldShares symbol = s.heldShares symbol) → Ordered env s l
  /-- A SELL is filled, and that is all. -/
  | sell {f : Fill} : s.filled l = some f → f.side = .sell → s.posting env l = .nothing →
      Ordered env s l
  /-- A BUY is filled, and tracked. -/
  | buy {f : Fill} {limitPrice : ℚ} {now : Time} : s.filled l = some f → f.side = .buy →
      s.posting env l = .opens (manualPosition f.symbol f.qty limitPrice now) → Ordered env s l

theorem heldShares_restop (symbol : Symbol) (stop : ℚ) (a : Symbol) :
    (s.post (s.restop symbol stop)).heldShares a = s.heldShares a := by
  unfold restop
  cases s.positions.get? symbol with
  | none => rfl
  | some ref =>
      -- the stop is written into the object, whichever symbols share it
      have hshares : ∀ r, (Function.update s.objects ref
          { s.objects ref with stopPrice := stop } r).shares = (s.objects r).shares := by
        intro r
        rw [Function.update_apply]
        split
        · rename_i hr
          rw [hr]
        · rfl
      change (match s.positions.get? a with
        | Option.none => 0
        | some r => (Function.update s.objects ref { s.objects ref with stopPrice := stop } r).shares)
          = s.heldShares a
      -- other symbols may hold the same object: its shares are read through the pointer
      unfold heldShares
      cases s.positions.get? a with
      | none => rfl
      | some r => exact hshares r

theorem journals_restop (symbol : Symbol) (stop : ℚ) :
    s.journals (s.restop symbol stop) = [] ∧ (s.post (s.restop symbol stop)).log = s.log := by
  unfold restop
  cases s.positions.get? symbol <;> exact ⟨rfl, rfl⟩

theorem heldShares_opens (h : s.Known) (pos : DemoPosition) (symbol : Symbol) :
    (s.post (.opens pos)).heldShares symbol
      = if symbol = pos.symbol then pos.shares else s.heldShares symbol := by
  change (match (s.positions.set pos.symbol s.nextRef).get? symbol with
    | none => 0
    | some r => (Function.update s.objects s.nextRef pos r).shares) = _
  rw [Dict.get?_set]
  -- the new position's object is fresh, so no other symbol points at it
  by_cases hsym : symbol = pos.symbol
  · rw [if_pos hsym, if_pos hsym]
    dsimp only
    rw [Function.update_self]
  · rw [if_neg hsym, if_neg hsym]
    unfold heldShares
    cases hget : s.positions.get? symbol with
    | none => rfl
    | some ref =>
        dsimp only
        rw [Function.update_of_ne (Nat.ne_of_lt (h.positions symbol ref hget).1)]

/-- **One case for each kind of step.** -/
theorem ordered_of (env : DemoEnv) (ht : ∀ i, (s.tasks i).ordering = true) (hl : l.manual = true) :
    Ordered env s l := by
  -- a label that fills nothing and posts nothing leaves the journal as it is
  have hnothing : s.filled l = Option.none → s.posting env l = .nothing → Ordered env s l :=
    fun hf hp => .none hf (by rw [hp]; rfl) (by rw [hp]; rfl) fun symbol => by rw [hp]; rfl
  cases l with
  | tick => exact hnothing rfl rfl
  | request i r =>
      cases r with
      | manualOrder | manualTrade => exact hnothing rfl rfl
      | _ => exact absurd hl (by simp [DeskLabel.manual])
  | taskAck i a =>
      have hi := ht i
      cases htask : s.tasks i with
      | orderAck symbol side qty limitPrice now stop =>
          -- a refused order is neither filled nor posted
          cases hacc : a.accepted with
          | false =>
              refine hnothing (by simp [filled, htask, OperatorTask.filled, hacc]) ?_
              cases side <;> simp [posting, htask, OperatorTask.acked, hacc]
          -- an accepted one is filled at the venue and posted in the same step
          | true =>
              have hfill : s.filled (.taskAck i a) = some ⟨symbol, side, qty⟩ := by
                simp [filled, htask, OperatorTask.filled, hacc]
              cases side with
              | sell => exact .sell hfill rfl (by simp [posting, htask, OperatorTask.acked])
              | buy => exact .buy hfill rfl (by simp [posting, htask, OperatorTask.acked, hacc]; rfl)
      | done | orderReported =>
          exact hnothing (by simp [filled, htask, OperatorTask.filled])
            (by simp [posting, htask, OperatorTask.acked])
      | _ => exact absurd hi (by simp [htask, OperatorTask.ordering])
  | taskResume i =>
      have hp : s.posting env (.taskResume i) = s.resumed (s.tasks i) := rfl
      cases htask : s.tasks i with
      -- the operator's stop is written only when the order was accepted
      | orderReported symbol accepted stop =>
          rw [htask, resumed] at hp
          cases accepted with
          | false => exact hnothing rfl hp
          | true =>
              obtain ⟨hj, hlog⟩ := journals_restop (s := s) symbol stop
              refine .none rfl ?_ ?_ fun a => ?_
              · rw [hp]; exact hj
              · rw [hp]; exact hlog
              · rw [hp]; exact heldShares_restop symbol stop a
      | _ => rw [htask] at hp; exact hnothing rfl hp
  | _ => exact absurd hl (by simp [DeskLabel.manual])

/--
**The handlers stay within the two.**

In a run of `manual_order` and `manual_trade` alone, every handler is free, waits for
the broker, or waits for the broadcasts after its order. So nothing but their own fills
posts to the journal.
-/
theorem ordering_step (ht : ∀ i, (s.tasks i).ordering = true) (hl : l.manual = true)
    (hs : s.step env l = some s') (i : ℕ) : (s'.tasks i).ordering = true := by
  -- a task that is set is an ordering one, and the others were
  have hupdate : ∀ (t : Desk) (j : ℕ) (k : OperatorTask), t.tasks = s.tasks → k.ordering = true →
      ((t.setTask j k).tasks i).ordering = true := by
    intro t j k htask hk
    rw [tasks_setTask]
    split
    · exact hk
    · rw [htask]; exact ht i
  cases l with
  | tick dt =>
      rw [step] at hs
      split at hs
      · rw [← Option.some.inj hs]; exact ht i
      · exact absurd hs (by simp)
  | request j r =>
      rw [step, Desk.request] at hs
      split at hs
      swap
      · exact absurd hs (by simp)
      rw [← Option.some.inj hs]
      cases r with
      | manualOrder symbol side qty limitPrice =>
          rw [handle]
          rcases manualOrder_cases env s j symbol side qty limitPrice Option.none with
            -- refused at once, refused by the book, or sent
            ⟨r, hr, -⟩ | ⟨-, hr⟩ | ⟨-, -, hr⟩
          · rw [hr]; exact ht i
          · rw [hr]; exact hupdate (s.note _) j _ rfl rfl
          · rw [hr]; exact hupdate (s.note _) j _ rfl rfl
      | manualTrade symbol entry stop shares =>
          rw [handle]
          rcases manualTrade_cases env s j symbol entry stop shares with
            ⟨r, hr, -⟩ | ⟨-, -, -, qty, -, -, hr⟩
          · rw [hr]; exact ht i
          · rw [hr]; exact hupdate (s.note _) j _ rfl rfl
      | _ => exact absurd hl (by simp [DeskLabel.manual])
  | taskAck j a =>
      rw [step, taskAck] at hs
      have hj := ht j
      split at hs
      · rename_i htask
        -- closing and flattening tasks are not the operator's orders
        exact absurd hj (by simp [htask, OperatorTask.ordering])
      · rename_i htask
        exact absurd hj (by simp [htask, OperatorTask.ordering])
      · dsimp only at hs
        split at hs <;> rw [← Option.some.inj hs] <;> split <;> exact hupdate _ j _ rfl rfl
      · exact absurd hs (by simp)
  | taskResume j =>
      rw [step, taskResume] at hs
      split at hs
      · rw [← Option.some.inj hs]
        split
        · exact hupdate s j _ rfl rfl
        · split <;> exact hupdate _ j _ rfl rfl
      · exact absurd hs (by simp)
  | _ => exact absurd hl (by simp [DeskLabel.manual])

end Desk

/-! ## The net -/

section Net

variable {env : DemoEnv} {s s' : Desk} {l : DeskLabel} {fills : List Fill}

/-- What holds while every order is a BUY of its own. -/
structure NetBook (fills : List Fill) (s : Desk) : Prop where
  known : s.Known
  tasks : ∀ i, (s.tasks i).ordering = true
  netted : Netted fills s

theorem netShares_snoc (symbol : Symbol) (fills : List Fill) (f : Fill) :
    netShares symbol (fills ++ [f])
      = netShares symbol fills + if f.symbol = symbol then f.signed else 0 := by
  by_cases h : f.symbol = symbol <;> simp [netShares, List.filter_append, h]

theorem Desk.SameBooks.heldShares {t : Desk} (h : t.SameBooks s') (symbol : Symbol) :
    s'.heldShares symbol = t.heldShares symbol := by
  rw [Desk.heldShares, Desk.heldShares, h.positions, h.objects]

/-- What is not in the books is no record of a close. -/
theorem Desk.SameBooks.recording {t : Desk} (h : t.SameBooks s') :
    s'.log.countP DemoEvent.recording = t.log.countP DemoEvent.recording := by
  obtain ⟨es, hes, hposted⟩ := h.log
  have hnone : es.countP DemoEvent.recording = 0 := by
    rw [List.countP_eq_zero]
    intro e he
    have hpost := hposted e he
    cases e <;> simp_all [DemoEvent.posted, DemoEvent.recording]
  rw [hes, List.countP_append, hnone, add_zero]

/-- **What a step makes of the net**: it is right afterwards exactly if the order filled, if any,
was a BUY afresh. -/
theorem NetBook.step_iff (h : NetBook fills s) (hl : l.manual = true)
    (hs : s.step env l = some s') :
    Netted (fills ++ (s.filled l).toList) s' ↔ BuysAfresh ⟨s, l, s'⟩ := by
  have hbooks := Desk.step_posts hs
  have hrows := hbooks.closedTrades.trans (Desk.closedTrades_post s _)
  cases Desk.ordered_of env h.tasks hl with
  | none hf hj hlog hheld =>
      refine iff_of_true ⟨fun symbol => ?_, ?_, ?_⟩
        fun f hf' => absurd (hf.symm.trans hf') (by simp)
      · rw [hbooks.heldShares, hheld, h.netted.held, hf]; simp
      · rw [hrows, hj, hf, List.map_nil, List.append_nil, h.netted.journaled]; simp
      · rw [hbooks.recording, hlog, hf, h.netted.recorded]; simp
  | @sell f hf hside hp =>
      rw [hp] at hrows
      refine iff_of_false (fun hn => ?_) fun hc => ?_
      · -- a SELL is not journaled
        have hsold := hn.journaled
        rw [hrows, hf, Option.toList_some, List.countP_append] at hsold
        simp [Desk.journals, h.netted.journaled, hside] at hsold
      · exact absurd (hc f hf).1 (by simp [hside])
  | @buy f limitPrice now hf hside hp =>
      have hheld : ∀ symbol, s'.heldShares symbol
          = if symbol = f.symbol then f.qty else s.heldShares symbol := by
        intro symbol
        rw [hbooks.heldShares, hp, Desk.heldShares_opens h.known]; rfl
      have hsigned : f.signed = f.qty := by rw [Fill.signed, hside]
      constructor
      · intro hn f' hf'
        obtain rfl := Option.some.inj (hf.symm.trans hf')
        refine ⟨hside, ?_⟩
        -- the shares held before are gone from the new position
        have hnow := hn.held f.symbol
        rw [hheld, if_pos rfl, hf, Option.toList_some, netShares_snoc, if_pos rfl, hsigned,
          ← h.netted.held] at hnow
        change s.heldShares f.symbol = 0
        omega
      · intro hc
        have hzero : s.heldShares f.symbol = 0 := (hc f hf).2
        rw [hf, Option.toList_some]
        refine ⟨fun symbol => ?_, ?_, ?_⟩
        · rw [hheld, netShares_snoc, ← h.netted.held, hsigned]
          by_cases hsym : f.symbol = symbol
          · rw [if_pos hsym.symm, if_pos hsym, ← hsym, hzero, zero_add]
          · rw [if_neg (Ne.symm hsym), if_neg hsym, add_zero]
        · rw [hrows, hp, List.countP_append, ← h.netted.journaled]
          simp [Desk.journals, hside]
        · have hlog : (s.post (.opens (Desk.manualPosition f.symbol f.qty limitPrice now))).log
              = s.log ++ [.opened s.nextRef (Desk.manualPosition f.symbol f.qty limitPrice now)] := rfl
          rw [hbooks.recording, hp, hlog, List.countP_append, List.countP_append,
            ← h.netted.recorded]
          simp [DemoEvent.recording, hside]

end Net

theorem manualFills_append (ms : List (Move Desk DeskLabel)) (m : Move Desk DeskLabel) :
    manualFills (ms ++ [m]) = manualFills ms ++ (m.pre.filled m.label).toList := by
  rw [manualFills, List.filterMap_append]
  cases h : m.pre.filled m.label <;> simp [manualFills, h]

/-- **Exactly the runs of first BUYs are netted**: over any calls of `manual_order` and
`manual_trade`, the shares tracked for each symbol are its accepted buys minus its accepted sells,
and each sell is journaled, all along if and only if no SELL is accepted and no BUY of a symbol
that is tracked with shares. -/
theorem netted_iff (env : DemoEnv) (x : ManualRun env) :
    (∀ ms s, x.Passes ms s → Netted (manualFills ms) s) ↔ ∀ m ∈ x.moves, BuysAfresh m := by
  have hstep : ∀ {s l s'}, Desk.manualStep env s l = some s' →
      l.manual = true ∧ s.step env l = some s' := Option.ite_none_right_eq_some.mp
  refine x.passes_iff (I := fun ms s => NetBook (manualFills ms) s)
    ⟨Desk.known_init, fun _ => rfl, fun _ => rfl, rfl, rfl⟩ (fun ms s h => h.netted) ?_ ?_
  · intro ms s l s' h hs hc
    obtain ⟨hl, hs⟩ := hstep hs
    refine ⟨h.known.step hs, Desk.ordering_step h.tasks hl hs, ?_⟩
    rw [manualFills_append]
    exact (h.step_iff hl hs).mpr hc
  · intro ms s l s' h hs hn
    obtain ⟨hl, hs⟩ := hstep hs
    rw [manualFills_append] at hn
    exact (h.step_iff hl hs).mp hn

/-- A hundred shares are bought, then fifty more. -/
def boughtAgain : List DeskLabel :=
  [.request 0 (.manualOrder "TEST" .buy 100 10), .taskAck 0 orderTaken,
    .request 1 (.manualOrder "TEST" .buy 50 11), .taskAck 1 orderTaken]

/-- Fifty are tracked. -/
theorem bought_again_lost :
    ¬ ∀ (env : DemoEnv) (x : ManualRun env) ms s, x.Passes ms s → Netted (manualFills ms) s := by
  intro h
  let x : ManualRun deskDay := (Execution.start _ _).play boughtAgain
  have hheld := (h deskDay x x.moves x.final x.passes_final).held "TEST"
  exact absurd hheld (by decide +kernel)

end RossBot
