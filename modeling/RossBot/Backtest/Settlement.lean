import Mathlib.Data.List.Forall2
import RossBot.Backtest.Closings
import RossBot.Risk.Budget

/-!
# Every position is settled once

`core/backtest/replay.py`. Seen from its log, a replay is a passbook: a position is
entered when none is held, its stop may move, and a close strikes it out. `Passbook`
is that and nothing else; the loop keeps one (`passbook_loop`), and what holds of
every passbook holds of every replay.
-/

namespace RossBot

open Lib

/-- A position and the bar it was opened on, with the size the risk manager approved. -/
structure Opening where
  on : ReplayBar
  pos : OpenPosition
  approved : ℤ

/-- The opening an event of the log is. -/
def ReplayEvent.opening : ReplayEvent → Option Opening
  | .opened e pos approved => some ⟨e, pos, approved⟩
  | _ => none

/-- The openings of a log, in order. -/
def openings (log : List ReplayEvent) : List Opening := log.filterMap ReplayEvent.opening

/-- What a position keeps of its entry. -/
structure Purchase where
  symbol : Symbol
  entryTs : Stamp
  entryPrice : ℚ
  shares : ℤ
  riskPerShare : ℚ
  entryFees : ℚ

/-- A moved stop changes nothing of it. -/
def OpenPosition.purchase (p : OpenPosition) : Purchase :=
  ⟨p.symbol, p.entryTs, p.entryPrice, p.shares, p.riskPerShare, p.entryFees⟩

/-- Where the log stands when an event is added: a position is opened when every one before it was
closed, and closed when it is the only one that was not. -/
def OneAtATime (before : List ReplayEvent) : ReplayEvent → Prop
  | .opened .. => (openings before).length = (closings before).length
  | .closed .. => (openings before).length = (closings before).length + 1
  | _ => True

/-- **The trade settles the opening**: it is of what was bought, at what it was bought for, and its
profit is what the two prices make of it, net of fees. -/
structure Settles (o : Opening) (t : TradeRecord) : Prop where
  symbol : t.symbol = o.on.symbol
  entryTs : t.entryTs = o.on.ts
  entryPrice : t.entryPrice = o.pos.entryPrice
  shares : t.shares = o.pos.shares
  /-- At least one share was bought, and no more than were approved. -/
  filled : 1 ≤ t.shares ∧ t.shares ≤ o.approved
  netPnl : t.netPnl = (t.exitPrice - t.entryPrice) * t.shares - t.fees

/-! ## The passbook -/

/-- A log, and the position that is held at its end. -/
inductive Passbook (env : Backtest) : List ReplayEvent → Option OpenPosition → Prop where
  | blank : Passbook env [] none
  | note {log : List ReplayEvent} {held : Option OpenPosition} {x : ReplayEvent} :
      x.opening = none → x.closing = none → Passbook env log held →
      Passbook env (log ++ [x]) held
  | enter {log : List ReplayEvent} (e : ReplayBar) (sig : EntrySignal) {n : ℤ} : 0 < n →
      Passbook env log none →
      Passbook env (log ++ [.opened e (Replay.filledPosition env e sig n) n])
        (some (Replay.filledPosition env e sig n))
  | move {log : List ReplayEvent} {pos : OpenPosition} (stop : Money) :
      Passbook env log (some pos) → Passbook env log (some { pos with stopPrice := stop })
  | strike {log : List ReplayEvent} {pos : OpenPosition} (e : ReplayBar) (exitPrice exitFees : ℚ)
      (reason : TradeExit) : Passbook env log (some pos) →
      Passbook env (log ++ [.closed e pos (tradeRecord pos e exitPrice exitFees reason)]) none

variable {env : Backtest} {log : List ReplayEvent} {held : Option OpenPosition}

theorem openings_append (l l' : List ReplayEvent) : openings (l ++ l') = openings l ++ openings l' :=
  List.filterMap_append

theorem openings_snoc {l : List ReplayEvent} {x : ReplayEvent} (h : x.opening = none) :
    openings (l ++ [x]) = openings l := by
  simp [openings, h]

theorem closings_snoc {l : List ReplayEvent} {x : ReplayEvent} (h : x.closing = none) :
    closings (l ++ [x]) = closings l := by
  simp [closings, h]

/-- What was bought was sold or is held, in order. -/
theorem Passbook.purchases (h : Passbook env log held) :
    (openings log).map (·.pos.purchase)
      = (closings log).map (·.pos.purchase) ++ held.toList.map (·.purchase) := by
  induction h with
  | blank => rfl
  | note ho hc _ ih => rw [openings_snoc ho, closings_snoc hc, ih]
  | enter e sig _ _ ih =>
      rw [openings_append, List.map_append, ih, closings_snoc rfl]
      simp [openings, ReplayEvent.opening]
  | move stop _ ih => exact ih
  | strike e _ _ _ _ ih =>
      rw [openings_snoc rfl, closings_append, List.map_append, ih]
      simp [closings, ReplayEvent.closing]

/-- So one is held when more were opened than closed. -/
theorem Passbook.length (h : Passbook env log held) :
    (openings log).length = (closings log).length + held.toList.length := by
  have hlen := congrArg List.length h.purchases
  simpa using hlen

theorem Passbook.oneAtATime (h : Passbook env log held) : EachAt OneAtATime log := by
  induction h with
  | blank => exact eachAt_nil
  | @note log held x ho hc hbook ih =>
      refine eachAt_snoc.mpr ⟨ih, ?_⟩
      cases x with
      | opened => exact absurd ho (by simp [ReplayEvent.opening])
      | closed => exact absurd hc (by simp [ReplayEvent.closing])
      | _ => trivial
  | enter _ _ _ hbook ih => exact eachAt_snoc.mpr ⟨ih, hbook.length⟩
  | move _ _ ih => exact ih
  | strike _ _ _ _ hbook ih => exact eachAt_snoc.mpr ⟨ih, hbook.length⟩

/-- What an opening bought. -/
theorem Passbook.entered (h : Passbook env log held) : ∀ o ∈ openings log,
    0 < o.approved ∧ ∃ sig, o.pos = Replay.filledPosition env o.on sig o.approved := by
  induction h with
  | blank => simp [openings]
  | note ho _ _ ih => rwa [openings_snoc ho]
  | enter e sig hn _ ih =>
      intro o ho
      rw [openings_append] at ho
      rcases List.mem_append.mp ho with ho | ho
      · exact ih o ho
      · obtain rfl := by simpa [openings, ReplayEvent.opening] using ho
        exact ⟨hn, sig, rfl⟩
  | move _ _ ih => exact ih
  | strike _ _ _ _ _ ih => rwa [openings_snoc rfl]

/-- What a close booked. -/
theorem Passbook.struck (h : Passbook env log held) : ∀ c ∈ closings log,
    ∃ exitPrice exitFees reason, c.trade = tradeRecord c.pos c.on exitPrice exitFees reason := by
  induction h with
  | blank => simp [closings]
  | note _ hc _ ih => rwa [closings_snoc hc]
  | enter _ _ _ _ ih => rwa [closings_snoc rfl]
  | move _ _ ih => exact ih
  | strike e exitPrice exitFees reason _ ih =>
      intro c hc
      rw [closings_append] at hc
      rcases List.mem_append.mp hc with hc | hc
      · exact ih c hc
      · obtain rfl := by simpa [closings, ReplayEvent.closing] using hc
        exact ⟨exitPrice, exitFees, reason, rfl⟩

/-- A close of a purchase settles its opening. -/
theorem settles_of_purchase {o : Opening} {c : Closing} (hpos : 0 < o.approved)
    (hfilled : ∃ sig, o.pos = Replay.filledPosition env o.on sig o.approved)
    (htrade : ∃ x f r, c.trade = tradeRecord c.pos c.on x f r)
    (hsame : o.pos.purchase = c.pos.purchase) : Settles o c.trade := by
  obtain ⟨sig, hsig⟩ := hfilled
  obtain ⟨x, f, r, htrade⟩ := htrade
  obtain ⟨hsym, hts, hprice, hshares, -, -⟩ := Purchase.mk.injEq .. ▸ hsame
  -- a fill in part is half the shares, and one at least
  have hfill : 1 ≤ o.pos.shares ∧ o.pos.shares ≤ o.approved := by
    rw [hsig]
    refine ⟨?_, Replay.entryFill_shares_le env.rng sig.entryPrice.val env.cfg.buyOffset _ hpos⟩
    change 1 ≤ if _ then max 1 (o.approved / 2) else o.approved
    split
    · exact le_max_left ..
    · exact hpos
  -- the closing sells the shares that were filled
  rw [hshares] at hfill
  rw [htrade]
  exact ⟨hsym.symm.trans (by rw [hsig]; rfl), hts.symm.trans (by rw [hsig]; rfl), hprice.symm,
    hshares.symm, hfill, rfl⟩

/-! ## The loop keeps one -/

namespace Replay

variable {s s' : Replay} {e : ReplayBar}

/-- The replay keeps a passbook. -/
def Keeps (env : Backtest) (s : Replay) : Prop := Passbook env s.log s.openPos

theorem keeps_start : start.Keeps env := .blank

theorem Keeps.completeTrade (h : s.Keeps env) {pos : OpenPosition} (hp : s.openPos = some pos)
    (x f : ℚ) (r : TradeExit) : (s.completeTrade env pos e x f r).Keeps env :=
  .strike e x f r (hp ▸ h)

theorem Keeps.handBar (h : s.Keeps env) : (s.handBar env e).1.Keeps env := .note rfl rfl h

theorem Keeps.of_turn (h : s.Keeps env) (ht : Turn env s e s') : s'.Keeps env := by
  cases ht with
  | eod hp | stop hp => exact h.completeTrade hp ..
  | quiet | vetoed => exact h.handBar
  | opened _ _ ho happ =>
      have hbook : Passbook env (s.handBar env e).1.log none := ho ▸ h.handBar
      obtain ⟨-, -, hpos⟩ := RiskState.evaluate_approved happ
      exact .enter e _ hpos hbook
  | sold _ hp => exact h.handBar.completeTrade hp ..
  | scaled _ _ hp =>
      unfold Replay.scaleOut
      dsimp only
      split
      · exact h.handBar
      · exact .move _ (hp ▸ h.handBar)

theorem Keeps.flattenResidual (h : s.Keeps env) (ha : s.Agree) :
    (s.flattenResidual env e).Keeps env := by
  cases hp : s.openPos with
  | none => rw [flattenResidual_of_none hp]; exact h
  | some pos => rw [ha.flattenResidual_of_some hp]; exact h.completeTrade hp ..

theorem Keeps.finaliseSimDay (h : s.Keeps env) : s.finaliseSimDay.Keeps env := by
  unfold Replay.finaliseSimDay
  split
  · exact h
  · exact .note rfl rfl h

theorem Keeps.rollover (h : s.Keeps env) (ha : s.Agree) : (s.rollover env e).Keeps env := by
  by_cases hd : s.currentDay = some e.date
  · rw [rollover_of_same hd]; exact h
  · rw [rollover_of_new hd]
    exact .note rfl rfl (h.flattenResidual ha).finaliseSimDay

theorem Keeps.onEvent (h : s.Keeps env) (ha : s.Agree) : (s.onEvent env e).Keeps env := by
  have harr : (s.arrive e).Keeps env := .note rfl rfl h
  have hturn : (((s.arrive e).rollover env e).onBar env e).Keeps env :=
    (harr.rollover ha.arrive).of_turn (ha.onEvent_turn ..)
  exact hturn

end Replay

theorem passbook_loop (env : Backtest) (events : List ReplayBar) :
    (replayLoop env events).Keeps env :=
  (foldl_invariant (I := fun s : Replay => s.Keeps env ∧ s.Agree)
    ⟨Replay.keeps_start, Replay.agree_start⟩
    (fun _ _ h => ⟨h.1.onEvent h.2, h.2.onEvent⟩) events).1

/-- At the end nothing is held. -/
theorem passbook_end (env : Backtest) (events : List ReplayBar) :
    Passbook env (replayEnd env events).log none := by
  have hloop := passbook_loop env events
  have hagree := agree_loop env events
  unfold replayEnd Replay.flush
  cases hlast : events.getLast? with
  | none =>
      obtain rfl := List.getLast?_eq_none_iff.mp hlast
      exact .blank
  | some last =>
      have hend := (hloop.flattenResidual hagree (e := last)).finaliseSimDay
      rwa [Replay.Keeps, Replay.finaliseSimDay_openPos, hagree.flattenResidual_openPos] at hend

/-- **Every position is settled by exactly one trade**, for every sequence of events: the trades of
the result that were not vetoed are, in order, those of the positions that were opened, and no
position is opened before the one before it is closed. -/
theorem trades_settle_openings (env : Backtest) (events : List ReplayBar) :
    List.Forall₂ Settles (openings (replayEnd env events).log)
        ((replay env events).days.flatMap SimDay.completed)
      ∧ EachAt OneAtATime (replayEnd env events).log := by
  have hbook := passbook_end env events
  refine ⟨?_, hbook.oneAtATime⟩
  have hsame : List.Forall₂ (fun (o : Opening) (c : Closing) => o.pos.purchase = c.pos.purchase)
      (openings (replayEnd env events).log) (closings (replayEnd env events).log) := by
    -- after the last day nothing is open, so the two lists of purchases are equal
    have hall := hbook.purchases
    rw [Option.toList_none, List.map_nil, List.append_nil, ← List.forall₂_eq_eq_eq,
      List.forall₂_map_left_iff, List.forall₂_map_right_iff] at hall
    exact hall
  rw [recorded_trades, List.forall₂_map_right_iff]
  -- one by one: the closing is that of the opening in the same place
  refine List.forall₂_iff_get.mpr ⟨hsame.length_eq, fun i ho hc => ?_⟩
  obtain ⟨hpos, hfilled⟩ := hbook.entered _ (List.get_mem _ ⟨i, ho⟩)
  exact settles_of_purchase hpos hfilled (hbook.struck _ (List.get_mem _ ⟨i, hc⟩))
    ((List.forall₂_iff_get.mp hsame).2 i ho hc)

end RossBot
