import RossBot.Backtest.Closings

/-!
# Replays in two processes

`hash` on strings is salted for each process, and the seed of a fill mixes it
in. Nothing else in the loop looks at it: an event either leaves the hash alone
altogether, or opens a position whose share count the fill draws
(`Agree.onBar_hash`). So two processes agree on a replay exactly when every such
draw is settled beforehand (`replay_deterministic_iff`).
-/

namespace RossBot

open Lib

/-- The same run in a process with another `hash`. -/
def Backtest.withHash (env : Backtest) (hash : Symbol → ℤ) : Backtest := { env with hash := hash }

/-- Whether an entry on this bar is only partly filled, given `hash(symbol)`. -/
def Backtest.partialAt (env : Backtest) (e : ReplayBar) (hash : ℤ) : Bool :=
  isPartialFill env.rng (some (env.mixSeed hash e.bar.ts))

/-- An entry of `n` shares fills alike whatever `hash(symbol)` is: a single share is not halved,
and otherwise the draw is on the same side of the threshold for every value. -/
def Backtest.Settled (env : Backtest) (e : ReplayBar) (n : ℤ) : Prop :=
  n = 1 ∨ ∀ h h', env.partialAt e h = env.partialAt e h'

/-- How many of `n` shares an entry on this bar buys, given `hash(symbol)`. -/
def Backtest.sharesAt (env : Backtest) (e : ReplayBar) (n hash : ℤ) : ℤ :=
  if env.partialAt e hash then max 1 (n / 2) else n

variable {env : Backtest}

theorem Backtest.Settled.sharesAt {e : ReplayBar} {n : ℤ} (h : env.Settled e n) (k k' : ℤ) :
    env.sharesAt e n k = env.sharesAt e n k' := by
  unfold Backtest.sharesAt
  rcases h with rfl | hdraw
  · simp
  · rw [hdraw k k']

/-- A fill and a half fill are only ever the same for a single share. -/
theorem Backtest.settled_of_sharesAt {e : ReplayBar} {n : ℤ} (hpos : 0 < n)
    (h : ∀ k k', env.sharesAt e n k = env.sharesAt e n k') : env.Settled e n := by
  -- one share cannot be filled in part
  by_cases hone : n = 1
  · exact Or.inl hone
  right
  -- of more shares the two fills differ, so equal shares mean equal draws
  intro k k'
  have hfill := h k k'
  have hsmaller : max 1 (n / 2) < n := by omega
  unfold Backtest.sharesAt at hfill
  cases hk : env.partialAt e k with
  | true =>
      cases hk' : env.partialAt e k' with
      | true => rfl
      | false => rw [hk, hk'] at hfill; exact absurd hfill hsmaller.ne
  | false =>
      cases hk' : env.partialAt e k' with
      | true => rw [hk, hk'] at hfill; exact absurd hfill hsmaller.ne'
      | false => rfl

theorem filledPosition_withHash (hash : Symbol → ℤ) (e : ReplayBar) (sig : EntrySignal) (n : ℤ) :
    (Replay.filledPosition (env.withHash hash) e sig n).shares
      = env.sharesAt e n (hash e.symbol) := rfl

/-- A settled entry becomes the same position in every process. -/
theorem Backtest.Settled.filledPosition {e : ReplayBar} {n : ℤ} (h : env.Settled e n)
    (sig : EntrySignal) (hash hash' : Symbol → ℤ) :
    Replay.filledPosition (env.withHash hash) e sig n
      = Replay.filledPosition (env.withHash hash') e sig n := by
  have hfill : ∀ hash, Replay.filledPosition (env.withHash hash) e sig n
      = { symbol := e.symbol
          entryTs := e.ts
          entryPrice := sig.entryPrice.val + env.cfg.buyOffset
            + (slipCents sig.entryPrice.val : ℚ) / 100
          stopPrice := sig.stopPrice
          targetPrice := sig.targetPrice
          shares := env.sharesAt e n (hash e.symbol)
          riskPerShare := sig.riskPerShare
          entryFees := (env.sharesAt e n (hash e.symbol) : ℚ) * exchangeTakerPerShare } :=
    fun _ => rfl
  rw [hfill, hfill, h.sharesAt (hash e.symbol) (hash' e.symbol)]

namespace Replay

variable {s t : Replay} {e : ReplayBar}

/-! ## What one event draws -/

/-- The shares the risk manager approves for an entry on this bar, if the strategy signals one
while nothing is open. -/
def entryShares (env : Backtest) (s : Replay) (e : ReplayBar) : Option ℤ :=
  match s.openPos, (s.handBar env e).2 with
  | none, [.entry sig] =>
      let approval := (s.handBar env e).1.approval env e sig
      if approval.approved then some approval.shares else none
  | _, _ => none

/-- Every draw this event makes is settled. -/
def FillSettled (env : Backtest) (s : Replay) (e : ReplayBar) : Prop :=
  ∀ n, ((s.arrive e).rollover env e).entryShares env e = some n → env.Settled e n

variable (env e) in
/--
**The hash decides the size of a fill, and nothing else.**

Strategy and risk manager are asked before the draw, and the exits never draw. So an
event gives the same state in every process, or it is an entry, and then the processes
differ at most in the shares it opened with.
-/
theorem Agree.onBar_hash (h : s.Agree) :
    (s.entryShares env e = none ∧ ∀ hash, s.onBar (env.withHash hash) e = s.onBar env e)
    ∨ ∃ sig n, s.entryShares env e = some n ∧ 0 < n ∧ s.openPos = none
      ∧ ∀ hash, s.onBar (env.withHash hash) e
          = (s.handBar env e).1.openPosition (env.withHash hash) e sig n := by
  -- neither the exit checks nor the strategy look at the hash
  have hexit : ∀ hash, s.exitCheck (env.withHash hash) e = s.exitCheck env e := fun _ => rfl
  have hhand : ∀ hash, s.handBar (env.withHash hash) e = s.handBar env e := fun _ => rfl
  unfold onBar entryShares
  simp only [hexit, hhand]
  cases hx : s.exitCheck env e with
  | some exited =>
      -- an exit needs a position, and then no entry is looked at
      left
      refine ⟨?_, fun _ => rfl⟩
      cases hp : s.openPos with
      | none => rw [exitCheck, hp] at hx; exact absurd hx (by simp)
      | some pos => rfl
  | none =>
      dsimp only
      generalize hsigs : (s.handBar env e).2 = sigs
      have ha := h.answer env e
      rw [hsigs] at ha
      cases ha with
      | silent =>
          left
          refine ⟨by cases s.openPos <;> rfl, fun hash => ?_⟩
          simp only [handleSignals]
      | warning =>
          left
          refine ⟨by cases s.openPos <;> rfl, fun hash => ?_⟩
          simp only [handleSignals]
      | @entry sig hk hheld =>
          cases hp : s.openPos with
          | some pos =>
              left
              refine ⟨rfl, fun hash => ?_⟩
              simp only [handleSignals, handBar_openPos, hp]
          | none =>
              -- nor does the risk manager
              have happ : ∀ hash, (s.handBar env e).1.approval (env.withHash hash) e sig
                  = (s.handBar env e).1.approval env e sig := fun _ => rfl
              simp only [handleSignals, handBar_openPos, hp, happ]
              cases hok : ((s.handBar env e).1.approval env e sig).approved with
              | false => exact Or.inl ⟨rfl, fun _ => rfl⟩
              | true =>
                  right
                  exact ⟨sig, _, rfl, (RiskState.evaluate_approved hok).2.2, trivial, fun _ => rfl⟩
      | @exit pos sig hp hsym hact =>
          left
          rw [hp]
          refine ⟨rfl, fun hash => ?_⟩
          simp only [handleSignals, handBar_openPos, hp, hact]
          rfl
      | @scale pos sig hk hp hsym hact hstop =>
          left
          rw [hp]
          refine ⟨rfl, fun hash => ?_⟩
          simp only [handleSignals, handBar_openPos, hp, hact]

/-! ## What was bought -/

end Replay

/-- The share count of the opening an event of the log is. -/
def ReplayEvent.sharesBought : ReplayEvent → Option ℤ
  | .opened _ pos _ => some pos.shares
  | _ => none

/-- The share counts of the openings of a log, in order. -/
def bought (log : List ReplayEvent) : List ℤ := log.filterMap ReplayEvent.sharesBought

theorem bought_append (l l' : List ReplayEvent) : bought (l ++ l') = bought l ++ bought l' :=
  List.filterMap_append

theorem bought_snoc {l : List ReplayEvent} {x : ReplayEvent} (h : x.sharesBought = none) :
    bought (l ++ [x]) = bought l := by
  simp [bought, h]

namespace Replay

variable {s s' : Replay} {e : ReplayBar}

@[simp] theorem bought_completeTrade {pos : OpenPosition} {x f : ℚ} {r : TradeExit} :
    bought (s.completeTrade env pos e x f r).log = bought s.log := bought_snoc rfl

@[simp] theorem bought_arrive : bought (s.arrive e).log = bought s.log := bought_snoc rfl

@[simp] theorem bought_handBar : bought (s.handBar env e).1.log = bought s.log := bought_snoc rfl

theorem bought_openPosition {sig : EntrySignal} {n : ℤ} :
    bought (s.openPosition env e sig n).log
      = bought s.log ++ [(filledPosition env e sig n).shares] := bought_append ..

@[simp] theorem bought_finaliseSimDay : bought s.finaliseSimDay.log = bought s.log := by
  unfold finaliseSimDay
  split
  · rfl
  · exact bought_snoc rfl

@[simp] theorem bought_flattenResidual : bought (s.flattenResidual env e).log = bought s.log := by
  unfold flattenResidual
  split
  · exact bought_completeTrade
  · rfl

@[simp] theorem bought_rollover : bought (s.rollover env e).log = bought s.log := by
  unfold rollover
  split
  · rfl
  · show bought (_ ++ [ReplayEvent.dayStarted e.date]) = _
    rw [bought_snoc rfl, bought_finaliseSimDay, bought_flattenResidual]

@[simp] theorem bought_scaleOut {pos : OpenPosition} {stop : Option Money} :
    bought (s.scaleOut e pos stop).log = bought s.log := by
  unfold scaleOut
  split
  · rfl
  · split <;> rfl

/-- What was bought was sold or is still held. -/
def Balanced (s : Replay) : Prop :=
  bought s.log = (closings s.log).map (·.trade.shares) ++ s.openPos.toList.map (·.shares)

theorem balanced_start : start.Balanced := rfl

theorem Balanced.completeTrade (h : s.Balanced) {pos : OpenPosition} (hp : s.openPos = some pos)
    {x f : ℚ} {r : TradeExit} : (s.completeTrade env pos e x f r).Balanced := by
  unfold Balanced at h ⊢
  rw [bought_completeTrade, closings_completeTrade, h, hp, completeTrade_openPos]
  simp [tradeRecord]

theorem Balanced.congr (h : s.Balanced) (hb : bought s'.log = bought s.log)
    (hc : closings s'.log = closings s.log) (ho : s'.openPos = s.openPos) : s'.Balanced := by
  unfold Balanced
  rw [hb, hc, ho]
  exact h

theorem Balanced.handBar (h : s.Balanced) : (s.handBar env e).1.Balanced :=
  h.congr bought_handBar closings_handBar rfl

theorem Balanced.of_turn (h : s.Balanced) (ht : Turn env s e s') : s'.Balanced := by
  cases ht with
  -- each closing books the trade the open position stands for
  | eod hp | stop hp => exact h.completeTrade hp
  | quiet => exact h.handBar
  | vetoed =>
      have hb : (s.handBar env e).1.Balanced := h.handBar
      exact hb.congr rfl rfl rfl
  -- an opening adds its shares to both sides
  | opened _ _ ho =>
      unfold Balanced at h ⊢
      rw [bought_openPosition, closings_openPosition, bought_handBar, closings_handBar, h, ho,
        List.append_assoc]
      rfl
  | sold _ hp => exact h.handBar.completeTrade hp
  -- a scale-out moves shares from the position to a booked closing
  | @scaled pos _ _ hp =>
      have hb : (s.handBar env e).1.Balanced := h.handBar
      unfold Balanced at hb ⊢
      rw [bought_scaleOut, closings_scaleOut, hb, handBar_openPos, hp]
      unfold scaleOut
      dsimp only
      split
      · rw [handBar_openPos, hp]
      · rfl

theorem Balanced.flattenResidual (h : s.Balanced) (ha : s.Agree) :
    (s.flattenResidual env e).Balanced := by
  cases hp : s.openPos with
  | none => rw [flattenResidual_of_none hp]; exact h
  | some pos => rw [ha.flattenResidual_of_some hp]; exact h.completeTrade hp

theorem Balanced.finaliseSimDay (h : s.Balanced) : s.finaliseSimDay.Balanced :=
  h.congr bought_finaliseSimDay closings_finaliseSimDay finaliseSimDay_openPos

theorem Balanced.rollover (h : s.Balanced) (ha : s.Agree) : (s.rollover env e).Balanced := by
  by_cases hd : s.currentDay = some e.date
  · rw [rollover_of_same hd]; exact h
  · rw [rollover_of_new hd]
    exact (h.flattenResidual ha).finaliseSimDay.congr (bought_snoc rfl) closings_startDay rfl

theorem Balanced.onEvent (h : s.Balanced) (ha : s.Agree) : (s.onEvent env e).Balanced := by
  have harr : (s.arrive e).Balanced := h.congr bought_arrive closings_arrive rfl
  exact ((harr.rollover ha.arrive).of_turn (ha.onEvent_turn ..)).congr rfl rfl rfl

/-- Purchases are only ever added. -/
theorem Turn.bought_mono (h : Turn env s e s') : bought s.log <+: bought s'.log := by
  cases h with
  | eod | stop => exact ⟨[], (List.append_nil _).trans bought_completeTrade.symm⟩
  | quiet => exact ⟨[], (List.append_nil _).trans bought_handBar.symm⟩
  | vetoed =>
      have hb : bought (s.handBar env e).1.log = bought s.log := bought_handBar
      exact ⟨[], (List.append_nil _).trans hb.symm⟩
  | opened => rw [bought_openPosition, bought_handBar]; exact List.prefix_append ..
  | sold => exact ⟨[], (List.append_nil _).trans (bought_completeTrade.trans bought_handBar).symm⟩
  | scaled => exact ⟨[], (List.append_nil _).trans (bought_scaleOut.trans bought_handBar).symm⟩

theorem Agree.bought_onEvent (h : s.Agree) : bought s.log <+: bought (s.onEvent env e).log := by
  have hturn := (h.onEvent_turn env e).bought_mono
  rwa [bought_rollover, bought_arrive] at hturn

/-- What the risk manager approved is bought, but for the draw. -/
theorem Agree.bought_of_entryShares (h : s.Agree) {n : ℤ}
    (hn : ((s.arrive e).rollover env e).entryShares env e = some n) (hash : Symbol → ℤ) :
    0 < n ∧ bought (s.onEvent (env.withHash hash) e).log
      = bought s.log ++ [env.sharesAt e n (hash e.symbol)] := by
  rcases h.arrive.rollover.onBar_hash env e with
    ⟨hnone, -⟩ | ⟨sig, n', hsome, hpos, -, hopen⟩
  · rw [hnone] at hn; exact absurd hn (by simp)
  · obtain rfl : n' = n := Option.some.inj (hsome.symm.trans hn)
    refine ⟨hpos, ?_⟩
    show bought (((s.arrive e).rollover env e).onBar (env.withHash hash) e).log = _
    rw [hopen, bought_openPosition, bought_handBar, bought_rollover, bought_arrive,
      filledPosition_withHash]

/-- An event whose draws are settled does the same in every process. -/
theorem Agree.onEvent_withHash (h : s.Agree) (hs : s.FillSettled env e) (hash : Symbol → ℤ) :
    s.onEvent (env.withHash hash) e = s.onEvent env e := by
  have hbar : ((s.arrive e).rollover env e).onBar (env.withHash hash) e
      = ((s.arrive e).rollover env e).onBar env e := by
    rcases h.arrive.rollover.onBar_hash env e with
      ⟨-, heq⟩ | ⟨sig, n, hsome, -, -, hopen⟩
    · exact heq hash
    · have hself := hopen env.hash
      rw [hopen hash, show ((s.arrive e).rollover env e).onBar env e = _ from hself]
      unfold openPosition
      rw [(hs n hsome).filledPosition sig hash env.hash]
  show { ((s.arrive e).rollover env e).onBar (env.withHash hash) e with
    prevClose := some e.bar.close } = _
  rw [hbar]
  rfl

end Replay

/-! ## Over a run -/

theorem balanced_loop (env : Backtest) (events : List ReplayBar) :
    (replayLoop env events).Balanced :=
  (foldl_invariant (I := fun s : Replay => s.Balanced ∧ s.Agree)
    ⟨Replay.balanced_start, Replay.agree_start⟩
    (fun _ _ h => ⟨h.1.onEvent h.2, h.2.onEvent⟩) events).1

/-- The share counts of the completed trades are those of the openings. -/
theorem shares_replay (env : Backtest) (events : List ReplayBar) :
    ((replay env events).days.flatMap SimDay.completed).map (·.shares)
      = bought (replayEnd env events).log := by
  have hb := balanced_loop env events
  have ha := agree_loop env events
  have hend : (replayEnd env events).Balanced ∧ (replayEnd env events).openPos = none := by
    -- the last position is flattened before the last day is finalised
    unfold replayEnd Replay.flush
    cases hl : events.getLast? with
    | none =>
        have hnil : events = [] := by simpa using hl
        subst hnil
        exact ⟨hb.finaliseSimDay, rfl⟩
    | some last =>
        refine ⟨(hb.flattenResidual ha).finaliseSimDay, ?_⟩
        dsimp only
        rw [Replay.finaliseSimDay_openPos, ha.flattenResidual_openPos]
  have hbal := hend.1
  unfold Replay.Balanced at hbal
  rw [recorded_trades, hbal, hend.2, List.map_map]
  simp

/-- What was bought by some event is still on the books at the end. -/
theorem bought_mono_replayEnd (env : Backtest) (before after : List ReplayBar) :
    bought (replayLoop env before).log <+: bought (replayEnd env (before ++ after)).log := by
  have hloop : bought (replayLoop env before).log
      <+: bought (replayLoop env (before ++ after)).log := by
    have hkeep := foldl_invariant (f := Replay.onEvent env)
      (I := fun t => t.Agree ∧ bought (replayLoop env before).log <+: bought t.log)
      ⟨agree_loop env before, List.prefix_refl _⟩
      (fun t e h => ⟨h.1.onEvent, h.2.trans h.1.bought_onEvent⟩) after
    unfold replayLoop at hkeep ⊢
    rw [List.foldl_append]
    exact hkeep.2
  -- the flush buys nothing
  have hflush : bought (replayEnd env (before ++ after)).log
      = bought (replayLoop env (before ++ after)).log := by
    unfold replayEnd Replay.flush
    cases (before ++ after).getLast? with
    | none => exact Replay.bought_finaliseSimDay
    | some last => exact Replay.bought_finaliseSimDay.trans Replay.bought_flattenResidual
  rw [hflush]
  exact hloop

/-- Settled draws leave nothing to the hash. -/
theorem replayLoop_withHash {events : List ReplayBar}
    (h : ∀ m ∈ replayMoves env events, m.pre.FillSettled env m.label) (hash : Symbol → ℤ) :
    replayLoop (env.withHash hash) events = replayLoop env events := by
  unfold replayMoves at h
  unfold replayLoop
  induction events using List.reverseRecOn with
  | nil => rfl
  | append_singleton before e ih =>
      rw [trace_snoc] at h
      rw [foldl_snoc, foldl_snoc, ih fun m hm => h m (List.mem_append_left _ hm)]
      exact (agree_loop env before).onEvent_withHash
        (h _ (List.mem_append_right _ (List.mem_singleton.mpr rfl))) hash

/--
**If all processes agree on the result, the draws of the run are settled, one after another.**

By induction on the events before the draw: with the earlier ones settled, all processes
come to it in the same state. The shares it opens with stand in the result, in the same
place of the list, so processes that agree drew alike.
-/
theorem fillSettled_of_agreement {events : List ReplayBar}
    (h : ∀ hash hash', replay (env.withHash hash) events = replay (env.withHash hash') events) :
    ∀ before after, events = before ++ after →
      ∀ m ∈ replayMoves env before, m.pre.FillSettled env m.label := by
  intro before
  unfold replayMoves
  induction before using List.reverseRecOn with
  | nil => simp
  | append_singleton before e ih =>
      intro after hsplit
      rw [List.append_assoc] at hsplit
      have hbefore := ih (e :: after) hsplit
      rw [trace_snoc]
      intro m hm
      rcases List.mem_append.mp hm with hm | hm
      · exact hbefore m hm
      rw [List.mem_singleton.mp hm]
      show (replayLoop env before).FillSettled env e
      intro n hn
      -- the process where every string hashes to `k` buys `sharesAt k` shares here
      have hentry := (agree_loop env before).bought_of_entryShares hn
      have hpre : ∀ k, bought (replayLoop env before).log ++ [env.sharesAt e n k]
          <+: bought (replayEnd (env.withHash fun _ => k) events).log := by
        intro k
        have hp := bought_mono_replayEnd (env.withHash fun _ => k) (before ++ [e]) after
        have hstep : replayLoop (env.withHash fun _ => k) (before ++ [e])
            = (replayLoop env before).onEvent (env.withHash fun _ => k) e := by
          rw [replayLoop, foldl_snoc]
          exact congrArg (fun s => s.onEvent (env.withHash fun _ => k) e)
            (replayLoop_withHash hbefore _)
        rw [hstep, (hentry _).2, List.append_assoc, ← hsplit] at hp
        exact hp
      -- two processes that agree bought the same here, at the same place of the list
      refine Backtest.settled_of_sharesAt (hentry fun _ => 0).1 fun k k' => ?_
      have hall : bought (replayEnd (env.withHash fun _ => k) events).log
          = bought (replayEnd (env.withHash fun _ => k') events).log := by
        rw [← shares_replay, ← shares_replay, h]
      have hk := hpre k
      rw [hall] at hk
      have heq := (List.prefix_of_prefix_length_le hk (hpre k') (by simp)).eq_of_length (by simp)
      exact List.singleton_inj.mp (List.append_cancel_left heq)

/-- **Deterministic exactly when every fill is settled**: two processes, whatever their `hash`,
return the same result if and only if, at every event of the run that turns into an entry,
either one share is approved or the partial-fill draw is on the same side of the threshold for
all values of `hash(symbol)`. -/
theorem replay_deterministic_iff (env : Backtest) (events : List ReplayBar) :
    (∀ hash hash', replay (env.withHash hash) events = replay (env.withHash hash') events)
      ↔ ∀ m ∈ replayMoves env events, m.pre.FillSettled env m.label := by
  constructor
  · intro h
    exact fillSettled_of_agreement h events [] (List.append_nil _).symm
  · intro h hash hash'
    have hend : ∀ hash, replayEnd (env.withHash hash) events = replayEnd env events := by
      intro hash
      rw [replayEnd, replayLoop_withHash h hash]
      rfl
    rw [replay, replay, hend, hend]

/-- The draws of CPython's generator for the two seeds below, and one half for all others. -/
def twoDraws (seed : ℤ) : ℚ :=
  if seed = 9230 then 4268467478697297 / 9007199254740992
  else if seed = 9231 then 745614149321758 / 9007199254740992
  else 1 / 2

/-- The breakout of `quietHalfHour` is bought whole where the symbol hashes to 0, and half where
it hashes to 1. -/
theorem fill_depends_on_process :
    ¬ ∀ hash hash', replay ({ replayDay with rng := twoDraws }.withHash hash)
        (quietHalfHour ++ [breakoutBar])
      = replay ({ replayDay with rng := twoDraws }.withHash hash')
        (quietHalfHour ++ [breakoutBar]) := by
  intro h
  have hdiff : decide (replay ({ replayDay with rng := twoDraws }.withHash fun _ => 0)
        (quietHalfHour ++ [breakoutBar])
      = replay ({ replayDay with rng := twoDraws }.withHash fun _ => 1)
        (quietHalfHour ++ [breakoutBar])) = false := by decide +kernel
  exact absurd (h _ _) (of_decide_eq_false hdiff)

end RossBot
