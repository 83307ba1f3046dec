import RossBot.Live.Book

/-!
# The ledger

What the positions closed so far earned, against what the risk manager was told.
Every close path of the session calls `record_close(symbol, Decimal("0"))`, so
the manager's realised P&L and its losing streak never move, and its two loss
guards never see a loss. `core/backtest/replay.py` passes the trade's net P&L in
the same place.
-/

namespace RossBot

open Lib World

/-! ## What the closes earned -/

/-- The positions closed so far, with the prices they were closed at. -/
def closes : List Event → List (LivePosition × ℚ) :=
  List.filterMap fun
    | .closed p exit _ => some (p, exit)
    | _ => none

/-- What one close earned. -/
def pnl (c : LivePosition × ℚ) : ℚ := (c.2 - c.1.entryPrice) * c.1.shares

/-- What the closes of a log earned. -/
def ledgerPnl (log : List Event) : ℚ := ((closes log).map pnl).sum

/-- The length of the trailing run of losing closes. -/
def losingStreak (log : List Event) : ℤ :=
  ((closes log).reverse.takeWhile fun c => decide (pnl c < 0)).length

theorem closes_append (es fs : List Event) : closes (es ++ fs) = closes es ++ closes fs :=
  List.filterMap_append

theorem mem_closes {log : List Event} {p : LivePosition} {exit : ℚ} :
    (p, exit) ∈ closes log ↔ ∃ after, .closed p exit after ∈ log := by
  unfold closes
  rw [List.mem_filterMap]
  constructor
  · rintro ⟨e, he, hc⟩
    cases e with
    | closed q x r =>
        obtain ⟨rfl, rfl⟩ := Prod.mk.inj (Option.some.inj hc)
        exact ⟨r, he⟩
    | _ => exact absurd hc (by simp)
  · rintro ⟨r, h⟩
    exact ⟨_, h, rfl⟩

/-- When no close earned or lost anything, the ledger is flat. -/
theorem ledger_flat {log : List Event} (h : ∀ c ∈ closes log, pnl c = 0) :
    ledgerPnl log = 0 ∧ losingStreak log = 0 := by
  refine ⟨?_, ?_⟩
  · unfold ledgerPnl
    rw [List.map_congr_left h, List.map_const', List.sum_replicate, nsmul_zero]
  · unfold losingStreak
    cases hr : (closes log).reverse with
    | nil => rfl
    | cons c cs =>
        have hc : c ∈ closes log := by
          rw [← List.mem_reverse, hr]
          exact List.mem_cons_self
        rw [List.takeWhile_cons_of_neg (by rw [h c hc]; simp)]
        rfl

/-- A ledger that is flat after every close has no close that earned or lost anything. -/
theorem flat_closes {log : List Event}
    (h : EachAt (fun before e => ∀ p exit after, e = .closed p exit after →
      ledgerPnl (before ++ [e]) = 0) log) : ∀ c ∈ closes log, pnl c = 0 := by
  induction log using List.reverseRecOn with
  | nil => intro c hc; simp [closes] at hc
  | append_singleton es e ih =>
      rw [eachAt_snoc] at h
      intro c hc
      rw [closes_append] at hc
      rcases List.mem_append.mp hc with hc | hc
      · exact ih h.1 c hc
      · obtain ⟨p, exit⟩ := c
        obtain ⟨after, ha⟩ := mem_closes.mp hc
        have he := (List.mem_singleton.mp ha).symm
        have hsum := h.2 p exit after he
        unfold ledgerPnl at hsum
        rw [closes_append, List.map_append, List.sum_append] at hsum
        have hflat : ledgerPnl es = 0 := (ledger_flat (ih h.1)).1
        unfold ledgerPnl at hflat
        rw [hflat, he, zero_add] at hsum
        simpa [closes] using hsum

/-! ## What the risk manager knows -/

/-- The risk manager's P&L and losing streak are those of the log. -/
def AgreesWith (r : RiskState) (log : List Event) : Prop :=
  r.realizedPnl = ledgerPnl log ∧ r.consecutiveLosses = losingStreak log

/-- The loss guards would let an entry through after this log. -/
def GuardsOpen (env : Env) (log : List Event) : Prop :=
  losingStreak log < env.cfg.threeStrikes
    ∧ -effectiveLossLimit env.cfg env.equity env.cfg.avgWinDayPnl < ledgerPnl log

/-- **The risk manager keeps the session's true ledger, and its loss guards bind.** -/
structure TrueLedger {env : Env} (x : LiveRun env) : Prop where
  /-- In every state, P&L and losing streak are those of the closes so far. -/
  state : ∀ w, x.Visits w → AgreesWith w.risk w.log
  /-- Also right after each close of a segment that closes several positions. -/
  closing : EachAt (fun before e => ∀ p exit after, e = .closed p exit after →
    AgreesWith after (before ++ [e])) x.final.log
  /-- No entry is sent once the guards have been reached. -/
  guard : EachAt (fun before e => ∀ o, e = .buySubmitted o →
    ∀ earlier later, before = earlier ++ later → GuardsOpen env earlier) x.final.log

/-- **The risk manager never hears of a gain or a loss.** -/
structure ZeroLedger (env : Env) (w : World) : Prop where
  pnl : w.risk.realizedPnl = 0
  streak : w.risk.consecutiveLosses = 0
  /-- Nor had it after any close. -/
  closed : ∀ p exit after, .closed p exit after ∈ w.log →
    after.realizedPnl = 0 ∧ after.consecutiveLosses = 0 ∧ 0 < p.shares
  /-- The guards let every entry through for nothing having been lost. -/
  bought : ∀ o, .buySubmitted o ∈ w.log → 0 < env.cfg.threeStrikes
    ∧ -effectiveLossLimit env.cfg env.equity env.cfg.avgWinDayPnl < 0

namespace World

variable {env : Env} {w w' : World}

theorem zeroLedger_init : ZeroLedger env (init env) :=
  ⟨rfl, rfl, fun _ _ _ h => absurd h (by simp [init]), fun _ h => absurd h (by simp [init])⟩

/-- What a step records must fit a P&L of zero, and its state must too. -/
theorem zeroLedger_append {es : List Event} (h : ZeroLedger env w) (hlog : w'.log = w.log ++ es)
    (hpnl : w'.risk.realizedPnl = 0) (hstreak : w'.risk.consecutiveLosses = 0)
    (hclosed : ∀ p exit after, .closed p exit after ∈ es →
      after.realizedPnl = 0 ∧ after.consecutiveLosses = 0 ∧ 0 < p.shares)
    (hbought : ∀ o, .buySubmitted o ∈ es → 0 < env.cfg.threeStrikes
      ∧ -effectiveLossLimit env.cfg env.equity env.cfg.avgWinDayPnl < 0) : ZeroLedger env w' := by
  refine ⟨hpnl, hstreak, ?_, ?_⟩
  · intro p exit after hm
    rw [hlog] at hm
    rcases List.mem_append.mp hm with hm | hm
    · exact h.closed p exit after hm
    · exact hclosed p exit after hm
  · intro o hm
    rw [hlog] at hm
    rcases List.mem_append.mp hm with hm | hm
    · exact h.bought o hm
    · exact hbought o hm

theorem zeroLedger_aside (h : ZeroLedger env w) (ha : Aside w w') : ZeroLedger env w' := by
  obtain ⟨es, he, hes⟩ := ha.log
  refine zeroLedger_append h he (ha.risk ▸ h.pnl) (ha.risk ▸ h.streak) ?_ ?_
  · intro p exit after hm
    exact absurd (hes _ hm) (by simp [Event.onBook])
  · intro o hm
    exact absurd (hes _ hm) (by simp [Event.onBook])

/-- Recording a close of zero keeps both numbers at zero. -/
theorem zeroLedger_recordClose (symbol : Symbol) (sold : LivePosition) (h : ZeroLedger env w) :
    ZeroLedger env (w.recordClose env symbol sold) := by
  refine zeroLedger_append h rfl ?_ rfl (by simp) (by simp)
  change w.risk.realizedPnl + 0 = 0
  rw [h.pnl, add_zero]

theorem zeroLedger_retire {symbol : Symbol} {sold p : LivePosition} {exit : ℚ}
    (hp : 0 < p.shares) (h : ZeroLedger env w) :
    ZeroLedger env (w.retire env symbol sold p exit) := by
  have hrec := zeroLedger_recordClose symbol sold h
  have hlog : (w.retire env symbol sold p exit).log
      = (w.recordClose env symbol sold).log ++ [.closed p exit
        (w.recordClose env symbol sold).risk] := by
    simp [retire, recordClose]
  refine zeroLedger_append hrec hlog hrec.pnl hrec.streak ?_ (by simp)
  intro q x after hm
  obtain ⟨rfl, -, rfl⟩ := Event.closed.inj (List.mem_singleton.mp hm)
  exact ⟨hrec.pnl, hrec.streak, hp⟩

/-- An entry that passed the gate passed it at a P&L of zero. -/
theorem zeroLedger_judged {bar : BarTick} (h : ZeroLedger env w) (hj : Judged env w bar w') :
    ZeroLedger env w' := by
  cases hj with
  | quiet | lost | scale | sell => exact zeroLedger_append h rfl h.pnl h.streak (by simp) (by simp)
  | @buy e sigs sig order hsym hpos hopen hm ho =>
      refine zeroLedger_append h rfl h.pnl h.streak (by simp) ?_
      intro o _
      -- the gate's two loss checks, at the numbers the risk manager has
      obtain ⟨-, -, -, -, -, hgate⟩ := entryOrder_some ho
      have hlimit := hgate.loss
      have hstrikes := hgate.strikes
      rw [h.pnl] at hlimit
      rw [h.streak] at hstrikes
      exact ⟨hstrikes, hlimit⟩

theorem zeroLedger_openPosition {o : EntryOrder} {ack : OrderAck} (h : ZeroLedger env w) :
    ZeroLedger env (w.openPosition o ack) :=
  zeroLedger_append h rfl h.pnl h.streak (by simp) (by simp)

theorem zeroLedger_step {l : Label} (hr : Reached env w) (h : ZeroLedger env w)
    (hs : step env w l = some w') : ZeroLedger env w' := by
  have ht := tracked_reached hr
  cases step_book hr hs with
  | aside ha => exact zeroLedger_aside h ha
  | judged _ _ hj => exact zeroLedger_judged h hj
  | opened _ _ _ ha => exact zeroLedger_aside (zeroLedger_openPosition h) ha
  | sold hp ha => exact zeroLedger_aside (zeroLedger_retire (ht.shares hp) h) ha
  | soldTwice _ ha => exact zeroLedger_aside (zeroLedger_recordClose _ _ h) ha
  | @remarked o _ ha =>
      have hmark : ZeroLedger env { w with opens := o } :=
        ⟨h.pnl, h.streak, h.closed, h.bought⟩
      exact zeroLedger_aside hmark ha
  | dropped hnd hbs ha =>
      refine zeroLedger_aside (retireAll_induction _ ?_ hnd hbs h) ha
      intro v s p x hm _ hv
      exact zeroLedger_retire (ht.shares (hbs (s, p) hm)) hv

theorem zeroLedger_reached (h : Reached env w) : ZeroLedger env w :=
  h.invariant zeroLedger_init fun _ _ _ hr hi hs => zeroLedger_step hr hi hs

end World

/-! ## When the ledger is true -/

theorem pnl_eq_zero {p : LivePosition} {exit : ℚ} (hp : 0 < p.shares) :
    pnl (p, exit) = 0 ↔ exit = p.entryPrice := by
  unfold pnl
  have hne : (p.shares : ℚ) ≠ 0 := Int.cast_ne_zero.mpr hp.ne'
  rw [mul_eq_zero, or_iff_left hne, sub_eq_zero]

/-- **The risk manager's ledger is true exactly in the runs in which every position was closed
at the price it was entered at**: those in which there was nothing to record. -/
theorem trueLedger_iff {env : Env} (x : LiveRun env) :
    TrueLedger x ↔ ∀ p exit after, .closed p exit after ∈ x.final.log → exit = p.entryPrice := by
  have hz := zeroLedger_reached (x.reachable x.visits_final)
  constructor
  · intro h p exit after hm
    have hflat : EachAt (fun before e => ∀ p exit after, e = .closed p exit after →
        ledgerPnl (before ++ [e]) = 0) x.final.log := by
      intro before e rest he p exit after hc
      have hagree := (h.closing before e rest he p exit after hc).1
      have hmem : .closed p exit after ∈ x.final.log := by
        rw [he, hc]; exact List.mem_append_right _ List.mem_cons_self
      rw [← hagree]
      exact (hz.closed p exit after hmem).1
    exact (pnl_eq_zero (hz.closed p exit after hm).2.2).mp
      (flat_closes hflat (p, exit) (mem_closes.mpr ⟨after, hm⟩))
  · intro h
    have hflat : ∀ c ∈ closes x.final.log, pnl c = 0 := by
      rintro ⟨p, exit⟩ hc
      obtain ⟨after, hm⟩ := mem_closes.mp hc
      exact (pnl_eq_zero (hz.closed p exit after hm).2.2).mpr (h p exit after hm)
    -- every earlier log closed a part of what the last one closed
    have hpart : ∀ es fs : List Event, x.final.log = es ++ fs →
        ledgerPnl es = 0 ∧ losingStreak es = 0 := by
      intro es fs he
      refine ledger_flat fun c hc => hflat c ?_
      rw [he, closes_append]
      exact List.mem_append_left _ hc
    refine ⟨?_, ?_, ?_⟩
    · intro w hw
      obtain ⟨es, he⟩ := log_of_visits x hw
      obtain ⟨h1, h2⟩ := hpart _ _ he
      have hzw := zeroLedger_reached (x.reachable hw)
      exact ⟨hzw.pnl.trans h1.symm, hzw.streak.trans h2.symm⟩
    · intro before e rest he p exit after hc
      have hmem : .closed p exit after ∈ x.final.log := by
        rw [he, hc]; exact List.mem_append_right _ List.mem_cons_self
      obtain ⟨h1, h2⟩ := hpart (before ++ [e]) rest (by rw [he]; simp)
      obtain ⟨hp, hs, -⟩ := hz.closed p exit after hmem
      exact ⟨hp.trans h1.symm, hs.trans h2.symm⟩
    · intro before e rest he o ho earlier later hsplit
      have hmem : .buySubmitted o ∈ x.final.log := by
        rw [he, ho]; exact List.mem_append_right _ List.mem_cons_self
      obtain ⟨h1, h2⟩ := hpart earlier (later ++ e :: rest)
        (by rw [he, hsplit]; simp)
      rw [GuardsOpen, h1, h2]
      exact hz.bought o hmem

/-- The breakout fails: the next bar closes through the stop, and the position is sold. -/
def stoppedOut : LiveRun tradingDay :=
  play (beforeBreakout ++ breakout 100 ++
    [.takeBar (minuteBar 34 1040 1040 1010 1010 3000), .barQuote (bidAsk 1008 1013),
      .barAnswer acceptedAck 100, .barResume])

/-- Forty dollars were lost, and the risk manager's P&L is zero. -/
theorem trueLedger_stoppedOut : ¬ TrueLedger stoppedOut := by
  intro h
  have hstate := (h.state _ stoppedOut.visits_final).1
  have hrisk : stoppedOut.final.risk.realizedPnl = 0 := by decide +kernel
  have hledger : ledgerPnl stoppedOut.final.log = -40 := by decide +kernel
  rw [hrisk, hledger] at hstate
  exact absurd hstate (by norm_num)

end RossBot
