import RossBot.Demo.Steps

/-!
# Everything a step can do

Whatever task moves, it posts at most one entry to the books (`positions`, the
objects it maps to, `closed_trades`, `risk`), and which one can be read from the
state it moves in (`posting`). `Stepped` lists what else a step does: where it
leaves the task, what it sends, and what it notes in the log. What the other
modules show of every step starts from `step_cases`.
-/

namespace RossBot

open Lib

/-! ## The books -/

/-- One entry in the books. -/
inductive Posting where
  | nothing
  /-- An accepted BUY is tracked. -/
  | opens (pos : DemoPosition)
  /-- `_scale_out` has its answer. -/
  | scales (exit : PendingExit) (half : ℤ)
  /-- `_exit_full` or `close_position` has its answer. -/
  | closes (exit : PendingExit) (reason : DemoExit)
  /-- `_replay_step` closes a trade it has made up. -/
  | replays (pos : DemoPosition) (exitPrice : ℚ) (reason : DemoExit) (now : Time)
  /-- `self.positions.clear()`. -/
  | clears
  /-- `pos.stop_price` is set. -/
  | restops (ref : ℕ) (stop : ℚ)

/-- What the loop posts when the broker answers it. -/
def EngineTask.acked (ack : OrderAck) : EngineTask → Posting
  | .awaitEntryAck now order _ =>
      if ack.accepted then .opens (Desk.entryPosition now order) else .nothing
  | .awaitScaleAck exit half _ => .scales exit half
  | .awaitExitAck exit reason _ => .closes exit reason
  | _ => .nothing

/-- What a handler posts when the broker answers it. -/
def OperatorTask.acked (ack : OrderAck) : OperatorTask → Posting
  | .closeAck symbol (some ref) price now => .closes ⟨symbol, ref, price, now⟩ .manualClose
  | .scaleAck exit half => .scales exit half
  | .orderAck symbol .buy qty limitPrice now _ =>
      if ack.accepted then .opens (Desk.manualPosition symbol qty limitPrice now) else .nothing
  | _ => .nothing

/-- What a handler posts when `cancel_all_flatten` returns to it. -/
def OperatorTask.flattened : OperatorTask → Posting
  | .flattenAck | .killAck => .clears
  | _ => .nothing

namespace Desk

/-- The stop of a tracked position is set. -/
def restop (s : Desk) (symbol : Symbol) (stop : ℚ) : Posting :=
  match s.positions.get? symbol with
  | none => .nothing
  | some ref => .restops ref stop

/-- What a handler posts when `manual_trade` goes on after its order. -/
def resumed (s : Desk) : OperatorTask → Posting
  | .orderReported symbol accepted stop => if accepted then s.restop symbol stop else .nothing
  | _ => .nothing

/-- What a request posts at once. -/
def requested (env : DemoEnv) (s : Desk) : Request → Posting
  | .moveStop symbol stopPrice => s.restop symbol (quantize2 stopPrice)
  | .flattenAll | .killSwitch => if env.connected then .nothing else .clears
  | _ => .nothing

/-- What a made-up trade posts. -/
def replayed (pos : DemoPosition) (exitPrice : ℚ) (reason : DemoExit) : EngineTask → Posting
  | .replaying now => .replays pos exitPrice reason now
  | _ => .nothing

/-- What a step posts. -/
def posting (env : DemoEnv) (s : Desk) : DeskLabel → Posting
  | .ack ack => s.engine.acked ack
  | .replayClose pos exitPrice reason => replayed pos exitPrice reason s.engine
  | .request _ r => s.requested env r
  | .taskAck i ack => (s.tasks i).acked ack
  | .taskFlattened i => (s.tasks i).flattened
  | .taskResume i => s.resumed (s.tasks i)
  | _ => .nothing

/-- The books after an entry. -/
def post (s : Desk) : Posting → Desk
  | .nothing => s
  | .opens pos => s.openPosition pos
  | .scales exit half => s.bookScaleOut exit half
  | .closes exit reason =>
      { s.bookExit exit reason with positions := s.positions.erase exit.symbol }
  | .replays pos exitPrice reason now =>
      let realized := (exitPrice - pos.entryPrice) * (pos.shares : ℚ)
      let s := (s.recordJournal none pos exitPrice pos.shares realized reason now).recordClose none
        pos.shares realized
      { s with risk := s.risk.countTrade }
  | .clears => { s with positions := ∅ }
  | .restops ref stop => s.setObject ref { s.objects ref with stopPrice := stop }

end Desk

namespace Desk

variable {env : DemoEnv} {s : Desk}

variable (s) in
/-- What a step may post, and where the task is that posts it. -/
inductive Posts : DeskLabel → Posting → Prop where
  | nothing {l : DeskLabel} : Posts l .nothing
  | opensEntry {ack : OrderAck} {now : Time} {order : PendingEntry} {rest : List Symbol} :
      s.engine = .awaitEntryAck now order rest → ack.accepted = true →
      Posts (.ack ack) (.opens (entryPosition now order))
  | opensManual {i : ℕ} {ack : OrderAck} {symbol : Symbol} {qty : ℤ} {limitPrice : ℚ} {now : Time}
      {stop : Option ℚ} : s.tasks i = .orderAck symbol .buy qty limitPrice now stop →
      ack.accepted = true →
      Posts (.taskAck i ack) (.opens (manualPosition symbol qty limitPrice now))
  | scalesLoop {ack : OrderAck} {exit : PendingExit} {half : ℤ} {rest : List (Symbol × ℕ)} :
      s.engine = .awaitScaleAck exit half rest → Posts (.ack ack) (.scales exit half)
  | scalesTask {i : ℕ} {ack : OrderAck} {exit : PendingExit} {half : ℤ} :
      s.tasks i = .scaleAck exit half → Posts (.taskAck i ack) (.scales exit half)
  | closesLoop {ack : OrderAck} {exit : PendingExit} {reason : DemoExit}
      {rest : List (Symbol × ℕ)} :
      s.engine = .awaitExitAck exit reason rest → Posts (.ack ack) (.closes exit reason)
  | closesTask {i : ℕ} {ack : OrderAck} {symbol : Symbol} {ref : ℕ} {price : ℚ} {now : Time} :
      s.tasks i = .closeAck symbol (some ref) price now →
      Posts (.taskAck i ack) (.closes ⟨symbol, ref, price, now⟩ .manualClose)
  | replays {pos : DemoPosition} {exitPrice : ℚ} {reason : DemoExit} {now : Time} :
      s.engine = .replaying now →
      Posts (.replayClose pos exitPrice reason) (.replays pos exitPrice reason now)
  | clears {l : DeskLabel} : Posts l .clears
  | restops {l : DeskLabel} {symbol : Symbol} {ref : ℕ} (stop : ℚ) :
      s.positions.get? symbol = some ref → Posts l (.restops ref stop)

theorem posts_restop (l : DeskLabel) (symbol : Symbol) (stop : ℚ) :
    Posts s l (s.restop symbol stop) := by
  unfold restop
  split
  · exact .nothing
  · rename_i ref hget
    exact .restops stop hget

theorem posts_engineAck (ack : OrderAck) : Posts s (.ack ack) (s.engine.acked ack) := by
  cases heng : s.engine with
  | awaitEntryAck now order rest =>
      rw [EngineTask.acked]
      split
      · rename_i hacc
        exact .opensEntry heng hacc
      · exact .nothing
  | awaitScaleAck => exact .scalesLoop heng
  | awaitExitAck => exact .closesLoop heng
  | _ => exact .nothing

theorem posts_taskAck (i : ℕ) (ack : OrderAck) :
    Posts s (.taskAck i ack) ((s.tasks i).acked ack) := by
  cases htask : s.tasks i with
  | closeAck symbol ref =>
      cases ref with
      | none => exact .nothing
      | some ref => exact .closesTask htask
  | scaleAck => exact .scalesTask htask
  -- only an accepted BUY is tracked
  | orderAck symbol side =>
      cases side with
      | sell => exact .nothing
      | buy =>
          rw [OperatorTask.acked]
          split
          · rename_i hacc
            exact .opensManual htask hacc
          · exact .nothing
  | _ => exact .nothing

variable (env s) in
/-- **One lemma for every entry.** -/
theorem posting_cases (l : DeskLabel) : Posts s l (s.posting env l) := by
  cases l with
  | ack ack => exact posts_engineAck ack
  | taskAck i ack => exact posts_taskAck i ack
  -- the replay books while it plays
  | replayClose pos exitPrice reason =>
      rw [posting]
      cases heng : s.engine with
      | replaying => exact .replays heng
      | _ => exact .nothing
  | request i q =>
      rw [posting]
      cases q with
      | moveStop symbol stopPrice => exact posts_restop ..
      -- without a broker the positions are cleared at once
      | flattenAll | killSwitch =>
          rw [requested]
          split
          · exact .nothing
          · exact .clears
      | _ => exact .nothing
  | taskFlattened i =>
      rw [posting]
      cases s.tasks i with
      | flattenAck | killAck => exact .clears
      | _ => exact .nothing
  | taskResume i =>
      rw [posting]
      cases s.tasks i with
      -- `manual_trade` goes on, and writes its stop
      | orderReported symbol accepted stop =>
          rw [resumed]
          split
          · exact posts_restop ..
          · exact .nothing
      | _ => exact .nothing
  | _ => exact .nothing

end Desk

/-! ## The steps -/

/-- The steps of the loop that post nothing. -/
def DeskLabel.loops : DeskLabel → Bool
  | .iterate _ _ | .scanned _ | .bars _ | .entryQuote _ | .exitQuote _ | .resume | .replayStep _
  | .replayDone => true
  | _ => false

/-- The steps of the loop that post. -/
def DeskLabel.books : DeskLabel → Bool
  | .ack _ | .replayClose _ _ _ => true
  | _ => false

/-- The symbol the operator orders. -/
def Request.ordered : Request → Option Symbol
  | .manualOrder symbol _ _ _ | .manualTrade symbol _ _ _ => some symbol
  | _ => none

/-- The handler that is done with this step, or nearly. -/
def DeskLabel.finishes : DeskLabel → Option ℕ
  | .taskAck i _ | .taskFlattened i | .taskResume i | .taskScanned i _ => some i
  | _ => none

namespace Desk

/-- The halt the kill-switch begins with. -/
def killHalt (s : Desk) : Desk :=
  ({ s with svc := { s.svc with riskManager := s.svc.riskManager.map fun _ => true } }.halt
    .manualKillSwitch).note (.haltCalled .manualKillSwitch)

variable (env : DemoEnv) (s : Desk)

/-- The books after a step's entry, and what raised after it, if anything. -/
def Posted (l : DeskLabel) (t : Desk) : Prop :=
  t = s.post (s.posting env l)
    ∨ ∃ symbol, t = (s.post (s.posting env l)).note (.raised symbol)

/-- What the loop holds next is tracked, or was held by it. -/
def HandsOn (e : EngineTask) : Prop :=
  ∀ K : Symbol → ℕ → Prop, (∀ a ref, s.positions.get? a = some ref → K a ref) →
    s.engine.Holds K → e.Holds K

/-- **What a step can do.** -/
inductive Stepped : DeskLabel → Desk → Prop where
  /-- Time passes. -/
  | ticks (dt : ℚ) : Stepped (.tick dt) { s with clock := s.clock + dt }
  /-- The loop goes on to where it only waits; the day may have been halted. -/
  | waits {l : DeskLabel} {e : EngineTask} (r : DemoRisk) (tierB : List Symbol) :
      l.loops = true → e.waits = true → s.risk.SameCounts r → s.HandsOn e →
      Stepped l { s with risk := r, tierB := tierB, engine := e }
  /-- An entry passes the gate. -/
  | approves {quote : Option QuoteTick} {now : Time} {symbol : Symbol} {shares : ℤ} {ask : ℚ}
      {gate : GateResult} {rest : List Symbol} : s.risk.halted = false →
      Stepped (.entryQuote quote)
        { s with engine := .awaitSignal now symbol shares ask gate rest }
  /-- An entry is sent. -/
  | sendsEntry {now : Time} {order : PendingEntry} {rest : List Symbol} :
      s.engine.approved = true → s.effectiveAutoTrade env = true → env.connected = true →
      (∃ ask, s.engine = .awaitSignal now order.symbol order.shares ask order.gate rest) →
      Stepped .resume { s.note (.orderSent (entryOrder now order)) with
        engine := .awaitEntryAck now order rest }
  /-- The loop sends a scale-out. -/
  | sendsScale {quote : Option QuoteTick} {symbol : Symbol} {ref : ℕ} {price : ℚ} {now : Time}
      {rest : List (Symbol × ℕ)} : s.engine = .exitQuote now symbol ref rest →
      Stepped (.exitQuote quote) { s.sendScaleOut ⟨symbol, ref, price, now⟩ with
        engine := .awaitScaleAck ⟨symbol, ref, price, now⟩ (max 1 ((s.objects ref).shares / 2))
          rest }
  /-- The loop sends a full exit. -/
  | sendsExit {quote : Option QuoteTick} {symbol : Symbol} {ref : ℕ} {price : ℚ} {now : Time}
      {reason : DemoExit} {rest : List (Symbol × ℕ)} : s.engine = .exitQuote now symbol ref rest →
      Stepped (.exitQuote quote) { s.note (.flattenSent symbol) with
        engine := .awaitExitAck ⟨symbol, ref, price, now⟩ reason rest }
  /-- The loop posts, and goes on. -/
  | booksLoop {l : DeskLabel} {t : Desk} {e : EngineTask} : l.books = true → s.Posted env l t →
      e.waits = true → s.HandsOn e → Stepped l { t with engine := e }
  /-- A request is refused, or done at once. -/
  | settles {i : ℕ} {q : Request} (r : DemoRisk) (svc : StateService) (overrides : Overrides) :
      (s.post (s.requested env q)).risk.SameCounts r →
      overrides.autoTrade = s.overrides.autoTrade →
      Stepped (.request i q)
        { s.post (s.requested env q) with risk := r, svc := svc, overrides := overrides }
  /-- The operator switches AUTO_TRADE. -/
  | switches {i : ℕ} (value : Bool) : Stepped (.request i (.setOverride (.autoTrade value)))
      { s with overrides := { s.overrides with autoTrade := some value } }
  /-- A handler asks for a quote or a scan. -/
  | asks {i : ℕ} {q : Request} {k : OperatorTask} : s.requested env q = .nothing →
      k.waits = true →
      (∀ K : Symbol → ℕ → Prop, (∀ a ref, s.positions.get? a = some ref → K a ref) → k.Holds K) →
      Stepped (.request i q) (s.setTask i k)
  /-- A handler sends the operator's order. -/
  | sendsManual {i : ℕ} {q : Request} {symbol : Symbol} {side : Side} {qty : ℤ} {limitPrice : ℚ}
      {stop : Option ℚ} : s.tasks i = .done → s.requested env q = .nothing →
      (side = .buy → env.connected = true ∧ s.risk.halted = false) → q.ordered = some symbol →
      Stepped (.request i q) (sendManual i symbol side qty limitPrice stop s)
  /-- `flatten_all` goes to the broker. -/
  | flattens {i : ℕ} : env.connected = true →
      Stepped (.request i .flattenAll) ((s.note .flattenAllSent).setTask i .flattenAck)
  /-- The day is halted. -/
  | haltsDay {i : ℕ} (reason : String) : Stepped (.request i (.haltDay reason))
      ((s.halt (.haltDay reason)).note (.haltCalled (.haltDay reason)))
  /-- The kill-switch halts the day, and its flatten goes to the broker. -/
  | kills {i : ℕ} : env.connected = true →
      Stepped (.request i .killSwitch) ((s.killHalt.note .flattenAllSent).setTask i .killAck)
  /-- The kill-switch without a broker. -/
  | killsOffline {i : ℕ} : env.connected = false →
      Stepped (.request i .killSwitch) ({ s.killHalt with positions := ∅ }.note .killFlattened)
  /-- A handler sends a close. -/
  | taskCloses {i : ℕ} {quote : Option QuoteTick} {symbol : Symbol} {ref : Option ℕ} {price : ℚ}
      {now : Time} : s.tasks i = .closeQuote symbol ref now →
      Stepped (.taskQuote i quote)
        ((s.note (.flattenSent symbol)).setTask i (.closeAck symbol ref price now))
  /-- A handler sends a scale-out. -/
  | taskScales {i : ℕ} {quote : Option QuoteTick} {symbol : Symbol} {ref : ℕ} {price : ℚ}
      {now : Time} : s.tasks i = .scaleQuote symbol ref now →
      Stepped (.taskQuote i quote) ((s.sendScaleOut ⟨symbol, ref, price, now⟩).setTask i
        (.scaleAck ⟨symbol, ref, price, now⟩ (max 1 ((s.objects ref).shares / 2))))
  /-- A handler posts, and is done or reports. -/
  | finishes {l : DeskLabel} {i : ℕ} {t : Desk} {k : OperatorTask} (tierB : List Symbol) :
      l.finishes = some i → s.Posted env l t → k.waits = true → (∀ K, k.Holds K) →
      Stepped l ({ t with tierB := tierB }.setTask i k)
  /-- The kill-switch's flatten returns. -/
  | killReturns {i : ℕ} : s.tasks i = .killAck → Stepped (.taskFlattened i)
      (({ s with positions := ∅ }.note .killFlattened).setTask i .done)

variable {env : DemoEnv} {s s' t : Desk}

@[simp] theorem engine_post (p : Posting) : (s.post p).engine = s.engine := by cases p <;> rfl

@[simp] theorem tasks_post (p : Posting) : (s.post p).tasks = s.tasks := by cases p <;> rfl

/-- Posting moves no task. -/
theorem Posted.tasks {l : DeskLabel} (h : s.Posted env l t) :
    t.engine = s.engine ∧ t.tasks = s.tasks := by
  rcases h with rfl | ⟨symbol, rfl⟩
  · exact ⟨engine_post _, tasks_post _⟩
  · exact ⟨engine_post _, tasks_post _⟩

/-- The loop only goes on. -/
theorem Stepped.moves {l : DeskLabel} {e : EngineTask} (hl : l.loops = true) (he : e.waits = true)
    (hk : s.HandsOn e) : Stepped env s l { s with engine := e } :=
  .waits s.risk s.tierB hl he (.refl _) hk

theorem handsOn_nextEntry (now : Time) (rest : List Symbol) :
    s.HandsOn (s.nextEntry env now rest) := fun _ hp _ => holds_nextEntry hp now rest

theorem handsOn_afterScan (now : Time) (strategy : Bool) :
    s.HandsOn (s.afterScan env now strategy) := fun _ hp _ => holds_afterScan hp now strategy

/-! ## The loop -/

theorem stepped_iterate {scan strategy : Bool} (hs : s.iterate env scan strategy = some s') :
    Stepped env s (.iterate scan strategy) s' := by
  unfold iterate at hs
  split at hs
  · split_ifs at hs
    · rw [← Option.some.inj hs]; exact .moves rfl rfl fun _ _ _ => trivial
    · rw [← Option.some.inj hs]; exact .moves rfl (waits_afterScan ..) (handsOn_afterScan _ _)
  · exact absurd hs (by simp)

theorem stepped_scanned {tierB : Option (List Symbol)} (hs : s.scanned tierB = some s') :
    Stepped env s (.scanned tierB) s' := by
  unfold scanned at hs
  split at hs
  · split at hs
    · rw [← Option.some.inj hs]; exact .moves rfl rfl fun _ _ _ => trivial
    · rename_i tiers
      rw [← Option.some.inj hs]
      exact .waits s.risk tiers rfl rfl (.refl _) fun _ _ _ => trivial
  · exact absurd hs (by simp)

theorem stepped_gotBars {bars : Option (List BarTick)} (hs : s.gotBars env bars = some s') :
    Stepped env s (.bars bars) s' := by
  unfold gotBars at hs
  split at hs
  · split at hs
    · rw [← Option.some.inj hs]; exact .moves rfl rfl fun _ _ _ => trivial
    split at hs
    · rw [← Option.some.inj hs]; exact .moves rfl (waits_nextEntry ..) (handsOn_nextEntry _ _)
    · rw [← Option.some.inj hs]; exact .moves rfl rfl fun _ _ _ => trivial
  · exact absurd hs (by simp)

theorem stepped_gotEntryQuote {quote : Option QuoteTick}
    (hs : s.gotEntryQuote env quote = some s') : Stepped env s (.entryQuote quote) s' := by
  unfold gotEntryQuote at hs
  split at hs
  · split at hs
    · rw [← Option.some.inj hs]; exact .moves rfl (waits_nextEntry ..) (handsOn_nextEntry _ _)
    dsimp only at hs
    split at hs
    · rw [← Option.some.inj hs]; exact .moves rfl (waits_nextEntry ..) (handsOn_nextEntry _ _)
    split at hs
    · -- vetoed, which may halt the day
      rename_i s₁ veto hgate
      obtain ⟨r, hr, hsame⟩ := riskGate_state env s _ _
      rw [hgate] at hr
      dsimp only at hr
      rw [← Option.some.inj hs, hr]
      exact .waits r s.tierB rfl rfl hsame fun _ _ _ => trivial
    · -- approved, so the day was not halted
      rename_i s₁ shares hgate
      obtain ⟨rfl, hh, -⟩ := riskGate_ok hgate
      rw [← Option.some.inj hs]
      exact .approves hh
  · exact absurd hs (by simp)

theorem stepped_engineResume (hs : s.engineResume env = some s') : Stepped env s .resume s' := by
  have hcheck := s.risk.sameCounts_checkHalts (s.effectiveMaxDailyLoss env)
  unfold engineResume at hs
  split at hs
  · rw [← Option.some.inj hs]; exact .moves rfl (waits_afterScan ..) (handsOn_afterScan _ _)
  · rw [← Option.some.inj hs]; exact .moves rfl (waits_nextEntry ..) (handsOn_nextEntry _ _)
  · -- the broadcast of an approved entry is done
    rename_i heng
    split at hs
    · rename_i hgo
      simp only [Bool.and_eq_true] at hgo
      rw [← Option.some.inj hs]
      exact .sendsEntry (by rw [heng]; rfl) hgo.1.1 hgo.1.2 ⟨_, heng⟩
    · rw [← Option.some.inj hs]; exact .moves rfl (waits_nextEntry ..) (handsOn_nextEntry _ _)
  · rename_i heng
    rw [← Option.some.inj hs]
    refine .moves rfl (waits_nextExit ..) fun K _ hk => ?_
    rw [heng] at hk
    exact holds_nextExit hk
  · rename_i heng
    rw [← Option.some.inj hs]
    refine .waits _ s.tierB rfl (waits_nextExit ..) hcheck fun K _ hk => ?_
    rw [heng] at hk
    exact holds_nextExit hk
  · -- a made-up trade may halt the day
    dsimp only at hs
    split at hs <;> rw [← Option.some.inj hs] <;>
      exact .waits _ s.tierB rfl rfl hcheck fun _ _ _ => trivial
  · exact absurd hs (by simp)

theorem stepped_gotExitQuote {quote : Option QuoteTick} (hs : s.gotExitQuote quote = some s') :
    Stepped env s (.exitQuote quote) s' := by
  unfold gotExitQuote at hs
  split at hs
  · rename_i now symbol ref rest heng
    have hnext : s.HandsOn (nextExit now rest) := by
      intro K _ hk
      rw [heng] at hk
      exact holds_nextExit hk.2
    split at hs
    · rw [← Option.some.inj hs]; exact .moves rfl (waits_nextExit ..) hnext
    dsimp only at hs
    split at hs
    · rw [← Option.some.inj hs]; exact .moves rfl (waits_nextExit ..) hnext
    · rw [← Option.some.inj hs]; exact .sendsScale heng
    · rw [← Option.some.inj hs]; exact .sendsExit heng
  · exact absurd hs (by simp)

/-- A position that is not tracked cannot be forgotten, and there is nothing to forget. -/
theorem post_closes_none {exit : PendingExit} (reason : DemoExit)
    (h : s.positions.get? exit.symbol = none) :
    s.post (.closes exit reason) = s.bookExit exit reason := by
  have hp : (s.bookExit exit reason).positions = s.positions := rfl
  rw [post, Dict.erase_of_get?_none h, ← hp]

theorem stepped_engineAck {ack : OrderAck} (hs : s.engineAck ack = some s') :
    Stepped env s (.ack ack) s' := by
  unfold engineAck at hs
  split at hs
  · rename_i now order rest heng
    have hp : s.post (s.posting env (.ack ack))
        = if ack.accepted then s.openPosition (entryPosition now order) else s := by
      rw [posting, heng, EngineTask.acked]
      split <;> rfl
    rw [← Option.some.inj hs]
    exact .booksLoop rfl (.inl hp.symm) rfl fun _ _ _ => trivial
  · rename_i heng
    rw [← Option.some.inj hs]
    refine .booksLoop rfl (.inl (by rw [posting, heng]; rfl)) rfl fun K _ hk => ?_
    rw [heng] at hk
    exact hk.2.2
  · rename_i exit reason rest heng
    have hp : s.posting env (.ack ack) = .closes exit reason := by rw [posting, heng]; rfl
    dsimp only at hs
    split at hs
    · -- there is no position to delete
      rename_i hf
      have hget : s.positions.get? exit.symbol = none := (forget_none hf :)
      rw [← Option.some.inj hs]
      exact .booksLoop rfl (.inr ⟨exit.symbol, by rw [hp, post_closes_none reason hget]⟩) rfl
        fun _ _ _ => trivial
    · rename_i hf
      obtain ⟨-, rfl⟩ := forget_some hf
      rw [← Option.some.inj hs]
      refine .booksLoop rfl (.inl (by rw [hp]; rfl)) rfl fun K _ hk => ?_
      rw [heng] at hk
      exact hk.2
  · exact absurd hs (by simp)

theorem stepped_replayStep {tierB : List Symbol} (hs : s.replayStep env tierB = some s') :
    Stepped env s (.replayStep tierB) s' := by
  unfold replayStep at hs
  split at hs
  · split at hs
    · exact absurd hs (by simp)
    · rw [← Option.some.inj hs]
      exact .waits s.risk tierB rfl rfl (.refl _) fun _ _ _ => trivial
  · exact absurd hs (by simp)

theorem stepped_replayClose {pos : DemoPosition} {x : ℚ} {reason : DemoExit}
    (hs : s.replayClose pos x reason = some s') : Stepped env s (.replayClose pos x reason) s' := by
  unfold replayClose at hs
  split at hs
  · rename_i now heng
    have hp : s.posting env (.replayClose pos x reason) = .replays pos x reason now := by
      rw [posting, heng]; rfl
    have hstep : Stepped env s (.replayClose pos x reason)
        { s.post (.replays pos x reason now) with engine := .replayReported now } :=
      .booksLoop rfl (.inl (by rw [hp])) rfl fun _ _ _ => trivial
    exact Option.some.inj hs ▸ hstep
  · exact absurd hs (by simp)

theorem stepped_replayDone (hs : s.replayDone = some s') : Stepped env s .replayDone s' := by
  unfold replayDone at hs
  split at hs
  · rw [← Option.some.inj hs]; exact .moves rfl rfl fun _ _ _ => trivial
  · exact absurd hs (by simp)

/-! ## The dashboard -/

/-- A request that only posts. -/
theorem Stepped.posts {i : ℕ} {q : Request} {p : Posting} (hp : s.requested env q = p) :
    Stepped env s (.request i q) (s.post p) := by
  have ho : (s.post p).overrides.autoTrade = s.overrides.autoTrade := by cases p <;> rfl
  subst hp
  exact .settles _ _ _ (.refl _) ho

/-- A request that is refused. -/
theorem Stepped.refused {i : ℕ} {q : Request} {r : DemoRisk} (hp : s.requested env q = .nothing)
    (hr : s.risk.SameCounts r) : Stepped env s (.request i q) { s with risk := r } := by
  have hsettled : Stepped env s (.request i q)
      { s.post (s.requested env q) with risk := r, svc := s.svc, overrides := s.overrides } :=
    .settles _ _ _ (by rw [hp]; exact hr) rfl
  rw [hp] at hsettled
  exact hsettled

/--
**A request to a handler that is free does what `Stepped` lists.**

It is answered at once, or leaves its handler waiting for a quote, for the broker or
for a scan. What it posts in the same step is a moved stop, or the cleared positions of
a flatten or a kill-switch without a broker.
-/
theorem stepped_handle {i : ℕ} (hfree : s.tasks i = .done) (q : Request) :
    Stepped env s (.request i q) (s.handle env i q) := by
  cases q with
  -- a symbol that is not tracked is refused
  | closePosition symbol =>
      simp only [handle]
      split
      · exact .posts rfl
      · exact .asks rfl rfl fun K hp ref hget => hp symbol ref hget
  | scaleOutPosition symbol =>
      simp only [handle]
      split_ifs
      · exact .posts rfl
      split
      · exact .posts rfl
      · rename_i ref hget
        split_ifs
        · exact .posts rfl
        · exact .asks rfl rfl fun K hp => hp symbol ref hget
  | moveStop symbol stopPrice =>
      simp only [handle]
      split
      · rename_i hget
        exact .posts (p := .nothing) (by rw [requested, restop, hget])
      · rename_i ref hget
        exact .posts (p := .restops ref (quantize2 stopPrice)) (by rw [requested, restop, hget])
  | manualOrder symbol side qty limitPrice =>
      rw [handle]
      -- refused, a SELL, or a BUY that passed the guardrails
      rcases manualOrder_cases env s i symbol side qty limitPrice none with
        ⟨r, hr, hsame⟩ | ⟨-, hr⟩ | ⟨hconn, hh, hr⟩
      · rw [hr]; exact .refused rfl hsame
      · rw [hr]; exact .sendsManual hfree rfl (by simp) rfl
      · rw [hr]; exact .sendsManual hfree rfl (fun _ => ⟨hconn, hh⟩) rfl
  | manualTrade symbol entry stop shares =>
      rw [handle]
      rcases manualTrade_cases env s i symbol entry stop shares with
        ⟨r, hr, hsame⟩ | ⟨hconn, hh, -, qty, -, -, hr⟩
      · rw [hr]; exact .refused rfl hsame
      · rw [hr]; exact .sendsManual hfree rfl (fun _ => ⟨hconn, hh⟩) rfl
  -- with a broker the handler waits for its answer
  | flattenAll =>
      cases hconn : env.connected with
      | true =>
          simp only [handle, hconn]
          exact .flattens hconn
      | false =>
          simp only [handle, hconn]
          exact .posts (p := .clears) (by rw [requested, hconn]; rfl)
  | haltDay reason => exact .haltsDay reason
  | killSwitch =>
      cases hconn : env.connected with
      | true =>
          simp only [handle, hconn, if_true]
          exact .kills hconn
      | false =>
          simp only [handle, hconn]
          exact .killsOffline hconn
  -- switching AUTO_TRADE is a step of its own, since an entry may be due
  | setOverride o =>
      cases o with
      | autoTrade value => exact .switches value
      | maxDailyLoss value => exact .settles s.risk s.svc _ (.refl _) rfl
  | pause | resume =>
      simp only [handle]
      split
      · exact .posts rfl
      · exact .settles s.risk _ s.overrides (.refl _) rfl
  | triggerScan =>
      simp only [handle]
      split
      · exact .posts rfl
      · exact .asks rfl rfl fun _ _ => trivial

theorem stepped_taskQuote {i : ℕ} {quote : Option QuoteTick} (hs : s.taskQuote i quote = some s') :
    Stepped env s (.taskQuote i quote) s' := by
  unfold taskQuote at hs
  split at hs
  · rename_i htask
    rw [← Option.some.inj hs]; exact .taskCloses htask
  · rename_i htask
    rw [← Option.some.inj hs]; exact .taskScales htask
  · exact absurd hs (by simp)

/-- A handler that posts, and has nothing else to do. -/
theorem Stepped.done {l : DeskLabel} {i : ℕ} {p : Posting} {k : OperatorTask}
    (hl : l.finishes = some i) (hp : s.posting env l = p) (hk : k.waits = true)
    (hholds : ∀ K, k.Holds K) : Stepped env s l ((s.post p).setTask i k) := by
  subst hp
  exact .finishes (s.post (s.posting env l)).tierB hl (.inl rfl) hk hholds

/--
**The broker's answer to a handler's order.**

A close and a scale-out are booked whatever it says; an operator's BUY opens a position
only when it is accepted, and a SELL posts nothing. The close raises when its position
is gone, and the handler ends there.
-/
theorem stepped_taskAck {i : ℕ} {ack : OrderAck} (hs : s.taskAck i ack = some s') :
    Stepped env s (.taskAck i ack) s' := by
  unfold taskAck at hs
  split at hs
  · -- a close is answered
    rename_i symbol ref price now htask
    cases ref with
    | none =>
        rw [← Option.some.inj hs]
        exact .done (p := .nothing) rfl (by rw [posting, htask]; rfl) rfl fun _ => trivial
    | some ref =>
        have hp : s.posting env (.taskAck i ack)
            = .closes ⟨symbol, ref, price, now⟩ .manualClose := by rw [posting, htask]; rfl
        dsimp only at hs
        split at hs
        · -- there is no position to delete
          rename_i hf
          have hget : s.positions.get? symbol = none := (forget_none hf :)
          rw [← Option.some.inj hs]
          exact .finishes (k := .done) s.tierB rfl
            (.inr ⟨symbol, by rw [hp, post_closes_none .manualClose hget]⟩) rfl fun _ => trivial
        · rename_i hf
          obtain ⟨-, rfl⟩ := forget_some hf
          rw [← Option.some.inj hs]
          exact .done rfl hp rfl fun _ => trivial
  · -- a scale-out is answered
    rename_i exit half htask
    rw [← Option.some.inj hs]
    exact .done (p := .scales exit half) rfl (by rw [posting, htask]; rfl) rfl fun _ => trivial
  · -- an order is answered
    rename_i symbol side qty limitPrice now stop htask
    have hp : s.post (s.posting env (.taskAck i ack))
        = if ack.accepted && decide (side = .buy) then
          s.openPosition (manualPosition symbol qty limitPrice now) else s := by
      rw [posting, htask]
      cases side with
      | sell => simp [OperatorTask.acked, post]
      | buy => cases hacc : ack.accepted <;> simp [OperatorTask.acked, post, hacc]
    dsimp only at hs
    rw [← hp] at hs
    split at hs
    · rw [← Option.some.inj hs]; exact .done rfl rfl rfl fun _ => trivial
    · rw [← Option.some.inj hs]; exact .done rfl rfl rfl fun _ => trivial
  · exact absurd hs (by simp)

theorem stepped_taskFlattened {i : ℕ} (hs : s.taskFlattened i = some s') :
    Stepped env s (.taskFlattened i) s' := by
  unfold taskFlattened at hs
  split at hs
  · rename_i htask
    rw [← Option.some.inj hs]
    exact .done (p := .clears) rfl (by rw [posting, htask]; rfl) rfl fun _ => trivial
  · rename_i htask
    rw [← Option.some.inj hs]; exact .killReturns htask
  · exact absurd hs (by simp)

theorem stepped_taskResume {i : ℕ} (hs : s.taskResume i = some s') :
    Stepped env s (.taskResume i) s' := by
  unfold taskResume at hs
  split at hs
  · rename_i symbol accepted stop htask
    have hp : s.posting env (.taskResume i)
        = if accepted then s.restop symbol stop else .nothing := by rw [posting, htask]; rfl
    rw [← Option.some.inj hs]
    rw [restop] at hp
    -- the symbol may be gone by now
    split
    · rename_i hget
      rw [hget] at hp
      exact .done (p := .nothing) rfl (by rw [hp]; split <;> rfl) rfl fun _ => trivial
    · rename_i ref hget
      rw [hget] at hp
      split
      · rename_i hacc
        exact .done (p := .restops ref stop) rfl (by rw [hp, if_pos hacc]) rfl fun _ => trivial
      · rename_i hacc
        exact .done (p := .nothing) rfl (by rw [hp, if_neg hacc]) rfl fun _ => trivial
  · exact absurd hs (by simp)

theorem stepped_taskScanned {i : ℕ} {tierB : Option (List Symbol)}
    (hs : s.taskScanned i tierB = some s') : Stepped env s (.taskScanned i tierB) s' := by
  unfold taskScanned at hs
  split at hs
  · rw [← Option.some.inj hs]
    exact .finishes (t := s) _ rfl (.inl rfl) rfl fun _ => trivial
  · exact absurd hs (by simp)

/-- **One lemma for every step.** -/
theorem step_cases {l : DeskLabel} (hs : s.step env l = some s') : Stepped env s l s' := by
  cases l with
  | tick dt =>
      rw [step] at hs
      split at hs
      · rw [← Option.some.inj hs]; exact .ticks dt
      · exact absurd hs (by simp)
  | iterate => exact stepped_iterate hs
  | scanned => exact stepped_scanned hs
  | bars => exact stepped_gotBars hs
  | entryQuote => exact stepped_gotEntryQuote hs
  | exitQuote => exact stepped_gotExitQuote hs
  | resume => exact stepped_engineResume hs
  | ack => exact stepped_engineAck hs
  | replayStep => exact stepped_replayStep hs
  | replayClose => exact stepped_replayClose hs
  | replayDone => exact stepped_replayDone hs
  | request i q =>
      rw [step, Desk.request] at hs
      split at hs
      · rename_i hfree
        rw [← Option.some.inj hs]; exact stepped_handle hfree q
      · exact absurd hs (by simp)
  | taskQuote => exact stepped_taskQuote hs
  | taskAck => exact stepped_taskAck hs
  | taskFlattened => exact stepped_taskFlattened hs
  | taskResume => exact stepped_taskResume hs
  | taskScanned => exact stepped_taskScanned hs

end Desk

end RossBot
