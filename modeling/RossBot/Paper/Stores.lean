import RossBot.Paper.Session

/-!
# The three stores of the paper session

The session's functions are opened here and nowhere else: `Stepped` lists
everything a step can do. `_open`, the strategy engine and the risk manager each
keep a copy of every position; what the last two hold is tracked in `_open` as
well, in every interleaving (`copiesTracked_reached`).
-/

namespace RossBot.Paper

open Lib

/-! ## What one step can do -/

/-- A step of the bar loop, or the answer to its order. -/
def Label.ofBarLoop : Label → Bool
  | .takeBar _ | .feedEnds _ | .barQuote _ | .barResume | .barAnswer _ => true
  | _ => false

namespace World

variable {env : Env} {w w' : World}

/-- A symbol leaves all three stores. -/
def retire (env : Env) (w : World) (symbol : Symbol) : World :=
  { w.recordClose env symbol with opens := w.opens.erase symbol }

/-- **What one step can do.** -/
inductive Stepped (env : Env) (w : World) : Label → World → Prop where
  | ticked {dt : ℚ} : Stepped env w (.tick dt) { w with clock := w.clock + dt }
  /-- The bar loop goes on, ends or raises, and touches nothing else. -/
  | barMoved {l : Label} {t : BarTask} : l.ofBarLoop = true →
      Stepped env w l { w with barTask := t }
  /-- A bar that has its quote goes through the strategy engine. -/
  | judged {quote : Option QuoteTick} {bar : BarTick} {scan : ScanResult} {l2 : L2Signal}
      {spread : ℚ} {t : BarTask} : Stepped env w (.barQuote quote) { w with
        engine := (w.engine.onBar env.cfg bar scan l2 spread env.marketState).1
        barTask := t }
  | opened {order : EntryOrder} {ack : OrderAck} {t : BarTask} :
      Stepped env w .barResume { w.openPosition order ack with barTask := t }
  /-- An accepted exit, of a symbol that is still tracked or not. -/
  | exited {symbol : Symbol} {t : BarTask} :
      Stepped env w .barResume { w.retire env symbol with barTask := t }
  | polled {due : Time} : w.stopTask = .sleeping due →
      Stepped env w .stopWake (nextStop w.opens.items w)
  /-- The quote raised, or the stop does not fire at it. -/
  | passed {symbol : Symbol} {pos : LivePosition} {rest : List (Symbol × LivePosition)}
      {quote : Option QuoteTick} : w.stopTask = .awaitQuote symbol pos rest →
      (∀ q, quote = some q → RiskState.checkMentalStop q.bid.val pos.snapshot = false) →
      Stepped env w (.stopQuote quote) (nextStop rest w)
  | fired {symbol : Symbol} {pos : LivePosition} {rest : List (Symbol × LivePosition)}
      {q : QuoteTick} : w.stopTask = .awaitQuote symbol pos rest →
      Stepped env w (.stopQuote (some q))
        { w with stopTask := .awaitSellAck (stopOrder symbol pos q.bid.val) rest .sent }
  | stopAnswered {order : SellOrder} {rest : List (Symbol × LivePosition)}
      {reply : Option OrderAck} : w.stopTask = .awaitSellAck order rest .sent →
      Stepped env w (.stopAnswer reply)
        { w with stopTask := .awaitSellAck order rest (.answered reply) }
  | sellRaised {order : SellOrder} {rest : List (Symbol × LivePosition)} :
      w.stopTask = .awaitSellAck order rest (.answered none) →
      Stepped env w .stopResume (nextStop rest w)
  /-- Any answer is taken for a sale, of a symbol that is still tracked or not. -/
  | stoppedOut {order : SellOrder} {rest : List (Symbol × LivePosition)} {ack : OrderAck} :
      w.stopTask = .awaitSellAck order rest (.answered (some ack)) →
      Stepped env w .stopResume (nextStop rest (w.retire env order.symbol))
  /-- The EOD loop reads a naive datetime, so its wake is its end. -/
  | clockRejected {due : Time} : w.eodTask = .sleeping due → due ≤ w.clock →
      Stepped env w .eodWake { w with eodTask := .raised }
  | eodAnswered {reply : Option (List OrderAck)} : w.eodTask = .awaitFlatten .sent →
      Stepped env w (.eodAnswer reply) { w with eodTask := .awaitFlatten (.answered reply) }
  | flattenRaised : w.eodTask = .awaitFlatten (.answered none) →
      Stepped env w .eodResume { w with eodTask := .raised }
  | flattened {acks : List OrderAck} : w.eodTask = .awaitFlatten (.answered (some acks)) →
      Stepped env w .eodResume { closeAll env w with stopEvent := true, eodTask := .ended }
  | stopped : Stepped env w .stop { w with stopEvent := true }
  | cancelled : Stepped env w .cancel { w with cancelled := true }

theorem task_some {f : World → Option World} (h : w.task f = some w') : f w = some w' := by
  unfold task at h
  split at h
  · exact absurd h (by simp)
  · exact h

variable (env w) in
/-- Going through signals only moves the bar loop on. -/
theorem runSignals_footprint (bar : BarTick) (sigs : List Signal) :
    ∃ t, runSignals env bar sigs w = { w with barTask := t } := by
  induction sigs with
  | nil => exact ⟨_, rfl⟩
  | cons sig rest ih =>
      cases sig with
      -- a BUY, if it is sent at all
      | entry sig =>
          unfold runSignals
          split
          · exact ih
          · split
            · exact ih
            · exact ⟨_, rfl⟩
      -- a SELL, if it is
      | exit sig =>
          unfold runSignals
          split
          · split
            · split
              · exact ih
              · exact ⟨_, rfl⟩
            · exact ih
          · exact ih
      | failedPattern f => exact ih

/-- `record_close`, `close_position` and `del`, when the symbol is there. -/
theorem remove_recordClose {symbol : Symbol} (h : w.opens.contains symbol = true) :
    (w.recordClose env symbol).remove symbol = some (w.retire env symbol) := if_pos h

variable (env) in
/-- The `KeyError` comes after the other two stores have let go, so nothing is left behind. -/
theorem recordClose_of_untracked {symbol : Symbol} (h : w.opens.contains symbol = false) :
    (w.recordClose env symbol).remove symbol = none
      ∧ w.recordClose env symbol = w.retire env symbol := by
  have hcon : (w.recordClose env symbol).opens.contains symbol = false := h
  refine ⟨?_, ?_⟩
  · rw [remove, hcon]
    rfl
  · rw [retire, Dict.erase_of_get?_none (Dict.contains_eq_false.mp h)]
    rfl

/-! Each function's outcomes are among them. -/

theorem takeBar_stepped {bar : BarTick} (h : takeBar env bar w = some w') :
    Stepped env w (.takeBar bar) w' := by
  unfold takeBar at h
  split at h
  · split at h
    · rw [← Option.some.inj h]; exact .barMoved rfl
    · split at h
      · rw [← Option.some.inj h]; exact .barMoved (t := w.barTask) rfl
      · rw [← Option.some.inj h]; exact .barMoved rfl
  · exact absurd h (by simp)

theorem feedEnds_stepped {raises : Bool} (h : feedEnds raises w = some w') :
    Stepped env w (.feedEnds raises) w' := by
  unfold feedEnds at h
  split at h
  · rw [← Option.some.inj h]; exact .barMoved rfl
  · exact absurd h (by simp)

theorem barQuote_stepped {quote : Option QuoteTick} (h : barQuote env quote w = some w') :
    Stepped env w (.barQuote quote) w' := by
  unfold barQuote at h
  split at h
  · rename_i bar scan l2 _
    cases quote with
    | none => rw [← Option.some.inj h]; exact .barMoved rfl
    | some q =>
        dsimp only at h
        obtain ⟨t, ht⟩ := runSignals_footprint env { w with
          engine := (w.engine.onBar env.cfg bar scan l2 (q.ask.val - q.bid.val)
            env.marketState).1 } bar
          (w.engine.onBar env.cfg bar scan l2 (q.ask.val - q.bid.val) env.marketState).2
        rw [ht] at h
        rw [← Option.some.inj h]
        exact .judged
  · exact absurd h (by simp)

theorem barResume_stepped (h : barResume env w = some w') : Stepped env w .barResume w' := by
  unfold barResume at h
  split at h
  · rename_i order rest reply _
    cases reply with
    | none => rw [← Option.some.inj h]; exact .barMoved rfl
    | some ack =>
        dsimp only at h
        split at h
        · -- what the signals that are left do is one more task
          obtain ⟨t, ht⟩ := runSignals_footprint env (w.openPosition order ack) order.bar rest
          rw [ht] at h
          rw [← Option.some.inj h]; exact .opened
        · obtain ⟨t, ht⟩ := runSignals_footprint env w order.bar rest
          rw [ht] at h
          rw [← Option.some.inj h]; exact .barMoved rfl
  · rename_i order bar rest reply _
    cases reply with
    | none => rw [← Option.some.inj h]; exact .barMoved rfl
    | some ack =>
        dsimp only at h
        split at h
        · cases hcon : w.opens.contains order.symbol with
          | true =>
              obtain ⟨t, ht⟩ := runSignals_footprint env (w.retire env order.symbol) bar rest
              rw [remove_recordClose hcon] at h
              dsimp only at h
              rw [ht] at h
              rw [← Option.some.inj h]; exact .exited
          | false =>
              -- the position is gone already: `record_close` is all there is
              obtain ⟨hnone, hsame⟩ := recordClose_of_untracked env hcon
              rw [hnone, hsame] at h
              rw [← Option.some.inj h]; exact .exited
        · obtain ⟨t, ht⟩ := runSignals_footprint env w bar rest
          rw [ht] at h
          rw [← Option.some.inj h]; exact .barMoved rfl
  · exact absurd h (by simp)

theorem barAnswer_stepped {reply : Option OrderAck} (h : barAnswer reply w = some w') :
    Stepped env w (.barAnswer reply) w' := by
  unfold barAnswer at h
  split at h
  · rw [← Option.some.inj h]; exact .barMoved rfl
  · rw [← Option.some.inj h]; exact .barMoved rfl
  · exact absurd h (by simp)

theorem stopWake_stepped (h : stopWake w = some w') : Stepped env w .stopWake w' := by
  unfold stopWake at h
  split at h
  · rename_i due hst
    split at h
    · exact absurd h (by simp)
    · rw [← Option.some.inj h]; exact .polled hst
  · exact absurd h (by simp)

theorem stopQuote_stepped {quote : Option QuoteTick} (h : stopQuote quote w = some w') :
    Stepped env w (.stopQuote quote) w' := by
  unfold stopQuote at h
  split at h
  · rename_i symbol pos rest hst
    cases quote with
    | none => rw [← Option.some.inj h]; exact .passed hst (by simp)
    | some q =>
        dsimp only at h
        split at h
        · rw [← Option.some.inj h]; exact .fired hst
        · rename_i hheld
          rw [← Option.some.inj h]
          refine .passed hst ?_
          intro q' hq
          rw [← Option.some.inj hq]
          simpa using hheld
  · exact absurd h (by simp)

theorem stopAnswer_stepped {reply : Option OrderAck} (h : stopAnswer reply w = some w') :
    Stepped env w (.stopAnswer reply) w' := by
  unfold stopAnswer at h
  split at h
  · rename_i order rest hst
    rw [← Option.some.inj h]; exact .stopAnswered hst
  · exact absurd h (by simp)

theorem stopResume_stepped (h : stopResume env w = some w') : Stepped env w .stopResume w' := by
  unfold stopResume at h
  split at h
  · rename_i order rest reply hst
    cases reply with
    | none => rw [← Option.some.inj h]; exact .sellRaised hst
    | some ack =>
        dsimp only at h
        cases hcon : w.opens.contains order.symbol with
        | true =>
            rw [remove_recordClose hcon] at h
            rw [← Option.some.inj h]; exact .stoppedOut hst
        | false =>
            obtain ⟨hnone, hsame⟩ := recordClose_of_untracked env hcon
            rw [hnone, hsame] at h
            rw [← Option.some.inj h]; exact .stoppedOut hst
  · exact absurd h (by simp)

theorem eodWake_stepped (h : eodWake env w = some w') : Stepped env w .eodWake w' := by
  unfold eodWake at h
  split at h
  · rename_i due hsleep
    split at h
    · exact absurd h (by simp)
    · rename_i hdue
      rw [← Option.some.inj h]; exact .clockRejected hsleep (not_lt.mp hdue)
  · exact absurd h (by simp)

theorem eodAnswer_stepped {reply : Option (List OrderAck)} (h : eodAnswer reply w = some w') :
    Stepped env w (.eodAnswer reply) w' := by
  unfold eodAnswer at h
  split at h
  · rename_i hsent
    rw [← Option.some.inj h]; exact .eodAnswered hsent
  · exact absurd h (by simp)

theorem eodResume_stepped (h : eodResume env w = some w') : Stepped env w .eodResume w' := by
  unfold eodResume at h
  split at h
  · rename_i reply hsent
    cases reply with
    | none => rw [← Option.some.inj h]; exact .flattenRaised hsent
    | some acks => rw [← Option.some.inj h]; exact .flattened hsent
  · exact absurd h (by simp)

/-- Every step does one of these. -/
theorem step_stepped {l : Label} (hs : step env w l = some w') : Stepped env w l w' := by
  cases l with
  | tick dt =>
      obtain ⟨-, hw⟩ := Option.ite_none_right_eq_some.mp hs
      rw [← Option.some.inj hw]; exact .ticked
  | takeBar bar => exact takeBar_stepped (task_some hs)
  | feedEnds raises => exact feedEnds_stepped (task_some hs)
  | barQuote quote => exact barQuote_stepped (task_some hs)
  | barResume => exact barResume_stepped (task_some hs)
  | stopWake => exact stopWake_stepped (task_some hs)
  | stopQuote quote => exact stopQuote_stepped (task_some hs)
  | stopResume => exact stopResume_stepped (task_some hs)
  | eodWake => exact eodWake_stepped (task_some hs)
  | eodResume => exact eodResume_stepped (task_some hs)
  | barAnswer reply => exact barAnswer_stepped hs
  | stopAnswer reply => exact stopAnswer_stepped hs
  | eodAnswer reply => exact eodAnswer_stepped hs
  | stop => rw [← Option.some.inj hs]; exact .stopped
  | cancel =>
      obtain ⟨-, hw⟩ := Option.ite_none_right_eq_some.mp hs
      rw [← Option.some.inj hw]; exact .cancelled

/-! ## A symbol that is not tracked is held nowhere -/

/-- The engine and the risk manager hold nothing that `_open` does not. -/
def CopiesTracked (w : World) : Prop :=
  ∀ s, w.opens.get? s = none →
    w.engine.position s = none ∧ w.risk.openPositions.get? s = none

variable (w) in
/-- Going on with an iteration only moves the mental-stop loop on. -/
theorem nextStop_footprint (rest : List (Symbol × LivePosition)) :
    ∃ t, nextStop rest w = { w with stopTask := t } := by
  cases rest <;> exact ⟨_, rfl⟩

theorem CopiesTracked.nextStop (h : CopiesTracked w) (rest : List (Symbol × LivePosition)) :
    CopiesTracked (nextStop rest w) := by
  obtain ⟨t, ht⟩ := nextStop_footprint w rest
  rw [ht]
  exact h

theorem copiesTracked_init : CopiesTracked (init env) := by
  intro s _
  refine ⟨?_, rfl⟩
  change StrategyEngine.position
    (env.symbols.foldl (fun e s => e.resetSession s 0) StrategyEngine.new) s = none
  refine foldl_invariant (I := fun e => StrategyEngine.position e s = none) rfl ?_ env.symbols
  intro e symbol he
  rw [StrategyEngine.position_resetSession]
  split
  · rfl
  · exact he

theorem CopiesTracked.opened (h : CopiesTracked w) (o : EntryOrder) (ack : OrderAck) :
    CopiesTracked (w.openPosition o ack) := by
  intro s hn
  change (w.opens.set o.signal.symbol _).get? s = none at hn
  rw [Dict.get?_set] at hn
  split at hn
  · exact absurd hn (by simp)
  · rename_i hne
    obtain ⟨heng, hrisk⟩ := h s hn
    refine ⟨?_, ?_⟩
    · exact (StrategyEngine.position_openPosition ..).trans ((if_neg hne).trans heng)
    · exact (Dict.get?_set_ne _ _ hne).trans hrisk

variable (env w) in
/-- What a store holds for a symbol once another one is retired. -/
theorem retire_at (symbol s : Symbol) :
    (w.retire env symbol).opens.get? s = (if s = symbol then none else w.opens.get? s)
      ∧ (w.retire env symbol).engine.position s
        = (if s = symbol then none else w.engine.position s)
      ∧ (w.retire env symbol).risk.openPositions.get? s
        = (if s = symbol then none else w.risk.openPositions.get? s) :=
  ⟨Dict.get?_erase .., StrategyEngine.position_closePosition .., Dict.get?_erase ..⟩

theorem CopiesTracked.retired (h : CopiesTracked w) (symbol : Symbol) :
    CopiesTracked (w.retire env symbol) := by
  intro s hn
  obtain ⟨ho, he, hr⟩ := retire_at env w symbol s
  rw [ho] at hn
  rw [he, hr]
  split at hn
  · rename_i hs
    exact ⟨if_pos hs, if_pos hs⟩
  · rename_i hs
    rw [if_neg hs, if_neg hs]
    exact h s hn

variable (env) in
/-- What the flatten leaves in the engine and the risk manager: nothing it went over. -/
theorem closeAll_at (w : World) (s : Symbol) (ks : List Symbol) :
    ((ks.foldl (recordClose env) w).engine.position s
        = if s ∈ ks then none else w.engine.position s)
      ∧ (ks.foldl (recordClose env) w).risk.openPositions.get? s
        = if s ∈ ks then none else w.risk.openPositions.get? s := by
  induction ks generalizing w with
  | nil => simp
  | cons k ks ih =>
      obtain ⟨he, hr⟩ := ih (w.recordClose env k)
      obtain ⟨-, hek, hrk⟩ := retire_at env w k s
      have hek' : (w.recordClose env k).engine.position s
          = if s = k then none else w.engine.position s := hek
      have hrk' : (w.recordClose env k).risk.openPositions.get? s
          = if s = k then none else w.risk.openPositions.get? s := hrk
      rw [List.foldl_cons, he, hr, hek', hrk']
      by_cases hk : s = k
      · simp [hk]
      · simp [hk]

/-- Nothing is held in any of the three stores. -/
structure Flat (w : World) : Prop where
  opens : w.opens.items = []
  engine : ∀ s, w.engine.position s = none
  risk : ∀ s, w.risk.openPositions.get? s = none

variable (env) in
/-- The flatten leaves nothing, when the other stores held only what was tracked. -/
theorem flat_closeAll (h : CopiesTracked w) : Flat (closeAll env w) := by
  have hall : ∀ s, (closeAll env w).engine.position s = none
      ∧ (closeAll env w).risk.openPositions.get? s = none := by
    intro s
    obtain ⟨he, hr⟩ := closeAll_at env w s w.opens.keys
    change (w.opens.keys.foldl (recordClose env) w).engine.position s = none
      ∧ (w.opens.keys.foldl (recordClose env) w).risk.openPositions.get? s = none
    rw [he, hr]
    split
    · exact ⟨rfl, rfl⟩
    · rename_i hs
      refine h s ?_
      cases hp : w.opens.get? s with
      | none => rfl
      | some p => exact absurd (Dict.mem_keys.mpr ⟨p, hp⟩) hs
  exact ⟨rfl, fun s => (hall s).1, fun s => (hall s).2⟩

/-- **The copies stay tracked.** -/
theorem copiesTracked_step {l : Label} (h : CopiesTracked w) (hs : step env w l = some w') :
    CopiesTracked w' := by
  cases step_stepped hs with
  | judged =>
      intro s hn
      obtain ⟨heng, hrisk⟩ := h s hn
      exact ⟨position_onBar_none _ _ _ _ _ _ heng, hrisk⟩
  | opened => exact h.opened _ _
  | exited => exact h.retired _
  | polled | passed | sellRaised => exact h.nextStop _
  | stoppedOut => exact (h.retired _).nextStop _
  | flattened =>
      have hflat := flat_closeAll env h
      exact fun s _ => ⟨hflat.engine s, hflat.risk s⟩
  | _ => exact h

theorem copiesTracked_reached (hr : Reachable (step env) (init env) w) : CopiesTracked w :=
  hr.invariant copiesTracked_init fun _ _ _ _ h hs => copiesTracked_step h hs

end World

end RossBot.Paper
