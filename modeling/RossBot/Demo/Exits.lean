import RossBot.Demo.Halt

/-!
# Exits that overlap

`_run_exits`, `close_position` and `scale_out_position` each look a position up,
wait for a quote and for the broker, and then book the exit on the object they
looked up, without looking again. `Book` is what holds as long as every exit the
broker answers still finds what it was sent for; an exit that does not breaks the
accounts at once, so the condition is exact (`accounted_iff`).
-/

namespace RossBot

open Lib

/-! ## The three tasks, from a calm moment -/

/-- A moment at which no task is suspended and nothing is logged yet: every symbol has an object
of its own, and no position is short. -/
structure CalmDesk where
  desk : Desk
  idle : desk.engine = .idle
  done : ∀ i, desk.tasks i = .done
  log : desk.log = []
  distinct : ∀ a b ref, desk.positions.get? a = some ref → desk.positions.get? b = some ref → a = b
  nonneg : ∀ symbol ref, desk.positions.get? symbol = some ref → 0 ≤ (desk.objects ref).shares

/-- The steps of iterations that only run the exits, and of the two requests. -/
def DeskLabel.exits : DeskLabel → Bool
  | .tick _ | .iterate false false | .exitQuote _ | .resume | .ack _
  | .request _ (.closePosition _) | .request _ (.scaleOutPosition _)
  | .taskQuote _ _ | .taskAck _ _ => true
  | _ => false

/-- One step of `_run_exits`, `close_position` or `scale_out_position`. -/
def Desk.exitStep (env : DemoEnv) (s : Desk) (l : DeskLabel) : Option Desk :=
  if l.exits then s.step env l else none

/-- Any interleaving of the three. -/
abbrev ExitRun (env : DemoEnv) (c : CalmDesk) := Execution (Desk.exitStep env) c.desk

/-- The position was tracked at the calm moment. -/
def CalmDesk.Holds (c : CalmDesk) (symbol : Symbol) (ref : ℕ) : Prop :=
  c.desk.positions.get? symbol = some ref

/-- How many shares of an object an event journals. -/
def DemoEvent.journals (ref : ℕ) : DemoEvent → ℤ
  | .journaled (some r) n => if r = ref then n else 0
  | _ => 0

/-- With the P&L of how many shares of an object an event calls `record_close`. -/
def DemoEvent.records (ref : ℕ) : DemoEvent → ℤ
  | .recordedClose (some r) n _ => if r = ref then n else 0
  | _ => 0

/-- The shares of an object journaled so far. -/
def journaledShares (ref : ℕ) (log : List DemoEvent) : ℤ := (log.map (DemoEvent.journals ref)).sum

/-- The shares of an object whose P&L `record_close` was given so far. -/
def recordedShares (ref : ℕ) (log : List DemoEvent) : ℤ := (log.map (DemoEvent.records ref)).sum

/-- `del self.positions[symbol]` raised. -/
def DemoEvent.raises : DemoEvent → Bool
  | .raised _ => true
  | _ => false

/-- **The accounts are right**: no share is journaled or recorded twice, no call has raised, and
nothing is short. -/
structure Accounted (c : CalmDesk) (s : Desk) : Prop where
  journaled : ∀ symbol ref, c.Holds symbol ref →
    journaledShares ref s.log ≤ (c.desk.objects ref).shares
  recorded : ∀ symbol ref, c.Holds symbol ref →
    recordedShares ref s.log ≤ (c.desk.objects ref).shares
  noRaise : ∀ e ∈ s.log, e.raises = false
  nonneg : ∀ symbol ref, c.Holds symbol ref → 0 ≤ (s.objects ref).shares

/-! ## The exits that find their shares -/

/-- The exit the loop has with the broker; a scale-out with the shares it sells. -/
def EngineTask.selling : EngineTask → Option (PendingExit × Option ℤ)
  | .awaitScaleAck exit half _ => some (exit, some half)
  | .awaitExitAck exit _ _ => some (exit, none)
  | _ => none

/-- The exit a handler has with the broker. -/
def OperatorTask.selling : OperatorTask → Option (PendingExit × Option ℤ)
  | .closeAck symbol (some ref) price now => some (⟨symbol, ref, price, now⟩, none)
  | .scaleAck exit half => some (exit, some half)
  | _ => none

/-- The exit the broker answers. -/
def Desk.answered (s : Desk) : DeskLabel → Option (PendingExit × Option ℤ)
  | .ack _ => s.engine.selling
  | .taskAck i _ => (s.tasks i).selling
  | _ => none

/-- The exit the broker answers, if any, finds its position still tracked and, if it is a
scale-out, with at least the shares it sold. -/
def FindsItsShares (m : Move Desk DeskLabel) : Prop :=
  ∀ exit half, m.pre.answered m.label = some (exit, half) →
    m.pre.positions.get? exit.symbol = some exit.ref
      ∧ ∀ n, half = some n → n ≤ (m.pre.objects exit.ref).shares

/-! ## Where the tasks can be -/

/-- The loop is suspended within `_run_exits`, and what it holds was tracked. -/
def EngineTask.InExits (c : CalmDesk) : EngineTask → Prop
  | .idle => True
  | .exitQuote _ symbol ref rest => c.Holds symbol ref ∧ ∀ b ∈ rest, c.Holds b.1 b.2
  | .awaitScaleAck exit half rest =>
      c.Holds exit.symbol exit.ref ∧ 1 ≤ half ∧ ∀ b ∈ rest, c.Holds b.1 b.2
  | .awaitExitAck exit _ rest => c.Holds exit.symbol exit.ref ∧ ∀ b ∈ rest, c.Holds b.1 b.2
  | .scaleReported _ rest | .exitReported _ rest => ∀ b ∈ rest, c.Holds b.1 b.2
  | _ => False

/-- The handler is one of the two requests', and what it holds was tracked. -/
def OperatorTask.InExits (c : CalmDesk) : OperatorTask → Prop
  | .done => True
  | .closeQuote symbol ref _ | .closeAck symbol ref _ _ => ∀ r, ref = some r → c.Holds symbol r
  | .scaleQuote symbol ref _ => c.Holds symbol ref
  | .scaleAck exit half => c.Holds exit.symbol exit.ref ∧ 1 ≤ half
  | _ => False

namespace Desk

variable {env : DemoEnv} {c : CalmDesk} {s s' : Desk}

/-- All tasks are within the exits; nothing new is tracked. -/
structure InExits (c : CalmDesk) (s : Desk) : Prop where
  known : ∀ symbol ref, s.positions.get? symbol = some ref → c.Holds symbol ref
  engine : s.engine.InExits c
  tasks : ∀ i, (s.tasks i).InExits c

/-- Neither booked nor raised. -/
def silent : DemoEvent → Bool
  | .orderSent _ | .flattenSent _ => true
  | _ => false

/-- **What a step can do to the accounts.** -/
inductive Sold (s : Desk) (l : DeskLabel) (s' : Desk) : Prop where
  /-- No exit is answered. -/
  | none (es : List DemoEvent) : s.answered l = Option.none → s'.positions = s.positions →
      s'.objects = s.objects → s'.log = s.log ++ es → (∀ e ∈ es, silent e = true) → Sold s l s'
  /-- A scale-out is booked. -/
  | scaled {exit : PendingExit} {half : ℤ} : s.answered l = some (exit, some half) →
      s'.positions = s.positions → s'.objects = (s.bookScaleOut exit half).objects →
      s'.log = (s.bookScaleOut exit half).log → Sold s l s'
  /-- A full exit is booked, and the position is gone. -/
  | closed {exit : PendingExit} {reason : DemoExit} {ref : ℕ} :
      s.answered l = some (exit, Option.none) → s.positions.get? exit.symbol = some ref →
      s'.positions = s.positions.erase exit.symbol → s'.objects = s.objects →
      s'.log = (s.bookExit exit reason).log → Sold s l s'
  /-- A full exit is booked, and there is no position. -/
  | raised {exit : PendingExit} : s.answered l = some (exit, Option.none) →
      s.positions.get? exit.symbol = Option.none → s'.positions = s.positions →
      .raised exit.symbol ∈ s'.log → Sold s l s'

theorem inExits_nextExit {now : Time} {rest : List (Symbol × ℕ)}
    (h : ∀ b ∈ rest, c.Holds b.1 b.2) : (nextExit now rest).InExits c := by
  cases rest with
  | nil => trivial
  | cons b rest => exact ⟨h b List.mem_cons_self, fun b' hb' => h b' (List.mem_cons_of_mem _ hb')⟩

theorem InExits.runExits (h : s.InExits c) (now : Time) : (s.runExits env now).InExits c := by
  unfold Desk.runExits
  split
  · exact inExits_nextExit fun b hb => h.known b.1 b.2 (Dict.mem_items.mp hb)
  · trivial

/-- The loop moves on. -/
theorem InExits.moved (h : s.InExits c) (hp : s'.positions = s.positions)
    (hk : s'.tasks = s.tasks) (he : s'.engine.InExits c) : s'.InExits c :=
  ⟨fun symbol ref hr => h.known symbol ref (hp ▸ hr), he, fun i => hk ▸ h.tasks i⟩

/-- A handler moves on. -/
theorem InExits.toTask (h : s.InExits c) (i : ℕ) {t : OperatorTask}
    (hp : s'.positions = s.positions) (he : s'.engine = s.engine)
    (hk : s'.tasks = Function.update s.tasks i t) (ht : t.InExits c) : s'.InExits c := by
  refine ⟨fun symbol ref hr => h.known symbol ref (hp ▸ hr), he ▸ h.engine, fun j => ?_⟩
  rw [hk, Function.update_apply]
  split
  · exact ht
  · exact h.tasks j

/-- Dropping a position is no new one. -/
theorem InExits.erase (h : s.InExits c) (symbol : Symbol) :
    { s with positions := s.positions.erase symbol }.InExits c := by
  refine ⟨fun sym ref hr => ?_, h.engine, h.tasks⟩
  rw [Dict.get?_erase] at hr
  split at hr
  · exact absurd hr (by simp)
  · exact h.known sym ref hr

theorem InExits.engineSelling {t : EngineTask} (h : t.InExits c) {exit : PendingExit}
    {half : Option ℤ} (ha : t.selling = some (exit, half)) :
    c.Holds exit.symbol exit.ref ∧ ∀ n, half = some n → 1 ≤ n := by
  cases t with
  | awaitScaleAck e n rest =>
      obtain ⟨rfl, rfl⟩ := Prod.mk.inj (Option.some.inj ha)
      exact ⟨h.1, fun m hm => (Option.some.inj hm) ▸ h.2.1⟩
  | awaitExitAck e reason rest =>
      obtain ⟨rfl, rfl⟩ := Prod.mk.inj (Option.some.inj ha)
      exact ⟨h.1, fun m hm => absurd hm (by simp)⟩
  | _ => exact absurd ha (by simp [EngineTask.selling])

theorem InExits.taskSelling {t : OperatorTask} (h : t.InExits c) {exit : PendingExit}
    {half : Option ℤ} (ha : t.selling = some (exit, half)) :
    c.Holds exit.symbol exit.ref ∧ ∀ n, half = some n → 1 ≤ n := by
  cases t with
  | closeAck symbol ref price now =>
      cases ref with
      | none => exact absurd ha (by simp [OperatorTask.selling])
      | some ref =>
          obtain ⟨rfl, rfl⟩ := Prod.mk.inj (Option.some.inj ha)
          exact ⟨h ref rfl, fun m hm => absurd hm (by simp)⟩
  | scaleAck e n =>
      obtain ⟨rfl, rfl⟩ := Prod.mk.inj (Option.some.inj ha)
      exact ⟨h.1, fun m hm => (Option.some.inj hm) ▸ h.2⟩
  | _ => exact absurd ha (by simp [OperatorTask.selling])

/-- What is answered was tracked, and a scale-out sells at least one share. -/
theorem InExits.answered (h : s.InExits c) {l : DeskLabel} {exit : PendingExit} {half : Option ℤ}
    (ha : s.answered l = some (exit, half)) :
    c.Holds exit.symbol exit.ref ∧ ∀ n, half = some n → 1 ≤ n := by
  cases l with
  | ack a => exact engineSelling h.engine ha
  | taskAck i a => exact taskSelling (h.tasks i) ha
  | _ => exact absurd ha (by simp [Desk.answered])

/-! ## What one step does -/

theorem sold_gotExitQuote {quote : Option QuoteTick} (h : s.InExits c)
    (hs : s.gotExitQuote quote = some s') : Sold s (.exitQuote quote) s' ∧ s'.InExits c := by
  unfold gotExitQuote at hs
  split at hs
  · rename_i now symbol ref rest heng
    have he : (EngineTask.exitQuote now symbol ref rest).InExits c := heng ▸ h.engine
    have hrest : (nextExit now rest).InExits c := inExits_nextExit he.2
    split at hs
    · obtain rfl := Option.some.inj hs
      exact ⟨.none [] rfl rfl rfl (by simp) (by simp), h.moved rfl rfl hrest⟩
    dsimp only at hs
    split at hs
    · obtain rfl := Option.some.inj hs
      exact ⟨.none [] rfl rfl rfl (by simp) (by simp), h.moved rfl rfl hrest⟩
    · -- a scale-out is sent, of at least one share
      obtain rfl := Option.some.inj hs
      exact ⟨.none [_] rfl rfl rfl rfl (by simp [silent]),
        h.moved rfl rfl ⟨he.1, le_max_left .., he.2⟩⟩
    · -- a full exit is sent
      obtain rfl := Option.some.inj hs
      exact ⟨.none [_] rfl rfl rfl rfl (by simp [silent]), h.moved rfl rfl he⟩
  · exact absurd hs (by simp)

theorem sold_engineResume (h : s.InExits c) (hs : s.engineResume env = some s') :
    Sold s .resume s' ∧ s'.InExits c := by
  have he := h.engine
  -- where the loop is suspended decides what goes on
  cases heng : s.engine with
  | scaleReported now rest =>
      rw [heng] at he
      simp only [engineResume, heng, Option.some.injEq] at hs
      subst hs
      exact ⟨.none [] rfl rfl rfl (by simp) (by simp),
        h.moved rfl rfl (inExits_nextExit he)⟩
  | exitReported now rest =>
      rw [heng] at he
      simp only [engineResume, heng, Option.some.injEq] at hs
      subst hs
      exact ⟨.none [] rfl rfl rfl (by simp) (by simp),
        h.moved rfl rfl (inExits_nextExit he)⟩
  | idle | exitQuote | awaitScaleAck | awaitExitAck =>
      exact absurd hs (by simp [engineResume, heng])
  | _ => exact absurd he (by simp [heng, EngineTask.InExits])

theorem sold_engineAck {ack : OrderAck} (h : s.InExits c) (hs : s.engineAck ack = some s') :
    Sold s (.ack ack) s' ∧ s'.InExits c := by
  have he := h.engine
  cases heng : s.engine with
  | awaitScaleAck exit half rest =>
      rw [heng] at he
      simp only [engineAck, heng, Option.some.injEq] at hs
      subst hs
      exact ⟨.scaled (congrArg EngineTask.selling heng) rfl rfl rfl,
        h.moved rfl rfl he.2.2⟩
  | awaitExitAck exit reason rest =>
      rw [heng] at he
      simp only [engineAck, heng] at hs
      cases hf : (s.bookExit exit reason).forget exit.symbol with
      | none =>
          rw [hf] at hs
          obtain rfl := Option.some.inj hs
          exact ⟨.raised (congrArg EngineTask.selling heng) (forget_none hf :) rfl (by simp [note]),
            h.moved rfl rfl trivial⟩
      | some t =>
          rw [hf] at hs
          obtain rfl := Option.some.inj hs
          obtain ⟨⟨ref, hget⟩, rfl⟩ := forget_some hf
          exact ⟨.closed (congrArg EngineTask.selling heng) hget rfl rfl rfl,
            (h.erase exit.symbol).moved rfl rfl he.2⟩
  -- nothing is with the broker
  | idle | exitQuote | scaleReported | exitReported =>
      exact absurd hs (by simp [engineAck, heng])
  | _ => exact absurd he (by simp [heng, EngineTask.InExits])

theorem sold_taskQuote {i : ℕ} {quote : Option QuoteTick} (h : s.InExits c)
    (hs : s.taskQuote i quote = some s') : Sold s (.taskQuote i quote) s' ∧ s'.InExits c := by
  have ht := h.tasks i
  cases htask : s.tasks i with
  | closeQuote symbol ref now =>
      rw [htask] at ht
      simp only [taskQuote, htask, Option.some.injEq] at hs
      subst hs
      exact ⟨.none [_] rfl rfl rfl rfl (by simp [silent]), h.toTask i rfl rfl rfl ht⟩
  | scaleQuote symbol ref now =>
      rw [htask] at ht
      simp only [taskQuote, htask, Option.some.injEq] at hs
      subst hs
      exact ⟨.none [_] rfl rfl rfl rfl (by simp [silent]),
        h.toTask i rfl rfl rfl ⟨ht, le_max_left ..⟩⟩
  | done | closeAck | scaleAck => exact absurd hs (by simp [taskQuote, htask])
  | _ => exact absurd ht (by simp [htask, OperatorTask.InExits])

theorem sold_taskAck {i : ℕ} {ack : OrderAck} (h : s.InExits c)
    (hs : s.taskAck i ack = some s') : Sold s (.taskAck i ack) s' ∧ s'.InExits c := by
  have ht := h.tasks i
  cases htask : s.tasks i with
  | closeAck symbol ref price now =>
      rw [htask] at ht
      -- a close of a symbol that was not tracked books nothing
      cases ref with
      | none =>
          simp only [taskAck, htask, Option.some.injEq] at hs
          subst hs
          exact ⟨.none [] (congrArg OperatorTask.selling htask) rfl rfl (by simp [setTask]) (by simp),
            h.toTask i rfl rfl rfl trivial⟩
      | some ref =>
          simp only [taskAck, htask] at hs
          cases hf : (s.bookExit ⟨symbol, ref, price, now⟩ .manualClose).forget symbol with
          | none =>
              rw [hf] at hs
              obtain rfl := Option.some.inj hs
              exact ⟨.raised (congrArg OperatorTask.selling htask) (forget_none hf :) rfl
                (by simp [note, setTask]), h.toTask i rfl rfl rfl trivial⟩
          | some t =>
              rw [hf] at hs
              obtain rfl := Option.some.inj hs
              obtain ⟨⟨r, hget⟩, rfl⟩ := forget_some hf
              exact ⟨.closed (congrArg OperatorTask.selling htask) hget rfl rfl rfl,
                (h.erase symbol).toTask i rfl rfl rfl trivial⟩
  | scaleAck exit half =>
      simp only [taskAck, htask, Option.some.injEq] at hs
      subst hs
      exact ⟨.scaled (congrArg OperatorTask.selling htask) rfl rfl rfl,
        h.toTask i rfl rfl rfl trivial⟩
  | done | closeQuote | scaleQuote => exact absurd hs (by simp [taskAck, htask])
  | _ => exact absurd ht (by simp [htask, OperatorTask.InExits])

theorem sold_handle {i : ℕ} {r : Request} (h : s.InExits c)
    (hr : (DeskLabel.request i r).exits = true) :
    Sold s (.request i r) (s.handle env i r) ∧ (s.handle env i r).InExits c := by
  have hself : Sold s (.request i r) s := .none [] rfl rfl rfl (by simp) (by simp)
  -- asking for a quote sells nothing
  cases r with
  | closePosition symbol =>
      simp only [handle]
      split
      · exact ⟨hself, h⟩
      · exact ⟨.none [] rfl rfl rfl (by simp [setTask]) (by simp),
          h.toTask i rfl rfl rfl fun ref hget => h.known symbol ref hget⟩
  | scaleOutPosition symbol =>
      simp only [handle]
      split
      · exact ⟨hself, h⟩
      split
      · exact ⟨hself, h⟩
      · rename_i ref hget
        split
        · exact ⟨hself, h⟩
        · exact ⟨.none [] rfl rfl rfl (by simp [setTask]) (by simp),
            h.toTask i rfl rfl rfl (h.known symbol ref hget)⟩
  | _ => exact absurd hr (by simp [DeskLabel.exits])

/-- **One lemma for every step.** -/
theorem sold_exitStep {l : DeskLabel} (h : s.InExits c) (hs : exitStep env s l = some s') :
    Sold s l s' ∧ s'.InExits c := by
  obtain ⟨hl, hs⟩ := Option.ite_none_right_eq_some.mp hs
  cases l with
  | tick dt =>
      rw [step] at hs
      split at hs
      · obtain rfl := Option.some.inj hs
        exact ⟨.none [] rfl rfl rfl (by simp) (by simp), h.moved rfl rfl h.engine⟩
      · exact absurd hs (by simp)
  | iterate scan strategy =>
      -- the iteration neither scans nor trades
      obtain ⟨rfl, rfl⟩ : scan = false ∧ strategy = false := by
        cases scan <;> cases strategy <;> simp_all [DeskLabel.exits]
      rw [step, iterate] at hs
      split at hs
      · split at hs
        · exact absurd hs (by simp)
        · obtain rfl := Option.some.inj hs
          exact ⟨.none [] rfl rfl rfl (by simp) (by simp), h.moved rfl rfl (h.runExits s.clock)⟩
      · exact absurd hs (by simp)
  | exitQuote => exact sold_gotExitQuote h hs
  | resume => exact sold_engineResume h hs
  | ack => exact sold_engineAck h hs
  | taskQuote => exact sold_taskQuote h hs
  | taskAck => exact sold_taskAck h hs
  | request i r =>
      rw [step, Desk.request] at hs
      split at hs
      swap
      · exact absurd hs (by simp)
      obtain rfl := Option.some.inj hs
      exact sold_handle h hl
  | _ => exact absurd hl (by simp [DeskLabel.exits])

end Desk

/-! ## The accounts -/

section Accounts

variable {env : DemoEnv} {c : CalmDesk} {s s' : Desk}

/-- What holds while every exit that is answered finds its shares. -/
structure Book (c : CalmDesk) (s : Desk) : Prop where
  /-- What is tracked has the shares that are not yet journaled. -/
  tracked : ∀ symbol ref, s.positions.get? symbol = some ref →
    journaledShares ref s.log + (s.objects ref).shares = (c.desk.objects ref).shares
  /-- What is gone is journaled to the last share. -/
  gone : ∀ symbol ref, c.Holds symbol ref → s.positions.get? symbol ≠ some ref →
    journaledShares ref s.log = (c.desk.objects ref).shares
  both : ∀ ref, recordedShares ref s.log = journaledShares ref s.log
  noRaise : ∀ e ∈ s.log, e.raises = false
  nonneg : ∀ symbol ref, c.Holds symbol ref → 0 ≤ (s.objects ref).shares

theorem CalmDesk.book (c : CalmDesk) : Book c c.desk where
  tracked symbol ref _ := by rw [c.log]; exact zero_add _
  gone symbol ref h hn := absurd h hn
  both ref := by rw [c.log]; rfl
  noRaise e he := by rw [c.log] at he; exact absurd he (by simp)
  nonneg := c.nonneg

theorem CalmDesk.inExits (c : CalmDesk) : c.desk.InExits c where
  known _ _ h := h
  engine := by rw [c.idle]; trivial
  tasks i := by rw [c.done i]; trivial

/-- Accounts kept so are right. -/
theorem Book.accounted (h : Book c s) : Accounted c s := by
  have hle : ∀ symbol ref, c.Holds symbol ref →
      journaledShares ref s.log ≤ (c.desk.objects ref).shares := by
    intro symbol ref hr
    by_cases ht : s.positions.get? symbol = some ref
    · have hsum := h.tracked symbol ref ht
      have hpos := h.nonneg symbol ref hr
      omega
    · exact (h.gone symbol ref hr ht).le
  exact ⟨hle, fun symbol ref hr => h.both ref ▸ hle symbol ref hr, h.noRaise, h.nonneg⟩

theorem journaledShares_append (ref : ℕ) (log es : List DemoEvent) :
    journaledShares ref (log ++ es) = journaledShares ref log + journaledShares ref es := by
  rw [journaledShares, List.map_append, List.sum_append]; rfl

theorem recordedShares_append (ref : ℕ) (log es : List DemoEvent) :
    recordedShares ref (log ++ es) = recordedShares ref log + recordedShares ref es := by
  rw [recordedShares, List.map_append, List.sum_append]; rfl

/-- Silent events are not in the accounts. -/
theorem silent_shares {es : List DemoEvent} (h : ∀ e ∈ es, Desk.silent e = true) :
    (∀ ref, journaledShares ref es = 0) ∧ (∀ ref, recordedShares ref es = 0)
      ∧ ∀ e ∈ es, e.raises = false := by
  induction es with
  | nil => exact ⟨fun _ => rfl, fun _ => rfl, by simp⟩
  | cons e es ih =>
      obtain ⟨hj, hr, hn⟩ := ih fun e' he' => h e' (List.mem_cons_of_mem _ he')
      have he := h e List.mem_cons_self
      cases e with
      | orderSent | flattenSent =>
          refine ⟨fun ref => (zero_add _).trans (hj ref), fun ref => (zero_add _).trans (hr ref), ?_⟩
          intro e' he'
          rcases List.mem_cons.mp he' with rfl | he'
          · rfl
          · exact hn e' he'
      | _ => exact absurd he (by simp [Desk.silent])

/-- An exit of `n` shares is in both accounts, with the same number. -/
structure Booked (exit : PendingExit) (n : ℤ) (log log' : List DemoEvent) : Prop where
  journaled : ∀ ref, journaledShares ref log'
    = journaledShares ref log + if exit.ref = ref then n else 0
  recorded : ∀ ref, recordedShares ref log'
    = recordedShares ref log + if exit.ref = ref then n else 0
  noRaise : (∀ e ∈ log, e.raises = false) → ∀ e ∈ log', e.raises = false

theorem booked_pair {exit : PendingExit} {n : ℤ} {log log' : List DemoEvent}
    (h : ∃ pnl, log' = log ++ [.journaled (some exit.ref) n, .recordedClose (some exit.ref) n pnl]) :
    Booked exit n log log' := by
  obtain ⟨pnl, rfl⟩ := h
  refine ⟨fun ref => ?_, fun ref => ?_, fun hn e he => ?_⟩
  · rw [journaledShares_append]
    simp [journaledShares, DemoEvent.journals]
  · rw [recordedShares_append]
    simp [recordedShares, DemoEvent.records]
  · rcases List.mem_append.mp he with he | he
    · exact hn e he
    · rcases List.mem_pair.mp he with rfl | rfl <;> rfl

/-- A position's object is no other's. -/
theorem CalmDesk.ref_inj (c : CalmDesk) {a b : Symbol} {r r' : ℕ} (ha : c.Holds a r)
    (hb : c.Holds b r') : a = b ↔ r = r' := by
  constructor
  · rintro rfl
    exact Option.some.inj (ha.symm.trans hb)
  · rintro rfl
    exact c.distinct a b r ha hb

/-- A step that books nothing. -/
theorem Book.silent (h : Book c s) (es : List DemoEvent) (hp : s'.positions = s.positions)
    (ho : s'.objects = s.objects) (hl : s'.log = s.log ++ es)
    (hes : ∀ e ∈ es, Desk.silent e = true) : Book c s' := by
  obtain ⟨hj, hr, hraise⟩ := silent_shares hes
  have hjl : ∀ ref, journaledShares ref s'.log = journaledShares ref s.log := fun ref => by
    rw [hl, journaledShares_append, hj, add_zero]
  refine ⟨fun symbol ref ht => ?_, fun symbol ref hh hn => ?_, fun ref => ?_, fun e he => ?_,
    ho ▸ h.nonneg⟩
  · rw [hjl, ho]
    exact h.tracked symbol ref (hp ▸ ht)
  · rw [hjl]
    exact h.gone symbol ref hh (hp ▸ hn)
  · rw [hjl, hl, recordedShares_append, hr, add_zero, h.both]
  · rw [hl] at he
    rcases List.mem_append.mp he with he | he
    · exact h.noRaise e he
    · exact hraise e he

/-- A scale-out of a tracked position that has the shares. -/
theorem Book.scaled (h : Book c s) {exit : PendingExit} {half : ℤ}
    (hhold : c.Holds exit.symbol exit.ref)
    (htracked : s.positions.get? exit.symbol = some exit.ref)
    (hle : half ≤ (s.objects exit.ref).shares) (hp : s'.positions = s.positions)
    (ho : s'.objects = (s.bookScaleOut exit half).objects)
    (hl : s'.log = (s.bookScaleOut exit half).log) : Book c s' := by
  have hb : Booked exit half s.log s'.log := hl ▸ booked_pair (Desk.log_bookScaleOut exit half)
  refine ⟨fun symbol ref ht => ?_, fun symbol ref hh hn => ?_, fun ref => ?_, hb.noRaise h.noRaise,
    fun symbol ref hh => ?_⟩
  · -- what is journaled has left the object
    have hsum := h.tracked symbol ref (hp ▸ ht)
    rw [hb.journaled, ho, Desk.shares_bookScaleOut, ← hsum]
    by_cases hr : exit.ref = ref
    · rw [if_pos hr, if_pos hr.symm]; omega
    · rw [if_neg hr, if_neg (Ne.symm hr), add_zero]
  · -- what is gone is not what was sold
    have hr : exit.ref ≠ ref := by
      intro hr
      have hsym := (c.ref_inj hhold hh).mpr hr
      exact hn (by rw [hp, ← hsym, ← hr, htracked])
    rw [hb.journaled, if_neg hr, add_zero]
    exact h.gone symbol ref hh (hp ▸ hn)
  · rw [hb.recorded, hb.journaled, h.both]
  · rw [ho, Desk.shares_bookScaleOut]
    split
    · rename_i hr
      rw [hr]
      exact sub_nonneg.mpr hle
    · exact h.nonneg symbol ref hh

/-- A full exit of a tracked position. -/
theorem Book.closed (h : Book c s) (hi : s.InExits c) {exit : PendingExit} {reason : DemoExit}
    (hhold : c.Holds exit.symbol exit.ref)
    (htracked : s.positions.get? exit.symbol = some exit.ref)
    (hp : s'.positions = s.positions.erase exit.symbol) (ho : s'.objects = s.objects)
    (hl : s'.log = (s.bookExit exit reason).log) : Book c s' := by
  have hb : Booked exit (s.objects exit.ref).shares s.log s'.log :=
    hl ▸ booked_pair (Desk.log_bookExit exit reason)
  refine ⟨fun symbol ref ht => ?_, fun symbol ref hh hn => ?_, fun ref => ?_, hb.noRaise h.noRaise,
    ho ▸ h.nonneg⟩
  · -- what is still tracked is another position
    rw [hp, Dict.get?_erase] at ht
    split at ht
    · exact absurd ht (by simp)
    · rename_i hsym
      have hr : exit.ref ≠ ref := fun hr =>
        hsym ((c.ref_inj hhold (hi.known symbol ref ht)).mpr hr).symm
      rw [hb.journaled, if_neg hr, add_zero, ho]
      exact h.tracked symbol ref ht
  · rw [hb.journaled]
    by_cases hr : exit.ref = ref
    · -- all that was left of it is journaled now
      rw [if_pos hr, ← hr]
      exact h.tracked exit.symbol exit.ref htracked
    · have hsym : symbol ≠ exit.symbol := fun hsym =>
        hr ((c.ref_inj hhold hh).mp hsym.symm)
      rw [hp, Dict.get?_erase, if_neg hsym] at hn
      rw [if_neg hr, add_zero]
      exact h.gone symbol ref hh hn
  · rw [hb.recorded, hb.journaled, h.both]

/-- **What the condition keeps.** -/
theorem Book.of_sold {l : DeskLabel} (h : Book c s) (hi : s.InExits c) (hsold : Desk.Sold s l s')
    (hc : FindsItsShares ⟨s, l, s'⟩) : Book c s' := by
  cases hsold with
  | none es hn hp ho hl hes => exact h.silent es hp ho hl hes
  | scaled ha hp ho hl =>
      obtain ⟨htracked, hle⟩ := hc _ _ ha
      exact h.scaled (hi.answered ha).1 htracked (hle _ rfl) hp ho hl
  | closed ha hget hp ho hl => exact h.closed hi (hi.answered ha).1 (hc _ _ ha).1 hp ho hl
  | raised ha hget => exact absurd ((hc _ _ ha).1.symm.trans hget) (by simp)

/-- **What the accounts need.** -/
theorem Book.finds (h : Book c s) {l : DeskLabel} (hi : s.InExits c) (hsold : Desk.Sold s l s')
    (ha : Accounted c s') : FindsItsShares ⟨s, l, s'⟩ := by
  intro exit half hans
  obtain ⟨hhold, hone⟩ := hi.answered hans
  cases hsold with
  | none es hn => exact absurd (hn.symm.trans hans) (by simp)
  | @scaled exit' n hans' hp ho hl =>
      obtain ⟨rfl, rfl⟩ := Prod.mk.inj (Option.some.inj (hans'.symm.trans hans))
      -- the scale-out is booked whatever it finds
      have hb : Booked exit' n s.log s'.log := hl ▸ booked_pair (Desk.log_bookScaleOut exit' n)
      constructor
      · -- an untracked position has no share left to journal
        by_contra hn
        have hall := h.gone exit'.symbol exit'.ref hhold hn
        have hmost := ha.journaled exit'.symbol exit'.ref hhold
        have hsold := hone n rfl
        rw [hb.journaled, if_pos rfl, hall] at hmost
        omega
      · -- what is sold beyond them is short
        intro m hm
        have hpos := ha.nonneg exit'.symbol exit'.ref hhold
        rw [ho, Desk.shares_bookScaleOut, if_pos rfl, Option.some.inj hm] at hpos
        exact sub_nonneg.mp hpos
  | @closed exit' reason ref hans' hget hp ho hl =>
      obtain ⟨rfl, rfl⟩ := Prod.mk.inj (Option.some.inj (hans'.symm.trans hans))
      have hr : ref = exit'.ref := (c.ref_inj (hi.known _ ref hget) hhold).mp rfl
      exact ⟨hr ▸ hget, fun m hm => absurd hm (by simp)⟩
  | raised hans' hget hp hl => exact absurd (ha.noRaise _ hl) (by simp [DemoEvent.raises])

end Accounts

/-- **Exactly the exits that find their shares are accounted for**: in a run of `_run_exits` and
any number of closes and scale-outs of the operator, no share is booked twice, nothing raises
and nothing goes short all along if and only if every exit the broker answers finds what it was
sent for. -/
theorem accounted_iff (env : DemoEnv) (c : CalmDesk) (x : ExitRun env c) :
    (∀ s, x.Visits s → Accounted c s) ↔ ∀ m ∈ x.moves, FindsItsShares m := by
  refine x.visits_iff (I := fun s => s.InExits c ∧ Book c s) ⟨c.inExits, c.book⟩
    (fun s h => h.2.accounted) ?_ ?_
  · intro s l s' h hs hc
    obtain ⟨hsold, hi⟩ := Desk.sold_exitStep h.1 hs
    exact ⟨hi, h.2.of_sold h.1 hsold hc⟩
  · intro s l s' h hs ha
    exact h.2.finds h.1 (Desk.sold_exitStep h.1 hs).1 ha

/-! ## A close during a close -/

/-- A hundred shares at ten dollars, the stop at 9.80. -/
def hundredShares : DemoPosition := ⟨"TEST", 100, 10, 98 / 10, openingBell, false, .manual⟩

/-- The position is tracked, and nothing is going on. -/
def quietDesk : CalmDesk where
  desk := { (Desk.init deskDay).openPosition hundredShares with log := [] }
  idle := rfl
  done _ := rfl
  log := rfl
  distinct a b ref ha hb := by
    have hone : ∀ a ref, ((∅ : Dict Symbol ℕ).set "TEST" 0).get? a = some ref → a = "TEST" := by
      intro a ref h
      rw [Dict.get?_set] at h
      split at h
      · assumption
      · exact absurd h (by simp)
    rw [hone a ref ha, hone b ref hb]
  nonneg symbol ref h := by
    have hshares : ∀ r, 0 ≤ (Function.update (fun _ => Desk.noPosition) 0 hundredShares r).shares := by
      intro r
      rw [Function.update_apply]
      split <;> decide
    exact hshares ref

/-- The stop is hit and the loop sends its exit; the operator closes the position meanwhile. -/
def closedTwice : List DeskLabel :=
  [.iterate false false, .exitQuote (some ⟨cents 970, cents 975⟩), .request 0 (.closePosition "TEST"),
    .taskQuote 0 (some ⟨cents 970, cents 975⟩), .ack orderTaken, .taskAck 0 orderTaken]

/-- Its hundred shares are journaled twice. -/
theorem booked_twice :
    ¬ ∀ (env : DemoEnv) (c : CalmDesk) (x : ExitRun env c) s, x.Visits s → Accounted c s := by
  intro h
  have hacc := h deskDay quietDesk ((Execution.start _ _).play closedTwice) _
    (Execution.visits_final _)
  have hshares : journaledShares 0 ((Execution.start (Desk.exitStep deskDay) quietDesk.desk).play
      closedTwice).final.log = 200 := by decide +kernel
  have hmost := hacc.journaled "TEST" 0 rfl
  rw [hshares] at hmost
  exact absurd hmost (by decide)

end RossBot
