import RossBot.Lib.Replica
import RossBot.Dashboard.Hub

/-!
# A tab follows the engine

A tab is a replica of the engine's state: what is on its way to it are the frames
of its socket and what the lock's holder and those who wait for the lock have yet to send
there. Each of the server's steps is one of a replica's (`Hub.replica_step`), as
long as the tab keeps its socket and nobody else says what the state is: the
`StateService` does when the kill switch is used, and so does an answer to a GET
that is older than what was pushed meanwhile.

A pushed state brings a tab back, whatever it showed before, and so does a new
socket when no broadcast waits while it is registered. If one waits then, the snapshot holds
what that broadcast tells of, and the tab is told again.
-/

namespace RossBot.Dashboard

open Lib

variable {J : Type} {h h' : Hub J} {l : Label J} {t c : ℕ}

/-! ## What a tab shows -/

/-- What a message makes of what a tab shows. -/
def readData (data : Option (DashboardState J)) (m : Message J) : Option (DashboardState J) :=
  (View.handleMessage ⟨data, .live, []⟩ m).data

theorem View.data_handleMessage (v : View J) (m : Message J) :
    (v.handleMessage m).data = readData v.data m := by
  obtain ⟨data, status, alerts⟩ := v
  cases m with
  | signal e => cases data <;> rfl
  | riskEvent e => cases data <;> rfl
  | _ => rfl

/-- A message that does not say what the state is. -/
def Message.aside : Message J → Bool
  | .catalystUpdate _ | .healthUpdate _ => true
  | _ => false

theorem readData_aside {m : Message J} (hm : m.aside = true) (data : Option (DashboardState J)) :
    readData data m = data := by
  cases m with
  | catalystUpdate => rfl
  | healthUpdate => rfl
  | _ => exact absurd hm (by simp [Message.aside])

/-! ## What is on its way -/

/-- What a waiting broadcast sends. -/
def Waiter.message : Waiter J → Option (Message J)
  | .broadcast m => some m
  | .connect _ => none

/-- The socket that waits to be registered. -/
def Waiter.conn : Waiter J → Option ℕ
  | .broadcast _ => none
  | .connect conn => some conn

/-- What a broadcast has yet to send to a socket. -/
def Broadcast.unsent (c : ℕ) (b : Broadcast J) : List (Message J) :=
  if c ∈ b.rest then [b.message] else []

namespace Hub

/-- What waits for the lock to be sent. -/
def told (h : Hub J) : List (Message J) := h.waiting.filterMap Waiter.message

/-- The sockets that are registered, and those that wait to be. -/
def held (h : Hub J) : List ℕ := h.connections ++ h.waiting.filterMap Waiter.conn

/-- What is yet to be sent to a registered socket. -/
def unsent (h : Hub J) (c : ℕ) : List (Message J) :=
  h.sending.elim [] (Broadcast.unsent c) ++ h.told

/-- A tab as a replica of the engine's state. -/
def replica (h : Hub J) (t c : ℕ) : Replica (Option (DashboardState J)) (Message J) where
  pending := h.frames c ++ h.unsent c
  view := (h.tabs t).view.data
  source := some h.demo.toState

/-- Tab `t` reads from socket `c`, and the server sends to it. -/
structure Live (h : Hub J) (t c : ℕ) : Prop where
  conn : (h.tabs t).conn = some c
  registered : c ∈ h.connections
  alive : ∀ b, h.sending = some b → c ∉ b.dead

/-- A socket is one tab's, and is registered once. -/
structure Sound (h : Hub J) : Prop where
  nodup : h.held.Nodup
  lt : ∀ conn ∈ h.held, conn < h.opened
  rest : ∀ b, h.sending = some b → b.rest.Nodup
  tabs : ∀ tab conn, (h.tabs tab).conn = some conn → conn < h.opened
  unique : ∀ tab tab' conn, (h.tabs tab).conn = some conn → (h.tabs tab').conn = some conn →
    tab = tab'

/-! ## The lock -/

theorem acquire_free {ok : Bool} {x : Waiter J} (hs : h.sending = none) (hw : h.waiting = []) :
    h.acquire ok x = h.enter ok x := by
  rw [acquire, if_pos (by simp [hs, hw])]

theorem acquire_taken {ok : Bool} {x : Waiter J} (hb : ¬ (h.sending = none ∧ h.waiting = [])) :
    h.acquire ok x = { h with waiting := h.waiting ++ [x] } := by
  rw [acquire, if_neg]
  simpa using hb

/-- What a broadcast changes: the lock, and what is on its way to a registered socket. -/
theorem broadcastJson_eq (m : Message J) :
    ∃ sending waiting, h.broadcastJson m = { h with sending := sending, waiting := waiting }
      ∧ waiting.filterMap Waiter.conn = h.waiting.filterMap Waiter.conn
      ∧ (∀ b, sending = some b → h.sending = some b ∨ b.rest = h.connections ∧ b.dead = [])
      ∧ (c ∈ h.connections → (h.broadcastJson m).unsent c = h.unsent c ++ [m]) := by
  unfold broadcastJson
  split
  · -- nobody is connected
    rename_i hnil
    refine ⟨h.sending, h.waiting, rfl, rfl, fun b hb => Or.inl hb, fun hc => ?_⟩
    rw [List.isEmpty_iff.mp hnil] at hc
    exact absurd hc (by simp)
  · by_cases hb : h.sending = none ∧ h.waiting = []
    · -- the lock is free: the broadcast begins at once, to all
      rw [acquire_free hb.1 hb.2]
      refine ⟨_, _, rfl, rfl, ?_, ?_⟩
      · rintro b hb
        obtain rfl := Option.some.inj hb
        exact Or.inr ⟨rfl, rfl⟩
      · intro hc
        simp [unsent, enter, told, Broadcast.unsent, hb.1, hb.2, hc]
    · -- it is taken: the broadcast waits in line
      rw [acquire_taken hb]
      refine ⟨_, _, rfl, by simp [Waiter.conn], fun b hb => Or.inl hb, ?_⟩
      intro _
      simp [unsent, told, Waiter.message]

/-- A broadcast is published to every registered socket. -/
theorem replica_broadcastJson {demo : DemoDashboardState J} {m : Message J}
    (hc : c ∈ h.connections) (hm : readData (some h.demo.toState) m = some demo.toState) :
    Replica.Step readData (h.replica t c) 0
      (({ h with demo := demo } : Hub J).broadcastJson m |>.replica t c) := by
  obtain ⟨sending, waiting, heq, -, -, hunsent⟩ :=
    broadcastJson_eq (h := { h with demo := demo }) (c := c) m
  have hnext : (({ h with demo := demo } : Hub J).broadcastJson m).replica t c
      = ⟨(h.replica t c).pending ++ [m], (h.replica t c).view, readData (h.replica t c).source m⟩ := by
    change Replica.mk _ _ _ = _
    rw [hunsent hc, heq]
    change Replica.mk (h.frames c ++ (h.unsent c ++ [m])) _ (some demo.toState) = _
    rw [← hm, ← List.append_assoc]
    rfl
  rw [hnext]
  exact .publish _ m

/-- The lock is asked for, or taken, for a new socket. -/
theorem acquire_connect (h : Hub J) (ok : Bool) (conn : ℕ) :
    (∃ waiting, h.acquire ok (.connect conn) = { h with waiting := waiting }
      ∧ waiting = h.waiting ++ [.connect conn])
    ∨ h.sending = none ∧ h.waiting = [] ∧ h.acquire ok (.connect conn) = h.enter ok (.connect conn) := by
  by_cases hb : h.sending = none ∧ h.waiting = []
  · exact Or.inr ⟨hb.1, hb.2, acquire_free hb.1 hb.2⟩
  · exact Or.inl ⟨_, acquire_taken hb, rfl⟩

/-- Another socket is registered. -/
theorem replica_enter_connect {ok : Bool} {conn : ℕ} (hne : conn ≠ c) :
    (h.enter ok (.connect conn)).replica t c = h.replica t c := by
  cases ok with
  | true =>
      change Replica.mk (Function.update h.frames conn _ c ++ _) _ _ = _
      rw [Function.update_of_ne hne.symm]
      rfl
  | false => rfl

theorem held_enter_connect {ok : Bool} {conn : ℕ} :
    (h.enter ok (.connect conn)).held.Sublist
      (h.connections ++ conn :: h.waiting.filterMap Waiter.conn) := by
  rw [← List.singleton_append, ← List.append_assoc]
  cases ok with
  | true => exact List.Sublist.refl _
  | false => exact (List.erase_sublist).append (List.Sublist.refl _)

/-! ## Soundness -/

theorem Sound.start {risk health : J} : Sound (start risk health) where
  nodup := List.nodup_nil
  lt := by simp [held, Hub.start]
  rest := by simp [Hub.start]
  tabs := by simp [Hub.start]
  unique := by simp [Hub.start]

/-- Fewer sockets are held; a broadcast goes on, or starts with those registered. -/
theorem Sound.of_held (hh : h.Sound) (hheld : h'.held.Sublist h.held) (hopened : h'.opened = h.opened)
    (hconn : ∀ tab conn, (h'.tabs tab).conn = some conn → (h.tabs tab).conn = some conn)
    (hrest : ∀ b, h'.sending = some b → b.rest.Nodup) : h'.Sound where
  nodup := hh.nodup.sublist hheld
  lt := by
    intro conn hc
    rw [hopened]
    exact hh.lt conn (hheld.subset hc)
  rest := hrest
  tabs := by
    intro tab conn hc
    rw [hopened]
    exact hh.tabs tab conn (hconn tab conn hc)
  unique := fun tab tab' conn hc hc' =>
    hh.unique tab tab' conn (hconn tab conn hc) (hconn tab' conn hc')

theorem Sound.broadcastJson (hh : h.Sound) (m : Message J) : (h.broadcastJson m).Sound := by
  obtain ⟨sending, waiting, heq, hconn, hsend, -⟩ := broadcastJson_eq (h := h) (c := 0) m
  rw [heq]
  refine hh.of_held ?_ rfl (fun _ _ h => h) ?_
  · change (h.connections ++ waiting.filterMap Waiter.conn).Sublist _
    rw [hconn]
    exact List.Sublist.refl _
  · intro b hb
    rcases hsend b hb with hold | ⟨hrest, -⟩
    · exact hh.rest b hold
    · rw [hrest]
      exact (List.nodup_append.mp hh.nodup).1

/-- Another state of the engine is as sound. -/
theorem Sound.demo (hh : h.Sound) (demo : DemoDashboardState J) :
    ({ h with demo := demo } : Hub J).Sound :=
  hh.of_held (List.Sublist.refl _) rfl (fun _ _ h => h) hh.rest

/-- A tab that changes keeps its socket, or loses it. -/
theorem Sound.setTab (hh : h.Sound) {tab : ℕ} {x : Tab J}
    (hx : ∀ conn, x.conn = some conn → (h.tabs tab).conn = some conn) : (h.setTab tab x).Sound := by
  refine hh.of_held (List.Sublist.refl _) rfl ?_ hh.rest
  intro tab' conn hc
  by_cases ht : tab' = tab
  · subst ht
    exact hx conn (by simpa [Hub.setTab] using hc)
  · simpa [Hub.setTab, ht] using hc

theorem Sound.enter (hh : h.Sound) {x : Waiter J} {rest : List (Waiter J)} (ok : Bool)
    (hw : h.waiting = x :: rest) (hs : h.sending = none) :
    (({ h with waiting := rest } : Hub J).enter ok x).Sound := by
  cases x with
  -- a broadcast begins, to everybody registered now
  | broadcast m =>
      have hheld : h.held = h.connections ++ rest.filterMap Waiter.conn := by
        rw [held, hw, List.filterMap_cons_none rfl]
      refine hh.of_held (hheld ▸ List.Sublist.refl _) rfl (fun _ _ h => h) ?_
      intro b hb
      obtain rfl := Option.some.inj hb
      exact (List.nodup_append.mp hh.nodup).1
  -- a connection is registered, if the handshake went well
  | connect conn =>
      have hheld : h.held = h.connections ++ conn :: rest.filterMap Waiter.conn := by
        rw [held, hw]
        rfl
      refine hh.of_held (hheld ▸ held_enter_connect) ?_ ?_ ?_
      · cases ok <;> rfl
      · cases ok <;> exact fun _ _ h => h
      · have hnone : (({ h with waiting := rest } : Hub J).enter ok (.connect conn)).sending = none := by
          cases ok <;> exact hs
        simp [hnone]

/-- The next socket is a new one, also while it waits. -/
theorem Sound.opening (hh : h.Sound) (tab : ℕ) :
    Sound { h.opening tab with waiting := h.waiting ++ [.connect h.opened] } := by
  have hheld : Hub.held { h.opening tab with waiting := h.waiting ++ [.connect h.opened] }
      = h.held ++ [h.opened] := by
    simp [held, Hub.opening, Hub.setTab, Waiter.conn]
  -- only the tab that opens gets the new number
  have hconn : ∀ tab' conn, ((h.opening tab).tabs tab').conn = some conn →
      tab' = tab ∧ conn = h.opened ∨ (h.tabs tab').conn = some conn := by
    intro tab' conn hc
    by_cases ht : tab' = tab
    · exact Or.inl ⟨ht, by simpa [Hub.opening, Hub.setTab, ht] using hc.symm⟩
    · exact Or.inr (by simpa [Hub.opening, Hub.setTab, ht] using hc)
  refine ⟨?_, ?_, hh.rest, ?_, ?_⟩
  · -- a number that was never used
    rw [hheld, List.nodup_append]
    refine ⟨hh.nodup, by simp, ?_⟩
    rintro conn hc _ hb rfl
    exact absurd (hh.lt conn hc) (by simp [List.mem_singleton.mp hb])
  · rw [hheld]
    intro conn hc
    rcases List.mem_append.mp hc with hc | hc
    · exact (hh.lt conn hc).trans (Nat.lt_succ_self _)
    · rw [List.mem_singleton.mp hc]
      exact Nat.lt_succ_self _
  · intro tab' conn hc
    rcases hconn tab' conn hc with ⟨-, rfl⟩ | hc
    · exact Nat.lt_succ_self _
    · exact (hh.tabs tab' conn hc).trans (Nat.lt_succ_self _)
  · -- two tabs that hold one number are one tab
    intro tab₁ tab₂ conn h1 h2
    rcases hconn tab₁ conn h1 with ⟨ht, hnew⟩ | h1
    · rcases hconn tab₂ conn h2 with ⟨ht', -⟩ | h2
      · rw [ht, ht']
      · exact absurd (hh.tabs tab₂ conn h2) (by simp [hnew])
    · rcases hconn tab₂ conn h2 with ⟨-, hnew⟩ | h2
      · exact absurd (hh.tabs tab₁ conn h1) (by simp [hnew])
      · exact hh.unique tab₁ tab₂ conn h1 h2

theorem Sound.openSocket (hh : h.Sound) {tab : ℕ} {ok : Bool}
    (hs : h.openSocket tab ok = some h') : h'.Sound := by
  unfold Hub.openSocket at hs
  split at hs
  · exact absurd hs (by simp)
  obtain rfl := Option.some.inj hs
  rcases acquire_connect (h.opening tab) ok h.opened with
    ⟨waiting, heq, rfl⟩ | ⟨hs, hw, heq⟩
  · rw [heq]
    exact hh.opening tab
  · rw [heq]
    -- the lock is granted as if the socket had been the only one to wait for it
    have hnil : h.waiting = [] := hw
    have halone : h.waiting ++ [.connect h.opened] = .connect h.opened :: [] := by rw [hnil]; rfl
    have hwaits := (hh.opening tab).enter ok halone hs
    have heta : ({ h.opening tab with waiting := [] } : Hub J) = h.opening tab :=
      congrArg (fun w => ({ h.opening tab with waiting := w } : Hub J)) hw.symm
    exact heta ▸ hwaits

/--
**Preserved by every step.**

A socket's number is new when a tab opens it, and it is held once: it waits for the
lock, then it is registered. Whatever drops it, a failed send or a disconnect, only
makes the lists shorter.
-/
theorem Sound.step (hh : h.Sound) (hs : h.step l = some h') : h'.Sound := by
  cases l with
  | updateWatchlists | updatePositionsAndRisk | updateHealth | addSignal | addRiskEvent
  | broadcast => exact Option.some.inj hs ▸ (hh.demo _).broadcastJson _
  | sent ok =>
      -- one recipient less, dead or not
      rw [Hub.step, Hub.sent] at hs
      split at hs
      · rename_i m conn rest dead hsend
        have hrest := (List.nodup_cons.mp (hh.rest _ hsend)).2
        cases ok with
        | true =>
            obtain rfl := Option.some.inj hs
            exact hh.of_held (List.Sublist.refl _) rfl (fun _ _ h => h)
              fun b hb => Option.some.inj hb ▸ hrest
        | false =>
            obtain rfl := Option.some.inj hs
            exact hh.of_held (List.Sublist.refl _) rfl (fun _ _ h => h)
              fun b hb => Option.some.inj hb ▸ hrest
      · exact absurd hs (by simp)
  | released =>
      -- the lock is released without those that failed
      rw [Hub.step, Hub.released] at hs
      split at hs
      · obtain rfl := Option.some.inj hs
        exact hh.of_held ((List.diff_sublist _ _).append (List.Sublist.refl _)) rfl (fun _ _ h => h)
          (by simp)
      · exact absurd hs (by simp)
  | granted ok =>
      -- the next in line gets it
      rw [Hub.step, Hub.granted] at hs
      split at hs
      · rename_i x rest hnone hw
        obtain rfl := Option.some.inj hs
        exact hh.enter ok hw hnone
      · exact absurd hs (by simp)
  | opened tab ok => exact hh.openSocket hs
  | disconnected conn =>
      -- a socket that is gone is no longer registered
      obtain rfl := Option.some.inj hs
      exact hh.of_held (List.erase_sublist.append (List.Sublist.refl _)) rfl (fun _ _ h => h) hh.rest
  | closed tab =>
      rw [Hub.step] at hs
      split at hs
      · exact absurd hs (by simp)
      · obtain rfl := Option.some.inj hs
        exact hh.setTab (by simp)
  | message tab =>
      -- a frame is read
      rw [Hub.step, readFrame] at hs
      split at hs
      · exact absurd hs (by simp)
      split at hs
      · exact absurd hs (by simp)
      · rename_i conn hconn _ m ms _
        obtain rfl := Option.some.inj hs
        have hframes : Sound { h with frames := Function.update h.frames conn ms } :=
          hh.of_held (List.Sublist.refl _) rfl (fun _ _ h => h) hh.rest
        exact hframes.setTab fun _ hc => hc
  | answered tab => exact Option.some.inj hs ▸ hh.setTab fun _ hc => hc
  | fetched tab i =>
      rw [Hub.step, Hub.fetched] at hs
      split at hs
      · exact absurd hs (by simp)
      · exact Option.some.inj hs ▸ hh.setTab fun _ hc => hc
  | fetchFailed tab => exact Option.some.inj hs ▸ hh.setTab fun _ hc => hc

end Hub

/-! ## One step -/

/-- What is published, if anything is: the engine's next state, and the message that tells of it. -/
def Label.publishes (demo : DemoDashboardState J) :
    Label J → Option (DemoDashboardState J × Message J)
  | .updateWatchlists tierA tierB =>
      let demo := { demo with tierA := tierA, tierB := tierB }
      some (demo, .stateUpdate demo.toState)
  | .updatePositionsAndRisk positions risk =>
      let demo := { demo with positions := positions, risk := risk }
      some (demo, .stateUpdate demo.toState)
  | .updateHealth health =>
      let demo := { demo with health := health }
      some (demo, .stateUpdate demo.toState)
  | .addSignal ts symbol action eventType detail conviction =>
      let (demo, signal) := demo.makeSignal ts symbol action eventType detail conviction
      some ({ demo with signals := demo.signals.appendleft signal }, .signal signal)
  | .addRiskEvent ts eventType severity text detail =>
      let (demo, event) := demo.makeRiskEvent ts eventType severity text detail
      some ({ demo with riskEvents := demo.riskEvents.appendleft event }, .riskEvent event)
  | .broadcast m => some (demo, m)
  | _ => none

theorem Hub.step_of_publishes {p : DemoDashboardState J × Message J}
    (hp : l.publishes h.demo = some p) :
    h.step l = some (({ h with demo := p.1 } : Hub J).broadcastJson p.2) := by
  cases l with
  | updateWatchlists | updatePositionsAndRisk | updateHealth | addSignal | addRiskEvent
  | broadcast =>
      obtain rfl := Option.some.inj hp
      rfl
  | _ => exact absurd hp (by simp [Label.publishes])

/-- Nobody but the engine tells tab `t` what the state is. -/
def Label.faithful (t : ℕ) : Label J → Bool
  | .broadcast m => m.aside
  | .fetched tab _ => tab != t
  | _ => true

theorem readData_of_publishes {demo : DemoDashboardState J}
    {p : DemoDashboardState J × Message J} (hp : l.publishes demo = some p)
    (hl : l.faithful t = true) : readData (some demo.toState) p.2 = some p.1.toState := by
  cases l with
  | updateWatchlists | updatePositionsAndRisk | updateHealth | addSignal | addRiskEvent =>
      obtain rfl := Option.some.inj hp
      rfl
  | broadcast m =>
      obtain rfl := Option.some.inj hp
      exact readData_aside hl _
  | _ => exact absurd hp (by simp [Label.publishes])

/-- How many frames tab `t` reads. -/
def Label.reads (t : ℕ) : Label J → ℕ
  | .message tab => if tab = t then 1 else 0
  | _ => 0

/-- The engine pushes its whole state. -/
def Label.pushesState : Label J → Bool
  | .updateWatchlists .. | .updatePositionsAndRisk .. | .updateHealth .. => true
  | _ => false

namespace Hub

theorem replica_congr (hp : h'.frames c ++ h'.unsent c = h.frames c ++ h.unsent c)
    (ht : (h'.tabs t).view = (h.tabs t).view) (hd : h'.demo = h.demo) :
    h'.replica t c = h.replica t c := by
  rw [replica, replica, hp, ht, hd]

theorem replica_sent (hh : h.Sound) {ok : Bool} (hs : h.sent ok = some h') (hlive : h'.Live t c) :
    h'.replica t c = h.replica t c := by
  unfold sent at hs
  split at hs
  · rename_i m conn rest dead hsend
    -- a recipient is told once
    have hnot : conn ∉ rest := (List.nodup_cons.mp (hh.rest _ hsend)).1
    cases ok with
    | true =>
        obtain rfl := Option.some.inj hs
        refine replica_congr ?_ rfl rfl
        change Function.update h.frames conn _ c ++ (Broadcast.unsent c ⟨m, rest, dead⟩ ++ h.told)
          = h.frames c ++ (h.sending.elim [] _ ++ h.told)
        rw [hsend]
        -- what was sent has moved from the broadcast to the frames
        by_cases hc : c = conn
        · subst hc
          simp [Broadcast.unsent, hnot]
        · simp [Broadcast.unsent, hc]
    | false =>
        obtain rfl := Option.some.inj hs
        -- a live tab's socket does not fail
        have hc : c ≠ conn := by
          rintro rfl
          exact hlive.alive _ rfl (by simp)
        refine replica_congr ?_ rfl rfl
        change h.frames c ++ (Broadcast.unsent c ⟨m, rest, _⟩ ++ h.told)
          = h.frames c ++ (h.sending.elim [] _ ++ h.told)
        rw [hsend]
        simp [Broadcast.unsent, hc]
  · exact absurd hs (by simp)

theorem replica_released (hs : h.released = some h') : h'.replica t c = h.replica t c := by
  unfold released at hs
  split at hs
  · rename_i m dead hsend
    obtain rfl := Option.some.inj hs
    refine replica_congr ?_ rfl rfl
    change h.frames c ++ ([] ++ h.told) = h.frames c ++ (h.sending.elim [] _ ++ h.told)
    rw [hsend]
    simp [Broadcast.unsent]
  · exact absurd hs (by simp)

theorem replica_granted (hh : h.Sound) {ok : Bool} (hs : h.granted ok = some h')
    (hlive : h.Live t c) : h'.replica t c = h.replica t c := by
  unfold granted at hs
  split at hs
  · rename_i x rest hsend hw
    obtain rfl := Option.some.inj hs
    cases x with
    | broadcast m =>
        refine replica_congr ?_ rfl rfl
        change h.frames c ++ (Broadcast.unsent c ⟨m, h.connections, []⟩ ++ rest.filterMap _)
          = h.frames c ++ (h.sending.elim [] _ ++ h.waiting.filterMap _)
        rw [hsend, hw]
        simp [Broadcast.unsent, hlive.registered, Waiter.message]
    | connect conn =>
        -- a socket that is registered does not wait to be
        have hne : conn ≠ c := by
          rintro rfl
          exact (List.nodup_append.mp hh.nodup).2.2 _ hlive.registered _
            (by simp [hw, Waiter.conn]) rfl
        rw [replica_enter_connect hne]
        refine replica_congr ?_ rfl rfl
        change h.frames c ++ (h.sending.elim [] _ ++ rest.filterMap _)
          = h.frames c ++ (h.sending.elim [] _ ++ h.waiting.filterMap _)
        rw [hw]
        rfl
  · exact absurd hs (by simp)

theorem replica_setTab {tab : ℕ} {x : Tab J} (hx : tab = t → x.view.data = (h.tabs t).view.data) :
    (h.setTab tab x).replica t c = h.replica t c := by
  change Replica.mk _ (Function.update h.tabs tab x t).view.data _ = _
  by_cases ht : tab = t
  · subst ht
    rw [Function.update_self, hx rfl]
    rfl
  · rw [Function.update_of_ne (Ne.symm ht)]
    rfl

theorem replica_openSocket (hh : h.Sound) {tab : ℕ} {ok : Bool}
    (hs : h.openSocket tab ok = some h') (hlive : h.Live t c) : h'.replica t c = h.replica t c := by
  unfold openSocket at hs
  split at hs
  · exact absurd hs (by simp)
  obtain rfl := Option.some.inj hs
  have hopening : (h.opening tab).replica t c = h.replica t c :=
    replica_setTab (h := h) fun ht => by rw [ht]
  have hne : h.opened ≠ c := (hh.tabs t c hlive.conn).ne'
  rcases acquire_connect (h.opening tab) ok h.opened with
    ⟨waiting, heq, rfl⟩ | ⟨-, -, heq⟩
  · rw [heq, ← hopening]
    refine replica_congr ?_ rfl rfl
    change h.frames c ++ (_ ++ List.filterMap _ (h.waiting ++ [_])) = _
    rw [List.filterMap_append, List.filterMap_cons_none rfl, List.filterMap_nil, List.append_nil]
    rfl
  · rw [heq, replica_enter_connect hne, hopening]

theorem replica_readFrame (hh : h.Sound) {tab : ℕ} (hs : h.readFrame tab = some h')
    (hlive : h.Live t c) :
    Replica.Step readData (h.replica t c) (if tab = t then 1 else 0) (h'.replica t c) := by
  unfold readFrame at hs
  split at hs
  · exact absurd hs (by simp)
  rename_i conn hconn
  split at hs
  · exact absurd hs (by simp)
  rename_i m ms hframes
  obtain rfl := Option.some.inj hs
  by_cases ht : tab = t
  · subst ht
    obtain rfl : c = conn := Option.some.inj (hlive.conn.symm.trans hconn)
    have hpre : h.replica tab c
        = ⟨m :: (ms ++ h.unsent c), (h.tabs tab).view.data, some h.demo.toState⟩ := by
      rw [replica, hframes]
      rfl
    rw [hpre, if_pos rfl]
    change Replica.Step readData _ 1 (Replica.mk (Function.update h.frames c ms c ++ h.unsent c)
      (Function.update h.tabs tab _ tab).view.data (some h.demo.toState))
    rw [Function.update_self, Function.update_self, View.data_handleMessage]
    exact .read ..
  · -- another tab reads another socket
    have hne : c ≠ conn := by
      rintro rfl
      exact ht (hh.unique tab t c hconn hlive.conn)
    rw [if_neg ht, replica_setTab (fun h => absurd h ht)]
    change Replica.Step readData _ 0 (Replica.mk (Function.update h.frames conn ms c ++ _) _ _)
    rw [Function.update_of_ne hne]
    exact .quiet _

/-- **The server moves like a source**, and a tab with a socket like its replica. -/
theorem replica_step (hh : h.Sound) (hs : h.step l = some h') (hlive : h.Live t c)
    (hlive' : h'.Live t c) (hl : l.faithful t = true) :
    Replica.Step readData (h.replica t c) (l.reads t) (h'.replica t c) := by
  -- what does not publish leaves the tab's replica alone
  have hquiet : h'.replica t c = h.replica t c →
      Replica.Step readData (h.replica t c) 0 (h'.replica t c) := fun heq => heq ▸ .quiet _
  have hpublish : ∀ p, l.publishes h.demo = some p →
      Replica.Step readData (h.replica t c) 0 (h'.replica t c) := by
    intro p hp
    obtain rfl := Option.some.inj ((step_of_publishes hp).symm.trans hs)
    exact replica_broadcastJson hlive.registered (readData_of_publishes hp hl)
  cases l with
  | updateWatchlists | updatePositionsAndRisk | updateHealth | addSignal | addRiskEvent
  | broadcast => exact hpublish _ rfl
  | sent ok => exact hquiet (replica_sent hh hs hlive')
  | released => exact hquiet (replica_released hs)
  | granted ok => exact hquiet (replica_granted hh hs hlive)
  | opened tab ok => exact hquiet (replica_openSocket hh hs hlive)
  | disconnected conn => exact hquiet (Option.some.inj hs ▸ rfl)
  | closed tab =>
      rw [step] at hs
      split at hs
      · exact absurd hs (by simp)
      · obtain rfl := Option.some.inj hs
        exact hquiet (replica_setTab fun ht => by rw [ht])
  | message tab => exact replica_readFrame hh hs hlive
  | answered tab => exact hquiet (Option.some.inj hs ▸ replica_setTab fun ht => by rw [ht])
  -- another answer sets the whole state, which a faithful label does not
  | fetched tab i =>
      rw [step, fetched] at hs
      split at hs
      · exact absurd hs (by simp)
      · obtain rfl := Option.some.inj hs
        exact hquiet (replica_setTab fun ht => absurd ht (by simpa [Label.faithful] using hl))
  | fetchFailed tab =>
      obtain rfl := Option.some.inj hs
      exact hquiet (replica_setTab fun ht => by rw [ht]; rfl)

end Hub

end RossBot.Dashboard
