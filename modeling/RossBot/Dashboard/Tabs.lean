import RossBot.Dashboard.Follow

/-!
# What the tabs show

The engine numbers its signals and its risk events, and keeps the latest of
each (`Hub.Numbered`). A tab that was brought back to the engine's state stays with
it: once it has read what was on its way then, it shows a state the engine has
been in, later the one it is in, and never an event twice or an event without the
one before it.
-/

namespace RossBot.Dashboard

open Lib

variable {J : Type} {h h' h₁ : Hub J} {l : Label J} {t c : ℕ}

namespace Hub

@[simp] theorem demo_broadcastJson (m : Message J) : (h.broadcastJson m).demo = h.demo := by
  obtain ⟨_, _, heq, -⟩ := broadcastJson_eq (h := h) (c := 0) m
  rw [heq]

@[simp] theorem connections_broadcastJson (m : Message J) :
    (h.broadcastJson m).connections = h.connections := by
  obtain ⟨_, _, heq, -⟩ := broadcastJson_eq (h := h) (c := 0) m
  rw [heq]

/-- What a step that publishes nothing may do: let a socket in, or lose some. -/
inductive Unpublished (h h' : Hub J) : Prop where
  | lose (hdemo : h'.demo = h.demo) (hconn : h'.connections ⊆ h.connections)
  | join (h₀ : Hub J) (c : ℕ) (hdemo : h₀.demo = h.demo) (hconn : h₀.connections = h.connections)
      (hsend : h₀.sending = none) (heq : h' = h₀.enter true (.connect c))

theorem unpublished_enter {h₀ : Hub J} {ok : Bool} {x : Waiter J} (hdemo : h₀.demo = h.demo)
    (hconn : h₀.connections = h.connections) (hsend : h₀.sending = none) :
    Unpublished h (h₀.enter ok x) := by
  cases x with
  | broadcast m => exact .lose hdemo (by rw [← hconn]; exact List.Subset.refl _)
  | connect conn =>
      cases ok with
      | true => exact .join h₀ conn hdemo hconn hsend rfl
      | false =>
          refine .lose hdemo fun c hc => ?_
          have hmem : c ∈ (h₀.connections ++ [conn]).erase conn := hc
          rw [← hconn]
          rcases List.mem_append.mp (List.mem_of_mem_erase hmem) with hold | hnew
          · exact hold
          · -- the socket that was let in is gone again, unless it was there before
            by_contra hold
            obtain rfl := List.mem_singleton.mp hnew
            rw [List.erase_append_right _ hold] at hmem
            exact absurd hmem (by simp [hold])

/--
**A step that publishes nothing loses sockets, or lets one in.**

The lock goes from sender to sender: a frame that is delivered, or fails, changes the
connections at most by those that died; and when its turn comes, a socket that wanted
to connect is sent the whole state and registered.
-/
theorem unpublished_step (hs : h.step l = some h') (hp : l.publishes h.demo = none) :
    Unpublished h h' := by
  cases l with
  | updateWatchlists | updatePositionsAndRisk | updateHealth | addSignal | addRiskEvent
  | broadcast => exact absurd hp (by simp [Label.publishes])
  -- a failed send drops the connection's frames: nothing of the dashboard's data changes
  | sent ok =>
      rw [step, sent] at hs
      split at hs
      · split at hs
        · obtain rfl := Option.some.inj hs
          exact .lose rfl (List.Subset.refl _)
        · obtain rfl := Option.some.inj hs
          exact .lose rfl (List.Subset.refl _)
      · exact absurd hs (by simp)
  | released =>
      rw [step, released] at hs
      split at hs
      · obtain rfl := Option.some.inj hs
        exact .lose rfl (List.diff_sublist _ _).subset
      · exact absurd hs (by simp)
  -- the lock is granted to a waiting sender or to a connecting socket; only the latter can join
  | granted ok =>
      rw [step, granted] at hs
      split at hs
      · rename_i hnone _
        obtain rfl := Option.some.inj hs
        exact unpublished_enter rfl rfl hnone
      · exact absurd hs (by simp)
  | opened tab ok =>
      rw [step, openSocket] at hs
      split at hs
      · exact absurd hs (by simp)
      · obtain rfl := Option.some.inj hs
        -- either the new socket waits for the lock, or it is sent the whole state at once
        rcases acquire_connect (h.opening tab) ok h.opened with
          ⟨waiting, heq, -⟩ | ⟨hsend, -, heq⟩
        · rw [heq]
          exact .lose rfl (List.Subset.refl _)
        · rw [heq]
          exact unpublished_enter rfl rfl hsend
  | disconnected conn =>
      obtain rfl := Option.some.inj hs
      exact .lose rfl List.erase_subset
  | closed tab =>
      rw [step] at hs
      split at hs
      · exact absurd hs (by simp)
      · obtain rfl := Option.some.inj hs
        exact .lose rfl (List.Subset.refl _)
  | message tab =>
      rw [step, readFrame] at hs
      split at hs
      · exact absurd hs (by simp)
      split at hs
      · exact absurd hs (by simp)
      · obtain rfl := Option.some.inj hs
        exact .lose rfl (List.Subset.refl _)
  | fetched tab i =>
      rw [step, fetched] at hs
      split at hs
      · exact absurd hs (by simp)
      · obtain rfl := Option.some.inj hs
        exact .lose rfl (List.Subset.refl _)
  | answered tab | fetchFailed tab =>
      obtain rfl := Option.some.inj hs
      exact .lose rfl (List.Subset.refl _)

/-! ## The numbers -/

/-- **The latest of each are kept**, numbered as they came. -/
structure Numbered (demo : DemoDashboardState J) : Prop where
  signals : demo.signals.items.map (·.id) = latest maxSignals (List.range' 1 demo.signalSeq)
  riskEvents : demo.riskEvents.items.map (·.id) = latest maxRiskEvents (List.range' 1 demo.eventSeq)

theorem latest_range'_succ (n k : ℕ) :
    ((k + 1) :: latest n (List.range' 1 k)).take n = latest n (List.range' 1 (k + 1)) := by
  rw [List.range'_concat, ← take_cons_latest, Nat.one_mul, Nat.add_comm 1 k]

theorem Numbered.publishes {demo : DemoDashboardState J} {p : DemoDashboardState J × Message J}
    (hn : Numbered demo) (hp : l.publishes demo = some p) : Numbered p.1 := by
  cases l with
  | updateWatchlists | updatePositionsAndRisk | updateHealth | broadcast =>
      obtain rfl := Option.some.inj hp
      exact ⟨hn.signals, hn.riskEvents⟩
  -- `signal_seq` numbers the new row, and the 201st is cut off the list's end
  | addSignal ts symbol action eventType detail conviction =>
      obtain rfl := Option.some.inj hp
      refine ⟨?_, hn.riskEvents⟩
      change List.map _ (List.take maxSignals (_ :: demo.signals.items))
        = latest maxSignals (List.range' 1 (demo.signalSeq + 1))
      rw [List.map_take, List.map_cons, hn.signals]
      exact latest_range'_succ _ _
  | addRiskEvent ts eventType severity message detail =>
      obtain rfl := Option.some.inj hp
      refine ⟨hn.signals, ?_⟩
      change List.map _ (List.take maxRiskEvents (_ :: demo.riskEvents.items))
        = latest maxRiskEvents (List.range' 1 (demo.eventSeq + 1))
      rw [List.map_take, List.map_cons, hn.riskEvents]
      exact latest_range'_succ _ _
  | _ => exact absurd hp (by simp [Label.publishes])

theorem Numbered.step (hn : Numbered h.demo) (hs : h.step l = some h') : Numbered h'.demo := by
  cases hp : l.publishes h.demo with
  | some p =>
      obtain rfl := Option.some.inj ((step_of_publishes hp).symm.trans hs)
      rw [demo_broadcastJson]
      exact hn.publishes hp
  | none =>
      cases unpublished_step hs hp with
      | lose hdemo => exact hdemo ▸ hn
      | join h₀ c hdemo _ _ heq =>
          have hsame : h'.demo = h.demo := heq ▸ hdemo
          exact hsame ▸ hn

theorem numbered_reached {risk health : J} (hr : Reachable step (start risk health) h) :
    Numbered h.demo :=
  hr.invariant (I := fun h => Numbered h.demo) ⟨rfl, rfl⟩ fun _ _ _ _ hn hs => hn.step hs

/-! ## Back to the engine's state -/

/-- **What brings a tab back**: a pushed state, or a new socket when no broadcast waits. -/
def Syncs (h : Hub J) (l : Label J) (h₁ : Hub J) (c : ℕ) : Prop :=
  l.pushesState = true ∨ c ∉ h.connections ∧ h₁.told = []

/-- A state that is pushed is the last thing on its way. -/
theorem follows_of_push {p : DemoDashboardState J × Message J} (hp : l.publishes h.demo = some p)
    (hl : l.pushesState = true) (hc : c ∈ h.connections) :
    ((({ h with demo := p.1 } : Hub J).broadcastJson p.2).replica t c).Follows readData := by
  obtain ⟨_, _, -, -, -, hunsent⟩ := broadcastJson_eq (h := { h with demo := p.1 }) (c := c) p.2
  unfold replica
  rw [hunsent hc, demo_broadcastJson, ← List.append_assoc]
  refine Replica.follows_of_absolute fun u => ?_
  cases l with
  | updateWatchlists | updatePositionsAndRisk | updateHealth =>
      obtain rfl := Option.some.inj hp
      rfl
  | _ => exact absurd hl (by simp [Label.pushesState])

/-- What a new socket is sent first is all that is on its way, unless a broadcast waits. -/
theorem follows_of_connect (hsend : h.sending = none)
    (htold : (h.enter true (.connect c)).told = []) :
    ((h.enter true (.connect c)).replica t c).Follows readData := by
  change Replica.Follows readData ⟨Function.update h.frames c (h.frames c ++ [_]) c
    ++ (h.sending.elim [] _ ++ (h.enter true (.connect c)).told), _, some h.demo.toState⟩
  rw [Function.update_self, hsend, htold]
  change Replica.Follows readData ⟨_ ++ [_] ++ [], _, _⟩
  rw [List.append_nil]
  exact Replica.follows_of_absolute fun _ => rfl

theorem follows_of_syncs (hs : h.step l = some h₁) (hlive : h₁.Live t c) (hsync : Syncs h l h₁ c) :
    (h₁.replica t c).Follows readData := by
  cases hp : l.publishes h.demo with
  | some p =>
      -- a published change reaches every registered connection
      obtain rfl := Option.some.inj ((step_of_publishes hp).symm.trans hs)
      have hc : c ∈ h.connections := by simpa using hlive.registered
      exact follows_of_push hp (hsync.resolve_right fun hnew => hnew.1 hc) hc
  | none =>
      -- otherwise the synchronisation was the connection's own first state
      have hnew := hsync.resolve_left fun hpush => by
        cases l with
        | updateWatchlists | updatePositionsAndRisk | updateHealth =>
            exact absurd hp (by simp [Label.publishes])
        | _ => exact absurd hpush (by simp [Label.pushesState])
      cases unpublished_step hs hp with
      | lose _ hconn => exact absurd (hconn hlive.registered) hnew.1
      | join h₀ conn _ hconn hsend heq =>
          subst heq
          rcases List.mem_append.mp hlive.registered with hold | hc
          · -- the joining connection is the tab's, so its first frame is the whole state
            exact absurd (hconn ▸ hold) hnew.1
          · obtain rfl := List.mem_singleton.mp hc
            exact follows_of_connect hsend hnew.2

/-! ## And with it from there on -/

/-- Tab `t` keeps socket `c` over the moves `ms`, and the engine alone tells it what the state is. -/
def Kept (ms : List (Move (Hub J) (Label J))) (t c : ℕ) : Prop :=
  ∀ m ∈ ms, m.post.Live t c ∧ m.label.faithful t = true

/-- How many frames tab `t` reads. -/
def framesRead (ms : List (Move (Hub J) (Label J))) (t : ℕ) : ℕ :=
  (ms.map fun m => m.label.reads t).sum

/-- Along a run, a tab moves like a replica. -/
theorem replica_run {risk health : J} (hr : Reachable step (start risk health) h₁)
    (hlive : h₁.Live t c) {ms : List (Move (Hub J) (Label J))} (hrun : Run step h₁ ms h')
    (hkept : Kept ms t c) :
    ∀ m ∈ ms, Replica.Step readData (m.pre.replica t c) (m.label.reads t) (m.post.replica t c) := by
  have hsound : Sound h₁ := hr.invariant Sound.start fun _ _ _ _ hh hs => hh.step hs
  intro m hm
  obtain ⟨ms', -, hpre⟩ := hrun.before m hm
  have hh : Sound m.pre :=
    Reachable.invariant hsound (fun _ _ _ _ hh hs => hh.step hs) ⟨ms', hpre⟩
  have hlive' : m.pre.Live t c := by
    rcases Execution.visits_pre ⟨ms, h', hrun⟩ hm with heq | ⟨m', hm', heq⟩
    · exact heq ▸ hlive
    · exact heq ▸ (hkept m' hm').1
  exact replica_step hh (hrun.step_of_mem m hm) hlive' (hkept m hm).1 (hkept m hm).2

end Hub

/-- **A tab follows the engine**, in every interleaving of the server's tasks and the tabs. After
it was brought back it is told everything: when nothing is on its way to it, it shows what the
engine is in. And once it has read what was on its way then, it shows what the engine has been in
since. -/
theorem tab_follows {risk health : J} (hr : Reachable Hub.step (.start risk health) h)
    (hs : h.step l = some h₁) (hlive : h₁.Live t c) (hsync : h.Syncs l h₁ c)
    {ms : List (Move (Hub J) (Label J))} (hrun : Run Hub.step h₁ ms h') (hkept : Hub.Kept ms t c) :
    (h'.frames c = [] → h'.unsent c = [] → (h'.tabs t).view.data = some h'.demo.toState)
      ∧ ((h₁.frames c ++ h₁.unsent c).length ≤ Hub.framesRead ms t →
        ∃ past, (past = h₁ ∨ ∃ m ∈ ms, past = m.post)
          ∧ (h'.tabs t).view.data = some past.demo.toState) := by
  have hfollows := Hub.follows_of_syncs hs hlive hsync
  have hmoves := Hub.replica_run (hr.next hs) hlive hrun hkept
  constructor
  · intro hframes hunsent
    -- no frame in transit is left: the replica equals the hub's data
    have hend := hrun.replica_follows (π := fun h => h.replica t c) hfollows hmoves
    simpa [Replica.Follows, Hub.replica, hframes, hunsent] using hend
  · intro hread
    -- enough frames were read to be past those in transit at the start
    rcases hrun.replica_shows (π := fun h => h.replica t c) hfollows hmoves hread with
      hshow | ⟨m, hm, hshow⟩
    · exact ⟨h₁, Or.inl rfl, hshow⟩
    · exact ⟨m.post, Or.inr ⟨m, hm, rfl⟩, hshow⟩

instance : Decidable (h.Live t c) :=
  decidable_of_iff ((h.tabs t).conn = some c ∧ c ∈ h.connections ∧ ∀ b ∈ h.sending, c ∉ b.dead)
    ⟨fun ⟨hconn, hc, hb⟩ => ⟨hconn, hc, hb⟩, fun ⟨hconn, hc, hb⟩ => ⟨hconn, hc, hb⟩⟩

/-- A tab's socket is registered at once. -/
def firstSocket : Hub Unit := ((Hub.start () ()).opening 0).acquire true (.connect 0)

/-- A signal that is pushed while the tab has the snapshot to read. -/
def testSignal : Label Unit := .addSignal 0 "TEST" "entry" "entry_signal" () none

/-- The tab reads the snapshot, then the signal. -/
def signalShown : Execution Hub.step firstSocket :=
  (Execution.start _ _).play [testSignal, .sent true, .message 0, .released, .message 0]

theorem kept_signalShown : Hub.Kept signalShown.moves 0 0 := by
  have hall : ∀ m ∈ signalShown.moves, m.post.Live 0 0 ∧ m.label.faithful 0 = true := by decide
  exact hall

theorem tab_follows_signalShown :
    (signalShown.final.tabs 0).view.data = some signalShown.final.demo.toState :=
  (tab_follows ⟨[], .start⟩ (l := .opened 0 true) rfl (by decide) (Or.inr ⟨by decide, rfl⟩)
    signalShown.run kept_signalShown).1 rfl rfl

/-- **No event twice, and none left out.** Once it has read what was on its way when it was brought
back, a tab shows the last two hundred signals and the last five hundred risk events the engine
had published at some moment since, newest first. -/
theorem tab_events {risk health : J} (hr : Reachable Hub.step (.start risk health) h)
    (hs : h.step l = some h₁) (hlive : h₁.Live t c) (hsync : h.Syncs l h₁ c)
    {ms : List (Move (Hub J) (Label J))} (hrun : Run Hub.step h₁ ms h') (hkept : Hub.Kept ms t c)
    (hread : (h₁.frames c ++ h₁.unsent c).length ≤ Hub.framesRead ms t) :
    ∃ past data, (past = h₁ ∨ ∃ m ∈ ms, past = m.post) ∧ (h'.tabs t).view.data = some data
      ∧ data.recentSignals.map (·.id) = latest 200 (List.range' 1 past.demo.signalSeq)
      ∧ data.recentRiskEvents.map (·.id) = latest 500 (List.range' 1 past.demo.eventSeq) := by
  have hmoves := Hub.replica_run (hr.next hs) hlive hrun hkept
  -- the rows are numbered in every state of the run, not only at its end
  have hpast : ∀ past, (past = h₁ ∨ ∃ m ∈ ms, past = m.post) → Hub.Numbered past.demo := by
    have hn := Hub.numbered_reached (hr.next hs)
    intro past hpast
    have hvisit : Execution.Visits ⟨ms, h', hrun⟩ past := hpast
    exact Reachable.invariant (I := fun h => Hub.Numbered h.demo) hn
      (fun _ _ _ _ hn hs => hn.step hs) (Execution.reachable _ hvisit)
  rcases hrun.replica_shows (π := fun h => h.replica t c) (Hub.follows_of_syncs hs hlive hsync)
    hmoves hread with hshow | ⟨m, hm, hshow⟩
  · have hn := hpast h₁ (Or.inl rfl)
    exact ⟨h₁, _, Or.inl rfl, hshow, hn.signals, hn.riskEvents⟩
  · have hn := hpast m.post (Or.inr ⟨m, hm, rfl⟩)
    exact ⟨m.post, _, Or.inr ⟨m, hm, rfl⟩, hshow, hn.signals, hn.riskEvents⟩

theorem tab_events_signalShown : ∃ past data,
    (past = firstSocket ∨ ∃ m ∈ signalShown.moves, past = m.post)
      ∧ (signalShown.final.tabs 0).view.data = some data
      ∧ data.recentSignals.map (·.id) = latest 200 (List.range' 1 past.demo.signalSeq)
      ∧ data.recentRiskEvents.map (·.id) = latest 500 (List.range' 1 past.demo.eventSeq) :=
  tab_events ⟨[], .start⟩ (l := .opened 0 true) rfl (by decide) (Or.inr ⟨by decide, rfl⟩)
    signalShown.run kept_signalShown (by decide)

/-- A second tab, whose socket waits for the lock with a signal behind it. -/
def toldTwice : Execution Hub.step firstSocket :=
  (Execution.start _ _).play [.updateHealth (), .opened 1 true, testSignal, .sent true, .released,
    .granted true, .granted true, .sent true, .sent true, .released, .message 1, .message 1]

/-- It is told twice of the signal: in the snapshot, and by the broadcast that waited. -/
example : (toldTwice.final.tabs 1).view.data.map (fun data => data.recentSignals.map (·.id))
    = some [1, 1] := by decide

end RossBot.Dashboard
