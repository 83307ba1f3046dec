import Mathlib.Logic.Function.Basic
import RossBot.Lib.Window
import RossBot.Market

/-!
# The dashboard feed

`core/demo/state.py`, `api/services/ws_manager.py`, `ws_live` of `api/main.py`, and the
other end of it, the reducer and the socket of `dashboard/hooks`: the engine's state,
the sockets it is broadcast over, and the tabs that show it.

Between two awaits the server runs undisturbed, so a mutation, the message that
tells of it and the request for the manager's lock are one step. The lock is
granted in the order it was asked for. A broadcast holds it from its first send
to its last, and each send may be where others run; a frame that was sent is read
later, or never.

JSON objects are of a type `J` of their own, and what is sent is what is read. A
`stateUpdate` carries the whole state without the instant it was taken at.
-/

namespace RossBot.Dashboard

open Lib

variable {J : Type}

/-! ## The state -/

/-- `_MAX_SIGNALS` -/
def maxSignals : ℕ := 200

/-- `_MAX_RISK_EVENTS` -/
def maxRiskEvents : ℕ := 500

/-- What `make_signal` makes. -/
structure SignalEvent (J : Type) where
  id : ℕ
  ts : Time
  symbol : Symbol
  eventType : String
  detail : J
  conviction : Option ℚ
  action : String
  deriving DecidableEq

/-- What `make_risk_event` makes. -/
structure RiskEvent (J : Type) where
  id : ℕ
  ts : Time
  eventType : String
  severity : String
  message : String
  detail : J
  deriving DecidableEq

/-- What a tab shows: `DashboardState` of `dashboard/lib/types.ts`. -/
structure DashboardState (J : Type) where
  positions : List J
  risk : J
  watchlistTierA : List J
  watchlistTierB : List J
  recentSignals : List (SignalEvent J)
  recentRiskEvents : List (RiskEvent J)
  health : J
  deriving DecidableEq

/-- `DemoDashboardState`. -/
structure DemoDashboardState (J : Type) where
  positions : List J
  tierA : List J
  tierB : List J
  signals : Deque (SignalEvent J) maxSignals
  riskEvents : Deque (RiskEvent J) maxRiskEvents
  risk : J
  health : J
  signalSeq : ℕ
  eventSeq : ℕ

namespace DemoDashboardState

/-- `DemoDashboardState.__init__`, with what `_empty_risk` and `_empty_health` return. -/
def new (emptyRisk emptyHealth : J) : DemoDashboardState J where
  positions := []
  tierA := []
  tierB := []
  signals := .empty
  riskEvents := .empty
  risk := emptyRisk
  health := emptyHealth
  signalSeq := 0
  eventSeq := 0

/-- `make_signal`; `_iso()` is the instant `ts`. -/
def makeSignal (s : DemoDashboardState J) (ts : Time) (symbol : Symbol) (action eventType : String)
    (detail : J) (conviction : Option ℚ) : DemoDashboardState J × SignalEvent J :=
  let seq := s.signalSeq + 1
  ({ s with signalSeq := seq }, ⟨seq, ts, symbol, eventType, detail, conviction, action⟩)

/-- `make_risk_event`. -/
def makeRiskEvent (s : DemoDashboardState J) (ts : Time) (eventType severity message : String)
    (detail : J) : DemoDashboardState J × RiskEvent J :=
  let seq := s.eventSeq + 1
  ({ s with eventSeq := seq }, ⟨seq, ts, eventType, severity, message, detail⟩)

/-- `to_state`. -/
def toState (s : DemoDashboardState J) : DashboardState J where
  positions := s.positions
  risk := s.risk
  watchlistTierA := s.tierA
  watchlistTierB := s.tierB
  recentSignals := s.signals.items
  recentRiskEvents := s.riskEvents.items
  health := s.health

end DemoDashboardState

/-! ## The messages -/

/-- What is sent to a tab. -/
inductive Message (J : Type) where
  | stateUpdate (payload : DashboardState J)
  | signal (payload : SignalEvent J)
  | riskEvent (payload : RiskEvent J)
  | catalystUpdate (payload : J)
  | healthUpdate (payload : J)

/-- `Status` of the tab. -/
inductive Status where
  | connecting
  | live
  | error
  deriving DecidableEq

/-- `State` of the reducer. -/
structure View (J : Type) where
  data : Option (DashboardState J)
  status : Status
  catalystAlerts : List J

/-- `Action` of the reducer. -/
inductive Action (J : Type) where
  | setState (payload : DashboardState J)
  | prependSignal (payload : SignalEvent J)
  | prependRiskEvent (payload : RiskEvent J)
  | setStatus (status : Status)
  | catalystUpdate (payload : J)

namespace View

/-- `reducer`. -/
def reducer (state : View J) : Action J → View J
  | .setState payload => { state with data := some payload, status := .live }
  | .prependSignal payload =>
      match state.data with
      | none => state
      | some data =>
          let signals := (payload :: data.recentSignals).take 200
          { state with data := some { data with recentSignals := signals } }
  | .prependRiskEvent payload =>
      match state.data with
      | none => state
      | some data =>
          let events := (payload :: data.recentRiskEvents).take 500
          { state with data := some { data with recentRiskEvents := events } }
  | .setStatus status => { state with status := status }
  | .catalystUpdate payload =>
      { state with catalystAlerts := (payload :: state.catalystAlerts).take 50 }

/-- `handleMessage`. -/
def handleMessage (state : View J) : Message J → View J
  | .stateUpdate payload => state.reducer (.setState payload)
  | .signal payload => state.reducer (.prependSignal payload)
  | .riskEvent payload => state.reducer (.prependRiskEvent payload)
  | .catalystUpdate payload => state.reducer (.catalystUpdate payload)
  | .healthUpdate _ => state

end View

/-- A tab: the reducer's state, the socket it reads from, and the answers to its GETs that it has
not looked at. -/
structure Tab (J : Type) where
  view : View J
  conn : Option ℕ
  fetches : List (DashboardState J)

/-- Who waits on `_lock` of the `ConnectionManager`. -/
inductive Waiter (J : Type) where
  | broadcast (message : Message J)
  | connect (conn : ℕ)

/-- The broadcast that holds `_lock`: what is left of the copy of `_connections` it goes through,
and `dead`. -/
structure Broadcast (J : Type) where
  message : Message J
  rest : List ℕ
  dead : List ℕ

/-- The server and its tabs. Sockets are numbered as they are opened. -/
structure Hub (J : Type) where
  demo : DemoDashboardState J
  /-- `_connections` -/
  connections : List ℕ
  sending : Option (Broadcast J)
  waiting : List (Waiter J)
  /-- What was sent over a socket and is not read yet. -/
  frames : ℕ → List (Message J)
  tabs : ℕ → Tab J
  opened : ℕ

/-- What can happen. -/
inductive Label (J : Type) where
  | updateWatchlists (tierA tierB : List J)
  | updatePositionsAndRisk (positions : List J) (risk : J)
  | updateHealth (health : J)
  /-- `add_signal` of what `make_signal` makes. -/
  | addSignal (ts : Time) (symbol : Symbol) (action eventType : String) (detail : J)
      (conviction : Option ℚ)
  /-- `add_risk_event` of what `make_risk_event` makes. -/
  | addRiskEvent (ts : Time) (eventType severity message : String) (detail : J)
  /-- The `StateService`, or the news callback, broadcasts over the same sockets. -/
  | broadcast (message : Message J)
  /-- The next `send_text` of the broadcast that holds the lock returns, or raises. -/
  | sent (ok : Bool)
  /-- That broadcast is done. -/
  | released
  /-- The lock goes to the first who waits; `ok` is about the first frame of a new connection. -/
  | granted (ok : Bool)
  /-- A tab opens a socket, and it is accepted. -/
  | opened (tab : ℕ) (ok : Bool)
  /-- The handler of a socket ends. -/
  | disconnected (conn : ℕ)
  /-- `ws.onclose` -/
  | closed (tab : ℕ)
  /-- `ws.onmessage` -/
  | message (tab : ℕ)
  /-- `GET /api/state` is answered. -/
  | answered (tab : ℕ)
  /-- `refetch` goes on with an answer. -/
  | fetched (tab i : ℕ)
  /-- `refetch` goes on with an error. -/
  | fetchFailed (tab : ℕ)

namespace Hub

/-! ## The connection manager -/

/-- A frame is sent. -/
def write (h : Hub J) (conn : ℕ) (m : Message J) : Hub J :=
  { h with frames := Function.update h.frames conn (h.frames conn ++ [m]) }

/-- `disconnect`. -/
def disconnect (h : Hub J) (conn : ℕ) : Hub J :=
  { h with connections := h.connections.erase conn }

/-- What is done with the lock, up to the next await. The lock is free again after `connect`,
which `ws_live` follows up with the snapshot. -/
def enter (h : Hub J) (ok : Bool) : Waiter J → Hub J
  | .broadcast m => { h with sending := some ⟨m, h.connections, []⟩ }
  | .connect conn =>
      let h := { h with connections := h.connections ++ [conn] }
      if ok then h.write conn (.stateUpdate h.demo.toState) else h.disconnect conn

/-- `async with self._lock`. -/
def acquire (h : Hub J) (ok : Bool) (x : Waiter J) : Hub J :=
  if h.sending.isNone && h.waiting.isEmpty then h.enter ok x
  else { h with waiting := h.waiting ++ [x] }

/-- `broadcast_json`. -/
def broadcastJson (h : Hub J) (m : Message J) : Hub J :=
  if h.connections.isEmpty then h else h.acquire true (.broadcast m)

/-! ## The mutations -/

/-- `update_watchlists`. -/
def updateWatchlists (h : Hub J) (tierA tierB : List J) : Hub J :=
  let demo := { h.demo with tierA := tierA, tierB := tierB }
  { h with demo := demo }.broadcastJson (.stateUpdate demo.toState)

/-- `update_positions_and_risk`. -/
def updatePositionsAndRisk (h : Hub J) (positions : List J) (risk : J) : Hub J :=
  let demo := { h.demo with positions := positions, risk := risk }
  { h with demo := demo }.broadcastJson (.stateUpdate demo.toState)

/-- `update_health`. -/
def updateHealth (h : Hub J) (health : J) : Hub J :=
  let demo := { h.demo with health := health }
  { h with demo := demo }.broadcastJson (.stateUpdate demo.toState)

/-- `add_signal`. -/
def addSignal (h : Hub J) (signal : SignalEvent J) : Hub J :=
  { h with demo := { h.demo with signals := h.demo.signals.appendleft signal } }.broadcastJson
    (.signal signal)

/-- `add_risk_event`. -/
def addRiskEvent (h : Hub J) (event : RiskEvent J) : Hub J :=
  { h with demo := { h.demo with riskEvents := h.demo.riskEvents.appendleft event } }.broadcastJson
    (.riskEvent event)

/-! ## The steps -/

/-- A tab changes. -/
def setTab (h : Hub J) (tab : ℕ) (x : Tab J) : Hub J := { h with tabs := Function.update h.tabs tab x }

/-- The next send. -/
def sent (h : Hub J) (ok : Bool) : Option (Hub J) :=
  match h.sending with
  | some ⟨m, conn :: rest, dead⟩ =>
      if ok then some ({ h with sending := some ⟨m, rest, dead⟩ }.write conn m)
      else some { h with sending := some ⟨m, rest, dead ++ [conn]⟩ }
  | _ => none

/-- The end of a broadcast: the dead are removed. -/
def released (h : Hub J) : Option (Hub J) :=
  match h.sending with
  | some ⟨_, [], dead⟩ => some { h with sending := none, connections := h.connections.diff dead }
  | _ => none

/-- The lock goes to the first who waits. -/
def granted (h : Hub J) (ok : Bool) : Option (Hub J) :=
  match h.sending, h.waiting with
  | none, x :: rest => some ({ h with waiting := rest }.enter ok x)
  | _, _ => none

/-- `new WebSocket`, before the server hears of it. -/
def opening (h : Hub J) (tab : ℕ) : Hub J :=
  { h.setTab tab { h.tabs tab with conn := some h.opened } with opened := h.opened + 1 }

/-- `connect` of the tab, and of the manager. -/
def openSocket (h : Hub J) (tab : ℕ) (ok : Bool) : Option (Hub J) :=
  match (h.tabs tab).conn with
  | some _ => none
  | none => some ((h.opening tab).acquire ok (.connect h.opened))

/-- `onmessage`. -/
def readFrame (h : Hub J) (tab : ℕ) : Option (Hub J) :=
  match (h.tabs tab).conn with
  | none => none
  | some conn =>
      match h.frames conn with
      | [] => none
      | m :: ms =>
          some ({ h with frames := Function.update h.frames conn ms }.setTab tab
            { h.tabs tab with view := (h.tabs tab).view.handleMessage m })

/-- `refetch`, once the answer is there. -/
def fetched (h : Hub J) (tab i : ℕ) : Option (Hub J) :=
  match (h.tabs tab).fetches[i]? with
  | none => none
  | some data => some (h.setTab tab
      { h.tabs tab with
        view := (h.tabs tab).view.reducer (.setState data)
        fetches := (h.tabs tab).fetches.eraseIdx i })

/-- One step. -/
def step (h : Hub J) : Label J → Option (Hub J)
  | .updateWatchlists tierA tierB => some (h.updateWatchlists tierA tierB)
  | .updatePositionsAndRisk positions risk => some (h.updatePositionsAndRisk positions risk)
  | .updateHealth health => some (h.updateHealth health)
  | .addSignal ts symbol action eventType detail conviction =>
      let (demo, signal) := h.demo.makeSignal ts symbol action eventType detail conviction
      some ({ h with demo := demo }.addSignal signal)
  | .addRiskEvent ts eventType severity message detail =>
      let (demo, event) := h.demo.makeRiskEvent ts eventType severity message detail
      some ({ h with demo := demo }.addRiskEvent event)
  | .broadcast m => some (h.broadcastJson m)
  | .sent ok => h.sent ok
  | .released => h.released
  | .granted ok => h.granted ok
  | .opened tab ok => h.openSocket tab ok
  | .disconnected conn => some (h.disconnect conn)
  | .closed tab =>
      match (h.tabs tab).conn with
      | none => none
      | some _ => some (h.setTab tab { h.tabs tab with conn := none })
  | .message tab => h.readFrame tab
  | .answered tab => some (h.setTab tab
      { h.tabs tab with fetches := (h.tabs tab).fetches ++ [h.demo.toState] })
  | .fetched tab i => h.fetched tab i
  | .fetchFailed tab => some (h.setTab tab
      { h.tabs tab with view := (h.tabs tab).view.reducer (.setStatus .error) })

/-- No tab has a socket, and none shows anything. -/
def start (emptyRisk emptyHealth : J) : Hub J where
  demo := .new emptyRisk emptyHealth
  connections := []
  sending := none
  waiting := []
  frames := fun _ => []
  tabs := fun _ => ⟨⟨none, .connecting, []⟩, none, []⟩
  opened := 0

end Hub

end RossBot.Dashboard
