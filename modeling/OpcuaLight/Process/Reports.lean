import OpcuaLight.Api.SseHub
import OpcuaLight.Process.Sessions

/-!
# The reports of the process manager

The process manager with its status timer and its hub: what it broadcasts when the runtime is started, stopped and
reloaded, and on each tick of the timer; and what a client is sent when it connects to `GET /api/events`. The status
itself is an argument.
-/

namespace OpcuaLight.Process

open Api (HubEvent SseEventType)

def ClientSession.json (s : ClientSession) : Json :=
  .obj [("applicationName", .str s.applicationName), ("applicationUri", .str s.applicationUri),
    ("securityPolicyUri", .str s.securityPolicyUri), ("clientAddress", .str s.clientAddress),
    ("connectTime", .str s.connectTime), ("sessionState", .str s.sessionState.text)]

def sessionsJson (sessions : List ClientSession) : Json := .arr (sessions.map ClientSession.json)

/-- The manager with its hub, if it is set, its timer, if it is started, and the sessions that it compares with. -/
structure Reporter where
  manager : Manager
  sseHub : Bool
  statusTimer : Bool
  previousSessionsJson : String

/-- What a broadcast of the status and of the sessions comes to: the status, and the responses that cannot be written
to. -/
structure Broadcasts where
  status : Json
  throws : SseEventType → Nat → Bool

namespace Reporter

def initial : Reporter := ⟨.init, false, false, "[]"⟩

def broadcastStatus (r : Reporter) (b : Broadcasts) : List HubEvent :=
  if r.sseHub then [.broadcast .serverStatus b.status (b.throws .serverStatus)] else []

def broadcastClients (r : Reporter) (sessions : List ClientSession) (b : Broadcasts) : List HubEvent :=
  if r.sseHub then [.broadcast .serverClients (sessionsJson sessions) (b.throws .serverClients)] else []

/-- What `cleanup` does besides. -/
def cleanup (r : Reporter) : Reporter := { r with statusTimer := false, previousSessionsJson := "[]" }

def startStatusTimer (r : Reporter) : Reporter := { r with statusTimer := true }

/-- The listeners of the calls of `stop` that an exit settles. -/
def onStopped (r : Reporter) (b : Broadcasts) : List (Nat × Option String) → Reporter × List HubEvent
  | [] => (r, [])
  | _ :: calls =>
      let rest := r.cleanup.onStopped b calls
      (rest.1, r.cleanup.broadcastStatus b ++ r.cleanup.broadcastClients [] b ++ rest.2)

/-- A call of a method or an event of a child, with what is broadcast. -/
def onEvent (r : Reporter) (e : Event) (b : Broadcasts) : Reporter × List HubEvent :=
  let after := { r with manager := step r.manager e }
  match e with
  | .start now spawned =>
      match (r.manager.start now spawned).2 with
      | .ok _ => (after.startStatusTimer, after.broadcastStatus b)
      | .error _ => (after, [])
  | .reload signal => (after, if r.manager.reload signal = none then after.broadcastStatus b else [])
  | .exit k code signal => after.onStopped b (r.manager.onExit k code signal).2.settled
  | .error k message =>
      if (r.manager.onError k message).2.settled = [] then (after, []) else (after.cleanup, [])
  | .stop _ | .stdout _ _ | .stderr _ _ | .stdinError _ _ _ => (after, [])

section Read
variable (isValidIso8601 : String → Bool)

/-- The status timer, with the content of the status file. -/
def onTimer (r : Reporter) (content : Option (List UInt8)) (b : Broadcasts) : Reporter × List HubEvent :=
  let sessions := readClientSessions isValidIso8601 r.manager.state content
  let json := (sessionsJson sessions).stringify
  if json ≠ r.previousSessionsJson then
    ({ r with previousSessionsJson := json }, r.broadcastStatus b ++ r.broadcastClients sessions b)
  else (r, r.broadcastStatus b)

/-- `GET /api/events`: the client is added, and `sendInitialState`. -/
def connect (r : Reporter) (id : String) (res : Nat) (content : Option (List UInt8)) (status : Json)
    (connectors : Option (Json × Json)) (throws : SseEventType → Bool) : List HubEvent :=
  let sessions := readClientSessions isValidIso8601 r.manager.state content
  [.addClient id res, .sendToClient id .serverStatus status (throws .serverStatus),
    .sendToClient id .serverClients (sessionsJson sessions) (throws .serverClients)] ++
  match connectors with
  | none => []
  | some (status, values) =>
      [.sendToClient id .connectorStatus status (throws .connectorStatus),
        .sendToClient id .connectorValues values (throws .connectorValues)]

end Read

end Reporter

/-- What happens in the API. The content is that of the status file when it is read. -/
inductive ReportEvent where
  | setSseHub
  | event (e : Event) (b : Broadcasts)
  | timer (content : Option (List UInt8)) (b : Broadcasts)
  | connect (id : String) (res : Nat) (content : Option (List UInt8)) (status : Json)
      (connectors : Option (Json × Json)) (throws : SseEventType → Bool)
  | close (id : String)
  /-- What other parts of the API tell the hub. -/
  | other (e : HubEvent)

namespace Reporter

variable (isValidIso8601 : String → Bool)

/-- An event, and what the hub is told. -/
def act (r : Reporter) : ReportEvent → Reporter × List HubEvent
  | .setSseHub => ({ r with sseHub := true }, [])
  | .event e b => r.onEvent e b
  | .timer content b => if r.statusTimer then r.onTimer isValidIso8601 content b else (r, [])
  | .connect id res content status connectors throws =>
      (r, r.connect isValidIso8601 id res content status connectors throws)
  | .close id => (r, [.removeClient id])
  | .other e => (r, [e])

def step (r : Reporter) (e : ReportEvent) : Reporter := (r.act isValidIso8601 e).1

/-- What the hub is told in a run. -/
def told (r : Reporter) : List ReportEvent → List HubEvent
  | [] => []
  | e :: es => (r.act isValidIso8601 e).2 ++ told (r.step isValidIso8601 e) es

/-- The state after a list of events. -/
def reach (es : List ReportEvent) : Reporter := Machine.run (step isValidIso8601) initial es

end Reporter

end OpcuaLight.Process
