import OpcuaLight.Lib.Hub
import OpcuaLight.Connector.Throwing

/-!
# The connector registry

`ConnectorRegistry` over the built-in connectors that are registered with it, and the SSE clients that
it tells about them: their status by a poll that compares it with a snapshot, their values from the
callback of each connector. A client that opens `GET /api/events` is sent both at once. The callback
of the runtime bridge, which the registry calls first, does not throw; the other event types of the
hub are not modelled.

* `call p t` : a step of one connector, which may call back any number of times.
-/

namespace OpcuaLight.Connector

open World

/-- The data of the events `connector:status` and `connector:values`. -/
inductive Payload where
  | status (statuses : List ConnectionStatus)
  | values (values : List CurrentValue)
  deriving DecidableEq

def Payload.status? : Payload → Option (List ConnectionStatus)
  | .status s => some s
  | .values _ => none

def Payload.values? : Payload → Option (List CurrentValue)
  | .status _ => none
  | .values vs => some vs

/-- The connectors in the order of their registration. The snapshot is kept as JSON text by the code:
two statuses are the same text exactly if they are equal. -/
structure Registry where
  order : List Protocol
  connectors : Protocol → World
  statusPolling : Bool
  lastStatusSnapshot : List ConnectionStatus
  sseHub : Hub Payload

namespace Registry

def new (order : List Protocol) : Registry where
  order := order
  connectors := fun _ => World.initial
  statusPolling := false
  lastStatusSnapshot := []
  sseHub := Hub.empty

def getAggregatedStatus (r : Registry) : List ConnectionStatus :=
  r.order.flatMap fun p => (r.connectors p).getStatus

def getAggregatedValues (r : Registry) : List CurrentValue :=
  r.order.flatMap fun p => (r.connectors p).getCurrentValues

def broadcast (r : Registry) (x : Payload) : Registry := { r with sseHub := r.sseHub.broadcast x }

/-- `broadcastValues`, called back by the connector `p` while it shows `seen`. -/
def broadcastValues (p : Protocol) (r : Registry) (seen : Snapshot) : Registry :=
  let statuses := r.order.flatMap fun q => if q = p then seen.status else (r.connectors q).getStatus
  let values := r.order.flatMap fun q => if q = p then seen.values else (r.connectors q).getCurrentValues
  if statuses.any (·.state = .connected) then r.broadcast (.values values) else r

/-- What the connector `p` has shown in its callbacks since it was `w`. -/
def seenSince (w w' : World) : List Snapshot := w'.callbacks.drop w.callbacks.length

/-- Code of the connector `p`, with the callbacks it makes. -/
def run (r : Registry) (p : Protocol) (f : World → World) : Registry :=
  (seenSince (r.connectors p) (f (r.connectors p))).foldl (broadcastValues p)
    { r with connectors := Function.update r.connectors p (f (r.connectors p)) }

def startStatusPolling (r : Registry) : Registry :=
  if r.statusPolling then r
  else { r with lastStatusSnapshot := r.getAggregatedStatus, statusPolling := true }

def startAll (r : Registry) : Registry :=
  (r.order.foldl (fun r p => r.run p (Connector.start p)) r).startStatusPolling

def broadcastStatus (r : Registry) : Registry :=
  { r with lastStatusSnapshot := r.getAggregatedStatus }.broadcast (.status r.getAggregatedStatus)

def stopAll (r : Registry) : Registry :=
  let r := { r with statusPolling := false }
  (r.order.foldl (fun r p => r.run p Connector.stop) r).broadcastStatus

def checkAndBroadcastStatus (r : Registry) : Registry :=
  if r.getAggregatedStatus = r.lastStatusSnapshot then r
  else { r with lastStatusSnapshot := r.getAggregatedStatus }.broadcast (.status r.getAggregatedStatus)

/-- The client's registration with the hub and `sendInitialState`. -/
def connectClient (r : Registry) : Registry :=
  let c := r.sseHub.nextClient
  { r with
    sseHub := (r.sseHub.addClient.sendToClient c (.status r.getAggregatedStatus)).sendToClient c
      (.values r.getAggregatedValues) }

inductive RegistryEvent where
  | connectClient
  | disconnectClient (c : Nat)
  | call (p : Protocol) (t : Turn)
  | startAll
  | stopAll
  | statusTick

/-- A connector that is not registered is not called, and without its interval no tick comes. -/
def step (r : Registry) : RegistryEvent → Registry
  | .connectClient => r.connectClient
  | .disconnectClient c => { r with sseHub := r.sseHub.removeClient c }
  | .call p t => if p ∈ r.order then r.run p (fun w => turnStep p w t) else r
  | .startAll => r.startAll
  | .stopAll => r.stopAll
  | .statusTick => if r.statusPolling then r.checkAndBroadcastStatus else r

/-- The state after a list of events, for the connectors registered in this order. -/
def reach (order : List Protocol) (es : List RegistryEvent) : Registry :=
  Machine.run step (new order) es

/-! ## What the callbacks of a connector leave alone -/

variable {r r' : Registry} {p : Protocol}

/-- Only the connectors and the hub are changed, and clients are sent values alone. -/
structure Relays (r r' : Registry) : Prop where
  order : r'.order = r.order
  statusPolling : r'.statusPolling = r.statusPolling
  lastStatusSnapshot : r'.lastStatusSnapshot = r.lastStatusSnapshot
  each : ∀ P : List Payload → Prop, (∀ received vs, P (received ++ [.values vs]) ↔ P received) →
    (r'.sseHub.Each P ↔ r.sseHub.Each P)

theorem Relays.refl (r : Registry) : Relays r r := ⟨rfl, rfl, rfl, fun _ _ => Iff.rfl⟩

theorem Relays.trans {r'' : Registry} (h : Relays r r') (h' : Relays r' r'') : Relays r r'' where
  order := h'.order.trans h.order
  statusPolling := h'.statusPolling.trans h.statusPolling
  lastStatusSnapshot := h'.lastStatusSnapshot.trans h.lastStatusSnapshot
  each := fun P hP => (h'.each P hP).trans (h.each P hP)

theorem relays_broadcastValues (p : Protocol) (r : Registry) (seen : Snapshot) :
    Relays r (broadcastValues p r seen) := by
  unfold broadcastValues
  dsimp only
  split
  · refine ⟨rfl, rfl, rfl, fun P hP => Hub.each_broadcast.trans ?_⟩
    simp only [hP]
  · exact .refl r

theorem relays_foldl {α : Type*} {f : Registry → α → Registry} (hf : ∀ r a, Relays r (f r a))
    (l : List α) (r : Registry) : Relays r (l.foldl f r) :=
  Machine.run_related (.refl r) Relays.trans fun r a _ _ => hf r a

theorem relays_run (r : Registry) (p : Protocol) (f : World → World) : Relays r (r.run p f) := by
  have hcode : Relays r { r with connectors := Function.update r.connectors p (f (r.connectors p)) } :=
    ⟨rfl, rfl, rfl, fun _ _ => Iff.rfl⟩
  exact hcode.trans (relays_foldl (relays_broadcastValues p) _ _)

theorem broadcastValues_connectors (p : Protocol) (r : Registry) (seen : Snapshot) :
    (broadcastValues p r seen).connectors = r.connectors := by
  unfold broadcastValues
  dsimp only
  split <;> rfl

theorem foldl_broadcastValues_connectors (p : Protocol) (seen : List Snapshot) (r : Registry) :
    (seen.foldl (broadcastValues p) r).connectors = r.connectors := by
  induction seen generalizing r with
  | nil => rfl
  | cons a seen ih => rw [List.foldl_cons, ih, broadcastValues_connectors]

theorem run_connectors (r : Registry) (p : Protocol) (f : World → World) :
    (r.run p f).connectors = Function.update r.connectors p (f (r.connectors p)) :=
  foldl_broadcastValues_connectors p _ _

end Registry

end OpcuaLight.Connector
