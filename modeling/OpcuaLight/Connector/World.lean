import OpcuaLight.Lib.JsMap
import OpcuaLight.Lib.Machine
import OpcuaLight.Connector.Address
import Mathlib.Logic.Function.Basic

/-!
# The state of a connector

One connector of `connectors/protocols` with everything its code shares: the managed connections
(objects, so that a callback that outlives its connection still has one to act on), the clients of
the protocol library with the handshakes and reads in flight, the armed timers, and the cache of
current values.

* `effects` : what the connector has done so far, each entry with the managed object it acted for;
* `reports` : what the protocol library has told it so far;
* `callbacks` : what it has shown of itself whenever it has called the value update callback.

Log entries are not modelled.
-/

namespace OpcuaLight.Connector

abbrev ObjId := Nat
abbrev ClientId := Nat
abbrev TimerId := Nat
abbrev ReadId := Nat

/-- `BaseManagedConnection`, with the fields extracted from `config.params` under `params` and the
`pollInProgress` flag of the connectors that have one. -/
structure Managed where
  config : ConnectionConfig
  params : List (String × Json)
  client : Option ClientId
  state : ConnectionState
  lastPollAt : Option Nat
  errorMessage : Option String
  pollingTimer : Option TimerId
  reconnectTimer : Option TimerId
  mappings : JsMap String Mapping
  connecting : Bool
  pollInProgress : Bool
  deriving Inhabited

inductive TimerKind where
  | polling
  | reconnect
  deriving DecidableEq, Repr

namespace Managed

/-- `managed.pollingTimer` or `managed.reconnectTimer`. -/
def handle (o : Managed) : TimerKind → Option TimerId
  | .polling => o.pollingTimer
  | .reconnect => o.reconnectTimer

def setHandle (o : Managed) (k : TimerKind) (t : Option TimerId) : Managed :=
  match k with
  | .polling => { o with pollingTimer := t }
  | .reconnect => { o with reconnectTimer := t }

theorem handle_setHandle (o : Managed) (k k' : TimerKind) (t : Option TimerId) :
    (o.setHandle k t).handle k' = if k' = k then t else o.handle k' := by
  cases k <;> cases k' <;> rfl

@[simp] theorem setHandle_client (o : Managed) (k : TimerKind) (t : Option TimerId) :
    (o.setHandle k t).client = o.client := by cases k <;> rfl

@[simp] theorem setHandle_state (o : Managed) (k : TimerKind) (t : Option TimerId) :
    (o.setHandle k t).state = o.state := by cases k <;> rfl

@[simp] theorem setHandle_connecting (o : Managed) (k : TimerKind) (t : Option TimerId) :
    (o.setHandle k t).connecting = o.connecting := by cases k <;> rfl

@[simp] theorem setHandle_errorMessage (o : Managed) (k : TimerKind) (t : Option TimerId) :
    (o.setHandle k t).errorMessage = o.errorMessage := by cases k <;> rfl

@[simp] theorem setHandle_mappings (o : Managed) (k : TimerKind) (t : Option TimerId) :
    (o.setHandle k t).mappings = o.mappings := by cases k <;> rfl

@[simp] theorem setHandle_config (o : Managed) (k : TimerKind) (t : Option TimerId) :
    (o.setHandle k t).config = o.config := by cases k <;> rfl

/-- The interval a timer of the kind is armed with. -/
def intervalMs (o : Managed) : TimerKind → Int
  | .polling => o.config.pollingIntervalMs
  | .reconnect => o.config.reconnectIntervalMs

end Managed

/-- Where the connect attempt of a client stands. -/
inductive Handshake where
  | pending
  | succeeded
  | failed
  deriving DecidableEq, Repr, Inhabited

/-- A client of the protocol library: the managed object it was created for, the arguments of its
connect call, and the items on its poll list. -/
structure Client where
  owner : ObjId
  args : List Json
  handshake : Handshake
  closed : Bool
  items : List String
  deriving Inhabited

/-- An armed timer: `setInterval` of the poll, or `setTimeout` of the reconnect attempt. -/
structure Timer where
  kind : TimerKind
  obj : ObjId
  ms : Int
  deriving DecidableEq

/-- What a read continues with when its answer arrives. -/
inductive Cont where
  /-- nodes7 and nodepccc read all the items of the poll list -/
  | items
  /-- ethernet-ip reads the tags of these mappings -/
  | tags (mappings : List Mapping)
  /-- modbus-serial reads one mapping (the one of this stamp); `updates` are those of the mappings
  before it in the same poll -/
  | address (stamp : Nat) (mapping : Mapping) (parsed : ParsedAddress) (updates : List ValueUpdate)

/-- A read in flight; `client` is `none` for one that was asked of `null`. -/
structure Read where
  obj : ObjId
  client : Option ClientId
  cont : Cont

inductive Action where
  | clientCreated (client : ClientId) (args : List Json)
  | timerArmed (kind : TimerKind) (ms : Int)
  | valueWritten (mappingId : String)
  | updatesEmitted (updates : List ValueUpdate)
  deriving DecidableEq

/-- An action, with the managed object and the connection it was done for. -/
structure Effect where
  obj : ObjId
  connectionId : String
  action : Action
  deriving DecidableEq

/-- What the library reported for a client: its connect succeeded, or a read returned `value` for
`address`, as a good item or (for a library that returns those too) a bad one. -/
inductive Report where
  | connected (connectionId : String) (client : ClientId) (at' : Nat)
  | value (connectionId : String) (client : ClientId) (address : String) (value : Json)
      (good : Bool) (at' : Nat)
  deriving DecidableEq

/-- What `getStatus` and `getCurrentValues` return. -/
structure Snapshot where
  status : List ConnectionStatus
  values : List CurrentValue
  deriving DecidableEq

structure World where
  running : Bool
  connections : JsMap String ObjId
  currentValues : JsMap String CurrentValue
  objs : ObjId → Managed
  clients : ClientId → Client
  timers : TimerId → Option Timer
  reads : ReadId → Option Read
  nextObj : Nat
  nextClient : Nat
  nextTimer : Nat
  nextRead : Nat
  now : Nat
  effects : List Effect
  reports : List Report
  callbacks : List Snapshot

namespace World

/-- A connector as its constructor leaves it. -/
def initial : World where
  running := false
  connections := ∅
  currentValues := ∅
  objs := fun _ => default
  clients := fun _ => default
  timers := fun _ => none
  reads := fun _ => none
  nextObj := 0
  nextClient := 0
  nextTimer := 0
  nextRead := 0
  now := 0
  effects := []
  reports := []
  callbacks := []

/-- `managed` is one of the values of `this.connections`. -/
def Tracked (w : World) (m : ObjId) : Prop := m ∈ w.connections.values

instance (w : World) (m : ObjId) : Decidable (w.Tracked m) :=
  inferInstanceAs (Decidable (m ∈ w.connections.values))

/-! ## Assignments to the fields of an object -/

def update (w : World) (m : ObjId) (f : Managed → Managed) : World :=
  { w with objs := Function.update w.objs m (f (w.objs m)) }

@[simp] theorem update_objs_self (w : World) (m : ObjId) (f : Managed → Managed) :
    (w.update m f).objs m = f (w.objs m) := Function.update_self _ _ _

theorem update_objs_of_ne (w : World) {m i : ObjId} (f : Managed → Managed) (h : i ≠ m) :
    (w.update m f).objs i = w.objs i := Function.update_of_ne h _ _

def setClient (w : World) (m : ObjId) (c : Option ClientId) : World :=
  w.update m ({ · with client := c })

def setState (w : World) (m : ObjId) (s : ConnectionState) : World :=
  w.update m ({ · with state := s })

def setErrorMessage (w : World) (m : ObjId) (e : Option String) : World :=
  w.update m ({ · with errorMessage := e })

def setConnecting (w : World) (m : ObjId) (b : Bool) : World :=
  w.update m ({ · with connecting := b })

def setPollInProgress (w : World) (m : ObjId) (b : Bool) : World :=
  w.update m ({ · with pollInProgress := b })

def setLastPollAt (w : World) (m : ObjId) : World :=
  w.update m ({ · with lastPollAt := some w.now })

def setMappings (w : World) (m : ObjId) (f : JsMap String Mapping → JsMap String Mapping) : World :=
  w.update m (fun o => { o with mappings := f o.mappings })

/-! ## Calls to the outside -/

/-- Record what is done for object `m`. -/
def act (w : World) (m : ObjId) (a : Action) : World :=
  { w with effects := w.effects ++ [⟨m, (w.objs m).config.id, a⟩] }

def report (w : World) (rs : List Report) : World := { w with reports := w.reports ++ rs }

@[simp] theorem report_clients (w : World) (rs : List Report) : (w.report rs).clients = w.clients :=
  rfl

/-- `clearInterval` and `clearTimeout`. -/
def clearTimer (w : World) (t : TimerId) : World :=
  { w with timers := Function.update w.timers t none }

/-- `setInterval` and `setTimeout`; the new handle is `w.nextTimer`. -/
def armTimer (w : World) (t : Timer) : World :=
  { w with timers := Function.update w.timers w.nextTimer (some t), nextTimer := w.nextTimer + 1 }

/-- A new client whose connect call has been made; it is `w.nextClient`. -/
def createClient (w : World) (m : ObjId) (args : List Json) : World :=
  { w with
    clients := Function.update w.clients w.nextClient ⟨m, args, .pending, false, []⟩
    nextClient := w.nextClient + 1 }

@[simp] theorem createClient_new (w : World) (m : ObjId) (args : List Json) :
    (w.createClient m args).clients w.nextClient = ⟨m, args, .pending, false, []⟩ :=
  Function.update_self _ _ _

theorem createClient_old (w : World) (m : ObjId) (args : List Json) {c : ClientId}
    (h : c < w.nextClient) : (w.createClient m args).clients c = w.clients c :=
  Function.update_of_ne (Nat.ne_of_lt h) _ _

def updateClient (w : World) (c : ClientId) (f : Client → Client) : World :=
  { w with clients := Function.update w.clients c (f (w.clients c)) }

@[simp] theorem updateClient_self (w : World) (c : ClientId) (f : Client → Client) :
    (w.updateClient c f).clients c = f (w.clients c) := Function.update_self _ _ _

theorem updateClient_of_ne (w : World) {c i : ClientId} (f : Client → Client) (h : i ≠ c) :
    (w.updateClient c f).clients i = w.clients i := Function.update_of_ne h _ _

def issueRead (w : World) (r : Read) : World :=
  { w with reads := Function.update w.reads w.nextRead (some r), nextRead := w.nextRead + 1 }

theorem issueRead_reads {w : World} {read x : Read} {r : ReadId}
    (h : (w.issueRead read).reads r = some x) : x = read ∨ w.reads r = some x := by
  change Function.update w.reads w.nextRead (some read) r = some x at h
  by_cases hr : r = w.nextRead
  · rw [hr, Function.update_self] at h
    exact Or.inl (Option.some.inj h).symm
  · rw [Function.update_of_ne hr] at h
    exact Or.inr h

/-- The read `r` is answered. -/
def takeRead (w : World) (r : ReadId) : World :=
  { w with reads := Function.update w.reads r none }

end World

end OpcuaLight.Connector
