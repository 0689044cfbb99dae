import OpcuaLight.Connector.S7
import OpcuaLight.Connector.Modbus
import OpcuaLight.Connector.EthernetIp
import OpcuaLight.Connector.Pccc

/-!
# A connector's steps

The methods of `BaseConnector` that call those of the protocol, and the events of a connector: calls
of its methods, answers of the protocol library to connects and reads (also for clients that were
closed or replaced meanwhile), timers, and the passing of time. `step` is total: an answer to no
open question and a timer that is not armed change nothing.
-/

namespace OpcuaLight.Connector

open World

/-! ## The methods of the four protocols -/

def extractParams : Protocol → ConnectionConfig → Except String (List (String × Json))
  | .s7 => S7.extractParams
  | .modbusTcp => Modbus.extractParams
  | .ethernetIp => EthernetIp.extractParams
  | .pccc => Pccc.extractParams

def initiateConnection : Protocol → World → ObjId → World
  | .s7 => S7.initiateConnection
  | .modbusTcp => Modbus.initiateConnection
  | .ethernetIp => EthernetIp.initiateConnection
  | .pccc => Pccc.initiateConnection

def poll : Protocol → World → ObjId → World
  | .s7 => S7.poll
  | .modbusTcp => Modbus.poll
  | .ethernetIp => EthernetIp.poll
  | .pccc => Pccc.poll

def onConnect : Protocol → World → ObjId → Option JsError → World
  | .s7 => S7.onConnect
  | .modbusTcp => Modbus.onConnect
  | .ethernetIp => EthernetIp.onConnect
  | .pccc => Pccc.onConnect

def addMapping : Protocol → World → Mapping → World × Option String
  | .s7 => S7.addMapping
  | .modbusTcp => Modbus.addMapping
  | .ethernetIp => EthernetIp.addMapping
  | .pccc => Pccc.addMapping

def removeMapping : Protocol → World → String → World × Option String
  | .s7 => S7.removeMapping
  | .modbusTcp => Modbus.removeMapping
  | .ethernetIp => EthernetIp.removeMapping
  | .pccc => Pccc.removeMapping

/-! ## The methods of the base connector; a second component is the message of what is thrown -/

def createManagedConnection (config : ConnectionConfig) (params : List (String × Json)) : Managed where
  config := config
  params := params
  client := none
  state := .disconnected
  lastPollAt := none
  errorMessage := none
  pollingTimer := none
  reconnectTimer := none
  mappings := ∅
  connecting := false
  pollInProgress := false

/-- A new managed object under its connection id; it is `w.nextObj`. -/
def World.track (w : World) (o : Managed) : World :=
  { w with
    objs := Function.update w.objs w.nextObj o
    nextObj := w.nextObj + 1
    connections := w.connections.set o.config.id w.nextObj }

def addConnection (p : Protocol) (w : World) (config : ConnectionConfig) : World × Option String :=
  match w.connections.get? config.id with
  | some _ => (w, some (alreadyExists config.id))
  | none =>
      match extractParams p config with
      | .error e => (w, some e)
      | .ok params =>
          let m := w.nextObj
          let w := w.track (createManagedConnection config params)
          (if w.running && config.enabled then initiateConnection p w m else w, none)

def removeConnection (w : World) (id : String) : World × Option String :=
  match w.connections.get? id with
  | none => (w, some (connectionNotFound id))
  | some m =>
      let w := w.disconnectAndCleanup m
      ({ w with connections := w.connections.delete id }, none)

/-- `managed.config = config; this.applyParams(managed, params)`. -/
def World.applyParams (w : World) (m : ObjId) (config : ConnectionConfig)
    (params : List (String × Json)) : World :=
  w.update m (fun o => { o with config := config, params := params })

def updateConnection (p : Protocol) (w : World) (config : ConnectionConfig) :
    World × Option String :=
  match w.connections.get? config.id with
  | none => addConnection p w config
  | some m =>
      let w := w.disconnectAndCleanup m
      match extractParams p config with
      | .error e => (w, some e)
      | .ok params =>
          let w := w.applyParams m config params
          (if w.running && config.enabled then initiateConnection p w m else w, none)

/-- What `start` does for one connection. -/
def startOne (p : Protocol) (w : World) (m : ObjId) : World :=
  if (w.objs m).config.enabled then initiateConnection p w m else w

def start (p : Protocol) (w : World) : World :=
  if w.running then w
  else w.connections.values.foldl (startOne p) { w with running := true }

def stop (w : World) : World :=
  if !w.running then w
  else w.connections.values.foldl disconnectAndCleanup { w with running := false }

/-- The handler of the timeout that `scheduleReconnect` sets. -/
def onReconnectTimer (p : Protocol) (w : World) (m : ObjId) : World :=
  let w := w.update m (·.setHandle .reconnect none)
  if !w.running then w
  else initiateConnection p ((w.dropClient m).setState m .disconnected) m

/-! ## Events -/

/-- The answer to a read, as the four libraries give it. A falsy `err` of a callback is no failure. -/
inductive ReadResult where
  | items (values : List (String × Json))
  | data (values : List Json)
  | tags (values : List (Option EthernetIp.TagValue))
  | found (anythingBad : Bool) (items : List Pccc.Item)
  | failed (err : JsError)

inductive Event where
  | addConnection (config : ConnectionConfig)
  | removeConnection (id : String)
  | updateConnection (config : ConnectionConfig)
  | addMapping (mapping : Mapping)
  | removeMapping (id : String)
  | start
  | stop
  | connectReport (c : ClientId) (err : Option JsError)
  | readReport (r : ReadId) (result : ReadResult)
  | pollTick (t : TimerId)
  | reconnectTick (t : TimerId)
  | elapse (ms : Nat)

/-- Whether the answer to a connect is a failure: a callback's `err` is tested, a promise rejected. -/
def connectFailed (p : Protocol) (err : Option JsError) : Bool :=
  match p with
  | .s7 | .pccc => err.any JsError.truthy
  | .modbusTcp | .ethernetIp => err.isSome

def onConnectReport (p : Protocol) (w : World) (c : ClientId) (err : Option JsError) : World :=
  if c < w.nextClient ∧ (w.clients c).handshake = .pending then
    let m := (w.clients c).owner
    let w :=
      if connectFailed p err then w.updateClient c ({ · with handshake := .failed })
      else (w.updateClient c ({ · with handshake := .succeeded })).report
        [.connected (w.objs m).config.id c w.now]
    onConnect p w m err
  else w

/-- What an answer says about the values at the device. -/
def valueReports (w : World) (r : Read) (result : ReadResult) : List Report :=
  let id := (w.objs r.obj).config.id
  match r.cont, result, r.client with
  | .items, .items values, some c => values.map (fun v => .value id c v.1 v.2 true w.now)
  | .address _ mapping parsed _, .data data, some c =>
      ((Modbus.valueOf parsed data).map
        (fun v => .value id c mapping.deviceAddress v true w.now)).toList
  | .tags mappings, .tags values, some c =>
      (mappings.zip values).filterMap fun p =>
        p.2.map (fun v => .value id c p.1.deviceAddress (EthernetIp.normalizeTagValue v) true w.now)
  | .items, .found _ items, _ =>
      match (w.objs r.obj).client with
      | some c => items.filterMap (fun i => i.value.map (fun v => .value id c i.address v i.ok w.now))
      | none => []
  | _, _, _ => []

/-- The handler of the read's answer; an answer that is not of the protocol's library is dropped. -/
def onRead (p : Protocol) (w : World) (r : Read) (result : ReadResult) : World :=
  match p, r.cont, result with
  | .s7, .items, .items values => S7.onRead w r.obj (.ok values)
  | .s7, .items, .failed e => S7.onRead w r.obj (.error e)
  | .modbusTcp, .address stamp mapping parsed updates, .data data =>
      Modbus.onRead w r.obj r.client stamp mapping parsed updates (.ok data)
  | .modbusTcp, .address stamp mapping parsed updates, .failed e =>
      Modbus.onRead w r.obj r.client stamp mapping parsed updates (.error e)
  | .ethernetIp, .tags mappings, .tags values => EthernetIp.onRead w r.obj mappings (.ok values)
  | .ethernetIp, .tags mappings, .failed e => EthernetIp.onRead w r.obj mappings (.error e)
  | .pccc, .items, .found anythingBad items => Pccc.onRead w r.obj anythingBad items
  | _, _, _ => w

def onReadReport (p : Protocol) (w : World) (r : ReadId) (result : ReadResult) : World :=
  match w.reads r with
  | none => w
  | some read => onRead p ((w.takeRead r).report (valueReports w read result)) read result

def onPollTick (p : Protocol) (w : World) (t : TimerId) : World :=
  match w.timers t with
  | some ⟨.polling, m, _⟩ => poll p w m
  | _ => w

def onReconnectTick (p : Protocol) (w : World) (t : TimerId) : World :=
  match w.timers t with
  | some ⟨.reconnect, m, _⟩ => onReconnectTimer p (w.clearTimer t) m
  | _ => w

def step (p : Protocol) (w : World) : Event → World
  | .addConnection config => (addConnection p w config).1
  | .removeConnection id => (removeConnection w id).1
  | .updateConnection config => (updateConnection p w config).1
  | .addMapping mapping => (addMapping p w mapping).1
  | .removeMapping id => (removeMapping p w id).1
  | .start => start p w
  | .stop => stop w
  | .connectReport c err => onConnectReport p w c err
  | .readReport r result => onReadReport p w r result
  | .pollTick t => onPollTick p w t
  | .reconnectTick t => onReconnectTick p w t
  | .elapse ms => { w with now := w.now + ms }

/-- The state after a list of events, from a new connector. -/
def reach (p : Protocol) (es : List Event) : World := Machine.run (step p) World.initial es

/-! ## A connection and a mapping for runs on fixed inputs -/

def sampleConnection (p : Protocol) : ConnectionConfig where
  id := "c1"
  type := p.type
  name := "PLC"
  params := .obj [("host", .str "192.168.1.10")]
  pollingIntervalMs := 1000
  reconnectIntervalMs := 5000
  enabled := true
  createdAt := "2024-01-01"

def sampleMapping (id address : String) : Mapping where
  id := id
  connectionId := "c1"
  nodeId := some ("node-" ++ id)
  deviceAddress := address
  description := none
  createdAt := "2024-01-01"

end OpcuaLight.Connector
