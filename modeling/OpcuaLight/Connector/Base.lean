import OpcuaLight.Connector.World

/-!
# The base connector

The methods of `BaseConnector` that all protocols share, each on the state and the managed object it
is called with. The value update callback is registered before a connector is used (by the registry).
Here it returns; what is left undone where it throws is in `Interrupted`. The calls of a library that
connect, read and close do not throw where they are made: what fails is reported later.
-/

namespace OpcuaLight.Connector

/-- Messages thrown by the base connector. -/
def alreadyExists (id : String) : String := s!"Connection with id '{id}' already exists"

def connectionNotFound (id : String) : String := s!"Connection with id '{id}' not found"

def mappingNotFound (id : String) : String := s!"Mapping with id '{id}' not found"

/-- What `getStatus` says of one connection; an empty error message is left out. -/
def Managed.status (o : Managed) : ConnectionStatus where
  connectionId := o.config.id
  state := o.state
  lastPollAt := o.lastPollAt
  errorMessage := o.errorMessage.filter (· ≠ "")

namespace World

def getStatus (w : World) : List ConnectionStatus :=
  w.connections.values.map fun m => (w.objs m).status

def getCurrentValues (w : World) : List CurrentValue := w.currentValues.values

def snapshot (w : World) : Snapshot := ⟨w.getStatus, w.getCurrentValues⟩

def callback (w : World) (m : ObjId) (updates : List ValueUpdate) : World :=
  { w.act m (.updatesEmitted updates) with callbacks := w.callbacks ++ [w.snapshot] }

def emitValueUpdates (w : World) (m : ObjId) (updates : List ValueUpdate) : World :=
  if updates = [] then w else w.callback m updates

def cacheValue (w : World) (m : ObjId) (mappingId : String) (v : CurrentValue) : World :=
  { w with currentValues := w.currentValues.set mappingId v }.act m (.valueWritten mappingId)

/-- Clear a timer of the object, when it has one, and forget its handle. -/
def disarm (k : TimerKind) (w : World) (m : ObjId) : World :=
  match (w.objs m).handle k with
  | none => w
  | some t => (w.clearTimer t).update m (·.setHandle k none)

/-- Set a timer of the object with the interval of its configuration, and keep its handle. -/
def arm (k : TimerKind) (w : World) (m : ObjId) : World :=
  let ms := (w.objs m).intervalMs k
  ((w.armTimer ⟨k, m, ms⟩).update m (·.setHandle k (some w.nextTimer))).act m (.timerArmed k ms)

def stopPolling : World → ObjId → World := disarm .polling

/-- `scheduleReconnect`; the timeout's handler is `onReconnectTimer`. -/
def scheduleReconnect (w : World) (m : ObjId) : World := arm .reconnect (disarm .reconnect w m) m

/-- What `emitQualityUpdate` does to the cache for one mapping. -/
def cacheQuality (m : ObjId) (quality : Quality) (w : World) (mapping : Mapping) : World :=
  match w.currentValues.get? mapping.id with
  | some cached => w.cacheValue m mapping.id { cached with quality := quality, timestamp := w.now }
  | none =>
      if quality = .bad then
        w.cacheValue m mapping.id
          { nodeId := mapping.nodeId
            deviceAddress := mapping.deviceAddress
            connectionId := (w.objs m).config.id
            value := none
            quality := .bad
            timestamp := w.now }
      else w

/-- The updates `emitQualityUpdate` sends: one for each mapping with a node. -/
def qualityUpdates (quality : Quality) (now : Nat) (mappings : List Mapping) : List ValueUpdate :=
  (mappings.filter (fun mp => Js.truthyString mp.nodeId)).map
    (fun mp => ⟨mp.nodeId.getD "", none, quality, now⟩)

def emitQualityUpdate (w : World) (m : ObjId) (quality : Quality) : World :=
  let mappings := (w.objs m).mappings.values
  (mappings.foldl (cacheQuality m quality) w).emitValueUpdates m (qualityUpdates quality w.now mappings)

/-- The text kept for an error: itself if it is a string, else its message if there is one. -/
def errorText : JsError → String
  | .text s => s
  | .error _ msg => if msg = "" then "Connection failed" else msg

def stateAfterError : ConnectionState → ConnectionState
  | .connected => .disconnected
  | _ => .error

def handleConnectionError (w : World) (m : ObjId) (err : JsError) : World :=
  let w := w.setState m (stateAfterError (w.objs m).state)
  let w := w.setErrorMessage m (some (errorText err))
  let w := (w.stopPolling m).emitQualityUpdate m .bad
  if w.running then w.scheduleReconnect m else w

/-- `closeClient`: `dropConnection`, `close` or `disconnect` of the library, when there is a client. -/
def closeClient (w : World) (m : ObjId) : World :=
  match (w.objs m).client with
  | none => w
  | some c => w.updateClient c ({ · with closed := true })

def dropClient (w : World) (m : ObjId) : World := (w.closeClient m).setClient m none

def disconnectAndCleanup (w : World) (m : ObjId) : World :=
  let w := (disarm .reconnect (w.stopPolling m) m).dropClient m
  ((w.setState m .disconnected).setConnecting m false).setErrorMessage m none

/-- The part of every `initiateConnection` before the library answers: nothing while an attempt is
under way, else a new client takes the place of the old one. -/
def connectWith (args : Managed → List Json) (w : World) (m : ObjId) : World :=
  if (w.objs m).connecting then w
  else
    let args := args (w.objs m)
    (((w.setConnecting m true).createClient m args).setClient m (some w.nextClient)).act m
      (.clientCreated w.nextClient args)

/-- The shape of every `startPolling`: one poll, then the interval, unless it is armed already. -/
def startPollingWith (poll : World → ObjId → World) (w : World) (m : ObjId) : World :=
  if (w.objs m).pollingTimer.isSome then w else arm .polling (poll w m) m

def addItems (w : World) (c : ClientId) (addresses : List String) : World :=
  w.updateClient c (fun k => { k with items := k.items ++ addresses })

def removeItems (w : World) (c : ClientId) (address : String) : World :=
  w.updateClient c (fun k => { k with items := k.items.filter (· ≠ address) })

/-- What a successful read has for one mapping. -/
structure Answer where
  value : Option Json
  quality : Quality

/-- The cache entry of an answered mapping. -/
def cacheAnswer (m : ObjId) (w : World) (a : Mapping × Answer) : World :=
  w.cacheValue m a.1.id
    { nodeId := a.1.nodeId
      deviceAddress := a.1.deviceAddress
      connectionId := (w.objs m).config.id
      value := a.2.value
      quality := a.2.quality
      timestamp := w.now }

/-- The updates for answered mappings: one for each that has a node. -/
def answerUpdates (now : Nat) (answers : List (Mapping × Answer)) : List ValueUpdate :=
  (answers.filter (fun a => Js.truthyString a.1.nodeId)).map
    (fun a => ⟨a.1.nodeId.getD "", a.2.value, a.2.quality, now⟩)

/-- The loop over the mappings after a read of several: every answer is cached, and the updates are
emitted together. -/
def deliver (w : World) (m : ObjId) (answers : List (Mapping × Answer)) : World :=
  (answers.foldl (cacheAnswer m) w).emitValueUpdates m (answerUpdates w.now answers)

/-- The first managed connection, in the order of the map, that has a mapping. -/
def ownerOfMapping (w : World) (id : String) : Option ObjId :=
  w.connections.values.find? (fun m => (w.objs m).mappings.has id)

def forgetValue (w : World) (id : String) : World :=
  { w with currentValues := w.currentValues.delete id }

def addMapping (w : World) (mapping : Mapping) : World × Option String :=
  match w.connections.get? mapping.connectionId with
  | none => (w, some (connectionNotFound mapping.connectionId))
  | some m => (w.setMappings m (·.set mapping.id mapping), none)

def removeMapping (w : World) (id : String) : World × Option String :=
  match w.ownerOfMapping id with
  | none => (w, some (mappingNotFound id))
  | some m => ((w.setMappings m (·.delete id)).forgetValue id, none)

end World

/-- `params.key`, where reading a property of `null` throws. -/
def paramsHost (params : Json) : Except String (Option Json) :=
  match params with
  | .null => .error "Cannot read properties of null (reading 'host')"
  | v => .ok (v.field "host")

/-- The shape of every `extractParams`: the host, which must be truthy, and the other fields. -/
def extractWith (protocolName : String) (fields : Json → List (String × Json))
    (config : ConnectionConfig) : Except String (List (String × Json)) :=
  match paramsHost config.params with
  | .error e => .error e
  | .ok host =>
      match host with
      | some h =>
          if h.truthy then .ok (("host", h) :: fields config.params)
          else .error s!"{protocolName} connection '{config.name}' requires a 'host' parameter"
      | none => .error s!"{protocolName} connection '{config.name}' requires a 'host' parameter"

/-- `managed.key`, for a field that came from the params. -/
def Managed.param (o : Managed) (key : String) : Json :=
  ((o.params.find? (fun f => f.1 = key)).map (fun f => f.2)).getD .null

end OpcuaLight.Connector
