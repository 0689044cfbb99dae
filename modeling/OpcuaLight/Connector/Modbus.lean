import OpcuaLight.Connector.Base

/-!
# The Modbus TCP connector

`protocols/modbus-tcp/index.ts`, over modbus-serial: one read for each mapping, one after the other.
The poll is an asynchronous loop over the live map of mappings, so each of its steps reads the
objects as they are then.
-/

namespace OpcuaLight.Connector.Modbus

open World

def extractParams : ConnectionConfig → Except String (List (String × Json)) :=
  extractWith "Modbus" fun params =>
    [("port", Json.orElse (params.field "port") (.num 502)),
     ("unitId", Json.orElse (params.field "unitId") (.num 1))]

def connectArgs (o : Managed) : List Json := [o.param "host", .obj [("port", o.param "port")]]

def initiateConnection : World → ObjId → World := connectWith connectArgs

/-- The message of an error has one of these when the connection is gone. -/
def connectionErrorTexts : List String :=
  ["port not open", "timed out", "econnrefused", "econnreset", "ehostunreach", "enetunreach",
    "not connected"]

def isConnectionError (err : JsError) : Bool :=
  connectionErrorTexts.any (Js.includes (Js.toLowerCase err.message))

/-- The loop of `poll` over the mappings still to visit: it stops at the first read, and goes on
from there when that is answered. -/
def readNext (w : World) (m : ObjId) (updates : List ValueUpdate) :
    List (Nat × String × Mapping) → World
  | [] => if updates = [] then w else (w.setLastPollAt m).emitValueUpdates m updates
  | (stamp, _, mapping) :: rest =>
      match parseDeviceAddress mapping.deviceAddress with
      | .ok parsed => w.issueRead ⟨m, (w.objs m).client, .address stamp mapping parsed updates⟩
      | .error msg =>
          if isConnectionError (.error .other msg) then
            w.handleConnectionError m (.error .other msg)
          else readNext w m updates rest

/-- `poll` inside `startPolling`. -/
def poll (w : World) (m : ObjId) : World :=
  if (w.objs m).state ≠ .connected || (w.objs m).client.isNone then w
  else if (w.objs m).mappings.size = 0 then w
  else readNext w m [] ((w.objs m).mappings.after none)

def startPolling : World → ObjId → World := startPollingWith poll

/-- The handlers of the promise that `connectTCP` returns. -/
def onConnect (w : World) (m : ObjId) (err : Option JsError) : World :=
  let w := w.setConnecting m false
  match err with
  | some e => w.handleConnectionError m e
  | none =>
      match (w.objs m).client with
      | none => w
      | some _ =>
          let w := (w.setState m .connected).setErrorMessage m none
          startPolling (w.emitQualityUpdate m .good) m

/-- The value `readAddress` takes from the registers or coils read. -/
def valueOf (parsed : ParsedAddress) (data : List Json) : Option Json :=
  match parsed.type with
  | .hr | .ir => if parsed.count = .finite 1 then data.head? else some (.arr data)
  | .co | .di => data.head?

/-- The answer to the read of one mapping, and the rest of the loop. -/
def onRead (w : World) (m : ObjId) (client : Option ClientId) (stamp : Nat) (mapping : Mapping)
    (parsed : ParsedAddress) (updates : List ValueUpdate) (result : Except JsError (List Json)) :
    World :=
  match client, result with
  -- the read was asked of `null`: a type error, which is no connection error
  | none, _ => readNext w m updates ((w.objs m).mappings.after (some stamp))
  | some _, .ok data =>
      let answer : Mapping × Answer := (mapping, ⟨valueOf parsed data, .good⟩)
      let w := cacheAnswer m w answer
      readNext w m (updates ++ answerUpdates w.now [answer])
        ((w.objs m).mappings.after (some stamp))
  | some _, .error e =>
      if isConnectionError e then w.handleConnectionError m e
      else readNext w m updates ((w.objs m).mappings.after (some stamp))

def addMapping (w : World) (mapping : Mapping) : World × Option String :=
  match w.connections.get? mapping.connectionId with
  | none => (w, some (connectionNotFound mapping.connectionId))
  | some m =>
      match parseDeviceAddress mapping.deviceAddress with
      | .error msg => (w, some msg)
      | .ok _ => (w.setMappings m (·.set mapping.id mapping), none)

/-- Not overridden: the base connector's. -/
def removeMapping : World → String → World × Option String := World.removeMapping

end OpcuaLight.Connector.Modbus
