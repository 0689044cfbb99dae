import OpcuaLight.Connector.Base

/-!
# The EtherNet/IP connector

`protocols/ethernet-ip/index.ts`, over the ethernet-ip library: one read of all tags at a time.
-/

namespace OpcuaLight.Connector.EthernetIp

open World

/-- A tag's value: JSON, or one of the two values that JSON does not have. -/
inductive TagValue where
  | json (v : Json)
  | bigint (n : Int)
  | buffer (bytes : List UInt8)

def extractParams : ConnectionConfig → Except String (List (String × Json)) :=
  extractWith "EtherNet/IP" fun params =>
    [("port", Json.orElse (params.field "port") (.num 44818)),
     ("slot", Json.orElse (params.field "slot") (.num 0))]

/-- The port is not handed to the library. -/
def connectArgs (o : Managed) : List Json :=
  [o.param "host", .obj [("slot", o.param "slot"), ("connected", .bool true),
    ("discover", .bool true), ("timeout", .num 10000), ("autoReconnect", .bool false)]]

def initiateConnection : World → ObjId → World := connectWith connectArgs

def pollTags (w : World) (m : ObjId) : World :=
  if (w.objs m).client.isNone then w
  else (w.setPollInProgress m true).issueRead
    ⟨m, (w.objs m).client, .tags (w.objs m).mappings.values⟩

/-- `poll` inside `startPolling`. -/
def poll (w : World) (m : ObjId) : World :=
  if (w.objs m).state ≠ .connected || (w.objs m).client.isNone then w
  else if (w.objs m).mappings.size = 0 then w
  else if (w.objs m).pollInProgress then w
  else pollTags w m

def startPolling : World → ObjId → World := startPollingWith poll

/-- The handlers of the promise that `connect` returns. -/
def onConnect (w : World) (m : ObjId) (err : Option JsError) : World :=
  let w := w.setConnecting m false
  match err with
  | some e => w.handleConnectionError m e
  | none =>
      match (w.objs m).client with
      | none => w
      | some _ =>
          let w := (w.setState m .connected).setErrorMessage m none
          startPolling (w.emitQualityUpdate m .good) m

def normalizeTagValue : TagValue → Json
  | .json v => v
  | .bigint n => .num (Js.numberOfBigInt n)
  | .buffer bytes => .arr (bytes.map (fun b => .num b.toNat))

/-- `values[i]` for each of the mappings read that has one. -/
def answers (mappings : List Mapping) (values : List (Option TagValue)) : List (Mapping × Answer) :=
  (mappings.zip values).filterMap fun p =>
    p.2.map (fun v => (p.1, ⟨some (normalizeTagValue v), .good⟩))

/-- The texts of an error of no known class that mean the socket is gone. -/
def socketErrorTexts : List String :=
  ["ECONNRESET", "EPIPE", "socket", "Not connected", "Connection lost"]

/-- The errors of a read that end the connection; the others make the quality bad. -/
def endsConnection (err : JsError) : Bool :=
  match err with
  | .error .connection _ | .error .session _ => true
  | .error .timeout _ | .error .cip _ => false
  | e => socketErrorTexts.any (Js.includes e.message)

/-- The handlers of the promise that `read` returns, for the mappings it was called with. -/
def onRead (w : World) (m : ObjId) (mappings : List Mapping)
    (result : Except JsError (List (Option TagValue))) : World :=
  match result with
  | .ok values =>
      ((w.setLastPollAt m).deliver m (answers mappings values)).setPollInProgress m false
  | .error e =>
      let w := w.setPollInProgress m false
      if endsConnection e then w.handleConnectionError m e else w.emitQualityUpdate m .bad

/-- The override is the base connector's method again. -/
def addMapping : World → Mapping → World × Option String := World.addMapping

/-- Not overridden: the base connector's. -/
def removeMapping : World → String → World × Option String := World.removeMapping

end OpcuaLight.Connector.EthernetIp
