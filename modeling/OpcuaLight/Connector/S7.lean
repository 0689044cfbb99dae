import OpcuaLight.Connector.Base

/-!
# The S7 connector

`protocols/s7/index.ts`, over nodes7: the client polls the items registered with it.
-/

namespace OpcuaLight.Connector.S7

open World

def extractParams : ConnectionConfig → Except String (List (String × Json)) :=
  extractWith "S7" fun params =>
    [("rack", Json.orElse (params.field "rack") (.num 0)),
     ("slot", Json.orElse (params.field "slot") (.num 1))]

def connectionParams (o : Managed) : List Json :=
  [.obj [("host", o.param "host"), ("port", .num 102), ("rack", o.param "rack"),
    ("slot", o.param "slot"), ("timeout", .num 5000)]]

def initiateConnection : World → ObjId → World := connectWith connectionParams

/-- `poll` inside `startPolling`. -/
def poll (w : World) (m : ObjId) : World :=
  if (w.objs m).state ≠ .connected || (w.objs m).client.isNone then w
  else if (w.objs m).mappings.size = 0 then w
  else w.issueRead ⟨m, (w.objs m).client, .items⟩

def startPolling : World → ObjId → World := startPollingWith poll

/-- The callback of `client.initiateConnection`. -/
def onConnect (w : World) (m : ObjId) (err : Option JsError) : World :=
  let w := w.setConnecting m false
  match err.filter JsError.truthy with
  | some e => w.handleConnectionError m e
  | none =>
      match (w.objs m).client with
      | none => w
      | some c =>
          let w := (w.setState m .connected).setErrorMessage m none
          let addresses := (w.objs m).mappings.values.map Mapping.deviceAddress
          let w := if addresses = [] then w else w.addItems c addresses
          startPolling (w.emitQualityUpdate m .good) m

/-- `values[mapping.deviceAddress]` for each mapping that has one. -/
def answers (mappings : List Mapping) (values : List (String × Json)) : List (Mapping × Answer) :=
  mappings.filterMap fun mp =>
    (values.find? (fun v => v.1 = mp.deviceAddress)).map (fun v => (mp, ⟨some v.2, .good⟩))

/-- The callback of `readAllItems`. -/
def onRead (w : World) (m : ObjId) (result : Except JsError (List (String × Json))) : World :=
  match result with
  | .error e => w.handleConnectionError m e
  | .ok values => (w.setLastPollAt m).deliver m (answers (w.objs m).mappings.values values)

def addMapping (w : World) (mapping : Mapping) : World × Option String :=
  match w.connections.get? mapping.connectionId with
  | none => (w, some (connectionNotFound mapping.connectionId))
  | some m =>
      let w := w.setMappings m (·.set mapping.id mapping)
      match (w.objs m).state, (w.objs m).client with
      | .connected, some c => (w.addItems c [mapping.deviceAddress], none)
      | _, _ => (w, none)

def removeMapping (w : World) (id : String) : World × Option String :=
  match w.ownerOfMapping id with
  | none => (w, some (mappingNotFound id))
  | some m =>
      let address := (((w.objs m).mappings.get? id).map Mapping.deviceAddress).getD ""
      let w := w.setMappings m (·.delete id)
      let w := match (w.objs m).state, (w.objs m).client with
        | .connected, some c => w.removeItems c address
        | _, _ => w
      (w.forgetValue id, none)

end OpcuaLight.Connector.S7
