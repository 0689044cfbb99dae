import OpcuaLight.Connector.Base

/-!
# The PCCC connector

`protocols/pccc/index.ts`, over nodepccc: the client polls the items registered with it.
-/

namespace OpcuaLight.Connector.Pccc

open World

/-- What `findItem` of the client returns for an address; `ok` is `item.quality === 'OK'`. -/
structure Item where
  address : String
  value : Option Json
  ok : Bool

def extractParams : ConnectionConfig → Except String (List (String × Json)) :=
  extractWith "PCCC" fun params =>
    [("port", Json.orElse (params.field "port") (.num 44818)),
     ("slot", Json.orElse (params.field "slot") (.num 0))] ++
    ((params.field "routing").map (fun r => ("routing", r))).toList

def connectionParams (o : Managed) : List Json :=
  [.obj ([("host", o.param "host"), ("port", o.param "port")] ++
    (o.params.filter (fun f => f.1 = "routing")))]

def initiateConnection : World → ObjId → World := connectWith connectionParams

def pollAddresses (w : World) (m : ObjId) : World :=
  if (w.objs m).client.isNone then w
  else (w.setPollInProgress m true).issueRead ⟨m, (w.objs m).client, .items⟩

/-- `poll` inside `startPolling`. -/
def poll (w : World) (m : ObjId) : World :=
  if (w.objs m).state ≠ .connected || (w.objs m).client.isNone then w
  else if (w.objs m).mappings.size = 0 then w
  else if (w.objs m).pollInProgress then w
  else pollAddresses w m

def startPolling : World → ObjId → World := startPollingWith poll

/-- The callback of `plc.initiateConnection`; here the guard comes before the test for an error. -/
def onConnect (w : World) (m : ObjId) (err : Option JsError) : World :=
  let w := w.setConnecting m false
  match (w.objs m).client with
  | none => w
  | some _ =>
      match err.filter JsError.truthy with
      | some e => w.handleConnectionError m e
      | none =>
          let w := (w.setState m .connected).setErrorMessage m none
          startPolling (w.emitQualityUpdate m .good) m

def findItem (found : List Item) (address : String) : Option Item :=
  found.find? (fun i => i.address = address)

/-- `item.quality === 'OK'` for the item of some mapping. -/
def someItemOk (mappings : List Mapping) (found : List Item) : Bool :=
  mappings.any (fun mp => (findItem found mp.deviceAddress).any Item.ok)

/-- The item of each mapping that the client has one for. -/
def answers (mappings : List Mapping) (found : List Item) : List (Mapping × Answer) :=
  mappings.filterMap fun mp =>
    (findItem found mp.deviceAddress).map
      (fun i => (mp, ⟨i.value, if i.ok then .good else .bad⟩))

/-- The callback of `readAllItems`; `found` is what the client the object then holds has. -/
def onRead (w : World) (m : ObjId) (anythingBad : Bool) (found : List Item) : World :=
  let w := w.setPollInProgress m false
  match (w.objs m).client with
  | none => w
  | some _ =>
      let mappings := (w.objs m).mappings.values
      if anythingBad && !someItemOk mappings found then
        w.handleConnectionError m (.text "All items returned bad quality")
      else (w.setLastPollAt m).deliver m (answers mappings found)

def addMapping (w : World) (mapping : Mapping) : World × Option String :=
  match w.connections.get? mapping.connectionId with
  | none => (w, some (connectionNotFound mapping.connectionId))
  | some m =>
      if !pcccAddressTest mapping.deviceAddress then
        (w, some (pcccAddressError mapping.deviceAddress))
      else
        let w := w.setMappings m (·.set mapping.id mapping)
        match (w.objs m).client with
        | some c => (w.addItems c [mapping.deviceAddress], none)
        | none => (w, none)

def removeMapping (w : World) (id : String) : World × Option String :=
  match w.ownerOfMapping id with
  | none => (w, some (mappingNotFound id))
  | some m =>
      let address := (((w.objs m).mappings.get? id).map Mapping.deviceAddress).getD ""
      let w := match (w.objs m).client with
        | some c => w.removeItems c address
        | none => w
      ((w.setMappings m (·.delete id)).forgetValue id, none)

end OpcuaLight.Connector.Pccc
