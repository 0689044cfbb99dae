import OpcuaLight.Db.Repositories

/-!
# The repository of connections and mappings

`ConnectorRepository`: what its operations make of the tables, and the row they return.
-/

namespace OpcuaLight.Db.ConnectorRepository

open Connector (ConnectionConfig Mapping)

structure CreateConnectionRequest where
  type : String
  name : String
  params : Json
  pollingIntervalMs : Option Int
  reconnectIntervalMs : Option Int
  enabled : Option Bool
  deriving DecidableEq, Inhabited

/-- Fields that are `none` are left as they are. -/
structure UpdateConnectionRequest where
  name : Option String
  params : Option Json
  pollingIntervalMs : Option Int
  reconnectIntervalMs : Option Int
  enabled : Option Bool
  deriving DecidableEq, Inhabited

structure CreateMappingRequest where
  connectionId : String
  nodeId : Option String
  deviceAddress : String
  description : Option String
  deriving DecidableEq, Inhabited

/-- Fields that are `none` are left as they are; a node id of `some none` is a `null`. -/
structure UpdateMappingRequest where
  deviceAddress : Option String
  nodeId : Option (Option String)
  description : Option String
  deriving DecidableEq, Inhabited

/-! ## Lookups -/

def findConnectionById (t : Tables) (id : String) : Option ConnectionConfig :=
  t.connections.find? (fun r => r.id = id)

def findAllConnections (t : Tables) : List ConnectionConfig := orderBy (fun r => r.name) t.connections

def findMappingById (t : Tables) (id : String) : Option Mapping := t.mappings.find? (fun r => r.id = id)

/-- `ORDER BY connection_id, device_address`. -/
def findAllMappings (t : Tables) : List Mapping :=
  orderBy (fun r => r.connectionId) (orderBy (fun r => r.deviceAddress) t.mappings)

def findMappingByNodeId (t : Tables) (nodeId : String) : Option Mapping :=
  t.mappings.find? (fun r => r.nodeId = some nodeId)

def findMappingByConnectionAndAddress (t : Tables) (connectionId deviceAddress : String) :
    Option Mapping :=
  t.mappings.find? (fun r => r.connectionId = connectionId ∧ r.deviceAddress = deviceAddress)

/-! ## Connections -/

def connectionMissing (id : String) : DomainError :=
  ⟨.notFound, s!"Connection with id \"{id}\" not found", []⟩

def createConnection (t : Tables) (id now : String) (request : CreateConnectionRequest) :
    Except Failure (Tables × ConnectionConfig) :=
  let row : ConnectionConfig :=
    { id := id
      type := request.type
      name := request.name
      params := request.params
      pollingIntervalMs := request.pollingIntervalMs.getD 1000
      reconnectIntervalMs := request.reconnectIntervalMs.getD 5000
      enabled := request.enabled.getD true
      createdAt := now }
  (execute (t.insertConnection row)).map (fun t => (t, row))

/-- The columns that an update sets. -/
def assignConnection (request : UpdateConnectionRequest) (r : ConnectionConfig) : ConnectionConfig :=
  { r with
    name := request.name.getD r.name
    params := request.params.getD r.params
    pollingIntervalMs := request.pollingIntervalMs.getD r.pollingIntervalMs
    reconnectIntervalMs := request.reconnectIntervalMs.getD r.reconnectIntervalMs
    enabled := request.enabled.getD r.enabled }

def updateConnection (t : Tables) (id : String) (request : UpdateConnectionRequest) :
    Except Failure (Tables × ConnectionConfig) :=
  match findConnectionById t id with
  | none => .error (.domain (connectionMissing id))
  | some existing =>
      (execute (t.updateConnection id (assignConnection request))).map (fun t =>
        (t, assignConnection request existing))

def deleteConnection (t : Tables) (id : String) : Except Failure Tables :=
  if (findConnectionById t id).isSome then execute (t.deleteConnection id)
  else .error (.domain (connectionMissing id))

/-! ## Mappings -/

def mappingMissing (id : String) : DomainError := ⟨.notFound, s!"Mapping with id \"{id}\" not found", []⟩

/-- The checks of a node that a mapping is to be created for. -/
def checkNode (t : Tables) (nodeId : Option String) : Option DomainError :=
  match nodeId with
  | none => none
  | some nodeId =>
      if nodeId = "" then none
      else if !t.hasNode nodeId then
        some ⟨.notFound, s!"Node with id \"{nodeId}\" not found",
          [⟨"nodeId", s!"Node \"{nodeId}\" does not exist"⟩]⟩
      else if (findMappingByNodeId t nodeId).isSome then
        some ⟨.duplicateError, s!"Node \"{nodeId}\" already has a mapping",
          [⟨"nodeId", s!"Node \"{nodeId}\" is already mapped to a device address"⟩]⟩
      else none

def addressConflict (connectionId deviceAddress : String) : DomainError where
  code := .duplicateError
  message := s!"Device address \"{deviceAddress}\" is already mapped in connection \"{connectionId}\""
  details := [⟨"deviceAddress",
    s!"Device address \"{deviceAddress}\" is already in use for this connection"⟩]

def createMapping (t : Tables) (id now : String) (request : CreateMappingRequest) :
    Except Failure (Tables × Mapping) :=
  if (findConnectionById t request.connectionId).isNone then
    .error (.domain ⟨.notFound, s!"Connection with id \"{request.connectionId}\" not found",
      [⟨"connectionId", s!"Connection \"{request.connectionId}\" does not exist"⟩]⟩)
  else match checkNode t request.nodeId with
    | some e => .error (.domain e)
    | none =>
        if (findMappingByConnectionAndAddress t request.connectionId request.deviceAddress).isSome then
          .error (.domain (addressConflict request.connectionId request.deviceAddress))
        else
          let row : Mapping := ⟨id, request.connectionId, request.nodeId, request.deviceAddress,
            request.description, now⟩
          (execute (t.insertMapping row)).map (fun t => (t, row))

/-- The checks of a node that an existing mapping is to be moved to. -/
def checkNewNode (t : Tables) (existing : Mapping) (nodeId : Option (Option String)) :
    Option DomainError :=
  match nodeId with
  | some (some nodeId) =>
      if nodeId = "" ∨ existing.nodeId = some nodeId then none
      else if !t.hasNode nodeId then
        some ⟨.notFound, s!"Node with id \"{nodeId}\" not found",
          [⟨"nodeId", s!"Node \"{nodeId}\" does not exist"⟩]⟩
      else if (findMappingByNodeId t nodeId).any (fun m => m.id ≠ existing.id) then
        some ⟨.duplicateError, s!"Node \"{nodeId}\" already has a mapping", []⟩
      else none
  | _ => none

/-- The check of an address that an existing mapping is to be moved to. -/
def checkNewAddress (t : Tables) (existing : Mapping) (deviceAddress : Option String) :
    Option DomainError :=
  match deviceAddress with
  | none => none
  | some deviceAddress =>
      if deviceAddress = "" ∨ existing.deviceAddress = deviceAddress then none
      else if (findMappingByConnectionAndAddress t existing.connectionId deviceAddress).any
          (fun m => m.id ≠ existing.id) then
        some ⟨.duplicateError, s!"Device address \"{deviceAddress}\" is already mapped in this connection",
          []⟩
      else none

/-- The columns that an update sets. -/
def assignMapping (request : UpdateMappingRequest) (r : Mapping) : Mapping :=
  { r with
    deviceAddress := request.deviceAddress.getD r.deviceAddress
    nodeId := request.nodeId.getD r.nodeId
    description := request.description.orElse (fun _ => r.description) }

def updateMapping (t : Tables) (id : String) (request : UpdateMappingRequest) :
    Except Failure (Tables × Mapping) :=
  match findMappingById t id with
  | none => .error (.domain (mappingMissing id))
  | some existing =>
      match checkNewNode t existing request.nodeId, checkNewAddress t existing request.deviceAddress with
      | some e, _ => .error (.domain e)
      | none, some e => .error (.domain e)
      | none, none =>
          (execute (t.updateMapping id (assignMapping request))).map (fun t =>
            (t, assignMapping request existing))

def deleteMapping (t : Tables) (id : String) : Except Failure Tables :=
  if (findMappingById t id).isSome then execute (t.deleteMapping id)
  else .error (.domain (mappingMissing id))

/-- `createMappingsBulk`, with a new id for each request; a request that throws ends it. -/
def createMappingsBulk (t : Tables) (now : String) :
    List (String × CreateMappingRequest) → Tables × Except SqlError (List Mapping × List DomainError)
  | [] => (t, .ok ([], []))
  | (id, request) :: requests =>
      match createMapping t id now request with
      | .ok (t, row) =>
          match createMappingsBulk t now requests with
          | (t, .ok (created, errors)) => (t, .ok (row :: created, errors))
          | r => r
      | .error (.domain e) =>
          match createMappingsBulk t now requests with
          | (t, .ok (created, errors)) => (t, .ok (created, e :: errors))
          | r => r
      | .error (.thrown e) => (t, .error e)

end OpcuaLight.Db.ConnectorRepository
