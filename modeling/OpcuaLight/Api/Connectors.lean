import OpcuaLight.Api.AddressSpace
import OpcuaLight.Api.Params
import OpcuaLight.Db.ConnectorRepository

/-!
# The connector endpoints

The mutating endpoints of `/api/connectors`: each takes the tables to new tables, a response, and the
calls it makes to the connectors. A handler catches what a connector throws, so a call has no other
effect than the one on the connector. A body has the fields of its request type, of which any may be
missing.
-/

namespace OpcuaLight.Api

open Connector (ConnectionConfig Mapping)
open Db
open Db.ConnectorRepository (CreateConnectionRequest UpdateConnectionRequest CreateMappingRequest
  UpdateMappingRequest findConnectionById findMappingById findAllConnections)

/-- A call to the connector that is registered for a type, if there is one. -/
structure Notice where
  type : String
  event : Connector.Event

structure Outcome where
  tables : Tables
  response : Response
  notices : List Notice

/-- The outcome of a request that the handler refuses. -/
def refuse (t : Tables) (response : Response) : Outcome := ⟨t, response, []⟩

/-- The outcome of an operation that yields the row it is about. -/
def conclude {α : Type} (t : Tables) (success : Nat) (domain : DomainError → Nat)
    (notices : Tables → α → List Notice) (r : Except Failure (Tables × α)) : Outcome :=
  match r with
  | .ok (t, row) => ⟨t, ⟨success, none⟩, notices t row⟩
  | .error (.domain e) => refuse t ⟨domain e, some e⟩
  | .error (.thrown e) => refuse t (internalError e.message)

/-! ## Connections -/

structure ConnectionBody where
  type : Option String
  name : Option String
  params : Option Json
  pollingIntervalMs : Option Int
  reconnectIntervalMs : Option Int
  enabled : Option Bool
  deriving DecidableEq, Inhabited

/-- The value is an object that is no array. -/
def isRecord : Option Json → Bool
  | some (.obj _) => true
  | _ => false

/-- What `validateParams` has against the parameters of a connection of the type. -/
def paramsErrors (type : String) (params : Json) : List FieldError :=
  match getConnector type with
  | some p => paramsErrorsOf p params
  | none => []

def postConnection (t : Tables) (id now : String) (body : ConnectionBody) : Outcome :=
  let errors :=
    (if nonEmpty body.type then [] else [⟨"type", "Type is required"⟩]) ++
    (if nonEmpty body.name then [] else [⟨"name", "Name is required"⟩]) ++
    (if isRecord body.params then [] else [⟨"params", "Params is required and must be an object"⟩])
  match errors, body.type, body.name, body.params with
  | [], some type, some name, some params =>
      match paramsErrors type params with
      | [] => conclude t 201 (fun e => if e.code = .duplicateError then 409 else 400)
          (fun _ row => [⟨row.type, .addConnection row⟩])
          (ConnectorRepository.createConnection t id now
            ⟨type, name, params, body.pollingIntervalMs, body.reconnectIntervalMs, body.enabled⟩)
      | errors => refuse t (invalidBody "Invalid connection parameters" errors)
  | errors, _, _, _ => refuse t (invalidBody "Invalid request body" errors)

/-- The check that a field is provided: a name or parameters that are falsy do not count. -/
def providesField (body : UpdateConnectionRequest) : Bool :=
  Js.truthyString body.name || body.params.any Json.truthy || body.pollingIntervalMs.isSome ||
    body.reconnectIntervalMs.isSome || body.enabled.isSome

/-- The parameters are validated if they are truthy and the connection exists. -/
def updateErrors (t : Tables) (id : String) (body : UpdateConnectionRequest) : List FieldError :=
  match body.params.filter Json.truthy, findConnectionById t id with
  | some params, some connection => paramsErrors connection.type params
  | _, _ => []

def putConnection (t : Tables) (id : String) (body : UpdateConnectionRequest) : Outcome :=
  if !providesField body then
    refuse t (invalidBody "At least one field must be provided for update" [])
  else
    match updateErrors t id body with
    | [] => conclude t 200 (fun e => if e.code = .notFound then 404 else 400)
        (fun _ row => [⟨row.type, .updateConnection row⟩])
        (ConnectorRepository.updateConnection t id body)
    | errors => refuse t (invalidBody "Invalid connection parameters" errors)

def deleteConnection (t : Tables) (id : String) : Outcome :=
  let notices : List Notice := ((findConnectionById t id).map (fun connection =>
    ⟨connection.type, .removeConnection id⟩)).toList
  conclude t 204 (fun _ => 404) (fun _ _ => notices)
    ((ConnectorRepository.deleteConnection t id).map (fun t => (t, ())))

/-! ## Mappings -/

structure MappingBody where
  connectionId : Option String
  nodeId : Option String
  deviceAddress : Option String
  description : Option String
  deriving DecidableEq, Inhabited

/-- The call about a mapping, to the connector of its connection. -/
def mappingNotices (t : Tables) (mapping : Mapping) (event : Connector.Event) : List Notice :=
  ((findConnectionById t mapping.connectionId).map (fun connection => ⟨connection.type, event⟩)).toList

def mappingErrors (body : MappingBody) : List FieldError :=
  (if nonEmpty body.connectionId then [] else [⟨"connectionId", "Connection ID is required"⟩]) ++
  (if body.nodeId.isSome && !nonEmpty body.nodeId then
    [⟨"nodeId", "Node ID must be a non-empty string when provided"⟩] else []) ++
  (if nonEmpty body.deviceAddress then [] else [⟨"deviceAddress", "Device address is required"⟩])

/-- The request that a body makes to the repository, or what is wrong with the body. -/
def mappingRequest (body : MappingBody) : Except (List FieldError) CreateMappingRequest :=
  match mappingErrors body, body.connectionId, body.deviceAddress with
  | [], some connectionId, some deviceAddress =>
      .ok ⟨connectionId, body.nodeId, deviceAddress, body.description⟩
  | errors, _, _ => .error errors

def postMapping (t : Tables) (id now : String) (body : MappingBody) : Outcome :=
  match mappingRequest body with
  | .ok request => conclude t 201 namespaceStatus (fun t row => mappingNotices t row (.addMapping row))
      (ConnectorRepository.createMapping t id now request)
  | .error errors => refuse t (invalidBody "Invalid request body" errors)

/-- No connector is told about the update. -/
def putMapping (t : Tables) (id : String) (body : UpdateMappingRequest) : Outcome :=
  if !Js.truthyString body.deviceAddress && !Js.truthyString (body.nodeId.getD none) &&
      body.description.isNone then
    refuse t (invalidBody "At least one field (deviceAddress, nodeId, or description) must be provided" [])
  else
    conclude t 200 namespaceStatus (fun _ _ => []) (ConnectorRepository.updateMapping t id body)

def deleteMapping (t : Tables) (id : String) : Outcome :=
  let notices := (findMappingById t id).toList.flatMap (fun mapping =>
    mappingNotices t mapping (.removeMapping id))
  conclude t 204 (fun _ => 404) (fun _ _ => notices)
    ((ConnectorRepository.deleteMapping t id).map (fun t => (t, ())))

/-! ## Several mappings at once -/

/-- A row of a request for several mappings: refused with its result, or a creation with the result
that its row or its error message makes. -/
inductive Attempt (ρ : Type) where
  | refused (result : ρ)
  | create (request : CreateMappingRequest) (result : Except String Mapping → ρ)

/-- The request that a row makes to the repository. -/
def Attempt.request {ρ : Type} : Attempt ρ → Option CreateMappingRequest
  | .refused _ => none
  | .create request _ => some request

/-- Where the loop over the rows ends; a creation that throws ends it. -/
structure Creations (ρ : Type) where
  tables : Tables
  notices : List Notice
  results : Except SqlError (List ρ)

/-- The loop, from its row `i` on, whose creation draws the id `ids i`. -/
def createEach {ρ : Type} (now : String) (ids : Nat → String) (t : Tables) :
    Nat → List (Attempt ρ) → Creations ρ
  | _, [] => ⟨t, [], .ok []⟩
  | i, .refused result :: rows =>
      let rest := createEach now ids t (i + 1) rows
      { rest with results := rest.results.map (fun results => result :: results) }
  | i, .create request result :: rows =>
      match ConnectorRepository.createMapping t (ids i) now request with
      | .ok (t, row) =>
          let rest := createEach now ids t (i + 1) rows
          { rest with
            notices := mappingNotices t row (.addMapping row) ++ rest.notices
            results := rest.results.map (fun results => result (.ok row) :: results) }
      | .error (.domain e) =>
          let rest := createEach now ids t (i + 1) rows
          { rest with results := rest.results.map (fun results => result (.error e.message) :: results) }
      | .error (.thrown e) => ⟨t, [], .error e⟩

/-- The response of both endpoints: whether every row succeeded. -/
def Creations.conclude {ρ : Type} (success : ρ → Bool) (c : Creations ρ) : Outcome :=
  match c.results with
  | .ok results => ⟨c.tables, ⟨if results.all success then 201 else 207, none⟩, c.notices⟩
  | .error e => ⟨c.tables, internalError e.message, c.notices⟩

/-- The loop's tables and calls are those of the outcome. -/
theorem conclude_tables {ρ : Type} (success : ρ → Bool) (c : Creations ρ) :
    (c.conclude success).tables = c.tables ∧ (c.conclude success).notices = c.notices := by
  unfold Creations.conclude
  cases c.results <;> exact ⟨rfl, rfl⟩

/-! ### Bulk -/

structure BulkResult where
  index : Nat
  success : Bool
  data : Option Mapping
  error : Option String
  deriving DecidableEq, Inhabited

def bulkAttempt (index : Nat) (item : MappingBody) : Attempt BulkResult :=
  match item.connectionId.filter (· ≠ ""), item.deviceAddress.filter (· ≠ "") with
  | some connectionId, some deviceAddress =>
      .create ⟨connectionId, item.nodeId, deviceAddress, item.description⟩ fun
        | .ok row => ⟨index, true, some row, none⟩
        | .error message => ⟨index, false, none, some message⟩
  | _, _ => .refused ⟨index, false, none, some "Missing required fields (connectionId, deviceAddress)"⟩

def bulkAttempts (items : List MappingBody) : List (Attempt BulkResult) :=
  items.zipIdx.map (fun item => bulkAttempt item.2 item.1)

def postMappingsBulk (t : Tables) (ids : Nat → String) (now : String) (items : List MappingBody) :
    Outcome :=
  match items with
  | [] => refuse t (invalidBody "Request body must be a non-empty array of mappings" [])
  | items => (createEach now ids t 0 (bulkAttempts items)).conclude BulkResult.success

/-! ### CSV import -/

/-- The loop of `parseCsvLine`, inside quotes or not, with the field read so far. -/
def csvFields (inQuotes : Bool) (current : List Char) : List Char → List String
  | [] => [String.ofList current]
  | c :: cs =>
      if inQuotes then
        if c = '"' then
          match cs with
          | '"' :: rest => csvFields true (current ++ ['"']) rest
          | rest => csvFields false current rest
        else csvFields true (current ++ [c]) cs
      else if c = '"' then csvFields true current cs
      else if c = ',' then String.ofList current :: csvFields false [] cs
      else csvFields false (current ++ [c]) cs

def parseCsvLine (line : String) : List String := csvFields false [] line.toList

/-- `split(/\r?\n/)`, with the line read so far. -/
def splitLines (current : List Char) : List Char → List String
  | [] => [String.ofList current]
  | '\n' :: cs => String.ofList current :: splitLines [] cs
  | '\r' :: '\n' :: cs => String.ofList current :: splitLines [] cs
  | c :: cs => splitLines (current ++ [c]) cs

/-- `h.toLowerCase().replace(/[^a-z]/g, '')`; beside the capitals, the dotted `İ` and the Kelvin sign
have a lower case with a letter from `a` to `z`. -/
def normalizeHeader (h : String) : String :=
  String.ofList ((h.toList.map (fun c =>
    if c = 'İ' then 'i' else if c = '\u212a' then 'k' else c.toLower)).filter
      (fun c => 'a' ≤ c ∧ c ≤ 'z'))

structure ImportResult where
  row : Nat
  success : Bool
  deviceAddress : Option String
  error : Option String
  deriving DecidableEq, Inhabited

/-- Whether the header has a type column, or `none` when it is refused. -/
def csvHeader (header : List String) : Option Bool :=
  match header.map normalizeHeader with
  | name :: second :: _ :: _ =>
      if name ≠ "connectionname" then none
      else if second = "type" then some true
      else if second = "deviceaddress" then some false
      else none
  | _ => none

/-- `connNameToId.get(name)`: of several connections with one name, the last. -/
def connectionNamed (t : Tables) (name : String) : Option String :=
  (((findAllConnections t).reverse.find? (fun r => r.name = name)).map (fun r => r.id)).filter (· ≠ "")

/-- `nsNameToId.get(name)`. -/
def namespaceNamed (t : Tables) (name : String) : Option String :=
  ((t.namespaces.reverse.find? (fun r => r.name = name)).map (fun r => r.id)).filter (· ≠ "")

/-- The nodes of a name, in the namespace if one is named and exists. -/
def nodesNamed (t : Tables) (nodeName namespaceName : String) : List NodeRow :=
  let matched := t.nodes.filter (fun n => n.name = Js.trim nodeName)
  match namespaceNamed t (Js.trim namespaceName) with
  | some nsId =>
      if Js.trim namespaceName = "" then matched else matched.filter (fun n => n.namespaceId = nsId)
  | none => matched

/-- One round of the import's loop, for the fields of the line that is row `row` of the text, of which
the first `address` come before the device address. -/
def csvAttempt (t : Tables) (row address : Nat) (fields : List String) : Attempt ImportResult :=
  let field := fun i => fields.getD i ""
  let deviceAddress := field address
  let nodeName := field (address + 1)
  let namespaceName := field (address + 2)
  let description := Js.trim (field (address + 3))
  let failed := fun deviceAddress error => ImportResult.mk row false deviceAddress (some error)
  if fields.length < address + 2 then .refused (failed none "Insufficient columns")
  else
    match connectionNamed t (Js.trim (field 0)) with
    | none => .refused (failed (some deviceAddress) s!"Connection \"{field 0}\" not found")
    | some connectionId =>
        if Js.trim deviceAddress = "" then .refused (failed none "Device address is required")
        else if Js.trim nodeName = "" then
          .refused (failed (some deviceAddress) "Node name is required")
        else
          match nodesNamed t nodeName namespaceName with
          | [] => .refused (failed (some deviceAddress) (s!"Node \"{nodeName}\" not found" ++
              if namespaceName = "" then "" else s!" in namespace \"{namespaceName}\""))
          | [node] =>
              .create ⟨connectionId, some node.id, Js.trim deviceAddress,
                if description = "" then none else some description⟩ fun
                | .ok _ => ⟨row, true, some (Js.trim deviceAddress), none⟩
                | .error message => ⟨row, false, some (Js.trim deviceAddress), some message⟩
          | _ => .refused (failed (some deviceAddress)
              (s!"Multiple nodes named \"{nodeName}\" found — " ++
                "specify the namespace column to disambiguate"))

/-- The rows of the text below its header, or the message it is refused with. -/
def csvAttempts (t : Tables) (csv : String) : Except String (List (Attempt ImportResult)) :=
  match (splitLines [] csv.toList).filter (fun l => Js.trim l ≠ "") with
  | header :: row :: rows =>
      match csvHeader (parseCsvLine header) with
      | none => .error ("CSV header must have columns: " ++
          "connectionName,type,deviceAddress,nodeName,namespace,description")
      | some hasTypeColumn =>
          .ok ((row :: rows).zipIdx.map (fun line =>
            csvAttempt t (line.2 + 2) (if hasTypeColumn then 2 else 1) (parseCsvLine line.1)))
  | _ => .error "CSV must contain a header row and at least one data row"

def importMappings (t : Tables) (ids : Nat → String) (now csv : String) : Outcome :=
  if csv = "" then
    refuse t (invalidBody
      "Request body must include a \"csv\" field with the CSV content as a string" [])
  else
    match csvAttempts t csv with
    | .error message => refuse t (invalidBody message [])
    | .ok attempts => (createEach now ids t 0 attempts).conclude ImportResult.success

/-! ## Requests -/

/-- A mutating request to the connectors, with the new ids and the time it draws. -/
inductive ConnectorRequest where
  | postConnection (id now : String) (body : ConnectionBody)
  | putConnection (id : String) (body : UpdateConnectionRequest)
  | deleteConnection (id : String)
  | postMapping (id now : String) (body : MappingBody)
  | putMapping (id : String) (body : UpdateMappingRequest)
  | deleteMapping (id : String)
  | postMappingsBulk (ids : Nat → String) (now : String) (items : List MappingBody)
  | importMappings (ids : Nat → String) (now csv : String)

def handleConnector (t : Tables) : ConnectorRequest → Outcome
  | .postConnection id now body => Api.postConnection t id now body
  | .putConnection id body => Api.putConnection t id body
  | .deleteConnection id => Api.deleteConnection t id
  | .postMapping id now body => Api.postMapping t id now body
  | .putMapping id body => Api.putMapping t id body
  | .deleteMapping id => Api.deleteMapping t id
  | .postMappingsBulk ids now items => Api.postMappingsBulk t ids now items
  | .importMappings ids now csv => Api.importMappings t ids now csv

end OpcuaLight.Api
