import OpcuaLight.Db.Schema

/-!
# The repositories of the address space

`NamespaceRepository`, `ObjectNodeRepository` and `NodeRepository`: each operation maps the tables to new
tables, or fails with a domain error or with the SQL error that a statement throws. New ids are inputs.
Of two tables in a row, only the deletion of an object node may leave the second one when it fails: its
three statements are not one transaction.
-/

namespace OpcuaLight.Db

/-! ## Errors -/

inductive ErrorCode where
  | validationError
  | duplicateError
  | notFound
  | internalError
  deriving DecidableEq, Repr, Inhabited

structure FieldError where
  field : String
  message : String
  deriving DecidableEq, Repr, Inhabited

structure DomainError where
  code : ErrorCode
  message : String
  details : List FieldError
  deriving DecidableEq, Repr, Inhabited

/-- How an operation of a repository fails: with a result, or by a statement that throws. -/
inductive Failure where
  | domain (e : DomainError)
  | thrown (e : SqlError)
  deriving DecidableEq, Repr, Inhabited

def execute (r : Except SqlError Tables) : Except Failure Tables := r.mapError Failure.thrown

theorem execute_eq_ok {r : Except SqlError Tables} {t : Tables} : execute r = .ok t ↔ r = .ok t := by
  cases r with
  | error e => exact ⟨nofun, nofun⟩
  | ok t' => exact ⟨fun h => congrArg Except.ok (Except.ok.inj h), fun h => by rw [h]; rfl⟩

/-! ## Namespaces -/

namespace NamespaceRepository

structure CreateNamespaceRequest where
  name : String
  description : Option String
  uri : String
  deriving DecidableEq, Inhabited

/-- A description of `some none` is a `null`. -/
structure UpdateNamespaceRequest where
  name : Option String
  description : Option (Option String)
  uri : Option String
  deriving DecidableEq, Inhabited

def findById (t : Tables) (id : String) : Option NamespaceRow := t.namespaces.find? (fun r => r.id = id)

def findByName (t : Tables) (name : String) : Option NamespaceRow :=
  t.namespaces.find? (fun r => r.name = name)

def findByUri (t : Tables) (uri : String) : Option NamespaceRow :=
  t.namespaces.find? (fun r => r.uri = uri)

def nameConflict (name : String) : DomainError where
  code := .duplicateError
  message := s!"A namespace with the name \"{name}\" already exists"
  details := [⟨"name", s!"Namespace name \"{name}\" is already in use"⟩]

def uriConflict (uri : String) : DomainError where
  code := .duplicateError
  message := s!"A namespace with the URI \"{uri}\" already exists"
  details := [⟨"uri", s!"Namespace URI \"{uri}\" is already in use"⟩]

def missing (id : String) : DomainError := ⟨.notFound, s!"Namespace with id \"{id}\" not found", []⟩

def create (t : Tables) (id : String) (request : CreateNamespaceRequest) : Except Failure Tables :=
  if (findByName t request.name).isSome then .error (.domain (nameConflict request.name))
  else if (findByUri t request.uri).isSome then .error (.domain (uriConflict request.uri))
  else execute (t.insertNamespace ⟨id, request.name, request.description, request.uri⟩)

def update (t : Tables) (id : String) (request : UpdateNamespaceRequest) : Except Failure Tables :=
  match findById t id with
  | none => .error (.domain (missing id))
  | some existing =>
      let name := request.name.getD existing.name
      let uri := request.uri.getD existing.uri
      if Js.truthyString request.name && name ≠ existing.name && (findByName t name).isSome then
        .error (.domain (nameConflict name))
      else if Js.truthyString request.uri && uri ≠ existing.uri && (findByUri t uri).isSome then
        .error (.domain (uriConflict uri))
      else execute (t.updateNamespace id (fun r =>
        { r with name := name, description := request.description.getD existing.description, uri := uri }))

def delete (t : Tables) (id : String) : Except Failure Tables :=
  if (findById t id).isSome then execute (t.deleteNamespace id) else .error (.domain (missing id))

end NamespaceRepository

/-! ## Object nodes -/

namespace ObjectNodeRepository

/-- Maximum nesting depth for object nodes. -/
def maxDepth : Nat := 5

structure CreateObjectNodeInput where
  namespaceId : String
  parentObjectNodeId : Option String
  name : String
  deriving DecidableEq, Inhabited

def findById (t : Tables) (id : String) : Option ObjectNodeRow :=
  t.objectNodes.find? (fun r => r.id = id)

/-- The loop of `computeDepth`, at most as many rounds as there are rows. -/
def depthFrom (t : Tables) : Nat → String → Nat
  | 0, _ => 1
  | fuel + 1, id =>
      match (findById t id).bind (fun r => r.parentObjectNodeId) with
      | none => 1
      | some parent => depthFrom t fuel parent + 1

def computeDepth (t : Tables) (id : String) : Nat := depthFrom t t.objectNodes.length id

def validationError (message : String) : DomainError := ⟨.validationError, message, []⟩

/-- The check of the parent: that it exists, and that it is not too deep. -/
def checkParent (t : Tables) : Option String → Except DomainError Unit
  | none => .ok ()
  | some parent =>
      if !t.hasObjectNode parent then
        .error (validationError s!"Parent object node with id '{parent}' does not exist")
      else if maxDepth ≤ computeDepth t parent then
        .error (validationError s!"Maximum nesting depth of {maxDepth} levels exceeded")
      else .ok ()

def create (t : Tables) (id : String) (input : CreateObjectNodeInput) : Except Failure Tables :=
  if !t.hasNamespace input.namespaceId then
    .error (.domain (validationError s!"Namespace with id '{input.namespaceId}' does not exist"))
  else match checkParent t input.parentObjectNodeId with
    | .error e => .error (.domain e)
    | .ok () =>
        match t.insertObjectNode ⟨id, input.namespaceId, input.parentObjectNodeId, input.name⟩ with
        | .ok t => .ok t
        | .error (.unique _) => .error (.domain ⟨.duplicateError,
            s!"An object node named '{input.name}' already exists in this location", []⟩)
        | .error e => .error (.thrown e)

/-- Three statements, of which the first and the second stay when a later one fails. -/
def delete (t : Tables) (id : String) : Tables × Except Failure Unit :=
  match findById t id with
  | none => (t, .error (.domain ⟨.notFound, s!"Object node with id '{id}' not found", []⟩))
  | some objectNode =>
      match t.reassignNodes id objectNode.parentObjectNodeId with
      | .error e => (t, .error (.thrown e))
      | .ok t =>
          match t.reparentObjectNodes id objectNode.parentObjectNodeId with
          | .error e => (t, .error (.thrown e))
          | .ok t =>
              match t.deleteObjectNode id with
              | .error e => (t, .error (.thrown e))
              | .ok t => (t, .ok ())

end ObjectNodeRepository

/-! ## Nodes -/

namespace NodeRepository

def supportedDataTypes : List OpcUaDataType :=
  [.boolean, .int16, .int32, .int64, .uint16, .uint32, .uint64, .float, .double, .string, .dateTime,
    .byteString]

/-- The supported data type of the name. -/
def supported (name : String) : Option OpcUaDataType :=
  supportedDataTypes.find? (fun d => d.name = name)

structure CreateNodeRequest where
  name : Option String
  namespaceId : Option String
  objectNodeId : Option String
  dataType : Option String
  initialValue : Option Json
  description : Option String
  deriving DecidableEq, Inhabited

/-- Fields that are `none` are left as they are; an object node of `some none` is a `null`. -/
structure UpdateNodeRequest where
  name : Option String
  objectNodeId : Option (Option String)
  dataType : Option String
  initialValue : Option Json
  description : Option String
  deriving DecidableEq, Inhabited

def findById (t : Tables) (id : String) : Option NodeRow := t.nodes.find? (fun r => r.id = id)

def findByNameInNamespace (t : Tables) (name namespaceId : String) : Option NodeRow :=
  t.nodes.find? (fun r => r.name = name && r.namespaceId = namespaceId)

def missing (id : String) : DomainError := ⟨.notFound, s!"Node with id '{id}' not found", []⟩

def unsupported (dataType : String) : FieldError :=
  ⟨"dataType", s!"Unsupported data type: '{dataType}'. Supported types: " ++
    ", ".intercalate (supportedDataTypes.map OpcUaDataType.name)⟩

/-- The text is missing, or blank. -/
def blank (s : Option String) : Bool := s.all (fun s => Js.trim s = "")

def validateCreate (request : CreateNodeRequest) : List FieldError :=
  (if blank request.name then [⟨"name", "Name is required"⟩] else []) ++
  (if blank request.namespaceId then [⟨"namespaceId", "Namespace ID is required"⟩] else []) ++
  (if !Js.truthyString request.dataType then [⟨"dataType", "Data type is required"⟩]
    else match request.dataType with
      | none => []
      | some dataType => if (supported dataType).isSome then [] else [unsupported dataType])

def validateUpdate (request : UpdateNodeRequest) : List FieldError :=
  (if request.name.isSome && blank request.name then [⟨"name", "Name cannot be empty"⟩] else []) ++
  (match request.dataType with
    | none => []
    | some dataType => if (supported dataType).isSome then [] else [unsupported dataType])

def invalid (errors : List FieldError) : DomainError where
  code := .validationError
  message := "Validation failed: " ++ "; ".intercalate (errors.map (fun e => s!"{e.field}: {e.message}"))
  details := errors

def create (t : Tables) (id : String) (request : CreateNodeRequest) : Except Failure Tables :=
  match validateCreate request, request.name, request.namespaceId, request.dataType.bind supported with
  | [], some name, some namespaceId, some dataType =>
      if (findByNameInNamespace t name namespaceId).isSome then
        .error (.domain ⟨.duplicateError,
          s!"Duplicate node name '{name}' within namespace '{namespaceId}'",
          [⟨"name", s!"Node name '{name}' already exists in this namespace"⟩]⟩)
      else execute (t.insertNode ⟨id, namespaceId, request.objectNodeId, name, dataType,
        request.initialValue, request.description⟩)
  | errors, _, _, _ => .error (.domain (invalid errors))

/-- The columns that an update sets. -/
def assign (request : UpdateNodeRequest) (r : NodeRow) : NodeRow :=
  { r with
    name := request.name.getD r.name
    objectNodeId := request.objectNodeId.getD r.objectNodeId
    dataType := (request.dataType.bind supported).getD r.dataType
    initialValue := request.initialValue.orElse (fun _ => r.initialValue)
    description := request.description.orElse (fun _ => r.description) }

def update (t : Tables) (id : String) (request : UpdateNodeRequest) : Except Failure Tables :=
  match findById t id with
  | none => .error (.domain (missing id))
  | some existing =>
      match validateUpdate request with
      | [] =>
          let name := request.name.getD existing.name
          if Js.truthyString request.name && name ≠ existing.name &&
              (findByNameInNamespace t name existing.namespaceId).isSome then
            .error (.domain ⟨.duplicateError,
              s!"Duplicate node name '{name}' within namespace '{existing.namespaceId}'",
              [⟨"name", s!"Node name '{name}' already exists in this namespace"⟩]⟩)
          else execute (t.updateNode id (assign request))
      | errors => .error (.domain (invalid errors))

def delete (t : Tables) (id : String) : Except Failure Tables :=
  if (findById t id).isSome then execute (t.deleteNode id) else .error (.domain (missing id))

end NodeRepository

end OpcuaLight.Db
