import OpcuaLight.Config.Generator
import OpcuaLight.Db.Repositories

/-!
# The address-space endpoints

The mutating endpoints of `/api/namespaces`, `/api/object-nodes` and `/api/nodes`: each takes the tables
to new tables and a response. A body has the fields of its request type, of which any may be missing.
The import of nodes from a file is a run of creations.
-/

namespace OpcuaLight.Api

open Db

structure Response where
  status : Nat
  error : Option DomainError
  deriving DecidableEq, Repr, Inhabited

/-- The statuses that make the server reload. -/
def Response.ok (r : Response) : Bool := decide (200 ≤ r.status ∧ r.status < 300)

def invalidBody (message : String) (details : List FieldError) : Response :=
  ⟨400, some ⟨.validationError, message, details⟩⟩

def internalError (message : String) : Response := ⟨500, some ⟨.internalError, message, []⟩⟩

/-- The response to an operation that leaves the tables as they are when it fails. -/
def respond (t : Tables) (success : Nat) (domain : DomainError → Nat) (thrown : SqlError → String)
    (r : Except Failure Tables) : Tables × Response :=
  match r with
  | .ok t => (t, ⟨success, none⟩)
  | .error (.domain e) => (t, ⟨domain e, some e⟩)
  | .error (.thrown e) => (t, internalError (thrown e))

/-- The text is there and not blank. -/
def nonEmpty (s : Option String) : Bool := s.any (fun s => Js.trim s ≠ "")

/-! ## Namespaces -/

structure NamespaceBody where
  name : Option String
  description : Option (Option String)
  uri : Option String
  deriving DecidableEq, Inhabited

def namespaceStatus (e : DomainError) : Nat :=
  match e.code with
  | .notFound => 404
  | .duplicateError => 409
  | _ => 400

def postNamespace (t : Tables) (id : String) (body : NamespaceBody) : Tables × Response :=
  let errors :=
    (if nonEmpty body.name then [] else
      [⟨"name", "Name is required and must be a non-empty string"⟩]) ++
    (if nonEmpty body.uri then [] else [⟨"uri", "URI is required and must be a non-empty string"⟩])
  match errors, body.name, body.uri with
  | [], some name, some uri =>
      respond t 201 (fun e => if e.code = .duplicateError then 409 else 400) SqlError.message
        (NamespaceRepository.create t id ⟨name, body.description.getD none, uri⟩)
  | errors, _, _ => (t, invalidBody "Invalid namespace definition" errors)

def putNamespace (t : Tables) (id : String) (body : NamespaceBody) : Tables × Response :=
  if !Js.truthyString body.name && !Js.truthyString body.uri && body.description.isNone then
    (t, invalidBody "At least one field must be provided for update" [])
  else
    let errors :=
      (if body.name.isSome && !nonEmpty body.name then
        [⟨"name", "Name must be a non-empty string"⟩] else []) ++
      (if body.uri.isSome && !nonEmpty body.uri then
        [⟨"uri", "URI must be a non-empty string"⟩] else [])
    match errors with
    | [] => respond t 200 namespaceStatus SqlError.message
        (NamespaceRepository.update t id ⟨body.name, body.description, body.uri⟩)
    | errors => (t, invalidBody "Invalid namespace update" errors)

def deleteNamespace (t : Tables) (id : String) : Tables × Response :=
  respond t 200 (fun e => if e.code = .notFound then 404 else 500) SqlError.message
    (NamespaceRepository.delete t id)

/-! ## Object nodes -/

structure ObjectNodeBody where
  name : Option String
  namespaceId : Option String
  parentObjectNodeId : Option String
  deriving DecidableEq, Inhabited

def objectNodeStatus (e : DomainError) : Nat :=
  match e.code with
  | .validationError => 400
  | .duplicateError => 409
  | .notFound => 404
  | .internalError => 500

def unexpected : SqlError → String := fun _ => "An unexpected error occurred"

def postObjectNode (t : Tables) (id : String) (body : ObjectNodeBody) : Tables × Response :=
  let errors :=
    (if nonEmpty body.name then [] else
      [⟨"name", "Name is required and must be a non-empty string"⟩]) ++
    (if nonEmpty body.namespaceId then [] else
      [⟨"namespaceId", "Namespace ID is required and must be a non-empty string"⟩])
  match errors, body.name, body.namespaceId with
  | [], some name, some namespaceId =>
      respond t 201 objectNodeStatus unexpected
        (ObjectNodeRepository.create t id ⟨Js.trim namespaceId, body.parentObjectNodeId, Js.trim name⟩)
  | errors, _, _ => (t, invalidBody "Invalid object node definition" errors)

def deleteObjectNode (t : Tables) (id : String) : Tables × Response :=
  match ObjectNodeRepository.delete t id with
  | (t, .ok ()) => (t, ⟨200, none⟩)
  | (t, .error (.domain e)) => (t, ⟨objectNodeStatus e, some e⟩)
  | (t, .error (.thrown e)) => (t, internalError (unexpected e))

/-! ## Nodes -/

def nodeStatus (e : DomainError) : Nat :=
  match e.code with
  | .notFound => 404
  | .duplicateError => 409
  | .validationError => 400
  | .internalError => 500

def postNode (t : Tables) (id : String) (body : NodeRepository.CreateNodeRequest) : Tables × Response :=
  respond t 201 nodeStatus SqlError.message (NodeRepository.create t id body)

def putNode (t : Tables) (id : String) (body : NodeRepository.UpdateNodeRequest) : Tables × Response :=
  respond t 200 nodeStatus SqlError.message (NodeRepository.update t id body)

def deleteNode (t : Tables) (id : String) : Tables × Response :=
  respond t 204 nodeStatus SqlError.message (NodeRepository.delete t id)

/-- The loop of the import, over the rows that its checks let through: whether every creation
succeeded, and a creation that throws ends it. -/
def importRows (t : Tables) : List (String × NodeRepository.CreateNodeRequest) →
    Tables × Except SqlError Bool
  | [] => (t, .ok true)
  | (id, request) :: rows =>
      match NodeRepository.create t id request with
      | .ok t => importRows t rows
      | .error (.domain _) =>
          match importRows t rows with
          | (t, .ok _) => (t, .ok false)
          | r => r
      | .error (.thrown e) => (t, .error e)

/-- `POST /import/csv`, for the creations its rows amount to, and whether a row is refused before. -/
def importNodes (t : Tables) (rows : List (String × NodeRepository.CreateNodeRequest))
    (refused : Bool) : Tables × Response :=
  match importRows t rows with
  | (t, .ok allCreated) => (t, ⟨if allCreated && !refused then 201 else 207, none⟩)
  | (t, .error e) => (t, internalError e.message)

/-- `getObjectNodePath` of the export: the names from the root down to the object node. -/
def getObjectNodePath (t : Tables) (objectNodeId : Option String) : String :=
  match objectNodeId with
  | none => ""
  | some id => Config.join (Config.pathParts t.objectNodes t.objectNodes.length id) "/"

/-! ## Requests -/

/-- A mutating request to the address space, with the new ids it draws. -/
inductive Request where
  | postNamespace (id : String) (body : NamespaceBody)
  | putNamespace (id : String) (body : NamespaceBody)
  | deleteNamespace (id : String)
  | postObjectNode (id : String) (body : ObjectNodeBody)
  | deleteObjectNode (id : String)
  | postNode (id : String) (body : NodeRepository.CreateNodeRequest)
  | putNode (id : String) (body : NodeRepository.UpdateNodeRequest)
  | deleteNode (id : String)
  | importNodes (rows : List (String × NodeRepository.CreateNodeRequest)) (refused : Bool)

def handle (t : Tables) : Request → Tables × Response
  | .postNamespace id body => Api.postNamespace t id body
  | .putNamespace id body => Api.putNamespace t id body
  | .deleteNamespace id => Api.deleteNamespace t id
  | .postObjectNode id body => Api.postObjectNode t id body
  | .deleteObjectNode id => Api.deleteObjectNode t id
  | .postNode id body => Api.postNode t id body
  | .putNode id body => Api.putNode t id body
  | .deleteNode id => Api.deleteNode t id
  | .importNodes rows refused => Api.importNodes t rows refused

/-- The tables after a run of requests. -/
def handleAll (t : Tables) (requests : List Request) : Tables :=
  requests.foldl (fun t r => (handle t r).1) t

end OpcuaLight.Api
