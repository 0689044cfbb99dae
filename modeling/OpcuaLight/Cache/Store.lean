import OpcuaLight.Config.Security
import OpcuaLight.Db.Repositories
import OpcuaLight.Lib.JsMap
import OpcuaLight.Lib.Machine

/-!
# The read cache

`Database` of `db/database.ts`, as far as its cache goes, and the repository methods that read through it:
each has its cache key, its query, and what it makes of the rows. All keys are strings of one map, and
the rows under a key are cast to what the method expects.
-/

namespace OpcuaLight.Cache

open Config (Database SecurityConfigRow childRows rootRows namespaceRows nodeRows buildObjectNodeTree
  somePath)
open Db (NamespaceRow ObjectNodeRow NodeRow Tables orderBy)
open Connector (ConnectionConfig Mapping)

/-! ## Methods -/

/-- An object node with those below it. -/
inductive ObjectNode where
  | mk (row : ObjectNodeRow) (children : List ObjectNode)

/-- A row of a query. -/
inductive Row where
  | node (r : NodeRow)
  | objectNode (r : ObjectNode)
  | namespaceRow (r : NamespaceRow) (nodeCount : Nat)
  | count (n : Nat)
  | connection (r : ConnectionConfig)
  | mapping (r : Mapping)
  | security (r : SecurityConfigRow)
  | certificate (path : Option String)

/-- A call of a method that reads through the cache; the private lookups are among them. -/
inductive Call where
  | findAllNodes (namespaceId : Option String)
  | findNodeById (id : String)
  | findByNameInNamespace (name namespaceId : String)
  | findTreeByNamespace (namespaceId : String)
  | findAllNamespaces
  | findNamespaceById (id : String)
  | countNodes (namespaceId : String)
  | findAllConnections (type : Option String)
  | findConnectionById (id : String)
  | findAllMappings (connectionId : Option String)
  | findMappingById (id : String)
  | get
  | getHttpsConfig
  | getCertificatePath
  deriving DecidableEq

/-- The result of `readCertificateExpiry`. -/
structure CertificateExpiryInfo where
  expiresAt : String
  remainingDays : Nat
  deriving DecidableEq, Repr

structure SecurityConfig where
  mode : String
  certificatePath : Option String
  certificateValid : Option Bool
  privateKeyConfigured : Bool
  certificateExpiresAt : Option String
  certificateRemainingDays : Option Nat
  deriving DecidableEq, Repr

/-- What a method returns; the rows of a security configuration may lack a column, which is a
`TypeError` in `get`. -/
inductive Answer where
  | all (rows : List Row)
  | first (row : Option Row)
  | security (config : SecurityConfig)
  | https (paths : Option (String × String))
  | path (path : Option String)
  | typeError

/-- A text argument that is not left out and not empty. -/
def given (s : Option String) : Option String := s.filter (· ≠ "")

def Call.key : Call → String
  | .findAllNodes namespaceId =>
      match given namespaceId with
      | some id => "nodes:ns:" ++ id
      | none => "nodes:all"
  | .findNodeById id => "nodes:" ++ id
  | .findByNameInNamespace name namespaceId => "nodes:lookup:" ++ namespaceId ++ ":" ++ name
  | .findTreeByNamespace namespaceId => "object-nodes:tree:" ++ namespaceId
  | .findAllNamespaces => "namespaces"
  | .findNamespaceById id => "namespace:" ++ id
  | .countNodes namespaceId => "namespace-nodecount:" ++ namespaceId
  | .findAllConnections type =>
      match given type with
      | some type => "connections:type:" ++ type
      | none => "connections"
  | .findConnectionById id => "connection:" ++ id
  | .findAllMappings connectionId =>
      match given connectionId with
      | some id => "mappings:connection:" ++ id
      | none => "mappings"
  | .findMappingById id => "mapping:" ++ id
  | .get | .getHttpsConfig | .getCertificatePath => "security_config"

/-- The subtree of an object node, with at most `fuel` levels below it. -/
def subtree (rows : List ObjectNodeRow) : Nat → ObjectNodeRow → ObjectNode
  | 0, row => .mk row []
  | fuel + 1, row => .mk row ((childRows rows row.id).map (subtree rows fuel))

def buildTree (rows : List ObjectNodeRow) : List ObjectNode :=
  (rootRows rows).map (subtree rows rows.length)

def nodeCount (t : Tables) (namespaceId : String) : Nat :=
  (t.nodes.filter (fun r => r.namespaceId = namespaceId)).length

/-- The rows that the query of a call yields. -/
def Call.query (db : Database) : Call → List Row
  | .findAllNodes namespaceId =>
      match given namespaceId with
      | some id => (nodeRows db.tables id).map .node
      | none => (orderBy (fun r => r.name) db.tables.nodes).map .node
  | .findNodeById id => (db.tables.nodes.find? (fun r => r.id = id)).toList.map .node
  | .findByNameInNamespace name namespaceId =>
      (db.tables.nodes.find? (fun r => r.name = name ∧ r.namespaceId = namespaceId)).toList.map .node
  | .findTreeByNamespace namespaceId =>
      (buildTree (buildObjectNodeTree db.tables namespaceId)).map .objectNode
  | .findAllNamespaces =>
      (namespaceRows db.tables).map (fun r => .namespaceRow r (nodeCount db.tables r.id))
  | .findNamespaceById id =>
      (db.tables.namespaces.find? (fun r => r.id = id)).toList.map (fun r =>
        .namespaceRow r (nodeCount db.tables r.id))
  | .countNodes namespaceId => [.count (nodeCount db.tables namespaceId)]
  | .findAllConnections type =>
      match given type with
      | some type => (orderBy (fun r => r.name) (db.tables.connections.filter (fun r => r.type = type))).map
          .connection
      | none => (orderBy (fun r => r.name) db.tables.connections).map .connection
  | .findConnectionById id =>
      (db.tables.connections.find? (fun r => r.id = id)).toList.map .connection
  | .findAllMappings connectionId =>
      match given connectionId with
      | some id => (orderBy (fun r => r.deviceAddress)
          (db.tables.mappings.filter (fun r => r.connectionId = id))).map .mapping
      | none => (orderBy (fun r => r.connectionId)
          (orderBy (fun r => r.deviceAddress) db.tables.mappings)).map .mapping
  | .findMappingById id => (db.tables.mappings.find? (fun r => r.id = id)).toList.map .mapping
  | .get | .getHttpsConfig => db.security.toList.map .security
  | .getCertificatePath => db.security.toList.map (fun r => .certificate r.certificatePath)

/-- What `get` makes of a row, with the certificate files as they are. -/
def securityConfig (certificates : String → Option CertificateExpiryInfo) (row : SecurityConfigRow) :
    SecurityConfig :=
  let expiryInfo := (somePath row.certificatePath).bind certificates
  { mode := row.mode
    certificatePath := row.certificatePath
    certificateValid := (somePath row.certificatePath).map (fun _ =>
      expiryInfo.any (fun info => decide (0 < info.remainingDays)))
    privateKeyConfigured := (somePath row.privateKeyPath).isSome
    certificateExpiresAt := expiryInfo.map (fun info => info.expiresAt)
    certificateRemainingDays := expiryInfo.map (fun info => info.remainingDays) }

/-- What a method makes of the rows that it gets, from the database or from the cache. -/
def Call.answer (certificates : String → Option CertificateExpiryInfo) (rows : List Row) : Call → Answer
  | .get =>
      match rows with
      | [] => .security ⟨"None", none, none, false, none, none⟩
      | .security row :: _ => .security (securityConfig certificates row)
      | _ :: _ => .typeError
  | .getHttpsConfig =>
      match rows with
      | .security row :: _ => .https (match somePath row.certificatePath, somePath row.privateKeyPath with
          | some cert, some key => some (cert, key)
          | _, _ => none)
      | _ => .https none
  | .getCertificatePath =>
      match rows with
      | .security row :: _ => .path (somePath row.certificatePath)
      | .certificate path :: _ => .path (somePath path)
      | _ => .path none
  | .findNodeById _ | .findByNameInNamespace _ _ | .findNamespaceById _ | .countNodes _
  | .findConnectionById _ | .findMappingById _ => .first rows.head?
  | .findAllNodes _ | .findTreeByNamespace _ | .findAllNamespaces | .findAllConnections _
  | .findAllMappings _ => .all rows

/-! ## The cache -/

/-- An entry of the cache. The call whose query the data came from is kept for the statements only. -/
structure Entry where
  data : List Row
  source : Option Call

/-- The database with its cache. `certificates` is what `readCertificateExpiry` yields at present.
`answered` is kept for the statements only: what the last call of a method with live data returned, and
the certificate files of that time, as long as no change has reached the database since. -/
structure Store where
  db : Database
  accessible : Bool
  certificates : String → Option CertificateExpiryInfo
  cache : JsMap String Entry
  answered : Call → Option (Answer × (String → Option CertificateExpiryInfo))

namespace Store

def updateCache (s : Store) (key : String) (entry : Entry) : Store :=
  { s with cache := s.cache.set key entry }

def clearCache (s : Store) : Store := { s with cache := ∅ }

/-- A call of a method, whose query may throw; `none` when it throws `DatabaseUnavailableError`. -/
def readWithCache (s : Store) (call : Call) (throws : Bool) : Store × Option Answer :=
  if s.accessible && !throws then
    let rows := call.query s.db
    let answer := call.answer s.certificates rows
    ({ s.updateCache call.key ⟨rows, some call⟩ with
        answered := Function.update s.answered call (some (answer, s.certificates)) }, some answer)
  else (s, (s.cache.get? call.key).map (fun entry => call.answer s.certificates entry.data))

/-- The statements of a write leave the database `db`. -/
def change (s : Store) (db : Database) : Store :=
  { s with db := db, answered := if db = s.db then s.answered else fun _ => none }

/-- `write`, with the database that its function leaves and whether this returns; and whether `write`
returns. -/
def write (s : Store) (writeFn : Database → Database × Bool) : Store × Bool :=
  if s.accessible then
    match writeFn s.db with
    | (db, true) => ((s.change db).clearCache, true)
    | (db, false) => (s.change db, false)
  else (s, false)

/-- `updatePolicy` and `updateCertificate`, up to their call of `get`. -/
def updateSecurity (s : Store) (writeFn : Database → Database × Bool) : Store :=
  match s.write writeFn with
  | (s, true) => s.updateCache "security_config" ⟨[], none⟩
  | (s, false) => s

end Store

/-! ## Runs -/

inductive Event where
  | read (call : Call) (throws : Bool)
  | write (writeFn : Database → Database × Bool)
  | updateSecurity (writeFn : Database → Database × Bool)
  | lose
  | regain
  | certificates (certificates : String → Option CertificateExpiryInfo)

def step (s : Store) : Event → Store
  | .read call throws => (s.readWithCache call throws).1
  | .write writeFn => (s.write writeFn).1
  | .updateSecurity writeFn => s.updateSecurity writeFn
  | .lose => { s with accessible := false }
  | .regain => { s with accessible := true }
  | .certificates certificates => { s with certificates := certificates }

/-- A `Database` that has just been opened. -/
def Store.opened (db : Database) (certificates : String → Option CertificateExpiryInfo) : Store :=
  ⟨db, true, certificates, ∅, fun _ => none⟩

/-! ## The writes of the repositories -/

/-- An operation that changes nothing when it fails, on the tables. -/
def onTables (operation : Tables → Except Db.Failure Tables) (db : Database) : Database × Bool :=
  match operation db.tables with
  | .ok tables => ({ db with tables := tables }, true)
  | .error _ => (db, false)

/-- `ObjectNodeRepository.delete`, whose statements before a failing one stay. -/
def deleteObjectNode (id : String) (db : Database) : Database × Bool :=
  match Db.ObjectNodeRepository.delete db.tables id with
  | (tables, .ok ()) => ({ db with tables := tables }, true)
  | (tables, .error _) => ({ db with tables := tables }, false)

def updatePolicy (mode : String) (db : Database) : Database × Bool :=
  ({ db with security := db.security.map (fun row => { row with mode := mode }) }, true)

def updateCertificate (certificatePath privateKeyPath : String) (db : Database) : Database × Bool :=
  ({ db with security := db.security.map (fun row =>
      { row with certificatePath := some certificatePath, privateKeyPath := some privateKeyPath }) }, true)

end OpcuaLight.Cache
