import OpcuaLight.Connector.Types
import OpcuaLight.Lib.Sql

/-!
# The schema and its migrations

`schema.sql`, which makes a new database, the migrations of `database.ts`, which bring an older one up,
and the constructor of `Database`, which decides between them. The `CHECK` of `security_config` is left
out. Values are the integers and texts that the server writes; a text that holds JSON stands for the JSON
value.

`starts` are the schemas that a file of a recorded version can have: what that release made, and what
earlier releases made and later ones migrated.
-/

namespace OpcuaLight.Db.Migrations

open Sql (Column Table Index Schema Statement Row Database)
open Connector (ConnectionConfig Mapping)

inductive Value where
  | integer (n : Int)
  | text (s : String)
  | json (j : Json)
  deriving DecidableEq

/-! ## `schema.sql` -/

def now : String := "datetime('now')"

def textId : Column := { name := "id", type := "TEXT", primaryKey := true }

def timestamp (name : String) : Column :=
  { name := name, type := "TEXT", notNull := true, default := some now }

def text (name : String) : Column := { name := name, type := "TEXT" }

def required (name : String) : Column := { name := name, type := "TEXT", notNull := true }

def number (name default : String) : Column :=
  { name := name, type := "INTEGER", notNull := true, default := some default }

/-- `REFERENCES table(id)`. -/
def Column.to (c : Column) (table : String) (onDelete : Sql.Action) : Column :=
  { c with references := some ⟨table, "id", onDelete⟩ }

def schemaMigrations : Table :=
  { name := "schema_migrations"
    columns := [{ name := "version", type := "INTEGER", primaryKey := true }, timestamp "applied_at"] }

def namespaces : Table :=
  { name := "namespaces"
    columns := [textId, { required "name" with unique := true }, text "description",
      { required "uri" with unique := true }, timestamp "created_at", timestamp "updated_at"] }

def objectNodes : Table :=
  { name := "object_nodes"
    columns := [textId, Column.to (required "namespace_id") "namespaces" .cascade,
      Column.to (text "parent_object_node_id") "object_nodes" .setNull, required "name",
      timestamp "created_at"]
    unique := [["namespace_id", "parent_object_node_id", "name"]] }

def objectNodesUniqueRoot : Index :=
  ⟨"idx_object_nodes_unique_root", "object_nodes", ["namespace_id", "name"], "parent_object_node_id"⟩

def nodes : Table :=
  { name := "nodes"
    columns := [textId, Column.to (required "namespace_id") "namespaces" .cascade,
      Column.to (text "object_node_id") "object_nodes" .setNull, required "name", required "data_type",
      text "initial_value", text "description", timestamp "created_at", timestamp "updated_at"]
    unique := [["namespace_id", "name"]] }

def securityConfig : Table :=
  { name := "security_config"
    columns := [{ name := "id", type := "INTEGER", primaryKey := true },
      { required "mode" with default := some "'None'" }, text "certificate_path",
      text "private_key_path", timestamp "updated_at"] }

def s7Connections : Table :=
  { name := "s7_connections"
    columns := [textId, required "name", required "host", number "rack" "0", number "slot" "1",
      number "polling_interval_ms" "1000", number "reconnect_interval_ms" "5000", number "enabled" "1",
      timestamp "created_at"] }

def s7Mappings : Table :=
  { name := "s7_mappings"
    columns := [textId, Column.to (required "connection_id") "s7_connections" .cascade,
      Column.to (required "node_id") "nodes" .cascade, required "plc_address", text "description",
      timestamp "created_at"]
    unique := [["connection_id", "plc_address"], ["node_id"]] }

def connections : Table :=
  { name := "connections"
    columns := [textId, required "type", required "name", required "params",
      number "polling_interval_ms" "1000", number "reconnect_interval_ms" "5000", number "enabled" "1",
      timestamp "created_at"] }

/-- Every mapping has a node, and no two have the same. -/
def mappings : Table :=
  { name := "mappings"
    columns := [textId, Column.to (required "connection_id") "connections" .cascade,
      Column.to (required "node_id") "nodes" .cascade, required "device_address", text "description",
      timestamp "created_at"]
    unique := [["connection_id", "device_address"], ["node_id"]] }

/-- The row that records a version. -/
def versionRow (clock : String) (version : Int) : Row Value :=
  Sql.values [("version", .integer version), ("applied_at", .text clock)]

def schemaSql (clock : String) : List (Statement Value) :=
  [.createTable schemaMigrations, .createTable namespaces, .createTable objectNodes,
    .createIndex objectNodesUniqueRoot, .createTable nodes, .createTable securityConfig,
    .createTable s7Connections, .createTable s7Mappings, .createTable connections,
    .createTable mappings,
    .insertOrIgnore "security_config"
      (Sql.values [("id", .integer 1), ("mode", .text "None"), ("updated_at", .text clock)]),
    .insertOrIgnore "schema_migrations" (versionRow clock 1),
    .insertOrIgnore "schema_migrations" (versionRow clock 2),
    .insertOrIgnore "schema_migrations" (versionRow clock 3),
    .insertOrIgnore "schema_migrations" (versionRow clock 4)]

/-! ## `database.ts` -/

def currentSchemaVersion : Int := 5

/-- A value in a JSON object. -/
def Value.toJson : Option Value → Json
  | none => .null
  | some (.integer n) => .num n
  | some (.text s) => .str s
  | some (.json j) => j

/-- `json_object`. -/
def jsonObject (fields : List (String × String)) (r : Row Value) : Option Value :=
  some (.json (.obj (fields.map (fun f => (f.1, Value.toJson (r f.2))))))

/-- The row of `connections` for a row of `s7_connections`. -/
def migrateConnection : Row Value → Row Value :=
  Sql.project [("id", fun r => r "id"), ("type", fun _ => some (.text "s7")), ("name", fun r => r "name"),
    ("params", jsonObject [("host", "host"), ("rack", "rack"), ("slot", "slot")]),
    ("polling_interval_ms", fun r => r "polling_interval_ms"),
    ("reconnect_interval_ms", fun r => r "reconnect_interval_ms"), ("enabled", fun r => r "enabled"),
    ("created_at", fun r => r "created_at")]

/-- The row of `mappings` for a row of another table, which has the address in a column of its own. -/
def migrateMapping (address : String) : Row Value → Row Value :=
  Sql.project [("id", fun r => r "id"), ("connection_id", fun r => r "connection_id"),
    ("node_id", fun r => r "node_id"), ("device_address", fun r => r address),
    ("description", fun r => r "description"), ("created_at", fun r => r "created_at")]

/-- The mappings that may be without a node. -/
def mappingsNew : Table :=
  { name := "mappings_new"
    columns := [textId, Column.to (required "connection_id") "connections" .cascade,
      Column.to (text "node_id") "nodes" .cascade, required "device_address", text "description",
      timestamp "created_at"]
    unique := [["connection_id", "device_address"]] }

/-- The migration to a version, on a database with the schema. -/
def migration (s : Schema) : Int → List (Statement Value)
  -- folders become object nodes
  | 2 =>
      [.renameTable "folders" "object_nodes",
        .renameColumn "object_nodes" "parent_folder_id" "parent_object_node_id",
        .dropIndex "idx_folders_unique_root", .createIndex objectNodesUniqueRoot,
        .renameColumn "nodes" "folder_id" "object_node_id"]
  | 3 => [.addColumn "s7_mappings" (text "description")]
  | 4 =>
      [.createTable connections, .createTable mappings] ++
        if s.has "s7_connections" then
          [.insertSelect "connections" "s7_connections" migrateConnection,
            .insertSelect "mappings" "s7_mappings" (migrateMapping "plc_address"),
            .dropTable true "s7_mappings", .dropTable true "s7_connections"]
        else []
  | 5 =>
      [.createTable mappingsNew,
        .insertSelect "mappings_new" "mappings" (migrateMapping "device_address"),
        .dropTable false "mappings", .renameTable "mappings_new" "mappings"]
  | _ => []

/-- `MAX(version)`, and 0 if no version is recorded. -/
def schemaVersion (db : Database Value) : Int :=
  ((db.rows "schema_migrations").filterMap (fun r =>
    match r "version" with
    | some (.integer n) => some n
    | _ => none)).max?.getD 0

/-- A migration, and the record of it. -/
def step (clock : String) (db : Database Value) (version : Int) :
    Except Sql.Error (Database Value) :=
  Sql.execAll db (migration db.schema version ++
    [.insert "schema_migrations" (versionRow clock version)])

/-- The versions after a version. -/
def pending (fromVersion : Int) : List Int :=
  (List.range (currentSchemaVersion - fromVersion).toNat).map (fun i : Nat => fromVersion + 1 + i)

def steps (clock : String) (db : Database Value) : List Int → Except Sql.Error (Database Value)
  | [] => .ok db
  | version :: versions =>
      match step clock db version with
      | .error e => .error e
      | .ok db => steps clock db versions

def applyMigrations (clock : String) (db : Database Value) (fromVersion : Int) :
    Database Value × Except Sql.Error Unit :=
  Sql.transaction db (steps clock db (pending fromVersion))

/-- `applySchema`, as the constructor calls it: the database that is in the file then, and whether the
constructor returns. -/
def openDatabase (clock : String) (db : Database Value) : Database Value × Except Sql.Error Unit :=
  if db.schema.has "schema_migrations" then
    if schemaVersion db < currentSchemaVersion then applyMigrations clock db (schemaVersion db)
    else (db, .ok ())
  else Sql.script db (schemaSql clock)

/-! ## What the repository reads -/

def nullableText : Option Value → Option (Option String)
  | none => some none
  | some (.text s) => some (some s)
  | some _ => none

def rowToConnection (r : Row Value) : Option ConnectionConfig :=
  match r "id", r "type", r "name", r "params", r "polling_interval_ms", r "reconnect_interval_ms",
    r "enabled", r "created_at" with
  | some (.text id), some (.text type), some (.text name), some (.json params), some (.integer polling),
    some (.integer reconnect), some (.integer enabled), some (.text createdAt) =>
      some ⟨id, type, name, params, polling, reconnect, enabled == 1, createdAt⟩
  | _, _, _, _, _, _, _, _ => none

def rowToMapping (r : Row Value) : Option Mapping :=
  match r "id", r "connection_id", nullableText (r "node_id"), r "device_address",
    nullableText (r "description"), r "created_at" with
  | some (.text id), some (.text connectionId), some nodeId, some (.text deviceAddress),
    some description, some (.text createdAt) =>
      some ⟨id, connectionId, nodeId, deviceAddress, description, createdAt⟩
  | _, _, _, _, _, _ => none

/-! ## Earlier releases -/

/-- The table of the first release, before folders were object nodes. -/
def folders : Table :=
  { name := "folders"
    columns := [textId, Column.to (required "namespace_id") "namespaces" .cascade,
      Column.to (text "parent_folder_id") "folders" .setNull, required "name", timestamp "created_at"]
    unique := [["namespace_id", "parent_folder_id", "name"]] }

def foldersUniqueRoot : Index :=
  ⟨"idx_folders_unique_root", "folders", ["namespace_id", "name"], "parent_folder_id"⟩

def nodesInFolders : Table :=
  { nodes with columns := nodes.columns.map (fun c =>
      if c.name = "object_node_id" then Column.to (text "folder_id") "folders" .setNull else c) }

def s7MappingsUndescribed : Table :=
  { s7Mappings with columns := s7Mappings.columns.filter (fun c => c.name ≠ "description") }

/-- The schema that the release of a version gives a new database. -/
def release : Int → Schema
  | 1 => ⟨[schemaMigrations, namespaces, folders, nodesInFolders, securityConfig, s7Connections,
      s7MappingsUndescribed], [foldersUniqueRoot]⟩
  | 2 => ⟨[schemaMigrations, namespaces, objectNodes, nodes, securityConfig, s7Connections,
      s7MappingsUndescribed], [objectNodesUniqueRoot]⟩
  | 3 => ⟨[schemaMigrations, namespaces, objectNodes, nodes, securityConfig, s7Connections, s7Mappings],
      [objectNodesUniqueRoot]⟩
  | _ => ⟨[schemaMigrations, namespaces, objectNodes, nodes, securityConfig, s7Connections, s7Mappings,
      connections, mappings], [objectNodesUniqueRoot]⟩

def upgrade (s : Schema) (version : Int) : Option Schema :=
  (Sql.alterAll s (migration s version)).toOption

/-- The schemas of the files with a recorded version. -/
def starts : Nat → List Schema
  | 0 => []
  | version + 1 => release (version + 1) ::
      (starts version).filterMap (fun s => upgrade s (version + 1))

end OpcuaLight.Db.Migrations
