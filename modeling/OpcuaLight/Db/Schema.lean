import Mathlib.Data.Char
import Mathlib.Data.List.Lex
import Mathlib.Data.List.Sort
import OpcuaLight.Connector.Types

/-!
# The tables of the database

The rows of `db/schema.sql`, what the schema demands of them (`constraints`), and the SQL statements of
the repositories. A table is the list of its rows in the order of their rowids. A statement fails, and
changes nothing, when the tables it would leave break a constraint (`checked`); the deletion of a
namespace cascades row by row, so the names of object nodes are checked row by row there.
-/

namespace OpcuaLight.Db

open Connector (ConnectionConfig Mapping)

/-! ## Rows -/

/-- The data types of a variable node. -/
inductive OpcUaDataType where
  | boolean
  | int16
  | int32
  | int64
  | uint16
  | uint32
  | uint64
  | float
  | double
  | string
  | dateTime
  | byteString
  deriving DecidableEq, Repr, Inhabited

def OpcUaDataType.name : OpcUaDataType → String
  | .boolean => "Boolean"
  | .int16 => "Int16"
  | .int32 => "Int32"
  | .int64 => "Int64"
  | .uint16 => "UInt16"
  | .uint32 => "UInt32"
  | .uint64 => "UInt64"
  | .float => "Float"
  | .double => "Double"
  | .string => "String"
  | .dateTime => "DateTime"
  | .byteString => "ByteString"

structure NamespaceRow where
  id : String
  name : String
  description : Option String
  uri : String
  deriving DecidableEq, Inhabited

structure ObjectNodeRow where
  id : String
  namespaceId : String
  parentObjectNodeId : Option String
  name : String
  deriving DecidableEq, Inhabited

/-- A row of `nodes`, with the JSON text of the initial value parsed. -/
structure NodeRow where
  id : String
  namespaceId : String
  objectNodeId : Option String
  name : String
  dataType : OpcUaDataType
  initialValue : Option Json
  description : Option String
  deriving DecidableEq, Inhabited

/-- The tables, and whether `mappings` is as migration 5 leaves it: without it, as on the first run of
a new database, its `node_id` is neither optional nor shared. -/
structure Tables where
  migrated : Bool
  namespaces : List NamespaceRow
  objectNodes : List ObjectNodeRow
  nodes : List NodeRow
  connections : List ConnectionConfig
  mappings : List Mapping
  deriving DecidableEq, Inhabited

def Tables.empty (migrated : Bool) : Tables := ⟨migrated, [], [], [], [], []⟩

/-- `ORDER BY` a text column: the order of the code points. -/
def orderBy {α : Type} (column : α → String) (rows : List α) : List α :=
  rows.insertionSort (fun a b => (column a).toList ≤ (column b).toList)

@[simp] theorem mem_orderBy {α : Type} {column : α → String} {rows : List α} {r : α} :
    r ∈ orderBy column rows ↔ r ∈ rows := List.mem_insertionSort _

theorem orderBy_perm {α : Type} (column : α → String) (rows : List α) :
    (orderBy column rows).Perm rows := List.perm_insertionSort _ rows

/-! ## Constraints -/

/-- A constraint, as SQLite reports its violation. -/
inductive SqlError where
  | unique (columns : String)
  | notNull (column : String)
  | foreignKey
  deriving DecidableEq, Repr, Inhabited

def SqlError.message : SqlError → String
  | .unique columns => "UNIQUE constraint failed: " ++ columns
  | .notNull column => "NOT NULL constraint failed: " ++ column
  | .foreignKey => "FOREIGN KEY constraint failed"

namespace Tables

def hasNamespace (t : Tables) (id : String) : Bool := t.namespaces.any (fun r => r.id = id)
def hasObjectNode (t : Tables) (id : String) : Bool := t.objectNodes.any (fun r => r.id = id)
def hasNode (t : Tables) (id : String) : Bool := t.nodes.any (fun r => r.id = id)
def hasConnection (t : Tables) (id : String) : Bool := t.connections.any (fun r => r.id = id)

/-- Where an object node is: no two are in one place. -/
def place (r : ObjectNodeRow) : String × Option String × String :=
  (r.namespaceId, r.parentObjectNodeId, r.name)

/-- The key of an object node below another one: in a `UNIQUE` constraint no `NULL` equals another. -/
def placeBelow (r : ObjectNodeRow) : Option (String × String × String) :=
  r.parentObjectNodeId.map fun parent => (r.namespaceId, parent, r.name)

/-- The key of an object node at the root, in the partial index. -/
def placeAtRoot (r : ObjectNodeRow) : Option (String × String) :=
  if r.parentObjectNodeId = none then some (r.namespaceId, r.name) else none

/-- A `UNIQUE` constraint, with whether the keys of the rows meet it. -/
def unique {κ : Type} [DecidableEq κ] (columns : String) (keys : List κ) : SqlError × Bool :=
  (.unique columns, decide keys.Nodup)

/-- The constraints of the schema, each with whether the tables meet it. -/
def constraints (t : Tables) : List (SqlError × Bool) :=
  [unique "namespaces.id" (t.namespaces.map (fun r => r.id)),
   unique "namespaces.name" (t.namespaces.map (fun r => r.name)),
   unique "namespaces.uri" (t.namespaces.map (fun r => r.uri)),
   unique "object_nodes.id" (t.objectNodes.map (fun r => r.id)),
   unique "object_nodes.namespace_id, object_nodes.parent_object_node_id, object_nodes.name"
    (t.objectNodes.filterMap placeBelow),
   unique "object_nodes.namespace_id, object_nodes.name" (t.objectNodes.filterMap placeAtRoot),
   unique "nodes.id" (t.nodes.map (fun r => r.id)),
   unique "nodes.namespace_id, nodes.name" (t.nodes.map (fun r => (r.namespaceId, r.name))),
   unique "connections.id" (t.connections.map (fun r => r.id)),
   unique "mappings.id" (t.mappings.map (fun r => r.id)),
   unique "mappings.connection_id, mappings.device_address"
    (t.mappings.map (fun r => (r.connectionId, r.deviceAddress))),
   (.notNull "mappings.node_id", t.migrated || t.mappings.all (fun r => r.nodeId.isSome)),
   (.unique "mappings.node_id", t.migrated || decide (t.mappings.map (fun r => r.nodeId)).Nodup),
   (.foreignKey, t.objectNodes.all (fun r =>
      t.hasNamespace r.namespaceId && r.parentObjectNodeId.all t.hasObjectNode)),
   (.foreignKey, t.nodes.all (fun r =>
      t.hasNamespace r.namespaceId && r.objectNodeId.all t.hasObjectNode)),
   (.foreignKey, t.mappings.all (fun r =>
      t.hasConnection r.connectionId && r.nodeId.all t.hasNode))]

/-- Every constraint is met. -/
structure Valid (t : Tables) : Prop where
  namespaceIds : (t.namespaces.map (fun r => r.id)).Nodup
  namespaceNames : (t.namespaces.map (fun r => r.name)).Nodup
  namespaceUris : (t.namespaces.map (fun r => r.uri)).Nodup
  objectNodeIds : (t.objectNodes.map (fun r => r.id)).Nodup
  places : (t.objectNodes.map place).Nodup
  nodeIds : (t.nodes.map (fun r => r.id)).Nodup
  nodeNames : (t.nodes.map (fun r => (r.namespaceId, r.name))).Nodup
  connectionIds : (t.connections.map (fun r => r.id)).Nodup
  mappingIds : (t.mappings.map (fun r => r.id)).Nodup
  mappingAddresses : (t.mappings.map (fun r => (r.connectionId, r.deviceAddress))).Nodup
  mappedNodes : t.migrated = true ∨ ∀ r ∈ t.mappings, r.nodeId.isSome = true
  mappedNodesDiffer : t.migrated = true ∨ (t.mappings.map (fun r => r.nodeId)).Nodup
  objectNodeKeys : ∀ r ∈ t.objectNodes,
    t.hasNamespace r.namespaceId = true ∧ r.parentObjectNodeId.all t.hasObjectNode = true
  nodeKeys : ∀ r ∈ t.nodes,
    t.hasNamespace r.namespaceId = true ∧ r.objectNodeId.all t.hasObjectNode = true
  mappingKeys : ∀ r ∈ t.mappings,
    t.hasConnection r.connectionId = true ∧ r.nodeId.all t.hasNode = true

/-- The constraint and the partial index together: no two object nodes are in one place. -/
theorem places_nodup_iff {rows : List ObjectNodeRow} : (rows.map place).Nodup ↔
    (rows.filterMap placeBelow).Nodup ∧ (rows.filterMap placeAtRoot).Nodup := by
  rw [List.Nodup, List.Nodup, List.Nodup, List.pairwise_map, List.pairwise_filterMap, List.pairwise_filterMap,
    ← List.pairwise_and_iff]
  refine List.Pairwise.iff fun {a b} => ?_
  simp only [place, placeBelow, placeAtRoot]
  cases a.parentObjectNodeId <;> cases b.parentObjectNodeId <;> simp

theorem valid_iff {t : Tables} : t.Valid ↔ ∀ c ∈ t.constraints, c.2 = true := by
  constructor
  · intro h
    obtain ⟨hbelow, hroot⟩ := places_nodup_iff.mp h.places
    simp only [constraints, unique, List.forall_mem_cons, decide_eq_true_eq, Bool.or_eq_true,
      Bool.and_eq_true, List.all_eq_true]
    exact ⟨h.1, h.2, h.3, h.4, hbelow, hroot, h.6, h.7, h.8, h.9, h.10, h.11, h.12, h.13, h.14, h.15,
      List.forall_mem_nil _⟩
  · intro h
    simp only [constraints, unique, List.forall_mem_cons, decide_eq_true_eq, Bool.or_eq_true,
      Bool.and_eq_true, List.all_eq_true] at h
    obtain ⟨h1, h2, h3, h4, hbelow, hroot, h6, h7, h8, h9, h10, h11, h12, h13, h14, h15, -⟩ := h
    exact ⟨h1, h2, h3, h4, places_nodup_iff.mpr ⟨hbelow, hroot⟩, h6, h7, h8, h9, h10, h11, h12, h13, h14, h15⟩

instance (t : Tables) : Decidable t.Valid := decidable_of_iff' _ valid_iff

/-- The outcome of a statement that would leave the tables `t`. -/
def checked (t : Tables) : Except SqlError Tables :=
  match t.constraints.find? (fun c => !c.2) with
  | some c => .error c.1
  | none => .ok t

theorem checked_eq_ok {t t' : Tables} : t.checked = .ok t' ↔ t.Valid ∧ t = t' := by
  rw [valid_iff]
  unfold checked
  split
  · rename_i c hc
    have hbad : c.2 = false := by simpa using List.find?_some hc
    refine ⟨nofun, fun h => ?_⟩
    rw [h.1 c (List.mem_of_find?_eq_some hc)] at hbad
    exact absurd hbad (by decide)
  · rename_i hnone
    rw [List.find?_eq_none] at hnone
    constructor
    · intro h
      refine ⟨fun c hc => ?_, Except.ok.inj h⟩
      simpa using hnone c hc
    · exact fun h => by rw [h.2]

/-! ## Statements on the address space -/

def insertNamespace (t : Tables) (r : NamespaceRow) : Except SqlError Tables :=
  checked { t with namespaces := t.namespaces ++ [r] }

/-- `UPDATE namespaces SET .. WHERE id = ?`. -/
def updateNamespace (t : Tables) (id : String) (set : NamespaceRow → NamespaceRow) :
    Except SqlError Tables :=
  checked { t with namespaces := t.namespaces.map (fun r => if r.id = id then set r else r) }

def insertObjectNode (t : Tables) (r : ObjectNodeRow) : Except SqlError Tables :=
  checked { t with objectNodes := t.objectNodes ++ [r] }

/-- `UPDATE object_nodes SET parent_object_node_id = ? WHERE parent_object_node_id = ?`. -/
def reparentObjectNodes (t : Tables) (old : String) (new : Option String) : Except SqlError Tables :=
  checked { t with objectNodes := t.objectNodes.map (fun r =>
    if r.parentObjectNodeId = some old then { r with parentObjectNodeId := new } else r) }

/-- `UPDATE nodes SET object_node_id = ? WHERE object_node_id = ?`. -/
def reassignNodes (t : Tables) (old : String) (new : Option String) : Except SqlError Tables :=
  checked { t with nodes := t.nodes.map (fun r =>
    if r.objectNodeId = some old then { r with objectNodeId := new } else r) }

/-- The row goes, and the references to it become `NULL` (`ON DELETE SET NULL`). -/
def dropObjectNode (t : Tables) (id : String) : Tables :=
  { t with
    objectNodes := (t.objectNodes.filter (fun r => r.id ≠ id)).map (fun r =>
      if r.parentObjectNodeId = some id then { r with parentObjectNodeId := none } else r)
    nodes := t.nodes.map (fun r => if r.objectNodeId = some id then { r with objectNodeId := none } else r) }

def deleteObjectNode (t : Tables) (id : String) : Except SqlError Tables := checked (t.dropObjectNode id)

/-- One step of the cascade into `object_nodes`. -/
def cascadeObjectNode (t : Tables) (r : ObjectNodeRow) : Except SqlError Tables :=
  let t := t.dropObjectNode r.id
  if (t.objectNodes.map place).Nodup then .ok t
  else .error (.unique "object_nodes.namespace_id, object_nodes.name")

def insertNode (t : Tables) (r : NodeRow) : Except SqlError Tables :=
  checked { t with nodes := t.nodes ++ [r] }

/-- `UPDATE nodes SET .. WHERE id = ?`. -/
def updateNode (t : Tables) (id : String) (set : NodeRow → NodeRow) : Except SqlError Tables :=
  checked { t with nodes := t.nodes.map (fun r => if r.id = id then set r else r) }

/-- The nodes go, and the mappings to them with them (`ON DELETE CASCADE`). -/
def dropNodes (t : Tables) (drop : NodeRow → Bool) : Tables :=
  { t with
    nodes := t.nodes.filter (fun r => !drop r)
    mappings := t.mappings.filter (fun m =>
      !t.nodes.any (fun r => drop r && decide (m.nodeId = some r.id))) }

def deleteNode (t : Tables) (id : String) : Except SqlError Tables :=
  checked (t.dropNodes (fun r => r.id = id))

/-- The cascade into `object_nodes`, in the order of the rowids. -/
def cascadeObjectNodes (t : Tables) : List ObjectNodeRow → Except SqlError Tables
  | [] => .ok t
  | r :: rows =>
      match t.cascadeObjectNode r with
      | .error e => .error e
      | .ok t => cascadeObjectNodes t rows

def deleteNamespace (t : Tables) (id : String) : Except SqlError Tables :=
  let dropped := { t with namespaces := t.namespaces.filter (fun r => r.id ≠ id) }
  match dropped.cascadeObjectNodes (t.objectNodes.filter (fun r => r.namespaceId = id)) with
  | .error e => .error e
  | .ok t => checked (t.dropNodes (fun r => r.namespaceId = id))

/-! ## Statements on connections and mappings -/

def insertConnection (t : Tables) (r : ConnectionConfig) : Except SqlError Tables :=
  checked { t with connections := t.connections ++ [r] }

/-- `UPDATE connections SET .. WHERE id = ?`. -/
def updateConnection (t : Tables) (id : String) (set : ConnectionConfig → ConnectionConfig) :
    Except SqlError Tables :=
  checked { t with connections := t.connections.map (fun r => if r.id = id then set r else r) }

/-- The connection goes, and its mappings with it (`ON DELETE CASCADE`). -/
def deleteConnection (t : Tables) (id : String) : Except SqlError Tables :=
  checked { t with
    connections := t.connections.filter (fun r => r.id ≠ id)
    mappings := t.mappings.filter (fun r => r.connectionId ≠ id) }

def insertMapping (t : Tables) (r : Mapping) : Except SqlError Tables :=
  checked { t with mappings := t.mappings ++ [r] }

/-- `UPDATE mappings SET .. WHERE id = ?`. -/
def updateMapping (t : Tables) (id : String) (set : Mapping → Mapping) : Except SqlError Tables :=
  checked { t with mappings := t.mappings.map (fun r => if r.id = id then set r else r) }

def deleteMapping (t : Tables) (id : String) : Except SqlError Tables :=
  checked { t with mappings := t.mappings.filter (fun r => r.id ≠ id) }

end Tables

end OpcuaLight.Db
