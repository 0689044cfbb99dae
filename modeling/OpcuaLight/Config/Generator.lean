import OpcuaLight.Db.Schema

/-!
# The configuration generator

`ConfigGenerator.generate` on the tables: the namespaces in the order of their names, each with the tree
of its object nodes and the list of its variable nodes. The security section is left out. A connection
whose `params` are `null` makes `loadMappings` throw, which is `none` here.
-/

namespace OpcuaLight.Config

open Db

/-- An object node entry in the runtime configuration. -/
inductive ObjectNodeConfig where
  | mk (name path : String) (children : List ObjectNodeConfig)

structure ConnectorMappingConfig where
  connectionType : String
  connectionHost : Json
  deviceAddress : String

structure S7MappingConfig where
  connectionHost : Json
  plcAddress : String

structure NodeConfig where
  name : String
  nodeId : String
  dataType : OpcUaDataType
  parentPath : String
  initialValue : Option Json
  connectorMapping : Option ConnectorMappingConfig
  s7Mapping : Option S7MappingConfig

structure NamespaceConfig where
  name : String
  uri : String
  objectNodes : List ObjectNodeConfig
  nodes : List NodeConfig

/-! ## Object nodes -/

/-- The object nodes of a namespace by name. -/
def buildObjectNodeTree (t : Tables) (namespaceId : String) : List ObjectNodeRow :=
  orderBy (fun r => r.name) (t.objectNodes.filter (fun r => r.namespaceId = namespaceId))

/-- The names from the root down to the object node, found in at most `fuel` steps upwards. -/
def pathParts (rows : List ObjectNodeRow) : Nat → String → List String
  | 0, _ => []
  | fuel + 1, id =>
      if id = "" then []
      else match rows.find? (fun r => r.id = id) with
        | none => []
        | some row =>
            match row.parentObjectNodeId with
            | none => [row.name]
            | some parent => pathParts rows fuel parent ++ [row.name]

/-- `Array.prototype.join`. -/
def join (parts : List String) (sep : String) : String := sep.intercalate parts

def computeObjectNodePath (id : String) (rows : List ObjectNodeRow) (namespaceName : String) : String :=
  join (namespaceName :: pathParts rows rows.length id) "."

/-- The rows that get the row `id` as their parent. -/
def childRows (rows : List ObjectNodeRow) (id : String) : List ObjectNodeRow :=
  rows.filter (fun r => r.parentObjectNodeId = some id)

/-- The rows without a parent in the namespace. -/
def rootRows (rows : List ObjectNodeRow) : List ObjectNodeRow :=
  rows.filter (fun r => r.parentObjectNodeId.all (fun p => !rows.any (fun q => q.id = p)))

/-- The entry of a row, with at most `fuel` levels below it. -/
def toObjectNodeConfig (rows : List ObjectNodeRow) (namespaceName : String) :
    Nat → ObjectNodeRow → ObjectNodeConfig
  | 0, row => .mk row.name (computeObjectNodePath row.id rows namespaceName) []
  | fuel + 1, row => .mk row.name (computeObjectNodePath row.id rows namespaceName)
      ((childRows rows row.id).map (toObjectNodeConfig rows namespaceName fuel))

def toObjectNodeConfigs (rows : List ObjectNodeRow) (namespaceName : String) : List ObjectNodeConfig :=
  (rootRows rows).map (toObjectNodeConfig rows namespaceName rows.length)

/-! ## Variable nodes -/

/-- The mappings of the nodes of a namespace with their connections. -/
def mappingRows (t : Tables) (namespaceId : String) :
    List (String × Connector.Mapping × Connector.ConnectionConfig) :=
  t.mappings.flatMap (fun m =>
    (t.connections.filter (fun c => c.id = m.connectionId)).flatMap (fun c =>
      (t.nodes.filter (fun n => n.namespaceId = namespaceId ∧ m.nodeId = some n.id)).map (fun n =>
        (n.id, m, c))))

/-- What `loadMappings` has for a node, if it does not throw; of several rows the last one counts. -/
def loadMappings (t : Tables) (namespaceId : String) :
    Option (String → Option ConnectorMappingConfig) :=
  let rows := mappingRows t namespaceId
  if rows.any (fun r => r.2.2.params = .null) then none
  else some (fun nodeId => (rows.reverse.find? (fun r => r.1 = nodeId)).map (fun r =>
    ⟨r.2.2.type, Json.orElse (r.2.2.params.field "host") (.str ""), r.2.1.deviceAddress⟩))

def s7Mapping (mapping : ConnectorMappingConfig) : Option S7MappingConfig :=
  if mapping.connectionType = "s7" then some ⟨mapping.connectionHost, mapping.deviceAddress⟩ else none

/-- The path of the parent of a node. -/
def parentPath (rows : List ObjectNodeRow) (namespaceName : String) (node : NodeRow) : String :=
  match node.objectNodeId with
  | none => namespaceName
  | some id => if id = "" then namespaceName else computeObjectNodePath id rows namespaceName

/-- The string id of a node under its parent's path, and its `nodeId`. -/
def nodeIdString (nsIndex : Nat) (path name : String) : String := s!"ns={nsIndex};s={path}.{name}"

def toNodeConfig (rows : List ObjectNodeRow) (mappings : String → Option ConnectorMappingConfig)
    (namespaceName : String) (nsIndex : Nat) (node : NodeRow) : NodeConfig where
  name := node.name
  nodeId := nodeIdString nsIndex (parentPath rows namespaceName node) node.name
  dataType := node.dataType
  parentPath := parentPath rows namespaceName node
  initialValue := node.initialValue
  connectorMapping := mappings node.id
  s7Mapping := (mappings node.id).bind s7Mapping

def nodeRows (t : Tables) (namespaceId : String) : List NodeRow :=
  orderBy (fun r => r.name) (t.nodes.filter (fun r => r.namespaceId = namespaceId))

def buildNodes (t : Tables) (namespaceId namespaceName : String) (nsIndex : Nat)
    (objectNodeRows : List ObjectNodeRow) : Option (List NodeConfig) :=
  (loadMappings t namespaceId).map (fun mappings =>
    (nodeRows t namespaceId).map (toNodeConfig objectNodeRows mappings namespaceName nsIndex))

/-! ## The configuration -/

def buildNamespace (t : Tables) (ns : NamespaceRow) (index : Nat) : Option NamespaceConfig :=
  let objectNodeRows := buildObjectNodeTree t ns.id
  -- OPC UA ns=0 is UA standard, ns=1 is server, custom starts at 2
  (buildNodes t ns.id ns.name (index + 2) objectNodeRows).map (fun nodes =>
    ⟨ns.name, ns.uri, toObjectNodeConfigs objectNodeRows ns.name, nodes⟩)

def namespaceRows (t : Tables) : List NamespaceRow := orderBy (fun r => r.name) t.namespaces

/-- `generate`, as far as the namespaces go; `none` when it throws. -/
def generate (t : Tables) : Option (List NamespaceConfig) :=
  (namespaceRows t).zipIdx.mapM (fun e => buildNamespace t e.1 e.2)

/-! ## What a configuration consists of -/

theorem map_of_mapM {α β : Type} {f : α → Option β} {l : List α} {l' : List β}
    (h : l.mapM f = some l') : l.map f = l'.map some := by
  induction l generalizing l' with
  | nil =>
      rw [← Option.some.inj h]
      rfl
  | cons a l ih =>
      rw [List.mapM_cons] at h
      obtain ⟨b, hb, h⟩ := Option.bind_eq_some_iff.mp h
      obtain ⟨bs, hbs, h⟩ := Option.bind_eq_some_iff.mp h
      rw [← Option.some.inj h, List.map_cons, List.map_cons, hb, ih hbs]

/-- The entries are those of the namespaces in the order of their names. -/
theorem generate_getElem? {t : Tables} {config : List NamespaceConfig} (h : generate t = some config)
    (i : Nat) :
    config[i]?.map some = (namespaceRows t)[i]?.map (fun ns => buildNamespace t ns i) := by
  have hmap := congrArg (fun l => l[i]?) (map_of_mapM h)
  simp only [List.getElem?_map, List.getElem?_zipIdx, Option.map_map, Nat.zero_add] at hmap
  exact hmap.symm

theorem buildNamespace_eq_some {t : Tables} {ns : NamespaceRow} {i : Nat} {c : NamespaceConfig}
    (h : buildNamespace t ns i = some c) : ∃ mappings, loadMappings t ns.id = some mappings ∧
      c = ⟨ns.name, ns.uri, toObjectNodeConfigs (buildObjectNodeTree t ns.id) ns.name,
        (nodeRows t ns.id).map (toNodeConfig (buildObjectNodeTree t ns.id) mappings ns.name (i + 2))⟩ := by
  obtain ⟨nodes, hnodes, rfl⟩ := Option.map_eq_some_iff.mp h
  obtain ⟨mappings, hmappings, rfl⟩ := Option.map_eq_some_iff.mp hnodes
  exact ⟨mappings, hmappings, rfl⟩

/-- The entry in a place is that of the namespace in this place. -/
theorem generate_entry {t : Tables} {config : List NamespaceConfig} (h : generate t = some config)
    {i : Nat} {c : NamespaceConfig} :
    config[i]? = some c ↔ ∃ ns, (namespaceRows t)[i]? = some ns ∧ buildNamespace t ns i = some c := by
  have hi := generate_getElem? h i
  cases hns : (namespaceRows t)[i]? with
  | none =>
      rw [hns, Option.map_none, Option.map_eq_none_iff] at hi
      rw [hi]
      exact ⟨nofun, nofun⟩
  | some ns =>
      rw [hns, Option.map_some] at hi
      obtain ⟨c', hc', hb⟩ := Option.map_eq_some_iff.mp hi
      rw [hc']
      constructor
      · intro hc
        exact ⟨ns, rfl, hb.symm.trans hc⟩
      · rintro ⟨ns', hns', hb'⟩
        rw [← Option.some.inj hns'] at hb'
        exact hb.trans hb'

theorem generate_uris {t : Tables} {config : List NamespaceConfig} (h : generate t = some config) :
    config.map (fun c => c.uri) = (namespaceRows t).map (fun ns => ns.uri) := by
  apply List.ext_getElem?
  intro i
  have hi := generate_getElem? h i
  rw [List.getElem?_map, List.getElem?_map]
  cases hns : (namespaceRows t)[i]? with
  | none =>
      rw [hns, Option.map_none, Option.map_eq_none_iff] at hi
      rw [hi]
      rfl
  | some ns =>
      rw [hns, Option.map_some] at hi
      obtain ⟨c, hc, hb⟩ := Option.map_eq_some_iff.mp hi
      obtain ⟨mappings, -, rfl⟩ := buildNamespace_eq_some hb.symm
      rw [hc]
      rfl

theorem mem_nodeRows {t : Tables} {id : String} {r : NodeRow} :
    r ∈ nodeRows t id ↔ r ∈ t.nodes ∧ r.namespaceId = id := by
  simp [nodeRows]

end OpcuaLight.Config
