import OpcuaLight.Runtime.Items
import OpcuaLight.Runtime.Identifiers
import OpcuaLight.Runtime.ConfigFile

/-!
# The address space after a reload

A reload clears what the new configuration names and builds the new configuration over the rest. The
nodes are then those of a fresh server if and only if every node that stood before is at or below one
that is cleared, or is described by the new configuration as it is. A file that cJSON refuses changes
nothing (`reload_eq_fresh_iff`).

Nodes are compared as a client sees them: the URI of the namespace, the identifier, the parent and the
data type.
-/

namespace OpcuaLight.Runtime

open Db
open Forest (addAll deleteAll keys mapKey)

/-! ## What a client sees -/

/-- The id with the URI of its namespace. -/
def viewKey (table : List String) (id : NodeId) : Option String × String :=
  (table[id.nsIndex]?, id.identifier)

def Server.view (S : Server) : List (Item (Option String × String) NodeClass) :=
  S.nodes.map (mapKey (viewKey S.namespaces))

/-- What a configuration describes: its items in their order, without those whose key is taken or whose
parent is missing. -/
def described (ua : Ua) (config : List NamespaceJson) : List (Item (Option String × String) NodeClass) :=
  addAll (configItems (fun uri identifier => (some uri, identifier)) ua config) []

/-- The index of the id is the number of a URI. -/
def Numbered (table : List String) (id : NodeId) : Prop :=
  ∃ uri ∈ table, id.nsIndex = table.idxOf uri

/-- Nodes come after their parents, under numbers of the table. -/
structure Server.Sound (S : Server) : Prop where
  wf : Forest.WF S.nodes
  numbered : ∀ x ∈ S.nodes, Numbered S.namespaces x.key

theorem getElem?_idxOf {table : List String} {uri : String} (h : uri ∈ table) :
    table[table.idxOf uri]? = some uri := by
  rw [List.getElem?_eq_getElem (List.idxOf_lt_length_of_mem h)]
  exact congrArg some (List.getElem_idxOf _)

theorem viewKey_inj {table : List String} (k k' : NodeId) (hk : Numbered table k)
    (hk' : Numbered table k') (h : viewKey table k = viewKey table k') : k = k' := by
  obtain ⟨uri, hu, hi⟩ := hk
  obtain ⟨uri', hu', hi'⟩ := hk'
  unfold viewKey at h
  rw [hi, hi', getElem?_idxOf hu, getElem?_idxOf hu', Prod.mk.injEq, Option.some_inj] at h
  obtain ⟨huri, hid⟩ := h
  cases k
  cases k'
  simp_all

theorem Numbered.internAll {table : List String} {id : NodeId} (h : Numbered table id)
    (us : List String) : Numbered (Intern.internAll table us) id := by
  obtain ⟨uri, hu, hi⟩ := h
  exact ⟨uri, Intern.mem_internAll.mpr (Or.inl hu), by rw [hi, Intern.idxOf_internAll hu]⟩

/-- New namespaces leave the URIs of the old ones. -/
theorem viewKey_internAll {table : List String} {id : NodeId} (h : Numbered table id)
    (us : List String) : viewKey (Intern.internAll table us) id = viewKey table id := by
  obtain ⟨uri, hu, hi⟩ := h
  unfold viewKey
  rw [hi, getElem?_idxOf hu, ← Intern.idxOf_internAll hu us,
    getElem?_idxOf (Intern.mem_internAll.mpr (Or.inl hu))]

theorem Server.Sound.parent {S : Server} (h : S.Sound) {x : Item NodeId NodeClass} (hx : x ∈ S.nodes)
    {p : NodeId} (hp : x.parent = some p) : Numbered S.namespaces p := by
  obtain ⟨y, hy, rfl⟩ := Forest.mem_keys.mp (h.wf.parent_mem hx hp)
  exact h.numbered y hy

/-- Later namespaces change nothing in the view. -/
theorem Server.Sound.view_internAll {S : Server} (h : S.Sound) (us : List String) :
    S.nodes.map (mapKey (viewKey (Intern.internAll S.namespaces us))) = S.view := by
  apply List.map_congr_left
  intro x hx
  have hparent : x.parent.map (viewKey (Intern.internAll S.namespaces us)) =
      x.parent.map (viewKey S.namespaces) :=
    Option.map_congr fun p hp => viewKey_internAll (h.parent hx hp) us
  unfold mapKey
  rw [viewKey_internAll (h.numbered x hx), hparent]

/-! ## What building and clearing do to it -/

/-- The keys of the items that a build adds to the server. -/
theorem numbered_items (ua : Ua) (S : Server) (config : List NamespaceJson) :
    ∀ x ∈ configItems (fun uri => NodeId.mk ((addressSpaceBuild ua S config).namespaces.idxOf uri)) ua
      config, Numbered (addressSpaceBuild ua S config).namespaces x.key ∧
        ∀ p, x.parent = some p → Numbered (addressSpaceBuild ua S config).namespaces p := by
  intro x hx
  obtain ⟨uri, hu, ⟨identifier, hkey⟩, hparent⟩ := configItems_keys hx
  have hin : uri ∈ (addressSpaceBuild ua S config).namespaces := by
    rw [build_namespaces]
    exact Intern.mem_internAll.mpr (Or.inr hu)
  refine ⟨⟨uri, hin, by rw [hkey]⟩, fun p hp => ?_⟩
  obtain ⟨identifier', rfl⟩ := hparent p hp
  exact ⟨uri, hin, rfl⟩

theorem Server.Sound.build {S : Server} (h : S.Sound) (ua : Ua) (config : List NamespaceJson) :
    (addressSpaceBuild ua S config).Sound where
  wf := by
    rw [build_nodes]
    exact h.wf.addAll _
  numbered x hx := by
    rw [build_nodes] at hx
    rcases Forest.mem_of_mem_addAll hx with hx | hx
    · rw [build_namespaces]
      exact (h.numbered x hx).internAll _
    · exact (numbered_items ua S config x hx).1

theorem Server.Sound.clear {S : Server} (h : S.Sound) (config : List NamespaceJson) :
    (addressSpaceClear S config).Sound where
  wf := by
    rw [clear_nodes]
    exact h.wf.deleteAll _
  numbered x hx := by
    rw [clear_nodes, Forest.deleteAll_eq_keep h.wf] at hx
    rw [clear_namespaces]
    exact h.numbered x (Forest.keep_subset _ hx)

theorem sound_new (applicationUri : String) : (Server.new applicationUri).Sound :=
  ⟨.nil, fun _ hx => absurd hx List.not_mem_nil⟩

theorem Server.Sound.handleReloadFrom {cJsonParse : List UInt8 → Option Json} {ua : Ua} {S : Server}
    (h : S.Sound) (parsed cleared : Option (List UInt8)) :
    (handleReloadFrom cJsonParse ua S parsed cleared).Sound := by
  rw [Runtime.handleReloadFrom]
  split
  · exact h
  · rw [addressSpaceClearFrom]
    split
    · exact h.build ua _
    · exact (h.clear _).build ua _

/-- Seen from a client, a build adds the items of the configuration under their URIs. -/
theorem Server.Sound.view_build {S : Server} (h : S.Sound) (ua : Ua) (config : List NamespaceJson) :
    (addressSpaceBuild ua S config).view =
      addAll (configItems (fun uri identifier => (some uri, identifier)) ua config) S.view := by
  set table := (addressSpaceBuild ua S config).namespaces with htable
  have hinternal : table = Intern.internAll S.namespaces (uris config) := build_namespaces ua S config
  have hold : S.nodes.map (mapKey (viewKey table)) = S.view := by
    rw [hinternal]
    exact h.view_internAll _
  have hnew : (configItems (fun uri => NodeId.mk (table.idxOf uri)) ua config).map
      (mapKey (viewKey table)) =
        configItems (fun uri identifier => (some uri, identifier)) ua config := by
    refine configItems_map (fun uri hu identifier => ?_) ua
    have hin : uri ∈ table := by
      rw [hinternal]
      exact Intern.mem_internAll.mpr (Or.inr hu)
    show (table[table.idxOf uri]?, identifier) = _
    rw [getElem?_idxOf hin]
  have hnumbered : ∀ x ∈ S.nodes, Numbered table x.key := fun x hx => by
    rw [hinternal]
    exact (h.numbered x hx).internAll _
  show (addressSpaceBuild ua S config).nodes.map (mapKey (viewKey table)) = _
  rw [build_nodes, ← htable, Forest.map_addAll viewKey_inj hnumbered (numbered_items ua S config),
    hnew, hold]

theorem view_serverCreate (ua : Ua) (applicationUri : String) (config : List NamespaceJson) :
    (serverCreate ua applicationUri config).view = described ua config :=
  (sound_new applicationUri).view_build ua config

/-- After clearing, a client sees what was neither cleared nor below what was. -/
theorem Server.Sound.mem_view_clear {S : Server} (h : S.Sound) (config : List NamespaceJson)
    {v : Item (Option String × String) NodeClass} : v ∈ (addressSpaceClear S config).view ↔
      ∃ x ∈ S.nodes, ¬ Forest.Under S.nodes (· ∈ clearedIds S config) x ∧
        mapKey (viewKey S.namespaces) x = v := by
  unfold Server.view
  rw [clear_namespaces, clear_nodes, Forest.deleteAll_eq_keep h.wf, List.mem_map]
  refine exists_congr fun x => ?_
  rw [Forest.mem_keep_iff h.wf, and_assoc]

/-! ## Every node of a generated configuration has its parent in it -/

/-- The parent of a variable node is an object node of the namespace, or its root. -/
def Anchored (ns : NamespaceJson) : Prop :=
  ∀ node ∈ ns.nodes, ∀ p, nonEmpty node.parentPath = some p →
    p ∈ keys (rootItems ns.name ++ objectItemsAll ns.name ns.objectNodes)

theorem mapKey_parent_mem {κ : Type} {key : String → κ} {x : Item String NodeClass} {l : List (Item κ NodeClass)}
    (h : ∀ p, x.parent = some p → key p ∈ keys l) : ∀ q, (mapKey key x).parent = some q → q ∈ keys l := by
  intro q hq
  obtain ⟨p, hp, rfl⟩ := Option.map_eq_some_iff.mp hq
  exact h p hp

section Closed
variable {κ : Type} [DecidableEq κ]

mutual
theorem closed_objectItems (key : String → κ) {parent : Option String} {l : List (Item κ NodeClass)}
    (hp : ∀ p, parent = some p → key p ∈ keys l) :
    (o : ObjectJson) → Forest.Closed ((objectItems parent o).map (mapKey key)) l
  | .mk none _ _ => by
      rw [objectItems]
      trivial
  | .mk (some name) path children => by
      rw [objectItems]
      have hparent := mapKey_parent_mem (x := ⟨path.getD name, parent, .object⟩) hp
      refine ⟨hparent, closed_objectItemsAll key (fun p hpath => ?_) children⟩
      rw [← Option.some.inj hpath]
      exact Forest.key_mem_add hparent

theorem closed_objectItemsAll (key : String → κ) {parent : Option String}
    {l : List (Item κ NodeClass)} (hp : ∀ p, parent = some p → key p ∈ keys l) :
    (os : List ObjectJson) → Forest.Closed ((objectItemsAll parent os).map (mapKey key)) l
  | [] => by
      rw [objectItemsAll]
      trivial
  | o :: os => by
      rw [objectItemsAll, List.map_append, Forest.closed_append]
      refine ⟨closed_objectItems key hp o, closed_objectItemsAll key (fun p hpar => ?_) os⟩
      exact Forest.keys_subset (Forest.subset_addAll _ _) (hp p hpar)
end

theorem closed_of_parents {xs l : List (Item κ NodeClass)}
    (h : ∀ x ∈ xs, ∀ p, x.parent = some p → p ∈ keys l) : Forest.Closed xs l := by
  induction xs generalizing l with
  | nil => trivial
  | cons x xs ih =>
      refine ⟨h x List.mem_cons_self, ih fun y hy p hp => ?_⟩
      exact Forest.keys_subset (Forest.subset_add l x) (h y (List.mem_cons_of_mem x hy) p hp)

theorem closed_namespaceItems (key : String → κ) (ua : Ua) {ns : NamespaceJson} (h : Anchored ns)
    (l : List (Item κ NodeClass)) : Forest.Closed ((namespaceItems ua ns).map (mapKey key)) l := by
  have hroot : Forest.Closed ((rootItems ns.name).map (mapKey key)) l := by
    cases ns.name with
    | none => trivial
    | some name => exact ⟨nofun, trivial⟩
  have hobjects : Forest.Closed ((objectItemsAll ns.name ns.objectNodes).map (mapKey key))
      (addAll ((rootItems ns.name).map (mapKey key)) l) := by
    refine closed_objectItemsAll key (fun p hp => ?_) ns.objectNodes
    have hmem : mapKey key ⟨p, none, .object⟩ ∈ (rootItems ns.name).map (mapKey key) := by
      rw [hp]
      exact List.mem_cons_self
    exact Forest.key_mem_addAll hroot hmem
  rw [namespaceItems, ← List.append_assoc, List.map_append, Forest.closed_append, List.map_append,
    Forest.closed_append, Forest.addAll_append]
  refine ⟨⟨hroot, hobjects⟩, closed_of_parents fun x hx => ?_⟩
  obtain ⟨y, hy, rfl⟩ := List.mem_map.mp hx
  obtain ⟨node, hnode, hy⟩ := List.mem_flatMap.mp hy
  refine mapKey_parent_mem fun p hp => ?_
  have hpath : nonEmpty node.parentPath = some p := by
    unfold variableItems at hy
    split at hy
    · split_ifs at hy
      · rw [List.mem_singleton.mp hy] at hp
        exact hp
      · exact absurd hy List.not_mem_nil
    · exact absurd hy List.not_mem_nil
  obtain ⟨z, hz, rfl⟩ := Forest.mem_keys.mp (h node hnode p hpath)
  rcases List.mem_append.mp hz with hz | hz
  · exact Forest.keys_subset (Forest.subset_addAll _ _)
      (Forest.key_mem_addAll hroot (List.mem_map_of_mem hz))
  · exact Forest.key_mem_addAll hobjects (List.mem_map_of_mem hz)

theorem closed_configItems (key : String → String → κ) (ua : Ua) {config : List NamespaceJson}
    (h : ∀ ns ∈ config, Anchored ns) (l : List (Item κ NodeClass)) :
    Forest.Closed (configItems key ua config) l := by
  induction config generalizing l with
  | nil => trivial
  | cons ns config ih =>
      rw [configItems, List.flatMap_cons, Forest.closed_append]
      refine ⟨?_, ih (fun ns' hns => h ns' (List.mem_cons_of_mem ns hns)) _⟩
      cases ns.uri with
      | none => trivial
      | some uri => exact closed_namespaceItems (key uri) ua (h ns List.mem_cons_self) l

end Closed

mutual
theorem keys_parseObjectNode (parent : Option String) : (o : Config.ObjectNodeConfig) →
    keys (objectItems parent (parseObjectNode o)) = o.paths.map cString
  | .mk name path children => by
      rw [parseObjectNode, objectItems, Config.ObjectNodeConfig.paths, List.map_cons,
        ← keys_parseObjectNodes (some (cString path)) children]
      rfl

theorem keys_parseObjectNodes (parent : Option String) : (os : List Config.ObjectNodeConfig) →
    keys (objectItemsAll parent (parseObjectNodes os)) = (Config.pathsAll os).map cString
  | [] => by
      rw [parseObjectNodes, objectItemsAll, Config.pathsAll]
      rfl
  | o :: os => by
      rw [parseObjectNodes, objectItemsAll, Config.pathsAll, List.map_append, Forest.keys_append,
        keys_parseObjectNode parent o, keys_parseObjectNodes parent os]
end

/-- The path of a parent is the name of the namespace, or the path of a row. -/
theorem parentPath_cases (rows : List ObjectNodeRow) (namespaceName : String) (node : NodeRow) :
    Config.parentPath rows namespaceName node = namespaceName ∨ ∃ r ∈ rows,
      Config.parentPath rows namespaceName node =
        Config.computeObjectNodePath r.id rows namespaceName := by
  unfold Config.parentPath
  cases node.objectNodeId with
  | none => exact Or.inl rfl
  | some id =>
      simp only
      split_ifs with hid
      · exact Or.inl rfl
      · by_cases hrow : ∃ r ∈ rows, r.id = id
        · obtain ⟨r, hr, rfl⟩ := hrow
          exact Or.inr ⟨r, hr, rfl⟩
        · have hparts : Config.pathParts rows rows.length id = [] := by
            cases rows.length with
            | zero => rfl
            | succ fuel =>
                have hfind : rows.find? (fun r => r.id = id) = none := by
                  simpa using fun r hr he => hrow ⟨r, hr, he⟩
                rw [Config.pathParts, if_neg hid, hfind]
          left
          rw [Config.computeObjectNodePath, hparts]
          exact String.intercalate_singleton

theorem anchored_parse (ops : List Operation) {config : List Config.NamespaceConfig}
    (h : Config.generate (reach ops) = some config) : ∀ ns ∈ parse config, Anchored ns := by
  intro ns hns node hnode p hp
  obtain ⟨c, hc, rfl⟩ := List.mem_map.mp hns
  obtain ⟨i, hi⟩ := List.mem_iff_getElem?.mp hc
  obtain ⟨row, -, hb⟩ := (Config.generate_entry h).mp hi
  obtain ⟨mappings, -, rfl⟩ := Config.buildNamespace_eq_some hb
  obtain ⟨nodeConfig, hnodeConfig, rfl⟩ := List.mem_map.mp hnode
  obtain ⟨r, -, rfl⟩ := List.mem_map.mp hnodeConfig
  set rows := Config.buildObjectNodeTree (reach ops) row.id
  obtain rfl : cString (Config.parentPath rows row.name r) = p :=
    Option.some.inj (Option.filter_eq_some_iff.mp hp).1
  show _ ∈ keys (rootItems (some (cString row.name)) ++ objectItemsAll (some (cString row.name))
    (parseObjectNodes (Config.toObjectNodeConfigs rows row.name)))
  rw [Forest.keys_append, keys_parseObjectNodes, List.mem_append]
  rcases parentPath_cases rows row.name r with he | ⟨q, hq, he⟩ <;> rw [he]
  · exact Or.inl List.mem_cons_self
  · right
    have hpaths := Config.paths_toObjectNodeConfigs (namespaceRows_nodup (reach_valid ops) row.id)
      (Config.buildObjectNodeTree_way ops row.id) row.name
    exact List.mem_map_of_mem (hpaths.mem_iff.mpr (List.mem_map_of_mem hq))

/-! ## A reload and a fresh start -/

/-- Every node of the server is at or below a node that the configuration has it clear, or is one that
the configuration describes: in the same namespace, with the same identifier, parent and data type. -/
def Covered (ua : Ua) (S : Server) (config : List NamespaceJson) : Prop :=
  ∀ x ∈ S.nodes, Forest.Under S.nodes (· ∈ clearedIds S config) x ∨
    mapKey (viewKey S.namespaces) x ∈ described ua config

theorem Server.Sound.view_handleReload {S : Server} (h : S.Sound) (ua : Ua)
    (config : List NamespaceJson) : (handleReload ua S config).view =
      addAll (configItems (fun uri identifier => (some uri, identifier)) ua config)
        (addressSpaceClear S config).view :=
  (h.clear config).view_build ua config

/-- The nodes after clearing and building are those that the configuration describes if and only if it covers those
that stood before. -/
theorem Server.Sound.covered_iff {S : Server} (hS : S.Sound) (ua : Ua) (ops : List Operation)
    {config : List Config.NamespaceConfig} (hc : Config.generate (reach ops) = some config) :
    (∀ v, v ∈ (handleReload ua S (parse config)).view ↔ v ∈ described ua (parse config)) ↔
      Covered ua S (parse config) := by
  have hclosed : Forest.Closed (configItems (fun uri identifier => (some uri, identifier)) ua
      (parse config)) [] := closed_configItems _ ua (anchored_parse ops hc) []
  rw [hS.view_handleReload]
  constructor
  · intro heq x hx
    by_cases hu : Forest.Under S.nodes (· ∈ clearedIds S (parse config)) x
    · exact Or.inl hu
    · right
      have hleft : mapKey (viewKey S.namespaces) x ∈ (addressSpaceClear S (parse config)).view :=
        (hS.mem_view_clear (parse config)).mpr ⟨x, hx, hu, rfl⟩
      exact (heq _).mp (Forest.subset_addAll _ _ hleft)
  · intro hcovered
    -- what is left after clearing is in the new configuration, so nothing gets in its way
    have hleft : (addressSpaceClear S (parse config)).view ⊆ described ua (parse config) := by
      intro v hv
      obtain ⟨x, hx, hu, rfl⟩ := (hS.mem_view_clear (parse config)).mp hv
      exact (hcovered x hx).resolve_left hu
    exact Forest.mem_addAll_iff .nil hclosed (fun _ => (or_iff_left List.not_mem_nil).symm) hleft

section Files
variable (cJsonParse : List UInt8 → Option Json) (ua : Ua)

/-- The server that has started on the first content of the file and then handled a reload for each pair of contents
that it read, one to parse it and one to clear the address space. -/
def serveFiles (applicationUri : String) (first : List UInt8)
    (later : List (Option (List UInt8) × Option (List UInt8))) : Option Server :=
  (configParseFile cJsonParse (some first)).map fun root =>
    later.foldl (fun S read => handleReloadFrom cJsonParse ua S read.1 read.2)
      (serverCreate ua applicationUri (readConfig root))

/-- The file is accepted and the configuration covers the nodes of the server, or it is refused and the server has
the nodes of the configuration already. -/
def ReloadsAsFresh (S : Server) (content : List UInt8) (config : List NamespaceJson) : Prop :=
  if (configParseFile cJsonParse (some content)).isSome then Covered ua S config
  else ∀ v, v ∈ S.view ↔ v ∈ described ua config

end Files

section Fresh
variable {cJsonParse : List UInt8 → Option Json}

theorem sound_serveFiles {ua : Ua} {applicationUri : String} {first : List UInt8}
    {later : List (Option (List UInt8) × Option (List UInt8))} {S : Server}
    (h : serveFiles cJsonParse ua applicationUri first later = some S) : S.Sound := by
  obtain ⟨root, -, rfl⟩ := Option.map_eq_some_iff.mp h
  refine List.foldlRecOn later _ ((sound_new applicationUri).build ua _) fun S hS read _ => ?_
  exact hS.handleReloadFrom read.1 read.2

/-- A server that has started and reloaded as often as one likes, over whatever files, reloads the file of a new
configuration: as the generator writes it, or with a content that cJSON refuses. It then has the nodes of a fresh
server if and only if the file is accepted and the configuration covers the nodes it had, or the file is refused and
it had these nodes already. -/
theorem reload_eq_fresh_iff (ua : Ua) {applicationUri : String} {first : List UInt8}
    {later : List (Option (List UInt8) × Option (List UInt8))} {S : Server}
    (hserve : serveFiles cJsonParse ua applicationUri first later = some S)
    (hparse : ∀ v : Json, v.Canonical → ∀ u, cJsonParse (Utf8.encode (Json.pretty 2 v).toList) = some u → u = v)
    {ops : List Operation} {env : Config.Env} {security : Option Config.SecurityConfigRow}
    {config : Config.AddressSpaceConfig} (hconfig : Config.addressSpaceConfig env ⟨reach ops, security⟩ = some config)
    {generatedAt : String} (hcanonical : (config.json generatedAt).Canonical) {content : List UInt8}
    (hcontent : content = Config.writeToFile generatedAt config ∨
      configParseFile cJsonParse (some content) = none) :
    (∀ v, v ∈ (handleReloadFrom cJsonParse ua S (some content) (some content)).view ↔
        v ∈ (serverCreate ua applicationUri (parse config.namespaces)).view) ↔
      ReloadsAsFresh cJsonParse ua S content (parse config.namespaces) := by
  rw [view_serverCreate, ReloadsAsFresh]
  cases hroot : configParseFile cJsonParse (some content) with
  | none =>
      rw [handleReloadFrom_none hroot]
      simp
  | some root =>
      have hwritten := hcontent.resolve_right (by rw [hroot]; exact Option.some_ne_none root)
      rw [hwritten] at hroot
      obtain rfl := configParseFile_of_reads hcanonical (hparse _ hcanonical) hroot
      obtain ⟨namespaces, hgen, rfl⟩ := Option.map_eq_some_iff.mp hconfig
      rw [hwritten, handleReloadFrom_some hroot, readConfig_json, Option.isSome_some, if_pos rfl]
      exact (sound_serveFiles hserve).covered_iff ua ops hgen

end Fresh

/-! ## A namespace that is emptied and one that is deleted -/

/-- A namespace with a folder and a variable in it. -/
def hallOps : List Operation :=
  [.createNamespace "n1" ⟨"Plant", none, "urn:plant"⟩, .createObjectNode "o1" ⟨"n1", none, "Hall"⟩,
   .createNode "v" ⟨some "level", some "n1", some "o1", some "Double", none, none⟩]

def hallConfig : List NamespaceJson := parse ((Config.generate (reach hallOps)).getD [])

/-- The configuration of a database without JSON values. -/
def generated (ops : List Operation) : Config.AddressSpaceConfig :=
  ⟨1, 4840, Config.noSecurity, (Config.generate (reach ops)).getD []⟩

/-- Its file. -/
def generatedFile (ops : List Operation) : List UInt8 := Config.writeToFile "2024-05-01T08:00:00.000Z" (generated ops)

def hallEnv : Config.Env := ⟨4840, id, fun _ => false⟩

theorem generated_fits {ops : List Operation} (hops : ∀ op ∈ ops, op.Values (Config.Fits 995))
    (hgen : Config.generate (reach ops) = some (generated ops).namespaces) :
    Config.addressSpaceConfig hallEnv ⟨reach ops, none⟩ = some (generated ops) ∧
      Config.Fits nestingLimit ((generated ops).json "2024-05-01T08:00:00.000Z") := by
  have hconfig : Config.addressSpaceConfig hallEnv ⟨reach ops, none⟩ = some (generated ops) := by
    rw [Config.addressSpaceConfig, hgen]
    rfl
  exact ⟨hconfig, Config.json_fits (Db.reach_values hops) (by decide) hconfig _⟩

section Generated
variable {ops : List Operation} (hops : ∀ op ∈ ops, op.Values (Config.Fits 995))
  (hgen : Config.generate (reach ops) = some (generated ops).namespaces)
include hops hgen

theorem configParseFile_generated : configParseFile readJson (some (generatedFile ops)) =
    some ((generated ops).json "2024-05-01T08:00:00.000Z") :=
  configParseFile_written readsJson_readJson (generated_fits hops hgen).2

theorem serveFiles_generated : serveFiles readJson acceptAll "urn:app" (generatedFile ops) [] =
    some (serverCreate acceptAll "urn:app" (parse (generated ops).namespaces)) := by
  rw [serveFiles, configParseFile_generated hops hgen, Option.map_some, List.foldl_nil, readConfig_json]

theorem handleReloadFrom_generated (S : Server) :
    handleReloadFrom readJson acceptAll S (some (generatedFile ops)) (some (generatedFile ops)) =
      handleReload acceptAll S (parse (generated ops).namespaces) := by
  rw [handleReloadFrom_some (configParseFile_generated hops hgen), readConfig_json]

end Generated

theorem hallOps_values : ∀ op ∈ hallOps, op.Values (Config.Fits 995) := by
  simp [hallOps, Operation.Values]

/-- The folder goes, and the variable stays in the root of the namespace. -/
def emptiedOps : List Operation := hallOps ++ [.deleteObjectNode "o1"]

theorem emptiedOps_values : ∀ op ∈ emptiedOps, op.Values (Config.Fits 995) :=
  List.forall_mem_append.mpr ⟨hallOps_values, by simp [Operation.Values]⟩

theorem deletedFolder_covered :
    ReloadsAsFresh readJson acceptAll (serverCreate acceptAll "urn:app" (parse (generated hallOps).namespaces))
      (generatedFile emptiedOps) (parse (generated emptiedOps).namespaces) := by
  have hops := emptiedOps_values
  obtain ⟨hconfig, hfits⟩ := generated_fits hops rfl
  refine (reload_eq_fresh_iff acceptAll (serveFiles_generated hallOps_values rfl)
    (fun v hv u hu => ?_) hconfig hfits.1 (Or.inl rfl)).mp fun v => ?_
  · rw [readJson_pretty 2 hv] at hu
    exact (Option.some.inj hu).symm
  · have heq : (handleReload acceptAll (serverCreate acceptAll "urn:app" (parse (generated hallOps).namespaces))
        (parse (generated emptiedOps).namespaces)).view =
          (serverCreate acceptAll "urn:app" (parse (generated emptiedOps).namespaces)).view := by
      decide
    show v ∈ (handleReloadFrom readJson acceptAll _ (some (generatedFile emptiedOps))
      (some (generatedFile emptiedOps))).view ↔ _
    rw [handleReloadFrom_generated hops rfl, heq]

/-- The namespace goes, with all that is in it. -/
def deletedOps : List Operation := hallOps ++ [.deleteNamespace "n1"]

/-- The namespace is deleted: its nodes stay, since the new configuration does not name it. -/
theorem deletedNamespace_stays :
    Config.addressSpaceConfig hallEnv ⟨reach deletedOps, none⟩ = some (generated deletedOps) ∧
    ∃ S, serveFiles readJson acceptAll "urn:app" (generatedFile hallOps) [] = some S ∧
      ¬ ∀ v, v ∈ (handleReloadFrom readJson acceptAll S (some (generatedFile deletedOps))
          (some (generatedFile deletedOps))).view ↔
        v ∈ (serverCreate acceptAll "urn:app" (parse (generated deletedOps).namespaces)).view := by
  have hops : ∀ op ∈ deletedOps, op.Values (Config.Fits 995) :=
    List.forall_mem_append.mpr ⟨hallOps_values, by simp [Operation.Values]⟩
  refine ⟨(generated_fits hops rfl).1, _, serveFiles_generated hallOps_values rfl, fun h => ?_⟩
  rw [handleReloadFrom_generated hops rfl] at h
  have hroot : ⟨(some "urn:plant", "Plant"), none, .object⟩ ∈
      (serverCreate acceptAll "urn:app" (parse (generated deletedOps).namespaces)).view := by
    rw [← h]
    decide
  exact absurd hroot List.not_mem_nil

end OpcuaLight.Runtime
