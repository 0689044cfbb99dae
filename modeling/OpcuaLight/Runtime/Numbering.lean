import OpcuaLight.Api.AddressSpace
import OpcuaLight.Lib.Intern
import OpcuaLight.Runtime.AddressSpace

/-!
# The two numberings of the namespaces

The generator numbers the namespaces by their names, the runtime by the order in which it has seen their
URIs. `nodeIds_agree_iff`: the ids that the configuration names and the ids of the nodes are the same if
and only if, for every namespace that has variable nodes, the two numbers are (and fit in a node id).
-/

namespace OpcuaLight.Runtime

open Db
open Config (NamespaceConfig generate namespaceRows nodeRows)
open Intern (intern internAll)

/-! ## The namespace table -/

theorem addNamespace_namespaces (S : Server) (uri : String) :
    (S.addNamespace uri).1.namespaces = intern S.namespaces uri := by
  unfold Server.addNamespace intern
  split <;> rfl

theorem addNamespace_index (S : Server) (uri : String) :
    (S.addNamespace uri).2 = (intern S.namespaces uri).idxOf uri := by
  by_cases h : uri ∈ S.namespaces
  · rw [Intern.idxOf_intern h, Server.addNamespace, if_pos h]
  · rw [Intern.idxOf_intern_self h, Server.addNamespace, if_neg h]

mutual
theorem createObjectNode_namespaces (nsIndex : Nat) (parent : Option NodeId) (S : Server) :
    (o : ObjectJson) → (createObjectNode nsIndex parent S o).namespaces = S.namespaces
  | .mk none _ _ => by rw [createObjectNode]
  | .mk (some name) path children => by
      rw [createObjectNode]
      exact createObjectNodesRecursive_namespaces nsIndex _ _ children

theorem createObjectNodesRecursive_namespaces (nsIndex : Nat) (parent : Option NodeId) (S : Server) :
    (os : List ObjectJson) →
      (createObjectNodesRecursive nsIndex parent S os).namespaces = S.namespaces
  | [] => by rw [createObjectNodesRecursive]
  | o :: os => by
      rw [createObjectNodesRecursive, createObjectNodesRecursive_namespaces nsIndex parent _ os]
      exact createObjectNode_namespaces nsIndex parent S o
end

theorem createVariableNode_namespaces (ua : Ua) (nsIndex : Nat) (S : Server) (node : VariableJson) :
    (createVariableNode ua nsIndex S node).namespaces = S.namespaces := by
  unfold createVariableNode
  split
  · exact Server.addVariableNode_namespaces ..
  · rfl

theorem createNamespaceRoot_namespaces (nsIndex : Nat) (S : Server) (name : Option String) :
    (createNamespaceRoot nsIndex S name).namespaces = S.namespaces := by
  cases name <;> rfl

theorem foldl_namespaces {α : Type} {f : Server → α → Server}
    (hf : ∀ S a, (f S a).namespaces = S.namespaces) (S : Server) (l : List α) :
    (l.foldl f S).namespaces = S.namespaces := by
  induction l generalizing S with
  | nil => rfl
  | cons a l ih =>
      show (l.foldl f (f S a)).namespaces = S.namespaces
      rw [ih, hf]

/-- The URIs that a configuration registers, in its order. -/
def uris (config : List NamespaceJson) : List String := config.filterMap (fun ns => ns.uri)

theorem buildNamespace_eq (ua : Ua) (S : Server) {ns : NamespaceJson} {uri : String}
    (hu : ns.uri = some uri) : buildNamespace ua S ns =
      ns.nodes.foldl (createVariableNode ua (S.addNamespace uri).2)
        (createObjectNodesRecursive (S.addNamespace uri).2 (ns.name.map (NodeId.mk (S.addNamespace uri).2))
          (createNamespaceRoot (S.addNamespace uri).2 (S.addNamespace uri).1 ns.name)
          ns.objectNodes) := by
  unfold buildNamespace
  rw [hu]

theorem buildNamespace_namespaces (ua : Ua) (S : Server) (ns : NamespaceJson) :
    (buildNamespace ua S ns).namespaces = internAll S.namespaces (uris [ns]) := by
  cases hu : ns.uri with
  | none => simp [buildNamespace, uris, hu]
  | some uri =>
      rw [buildNamespace_eq ua S hu, foldl_namespaces (createVariableNode_namespaces ua _),
        createObjectNodesRecursive_namespaces, createNamespaceRoot_namespaces, addNamespace_namespaces]
      simp [uris, hu]

theorem build_namespaces (ua : Ua) (S : Server) (config : List NamespaceJson) :
    (addressSpaceBuild ua S config).namespaces = internAll S.namespaces (uris config) := by
  induction config generalizing S with
  | nil => rfl
  | cons ns config ih =>
      show (addressSpaceBuild ua (buildNamespace ua S ns) config).namespaces = _
      rw [ih, buildNamespace_namespaces, ← Intern.internAll_append]
      congr 1
      exact (List.filterMap_append (l := [ns])).symm

mutual
theorem deleteObjectNode_namespaces (nsIndex : Nat) (S : Server) :
    (o : ObjectJson) → (deleteObjectNode nsIndex S o).namespaces = S.namespaces
  | .mk _ none children => by
      rw [deleteObjectNode]
      exact deleteObjectNodesRecursive_namespaces nsIndex S children
  | .mk _ (some path) children => by
      rw [deleteObjectNode, Server.deleteNode_namespaces]
      exact deleteObjectNodesRecursive_namespaces nsIndex S children

theorem deleteObjectNodesRecursive_namespaces (nsIndex : Nat) (S : Server) :
    (os : List ObjectJson) → (deleteObjectNodesRecursive nsIndex S os).namespaces = S.namespaces
  | [] => by rw [deleteObjectNodesRecursive]
  | o :: os => by
      rw [deleteObjectNodesRecursive, deleteObjectNodesRecursive_namespaces nsIndex _ os]
      exact deleteObjectNode_namespaces nsIndex S o
end

theorem deleteVariableNode_namespaces (S : Server) (node : VariableJson) :
    (deleteVariableNode S node).namespaces = S.namespaces := by
  unfold deleteVariableNode
  split <;> rfl

theorem clearNamespace_namespaces (S : Server) (ns : NamespaceJson) :
    (clearNamespace S ns).namespaces = S.namespaces := by
  unfold clearNamespace
  split
  · rfl
  · rename_i nsIndex _
    have hbelow : (deleteObjectNodesRecursive nsIndex (ns.nodes.foldl deleteVariableNode S)
        ns.objectNodes).namespaces = S.namespaces := by
      rw [deleteObjectNodesRecursive_namespaces, foldl_namespaces deleteVariableNode_namespaces]
    cases ns.name with
    | none => exact hbelow
    | some name => exact hbelow

theorem clear_namespaces (S : Server) (config : List NamespaceJson) :
    (addressSpaceClear S config).namespaces = S.namespaces :=
  foldl_namespaces clearNamespace_namespaces S config

theorem serve_namespaces (ua : Ua) (applicationUri : String) (first : List NamespaceJson)
    (later : List (List NamespaceJson)) :
    (serve ua applicationUri first later).namespaces =
      internAll (Server.new applicationUri).namespaces ((first :: later).flatMap uris) := by
  induction later using List.reverseRecOn with
  | nil =>
      show (addressSpaceBuild ua _ first).namespaces = _
      rw [build_namespaces, List.flatMap_cons, List.flatMap_nil, List.append_nil]
  | append_singleton later config ih =>
      rw [serve, List.foldl_append]
      show (handleReload ua (serve ua applicationUri first later) config).namespaces = _
      rw [handleReload, build_namespaces, clear_namespaces, ih, ← Intern.internAll_append,
        ← List.cons_append, List.flatMap_append, List.flatMap_singleton]

/-! ## The texts of the ids -/

theorem toList_nodeIdString (index : Nat) (path name : String) :
    (Config.nodeIdString index path name).toList = nodeIdText index (path.toList ++ '.' :: name.toList) := by
  simp only [Config.nodeIdString, toString, String.toList_append, nodeIdText, Nat.toList_repr,
    List.append_assoc]
  rfl

theorem takeWhile_nodeIdText (index : Nat) (identifier : List Char) :
    (nodeIdText index identifier).takeWhile (· ≠ '\x00') =
      nodeIdText index (identifier.takeWhile (· ≠ '\x00')) := by
  have hdigits : ∀ c ∈ Nat.toDigits 10 index, decide (c ≠ '\x00') = true := fun c hc => by
    have hd := Nat.isDigit_of_mem_toDigits (by decide) (by decide) hc
    rw [decide_eq_true_eq]
    rintro rfl
    exact absurd hd (by decide)
  have hns : ∀ c ∈ "ns=".toList, decide (c ≠ '\x00') = true := by simp
  have hs : ∀ c ∈ ";s=".toList, decide (c ≠ '\x00') = true := by simp
  unfold nodeIdText
  rw [List.takeWhile_append_of_pos hns, List.takeWhile_append_of_pos hdigits,
    List.takeWhile_append_of_pos hs]

/-- The identifier of a node starts with the name of its namespace and a dot. -/
theorem parentPath_eq (rows : List ObjectNodeRow) (namespaceName : String) (node : NodeRow) :
    ∃ rest, (Config.parentPath rows namespaceName node).toList ++ '.' :: node.name.toList =
      namespaceName.toList ++ '.' :: rest := by
  have hpath : ∀ id, ∃ rest, (Config.computeObjectNodePath id rows namespaceName).toList ++
      '.' :: node.name.toList = namespaceName.toList ++ '.' :: rest := by
    intro id
    unfold Config.computeObjectNodePath Config.join
    cases Config.pathParts rows rows.length id with
    | nil => exact ⟨node.name.toList, by rw [String.intercalate_singleton]⟩
    | cons part parts =>
        refine ⟨(String.intercalate "." (part :: parts)).toList ++ '.' :: node.name.toList, ?_⟩
        rw [String.intercalate_cons_of_ne_nil (List.cons_ne_nil part parts)]
        simp
  unfold Config.parentPath
  split
  · exact ⟨node.name.toList, rfl⟩
  · split_ifs
    · exact ⟨node.name.toList, rfl⟩
    · exact hpath _

theorem takeWhile_eq_nil_iff (name rest : List Char) :
    (name ++ '.' :: rest).takeWhile (· ≠ '\x00') = [] ↔ name.head? = some '\x00' := by
  cases name with
  | nil => simp
  | cons c name =>
      by_cases hc : c = '\x00'
      · simp [hc]
      · simp [hc]

/-- The parser and the creation of a node make one id of a string of the generator if and only if the
index is the registered one, fits in a node id, and the identifier is not empty. -/
theorem nodeId_agrees_iff (index nsIndex : Nat) (path nodeName name : String) :
    parseNodeIdString (cString (Config.nodeIdString index path nodeName)) =
        some (variableNodeId nsIndex (some (cString (Config.nodeIdString index path nodeName))) name) ↔
      nsIndex = index ∧ index ≤ 65535 ∧
        (path.toList ++ '.' :: nodeName.toList).takeWhile (· ≠ '\x00') ≠ [] := by
  have htext : cString (Config.nodeIdString index path nodeName) = String.ofList (nodeIdText index
      ((path.toList ++ '.' :: nodeName.toList).takeWhile (· ≠ '\x00'))) := by
    rw [cString, toList_nodeIdString, takeWhile_nodeIdText]
  rw [htext]
  generalize (path.toList ++ '.' :: nodeName.toList).takeWhile (· ≠ '\x00') = identifier
  have hne : nonEmpty (some (String.ofList (nodeIdText index identifier))) =
      some (String.ofList (nodeIdText index identifier)) := by
    rw [nonEmpty, Option.filter_some, if_pos]
    rw [decide_eq_true_eq]
    intro he
    have hnil := congrArg String.toList he
    rw [String.toList_ofList] at hnil
    exact absurd hnil (by simp [nodeIdText])
  rw [parse_nodeIdText]
  split_ifs with hbad
  · refine ⟨fun h => (by cases h), fun h => ?_⟩
    rcases hbad with hbad | hbad
    · exact absurd h.2.1 (Nat.not_le.mpr hbad)
    · exact absurd hbad h.2.2
  · rw [not_or] at hbad
    have hid : variableIdentifier (some (String.ofList (nodeIdText index identifier))) name =
        String.ofList identifier := by
      have hrest : (strstr ";s=".toList (String.ofList (nodeIdText index identifier)).toList).getD [] =
          identifier := by
        rw [show (String.ofList (nodeIdText index identifier)).toList = nodeIdText index identifier from
          String.toList_ofList, strstr_nodeIdText]
        rfl
      unfold variableIdentifier
      rw [hne]
      simp only [parse_nodeIdText, if_neg (not_or.mpr hbad), Option.isSome_some, if_true, hrest]
    rw [variableNodeId, hid, Option.some_inj, NodeId.mk.injEq]
    constructor
    · rintro ⟨hi, -⟩
      exact ⟨hi.symm, Nat.not_lt.mp hbad.1, hbad.2⟩
    · rintro ⟨hi, -⟩
      exact ⟨hi.symm, rfl⟩

/-! ## The ids of a configuration -/

/-- The server when it builds a configuration: new, or with the nodes of the last one cleared. -/
def beforeBuild (ua : Ua) (applicationUri : String) (earlier : List (List NamespaceJson))
    (config : List NamespaceJson) : Server :=
  match earlier with
  | [] => Server.new applicationUri
  | first :: later => addressSpaceClear (serve ua applicationUri first later) config

/-- Every variable node is created under the id that the parser makes of its `nodeId`. The index that
its namespace gets is the one of the server that has built the namespaces before it. -/
def NodeIdsAgree (ua : Ua) (S : Server) (config : List NamespaceJson) : Prop :=
  ∀ pre ns post uri node name, config = pre ++ ns :: post → ns.uri = some uri → node ∈ ns.nodes →
    node.name = some name → node.nodeId.bind parseNodeIdString =
      some (variableNodeId ((addressSpaceBuild ua S pre).addNamespace uri).2 node.nodeId name)

/-- The URIs in the order in which the runtime has seen them. -/
def registered (applicationUri : String) (states : List Tables) : List String :=
  internAll (Server.new applicationUri).namespaces
    (states.flatMap (fun t => (namespaceRows t).map (fun ns => cString ns.uri)))

/-- A namespace with variable nodes has the number of its place by name, and its name does not start
with a NUL. -/
def NumbersAgree (uris : List String) (t : Tables) : Prop :=
  ∀ i ns, (namespaceRows t)[i]? = some ns → (∃ node ∈ t.nodes, node.namespaceId = ns.id) →
    uris.idxOf (cString ns.uri) = i + 2 ∧ i + 2 ≤ 65535 ∧ ns.name.toList.head? ≠ some '\x00'

theorem uris_parse {t : Tables} {config : List NamespaceConfig} (h : generate t = some config) :
    uris (parse config) = (namespaceRows t).map (fun ns => cString ns.uri) := by
  have hmap : uris (parse config) = (config.map (fun c => c.uri)).map cString := by
    rw [uris, parse, List.filterMap_map, List.map_map, ← List.filterMap_eq_map]
    rfl
  rw [hmap, Config.generate_uris h, List.map_map]
  rfl

theorem uris_parse_all {states : List Tables} {configs : List (List NamespaceConfig)}
    (h : states.mapM generate = some configs) :
    (configs.map parse).flatMap uris =
      states.flatMap (fun t => (namespaceRows t).map (fun ns => cString ns.uri)) := by
  induction states generalizing configs with
  | nil =>
      rw [← Option.some.inj h]
      rfl
  | cons t states ih =>
      rw [List.mapM_cons] at h
      obtain ⟨c, hc, h⟩ := Option.bind_eq_some_iff.mp h
      obtain ⟨cs, hcs, h⟩ := Option.bind_eq_some_iff.mp h
      rw [← Option.some.inj h, List.map_cons, List.flatMap_cons, List.flatMap_cons, uris_parse hc, ih hcs]

theorem beforeBuild_namespaces (ua : Ua) (applicationUri : String)
    (earlier : List (List NamespaceJson)) (config : List NamespaceJson) :
    (beforeBuild ua applicationUri earlier config).namespaces =
      internAll (Server.new applicationUri).namespaces (earlier.flatMap uris) := by
  cases earlier with
  | nil => rfl
  | cons first later =>
      show (addressSpaceClear _ config).namespaces = _
      rw [clear_namespaces, serve_namespaces]

/-- The index of a namespace is its number in the table that the whole build leaves. -/
theorem addNamespace_build_index (ua : Ua) (S : Server) (pre post : List NamespaceJson)
    {ns : NamespaceJson} {uri : String} (hu : ns.uri = some uri) :
    ((addressSpaceBuild ua S pre).addNamespace uri).2 =
      (internAll S.namespaces (uris (pre ++ ns :: post))).idxOf uri := by
  have hsplit : uris (pre ++ ns :: post) = uris pre ++ uri :: uris post := by
    simp [uris, hu]
  rw [addNamespace_index, build_namespaces, hsplit, Intern.internAll_append, Intern.internAll_cons,
    Intern.idxOf_internAll (Intern.mem_intern.mpr (Or.inr rfl))]

theorem node_agrees_iff (rows : List ObjectNodeRow) (namespaceName : String) (index nsIndex : Nat)
    (node : NodeRow) (name : String) {nodeId : Option String}
    (h : nodeId = some (cString (Config.nodeIdString index (Config.parentPath rows namespaceName node)
      node.name))) :
    nodeId.bind parseNodeIdString = some (variableNodeId nsIndex nodeId name) ↔
      nsIndex = index ∧ index ≤ 65535 ∧ namespaceName.toList.head? ≠ some '\x00' := by
  obtain ⟨rest, hrest⟩ := parentPath_eq rows namespaceName node
  rw [h, Option.bind_some, nodeId_agrees_iff, hrest, Ne, takeWhile_eq_nil_iff]

theorem split_getElem? {α : Type} {l : List α} {i : Nat} {a : α} (h : l[i]? = some a) :
    ∃ pre post, l = pre ++ a :: post ∧ pre.length = i := by
  obtain ⟨hi, ha⟩ := List.getElem?_eq_some_iff.mp h
  refine ⟨l.take i, l.drop (i + 1), ?_, List.length_take_of_le (Nat.le_of_lt hi)⟩
  rw [← ha, List.getElem_cons_drop, List.take_append_drop]

theorem parse_split {config pre post : List NamespaceConfig} {c : NamespaceConfig}
    (h : config = pre ++ c :: post) : parse config = parse pre ++ parseNamespace c :: parse post := by
  rw [h, parse, List.map_append, List.map_cons]
  rfl

/-- The ids agree if and only if the numbers do. -/
theorem nodeIds_agree_iff (ua : Ua) (applicationUri : String) {earlier : List Tables} {t : Tables}
    {configs : List (List NamespaceConfig)} {config : List NamespaceConfig}
    (he : earlier.mapM generate = some configs) (hc : generate t = some config) :
    NodeIdsAgree ua (beforeBuild ua applicationUri (configs.map parse) (parse config)) (parse config) ↔
      NumbersAgree (registered applicationUri (earlier ++ [t])) t := by
  set S := beforeBuild ua applicationUri (configs.map parse) (parse config)
  have htable : registered applicationUri (earlier ++ [t]) =
      internAll S.namespaces (uris (parse config)) := by
    rw [beforeBuild_namespaces, uris_parse_all he, uris_parse hc, ← Intern.internAll_append,
      registered, List.flatMap_append, List.flatMap_singleton]
  rw [htable]
  constructor
  · rintro hagree i ns hns ⟨node, hnode, hid⟩
    have hi := Config.generate_getElem? hc i
    rw [hns, Option.map_some] at hi
    obtain ⟨c, hci, hb⟩ := Option.map_eq_some_iff.mp hi
    obtain ⟨mappings, -, hcdef⟩ := Config.buildNamespace_eq_some hb.symm
    obtain ⟨pre, post, hsplit, rfl⟩ := split_getElem? hci
    have hparse := parse_split hsplit
    have huri : (parseNamespace c).uri = some (cString ns.uri) := by
      rw [hcdef]
      rfl
    have hmem : parseNode (Config.toNodeConfig (Config.buildObjectNodeTree t ns.id) mappings ns.name
        (pre.length + 2) node) ∈ (parseNamespace c).nodes := by
      rw [hcdef]
      exact List.mem_map_of_mem (List.mem_map_of_mem (Config.mem_nodeRows.mpr ⟨hnode, hid⟩))
    have hids := hagree _ _ _ _ _ _ hparse huri hmem rfl
    rw [addNamespace_build_index ua S _ (parse post) huri, ← hparse] at hids
    exact (node_agrees_iff _ _ _ _ _ _ rfl).mp hids
  · intro hnumbers pre entry post uri node name hsplit huri hnode hname
    rw [addNamespace_build_index ua S pre post huri, ← hsplit]
    have hget : (parse config)[pre.length]? = some entry := by
      rw [hsplit, List.getElem?_append_right (Nat.le_refl _), Nat.sub_self]
      rfl
    rw [parse, List.getElem?_map] at hget
    obtain ⟨c, hci, rfl⟩ := Option.map_eq_some_iff.mp hget
    obtain ⟨ns, hns, hb⟩ := (Config.generate_entry hc).mp hci
    obtain ⟨mappings, -, rfl⟩ := Config.buildNamespace_eq_some hb
    obtain ⟨nodeConfig, hnodeConfig, rfl⟩ := List.mem_map.mp hnode
    obtain ⟨row, hrow, rfl⟩ := List.mem_map.mp hnodeConfig
    have hnum := hnumbers pre.length ns hns ⟨row, Config.mem_nodeRows.mp hrow⟩
    rw [← Option.some.inj huri]
    exact (node_agrees_iff _ _ _ _ row name rfl).mpr hnum

/-! ## A namespace that comes before another by name, and after it in time -/

/-- A library that lets every value pass. -/
def acceptAll : Ua := ⟨fun _ _ => true, fun _ _ => true⟩

/-- One namespace with a variable node. -/
def onlyBoiler : Tables := Api.handleAll (.empty true)
  [.postNamespace "b" ⟨some "Boiler", none, some "urn:boiler"⟩,
   .postNode "n" ⟨some "level", some "b", none, some "Double", none, none⟩]

/-- A namespace is created whose name comes first. -/
def withArea : Tables := Api.handleAll onlyBoiler
  [.postNamespace "a" ⟨some "Area", none, some "urn:area"⟩]

theorem nodeIds_agree_addedNamespace : ∃ c₀ c₁, generate onlyBoiler = some c₀ ∧ generate withArea = some c₁ ∧
    (NodeIdsAgree acceptAll (beforeBuild acceptAll "urn:app" [parse c₀] (parse c₁)) (parse c₁) ↔
      NumbersAgree (registered "urn:app" [onlyBoiler, withArea]) withArea) := by
  have h₀ : generate onlyBoiler = some ((generate onlyBoiler).getD []) := rfl
  have h₁ : generate withArea = some ((generate withArea).getD []) := rfl
  have hearlier : [onlyBoiler].mapM generate = some [(generate onlyBoiler).getD []] := rfl
  exact ⟨_, _, h₀, h₁, nodeIds_agree_iff acceptAll "urn:app" hearlier h₁⟩

/-- The configuration calls the old namespace 3, and the runtime has it as 2. -/
theorem insertedNamespace_disagrees : ∃ c₀ c₁, generate onlyBoiler = some c₀ ∧
    generate withArea = some c₁ ∧
    ¬ NodeIdsAgree acceptAll (beforeBuild acceptAll "urn:app" [parse c₀] (parse c₁)) (parse c₁) := by
  refine ⟨(generate onlyBoiler).getD [], (generate withArea).getD [], rfl, rfl, fun h => ?_⟩
  have hids := h ((parse ((generate withArea).getD [])).take 1) _ [] "urn:boiler" _ "level" rfl rfl
    List.mem_cons_self rfl
  revert hids
  decide

end OpcuaLight.Runtime
