import OpcuaLight.Runtime.Numbering

/-!
# The nodes that a configuration describes

Building a configuration adds a list of items, and clearing one deletes a list of ids. The items of a
namespace go by their identifiers (`namespaceItems`); the server has them under the registered index
(`build_nodes`), and a client under the URI of the namespace (`Server.view`, `view_build`).
-/

namespace OpcuaLight.Runtime

open Forest (addAll deleteAll keys mapKey)

/-! ## The items of a namespace -/

mutual
/-- An object node and what is below it. -/
def objectItems (parent : Option String) : ObjectJson → List (Item String NodeClass)
  | .mk none _ _ => []
  | .mk (some name) path children =>
      ⟨path.getD name, parent, .object⟩ :: objectItemsAll (some (path.getD name)) children

def objectItemsAll (parent : Option String) : List ObjectJson → List (Item String NodeClass)
  | [] => []
  | o :: os => objectItems parent o ++ objectItemsAll parent os
end

/-- A variable node, if its value passes. -/
def variableItems (ua : Ua) (node : VariableJson) : List (Item String NodeClass) :=
  match node.name, node.dataType with
  | some name, some dataType =>
      if ua.addAccepts (getDataTypeId dataType) (createInitialValue dataType node.initialValue) then
        [⟨variableIdentifier node.nodeId name, nonEmpty node.parentPath,
          .variable (getDataTypeId dataType)⟩]
      else []
  | _, _ => []

def rootItems (name : Option String) : List (Item String NodeClass) :=
  name.toList.map (fun name => ⟨name, none, .object⟩)

def namespaceItems (ua : Ua) (ns : NamespaceJson) : List (Item String NodeClass) :=
  rootItems ns.name ++ (objectItemsAll ns.name ns.objectNodes ++ ns.nodes.flatMap (variableItems ua))

/-- The items of a configuration, with the keys that URIs and identifiers make. -/
def configItems {κ : Type} (key : String → String → κ) (ua : Ua) (config : List NamespaceJson) :
    List (Item κ NodeClass) :=
  config.flatMap (fun ns => ns.uri.elim [] (fun uri => (namespaceItems ua ns).map (mapKey (key uri))))

/-- The keys of an item are made of the URI of its namespace. -/
theorem configItems_keys {κ : Type} {key : String → String → κ} {ua : Ua} {config : List NamespaceJson}
    {x : Item κ NodeClass} (hx : x ∈ configItems key ua config) : ∃ uri ∈ uris config,
      (∃ identifier, x.key = key uri identifier) ∧
        ∀ p, x.parent = some p → ∃ identifier, p = key uri identifier := by
  obtain ⟨ns, hns, hx⟩ := List.mem_flatMap.mp hx
  cases hu : ns.uri with
  | none =>
      rw [hu] at hx
      exact absurd hx List.not_mem_nil
  | some uri =>
      rw [hu] at hx
      obtain ⟨y, -, rfl⟩ := List.mem_map.mp hx
      refine ⟨uri, List.mem_filterMap.mpr ⟨ns, hns, hu⟩, ⟨y.key, rfl⟩, fun p hp => ?_⟩
      obtain ⟨q, -, rfl⟩ := Option.map_eq_some_iff.mp hp
      exact ⟨q, rfl⟩

theorem mapKey_mapKey {κ κ' δ : Type} (f : κ → κ') (g : String → κ) (x : Item String δ) :
    mapKey f (mapKey g x) = mapKey (fun identifier => f (g identifier)) x := by
  unfold mapKey
  rw [Option.map_map]
  rfl

/-- Renaming the keys, where the renaming takes the one key to the other. -/
theorem configItems_map {κ κ' : Type} {key : String → String → κ} {key' : String → String → κ'}
    {f : κ → κ'} {config : List NamespaceJson}
    (hf : ∀ uri ∈ uris config, ∀ identifier, f (key uri identifier) = key' uri identifier) (ua : Ua) :
    (configItems key ua config).map (mapKey f) = configItems key' ua config := by
  unfold configItems
  rw [List.map_flatMap]
  apply List.flatMap_congr
  intro ns hns
  cases hu : ns.uri with
  | none => rfl
  | some uri =>
      have hkey : (fun identifier => f (key uri identifier)) = key' uri :=
        funext (hf uri (List.mem_filterMap.mpr ⟨ns, hns, hu⟩))
      rw [Option.elim_some, Option.elim_some, List.map_map, ← hkey]
      apply List.map_congr_left
      intro x _
      exact mapKey_mapKey f (key uri) x

/-! ## What building adds -/

theorem addAll_cons (x : Item NodeId NodeClass) (xs l : List (Item NodeId NodeClass)) :
    addAll (x :: xs) l = addAll xs (Forest.add l x) := rfl

mutual
theorem createObjectNode_nodes (nsIndex : Nat) (parent : Option String) (S : Server) :
    (o : ObjectJson) → (createObjectNode nsIndex (parent.map (NodeId.mk nsIndex)) S o).nodes =
      addAll ((objectItems parent o).map (mapKey (NodeId.mk nsIndex))) S.nodes
  | .mk none _ _ => by
      rw [createObjectNode, objectItems]
      rfl
  | .mk (some name) path children => by
      rw [createObjectNode, objectItems, List.map_cons, addAll_cons]
      exact createObjectNodesRecursive_nodes nsIndex (some (path.getD name)) _ children

theorem createObjectNodesRecursive_nodes (nsIndex : Nat) (parent : Option String) (S : Server) :
    (os : List ObjectJson) →
      (createObjectNodesRecursive nsIndex (parent.map (NodeId.mk nsIndex)) S os).nodes =
        addAll ((objectItemsAll parent os).map (mapKey (NodeId.mk nsIndex))) S.nodes
  | [] => by
      rw [createObjectNodesRecursive, objectItemsAll]
      rfl
  | o :: os => by
      rw [createObjectNodesRecursive, objectItemsAll, List.map_append, Forest.addAll_append,
        createObjectNodesRecursive_nodes nsIndex parent _ os, createObjectNode_nodes nsIndex parent S o]
end

theorem createVariableNode_nodes (ua : Ua) (nsIndex : Nat) (S : Server) (node : VariableJson) :
    (createVariableNode ua nsIndex S node).nodes =
      addAll ((variableItems ua node).map (mapKey (NodeId.mk nsIndex))) S.nodes := by
  unfold createVariableNode variableItems Server.addVariableNode
  cases node.name with
  | none => rfl
  | some name =>
      cases node.dataType with
      | none => rfl
      | some dataType =>
          show (if _ then _ else _ : Server).nodes = addAll (List.map _ (if _ then _ else _)) _
          split_ifs <;> rfl

theorem createVariableNodes_nodes (ua : Ua) (nsIndex : Nat) (S : Server) (nodes : List VariableJson) :
    (nodes.foldl (createVariableNode ua nsIndex) S).nodes =
      addAll ((nodes.flatMap (variableItems ua)).map (mapKey (NodeId.mk nsIndex))) S.nodes := by
  induction nodes generalizing S with
  | nil => rfl
  | cons node nodes ih =>
      show (nodes.foldl _ (createVariableNode ua nsIndex S node)).nodes = _
      rw [ih, createVariableNode_nodes, List.flatMap_cons, List.map_append, Forest.addAll_append]

theorem createNamespaceRoot_nodes (nsIndex : Nat) (S : Server) (name : Option String) :
    (createNamespaceRoot nsIndex S name).nodes =
      addAll ((rootItems name).map (mapKey (NodeId.mk nsIndex))) S.nodes := by
  cases name <;> rfl

theorem buildNamespace_nodes (ua : Ua) (S : Server) {ns : NamespaceJson} {uri : String}
    (hu : ns.uri = some uri) : (buildNamespace ua S ns).nodes =
      addAll ((namespaceItems ua ns).map (mapKey (NodeId.mk (S.addNamespace uri).2))) S.nodes := by
  rw [buildNamespace_eq ua S hu, createVariableNodes_nodes, createObjectNodesRecursive_nodes,
    createNamespaceRoot_nodes, Server.addNamespace_nodes, namespaceItems, List.map_append,
    List.map_append, Forest.addAll_append, Forest.addAll_append]

/-- Building adds the items of the configuration under the indices that its URIs have in the end. -/
theorem build_nodes (ua : Ua) (S : Server) (config : List NamespaceJson) :
    (addressSpaceBuild ua S config).nodes = addAll (configItems (fun uri =>
      NodeId.mk ((addressSpaceBuild ua S config).namespaces.idxOf uri)) ua config) S.nodes := by
  induction config generalizing S with
  | nil => rfl
  | cons ns config ih =>
      have hcons : addressSpaceBuild ua S (ns :: config) =
        addressSpaceBuild ua (buildNamespace ua S ns) config := rfl
      cases hu : ns.uri with
      | none =>
          have hsame : buildNamespace ua S ns = S := by
            unfold buildNamespace
            rw [hu]
          rw [hcons, hsame, ih, configItems, configItems, List.flatMap_cons, hu]
          rfl
      | some uri =>
          have hindex : (S.addNamespace uri).2 =
              (addressSpaceBuild ua S (ns :: config)).namespaces.idxOf uri := by
            rw [build_namespaces]
            exact addNamespace_build_index ua S [] config hu
          rw [hcons, ih, buildNamespace_nodes ua S hu, hindex, configItems, configItems,
            List.flatMap_cons, hu, Option.elim_some, Forest.addAll_append]
          rfl

/-! ## What clearing deletes -/

mutual
/-- The paths of an object node and of what is below it, which goes first. -/
def objectPaths : ObjectJson → List String
  | .mk _ path children => objectPathsAll children ++ path.toList

def objectPathsAll : List ObjectJson → List String
  | [] => []
  | o :: os => objectPaths o ++ objectPathsAll os
end

/-- A variable node goes by the index in its `nodeId`, the others by the index of the namespace. -/
def clearedIn (nsIndex : Nat) (ns : NamespaceJson) : List NodeId :=
  ns.nodes.filterMap (fun node => node.nodeId.bind parseNodeIdString) ++
    (objectPathsAll ns.objectNodes ++ ns.name.toList).map (NodeId.mk nsIndex)

def clearedIds (S : Server) (config : List NamespaceJson) : List NodeId :=
  config.flatMap (fun ns =>
    (ns.uri.bind S.getNamespaceByName).elim [] (fun nsIndex => clearedIn nsIndex ns))

theorem deleteAll_append (ks ks' : List NodeId) (l : List (Item NodeId NodeClass)) :
    deleteAll (ks ++ ks') l = deleteAll ks' (deleteAll ks l) := List.foldl_append

mutual
theorem deleteObjectNode_nodes (nsIndex : Nat) (S : Server) : (o : ObjectJson) →
    (deleteObjectNode nsIndex S o).nodes = deleteAll ((objectPaths o).map (NodeId.mk nsIndex)) S.nodes
  | .mk _ none children => by
      rw [deleteObjectNode, objectPaths, Option.toList_none, List.append_nil]
      exact deleteObjectNodesRecursive_nodes nsIndex S children
  | .mk _ (some path) children => by
      rw [deleteObjectNode, objectPaths, List.map_append, deleteAll_append,
        ← deleteObjectNodesRecursive_nodes nsIndex S children]
      rfl

theorem deleteObjectNodesRecursive_nodes (nsIndex : Nat) (S : Server) : (os : List ObjectJson) →
    (deleteObjectNodesRecursive nsIndex S os).nodes =
      deleteAll ((objectPathsAll os).map (NodeId.mk nsIndex)) S.nodes
  | [] => by
      rw [deleteObjectNodesRecursive, objectPathsAll]
      rfl
  | o :: os => by
      rw [deleteObjectNodesRecursive, objectPathsAll, List.map_append, deleteAll_append,
        deleteObjectNodesRecursive_nodes nsIndex _ os, deleteObjectNode_nodes nsIndex S o]
end

theorem deleteVariableNodes_nodes (S : Server) (nodes : List VariableJson) :
    (nodes.foldl deleteVariableNode S).nodes =
      deleteAll (nodes.filterMap (fun node => node.nodeId.bind parseNodeIdString)) S.nodes := by
  induction nodes generalizing S with
  | nil => rfl
  | cons node nodes ih =>
      show (nodes.foldl _ (deleteVariableNode S node)).nodes = _
      rw [ih, List.filterMap_cons]
      unfold deleteVariableNode
      cases node.nodeId.bind parseNodeIdString <;> rfl

theorem clearNamespace_nodes (S : Server) (ns : NamespaceJson) : (clearNamespace S ns).nodes =
    deleteAll ((ns.uri.bind S.getNamespaceByName).elim [] (fun nsIndex => clearedIn nsIndex ns))
      S.nodes := by
  unfold clearNamespace
  cases ns.uri.bind S.getNamespaceByName with
  | none => rfl
  | some nsIndex =>
      have hbelow : (deleteObjectNodesRecursive nsIndex (ns.nodes.foldl deleteVariableNode S)
          ns.objectNodes).nodes = deleteAll (ns.nodes.filterMap (fun node =>
            node.nodeId.bind parseNodeIdString) ++ (objectPathsAll ns.objectNodes).map
              (NodeId.mk nsIndex)) S.nodes := by
        rw [deleteObjectNodesRecursive_nodes, deleteVariableNodes_nodes, deleteAll_append]
      rw [Option.elim_some, clearedIn, List.map_append, ← List.append_assoc, deleteAll_append, ← hbelow]
      cases ns.name <;> rfl

/-- Clearing deletes the ids that the configuration names. -/
theorem clear_nodes (S : Server) (config : List NamespaceJson) :
    (addressSpaceClear S config).nodes = deleteAll (clearedIds S config) S.nodes := by
  induction config generalizing S with
  | nil => rfl
  | cons ns config ih =>
      have htable : (clearNamespace S ns).getNamespaceByName = S.getNamespaceByName := by
        funext uri
        rw [Server.getNamespaceByName, clearNamespace_namespaces]
        rfl
      show (addressSpaceClear (clearNamespace S ns) config).nodes = _
      rw [ih, clearNamespace_nodes, clearedIds, clearedIds, htable, List.flatMap_cons, deleteAll_append]

end OpcuaLight.Runtime
