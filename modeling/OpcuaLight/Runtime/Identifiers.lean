import OpcuaLight.Config.Tree
import OpcuaLight.Runtime.Numbering

/-!
# The identifiers of a configuration

The nodes of a namespace entry go by the name of the namespace, the paths of the object nodes and the
identifiers of the variable nodes: names joined with dots. They differ exactly when the names do once
they are cut at dots (`identifiers_nodup_iff`).
-/

namespace OpcuaLight.Runtime

open Db

/-- What comes after the first `;s=` of a node id. -/
def identifierOf (nodeId : String) : String :=
  String.ofList ((strstr ";s=".toList nodeId.toList).getD [])

/-- The string identifiers of the nodes of a namespace entry. -/
def identifiers (c : Config.NamespaceConfig) : List String :=
  c.name :: (Config.pathsAll c.objectNodes ++ c.nodes.map (fun n => identifierOf n.nodeId))

/-- The names from the root of the namespace down to an object node. -/
def objectTrail (rows : List ObjectNodeRow) (r : ObjectNodeRow) : List String :=
  Config.pathParts rows rows.length r.id

/-- The names from the root of the namespace down to a variable node. -/
def nodeTrail (rows : List ObjectNodeRow) (n : NodeRow) : List String :=
  (n.objectNodeId.elim [] (Config.pathParts rows rows.length)) ++ [n.name]

/-- The trails of the namespace itself, of its object nodes and of its variable nodes. -/
def trails (t : Tables) (namespaceId : String) : List (List String) :=
  let rows := Config.buildObjectNodeTree t namespaceId
  [] :: (rows.map (objectTrail rows) ++ (Config.nodeRows t namespaceId).map (nodeTrail rows))

/-- The names cut at dots. -/
def segments (names : List String) : List (List Char) :=
  names.flatMap (fun name => name.toList.splitOn '.')

/-! ## Joining and cutting -/

theorem splitOn_join (name : String) (names : List String) :
    (Config.join (name :: names) ".").toList.splitOn '.' = segments (name :: names) := by
  induction names generalizing name with
  | nil =>
      rw [Config.join, String.intercalate_singleton, segments, List.flatMap_singleton]
  | cons next names ih =>
      have hjoin : Config.join (name :: next :: names) "." =
          name ++ "." ++ Config.join (next :: names) "." := String.intercalate_cons_cons
      rw [hjoin, String.toList_append, String.toList_append, List.append_assoc]
      show (name.toList ++ '.' :: (Config.join (next :: names) ".").toList).splitOn '.' = _
      rw [List.splitOn_append_cons_self, ih]
      rfl

/-- Joined names are one text when the names cut at dots are. -/
theorem join_eq_iff (name : String) (names names' : List String) :
    Config.join (name :: names) "." = Config.join (name :: names') "." ↔
      segments names = segments names' := by
  have hcons : ∀ l, segments (name :: l) = name.toList.splitOn '.' ++ segments l := fun _ => rfl
  constructor
  · intro h
    have hsplit := congrArg (fun s : String => s.toList.splitOn '.') h
    simp only [splitOn_join, hcons] at hsplit
    exact List.append_cancel_left hsplit
  · intro h
    have hsplit : (Config.join (name :: names) ".").toList.splitOn '.' =
        (Config.join (name :: names') ".").toList.splitOn '.' := by
      rw [splitOn_join, splitOn_join, hcons, hcons, h]
    have htext := congrArg (fun l => List.intercalate ['.'] l) hsplit
    simp only [List.intercalate_splitOn] at htext
    exact String.toList_inj.mp htext

/-! ## The identifiers of the rows -/

theorem identifierOf_nodeIdString (index : Nat) (path name : String) :
    identifierOf (Config.nodeIdString index path name) = path ++ "." ++ name := by
  unfold identifierOf
  rw [toList_nodeIdString, strstr_nodeIdText]
  apply String.toList_inj.mp
  simp

/-- The identifier of a variable node is its trail below the name of the namespace. -/
theorem identifierOf_toNodeConfig (rows : List ObjectNodeRow) (mappings) (ns : String) (index : Nat)
    (n : NodeRow) : identifierOf (Config.toNodeConfig rows mappings ns index n).nodeId =
      Config.join (ns :: nodeTrail rows n) "." := by
  have hpath : Config.parentPath rows ns n =
      Config.join (ns :: n.objectNodeId.elim [] (Config.pathParts rows rows.length)) "." := by
    unfold Config.parentPath
    cases n.objectNodeId with
    | none => exact String.intercalate_singleton.symm
    | some id =>
        simp only [Option.elim_some]
        split_ifs with hid
        · have hnone : Config.pathParts rows rows.length id = [] := by
            rw [hid]
            cases rows.length <;> rfl
          rw [hnone]
          exact String.intercalate_singleton.symm
        · rfl
  show identifierOf (Config.nodeIdString index (Config.parentPath rows ns n) n.name) = _
  rw [identifierOf_nodeIdString, nodeTrail, Config.join_concat, hpath]

/-- The identifiers of the entry of a namespace are its trails, below its name. -/
theorem identifiers_perm {t : Tables} (hv : t.Valid) {ns : NamespaceRow}
    (hway : ∀ r ∈ Config.buildObjectNodeTree t ns.id,
      ReachesRoot (detach (Config.buildObjectNodeTree t ns.id))
        (Config.buildObjectNodeTree t ns.id).length r.id)
    {i : Nat} {c : Config.NamespaceConfig} (hc : Config.buildNamespace t ns i = some c) :
    (identifiers c).Perm
      ((trails t ns.id).map (fun names => Config.join (ns.name :: names) ".")) := by
  obtain ⟨mappings, -, rfl⟩ := Config.buildNamespace_eq_some hc
  have hobjects := Config.paths_toObjectNodeConfigs (namespaceRows_nodup hv ns.id) hway ns.name
  have hroot : ns.name = Config.join [ns.name] "." := String.intercalate_singleton.symm
  unfold identifiers trails
  simp only [List.map_cons, List.map_append, List.map_map]
  rw [← hroot]
  refine List.Perm.cons _ (List.Perm.append hobjects (List.Perm.of_eq ?_))
  apply List.map_congr_left
  intro n _
  exact identifierOf_toNodeConfig _ mappings ns.name (i + 2) n

/-- The identifiers of the entry of a namespace are pairwise distinct exactly when its object nodes and
variable nodes have different trails once the names are cut at dots. -/
theorem identifiers_nodup_iff (ops : List Operation) {config : List Config.NamespaceConfig}
    (h : Config.generate (reach ops) = some config) {i : Nat} {ns : NamespaceRow}
    (hns : (Config.namespaceRows (reach ops))[i]? = some ns) :
    ∃ c, config[i]? = some c ∧
      ((identifiers c).Nodup ↔ ((trails (reach ops) ns.id).map segments).Nodup) := by
  have hi := Config.generate_getElem? h i
  rw [hns, Option.map_some] at hi
  obtain ⟨c, hc, hb⟩ := Option.map_eq_some_iff.mp hi
  refine ⟨c, hc, ?_⟩
  have hperm := identifiers_perm (reach_valid ops) (Config.buildObjectNodeTree_way ops ns.id) hb.symm
  rw [hperm.nodup_iff, List.Nodup, List.Nodup, List.pairwise_map, List.pairwise_map]
  apply List.Pairwise.iff
  intro names names'
  exact not_congr (join_eq_iff ns.name names names')

/-- A folder and a variable of one name in the root of a namespace. -/
def twinOps : List Operation :=
  [.createNamespace "n1" ⟨"Plant", none, "urn:plant"⟩, .createObjectNode "o1" ⟨"n1", none, "Hall"⟩,
   .createNode "v" ⟨some "Hall", some "n1", none, some "Double", none, none⟩]

theorem twinOps_identifiers : ((Config.generate (reach twinOps)).map (fun config =>
    config.map identifiers)) = some [["Plant", "Plant.Hall", "Plant.Hall"]] := by decide

/-- A variable in a folder. -/
def folderOps : List Operation :=
  [.createNamespace "n1" ⟨"Plant", none, "urn:plant"⟩, .createObjectNode "o1" ⟨"n1", none, "Hall"⟩,
   .createNode "v" ⟨some "Hall", some "n1", some "o1", some "Double", none, none⟩]

theorem folderOps_generate : (Config.generate (reach folderOps)).isSome = true := by decide

theorem identifiers_nodup_folder : ∃ c,
    ((Config.generate (reach folderOps)).get folderOps_generate)[0]? = some c ∧
      (identifiers c).Nodup := by
  have hns : (Config.namespaceRows (reach folderOps))[0]? = some ⟨"n1", "Plant", none, "urn:plant"⟩ := by
    decide
  obtain ⟨c, hc, hiff⟩ := identifiers_nodup_iff folderOps (Option.some_get folderOps_generate).symm hns
  exact ⟨c, hc, hiff.mpr (by decide)⟩

end OpcuaLight.Runtime
