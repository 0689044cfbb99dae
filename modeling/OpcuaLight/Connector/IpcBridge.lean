import OpcuaLight.Config.Generator
import OpcuaLight.Lib.JsMap

/-!
# The IPC bridge

`IpcBridge` gives each value update the node id of its variable node, from a map that it builds when it
has none and again when a UUID is not in it. A map that is just built has the ids that the generator
assigns (`get?_buildNodeIdMap`), and `filterUpdates_eq` says which updates of a batch are let through,
with which map.
-/

namespace OpcuaLight.Connector

open Db Config

/-- From the UUIDs of variable nodes to their node ids. -/
abbrev NodeIdMap := JsMap String String

/-- `SELECT n.id FROM nodes n JOIN namespaces ns .. WHERE n.name = ? AND ns.name = ?`, the first row. -/
def selectNode (t : Tables) (name namespaceName : String) : Option String :=
  (t.nodes.find? (fun n => n.name = name && t.namespaces.any (fun ns =>
    ns.id = n.namespaceId && ns.name = namespaceName))).map (fun n => n.id)

/-- The body of the inner loop of `buildNodeIdMap`. -/
def addNode (t : Tables) (namespaceName : String) (map : NodeIdMap) (node : NodeConfig) : NodeIdMap :=
  match selectNode t node.name namespaceName with
  | none => map
  | some id => map.set id node.nodeId

/-- `buildNodeIdMap`; `none` when the generator throws. -/
def buildNodeIdMap (t : Tables) : Option NodeIdMap :=
  (generate t).map (fun config =>
    config.foldl (fun map ns => ns.nodes.foldl (addNode t ns.name) map) ∅)

/-- An entry of a message: the update that it is written for, and the text that it has as `nodeId`, if
any. Value, quality and timestamp are those of the update. -/
structure Entry where
  nodeId : Option String
  update : ValueUpdate
  deriving DecidableEq

/-- `uuidToOpcUaId.has(u.nodeId)`. -/
def knows (map : NodeIdMap) (u : ValueUpdate) : Bool := map.has u.nodeId

/-- The filter of `handleValueUpdates`: the map it ends with, and what it lets through if it does not
throw. -/
def filterUpdates (t : Tables) (map : NodeIdMap) :
    List ValueUpdate → NodeIdMap × Option (List ValueUpdate)
  | [] => (map, some [])
  | u :: us =>
      if knows map u then
        let (map, kept) := filterUpdates t map us
        (map, kept.map (u :: ·))
      else match buildNodeIdMap t with
        | none => (map, none)
        | some rebuilt =>
            let (map, kept) := filterUpdates t rebuilt us
            (map, if knows rebuilt u then kept.map (u :: ·) else kept)

/-- `handleValueUpdates`: the map that is kept, and the message that is written to stdin, if any. -/
def handleValueUpdates (t : Tables) (running : Bool) (cache : Option NodeIdMap)
    (updates : List ValueUpdate) : Option NodeIdMap × Option (List Entry) :=
  if !running then (cache, none)
  else match cache.or (buildNodeIdMap t) with
    | none => (none, none)
    | some map =>
        match filterUpdates t map updates with
        | (map, none) => (some map, none)
        | (map, some kept) =>
            let resolved := kept.map (fun u => ⟨map.get? u.nodeId, u⟩)
            (some map, if resolved = [] then none else some resolved)

/-! ## The ids of the generator -/

/-- The id that the generator writes for a row in the namespace with this index. -/
def assignedId (t : Tables) (ns : NamespaceRow) (index : Nat) (node : NodeRow) : String :=
  nodeIdString (index + 2) (parentPath (buildObjectNodeTree t ns.id) ns.name node) node.name

/-- The UUIDs of the variable nodes with the ids that the generator writes for them, in its order. -/
def assignments (t : Tables) : List (String × String) :=
  (namespaceRows t).zipIdx.flatMap (fun e =>
    (nodeRows t e.1.id).map (fun node => (node.id, assignedId t e.1 e.2 node)))

/-- The id that the generator assigns to the node with this UUID. -/
def nodeIdOf (t : Tables) (uuid : String) : Option String :=
  ((assignments t).find? (fun p => p.1 = uuid)).map Prod.snd

/-- What is said of one entry after another of a configuration is said of its namespaces in turn. -/
theorem flatMap_of_mapM {α β γ : Type} {f : α → Option β} {g : β → List γ} {h : α → List γ}
    (hf : ∀ a b, f a = some b → g b = h a) {l : List α} {l' : List β} (hl : l.mapM f = some l') :
    l'.flatMap g = l.flatMap h := by
  induction l generalizing l' with
  | nil =>
      rw [← Option.some.inj hl]
      rfl
  | cons a l ih =>
      rw [List.mapM_cons] at hl
      obtain ⟨b, hb, hl⟩ := Option.bind_eq_some_iff.mp hl
      obtain ⟨bs, hbs, hl⟩ := Option.bind_eq_some_iff.mp hl
      obtain rfl := Option.some.inj hl
      rw [List.flatMap_cons, List.flatMap_cons, hf a b hb, ih hbs]

/-- The configuration has these ids, in this order. -/
theorem generate_nodeIds {t : Tables} {config : List NamespaceConfig} (h : generate t = some config) :
    config.flatMap (fun c => c.nodes.map (fun node => node.nodeId)) =
      (assignments t).map Prod.snd := by
  rw [assignments, List.map_flatMap]
  refine flatMap_of_mapM (fun e c hc => ?_) h
  obtain ⟨mappings, -, rfl⟩ := buildNamespace_eq_some hc
  rw [List.map_map, List.map_map]
  rfl

variable {t : Tables}

theorem mem_assignments {uuid id : String} : (uuid, id) ∈ assignments t ↔ ∃ i ns node,
    (namespaceRows t)[i]? = some ns ∧ node ∈ nodeRows t ns.id ∧ node.id = uuid ∧
      assignedId t ns i node = id := by
  unfold assignments
  simp only [List.mem_flatMap, List.mem_map, Prod.mk.injEq]
  constructor
  · rintro ⟨e, he, node, hnode, hid, hassigned⟩
    exact ⟨e.2, e.1, node, List.mk_mem_zipIdx_iff_getElem?.mp he, hnode, hid, hassigned⟩
  · rintro ⟨i, ns, node, hi, hnode, hid, hassigned⟩
    exact ⟨(ns, i), List.mk_mem_zipIdx_iff_getElem?.mpr hi, node, hnode, hid, hassigned⟩

theorem namespaceRows_ids (hv : t.Valid) : ((namespaceRows t).map (fun ns => ns.id)).Nodup :=
  ((orderBy_perm _ _).map _).nodup_iff.mpr hv.namespaceIds

/-- A node is in one namespace, which has one place. -/
theorem assignments_functional (hv : t.Valid) : ∀ p ∈ assignments t, ∀ q ∈ assignments t,
    p.1 = q.1 → p = q := by
  rintro ⟨uuid, id⟩ hp ⟨uuid', id'⟩ hq (rfl : uuid = uuid')
  obtain ⟨i, ns, node, hi, hnode, hid, hassigned⟩ := mem_assignments.mp hp
  obtain ⟨i', ns', node', hi', hnode', hid', hassigned'⟩ := mem_assignments.mp hq
  obtain ⟨hmem, hns⟩ := mem_nodeRows.mp hnode
  obtain ⟨hmem', hns'⟩ := mem_nodeRows.mp hnode'
  obtain rfl : node = node' := List.inj_on_of_nodup_map hv.nodeIds hmem hmem' (hid.trans hid'.symm)
  have hids := namespaceRows_ids hv
  obtain rfl : i = i' := by
    refine (List.getElem?_inj ?_ hids).mp ?_
    · rw [List.length_map]
      exact (List.getElem?_eq_some_iff.mp hi).1
    · rw [List.getElem?_map, List.getElem?_map, hi, hi', Option.map_some, Option.map_some, ← hns, ← hns']
  obtain rfl := Option.some.inj (hi.symm.trans hi')
  rw [← hassigned, ← hassigned']

theorem nodeIdOf_eq_some (hv : t.Valid) {uuid id : String} :
    nodeIdOf t uuid = some id ↔ (uuid, id) ∈ assignments t := by
  unfold nodeIdOf
  rw [Option.map_eq_some_iff]
  constructor
  · rintro ⟨p, hp, rfl⟩
    have hkey : p.1 = uuid := by simpa using List.find?_some hp
    rw [← hkey]
    exact List.mem_of_find?_eq_some hp
  · intro h
    cases hp : (assignments t).find? (fun p => p.1 = uuid) with
    | none => simpa using List.find?_eq_none.mp hp _ h
    | some p =>
        have hkey : p.1 = uuid := by simpa using List.find?_some hp
        exact ⟨p, rfl, by rw [assignments_functional hv p (List.mem_of_find?_eq_some hp) _ h hkey]⟩

/-- The generator assigns an id to the nodes of the database, and to no others. -/
theorem nodeIdOf_isSome (hv : t.Valid) {uuid : String} :
    (nodeIdOf t uuid).isSome = t.hasNode uuid := by
  rw [Bool.eq_iff_iff, Option.isSome_iff_exists, Tables.hasNode, List.any_eq_true]
  constructor
  · rintro ⟨id, h⟩
    obtain ⟨i, ns, node, -, hnode, hid, -⟩ := mem_assignments.mp ((nodeIdOf_eq_some hv).mp h)
    exact ⟨node, (mem_nodeRows.mp hnode).1, decide_eq_true hid⟩
  · rintro ⟨node, hnode, hid⟩
    obtain ⟨ns, hns, hnsid⟩ := List.any_eq_true.mp (hv.nodeKeys node hnode).1
    have hrow : ns ∈ namespaceRows t := mem_orderBy.mpr hns
    obtain ⟨i, hi⟩ := List.mem_iff_getElem?.mp hrow
    refine ⟨_, (nodeIdOf_eq_some hv).mpr (mem_assignments.mpr ⟨i, ns, node, hi, ?_, ?_, rfl⟩)⟩
    · exact mem_nodeRows.mpr ⟨hnode, (decide_eq_true_eq.mp hnsid).symm⟩
    · exact decide_eq_true_eq.mp hid

/-! ## The map -/

/-- Names are unique in a namespace, and namespaces have different names. -/
theorem selectNode_eq (hv : t.Valid) {ns : NamespaceRow} {node : NodeRow} (hns : ns ∈ t.namespaces)
    (hnode : node ∈ t.nodes) (hid : node.namespaceId = ns.id) :
    selectNode t node.name ns.name = some node.id := by
  unfold selectNode
  cases hfind : t.nodes.find? (fun n => n.name = node.name && t.namespaces.any (fun ns' =>
      ns'.id = n.namespaceId && ns'.name = ns.name)) with
  | none =>
      have hno := List.find?_eq_none.mp hfind node hnode
      rw [decide_eq_true rfl, Bool.true_and, List.any_eq_true] at hno
      exact absurd ⟨ns, hns, by simp [hid]⟩ hno
  | some n =>
      have hfound := List.find?_some hfind
      simp only [Bool.and_eq_true, decide_eq_true_eq, List.any_eq_true] at hfound
      obtain ⟨hname, ns', hns', hnsid, hnsname⟩ := hfound
      obtain rfl : ns' = ns := List.inj_on_of_nodup_map hv.namespaceNames hns' hns hnsname
      have hn : n = node := List.inj_on_of_nodup_map hv.nodeNames (List.mem_of_find?_eq_some hfind) hnode
        (Prod.ext (hnsid.symm.trans hid.symm) hname)
      rw [hn, Option.map_some]

/-- The inner loop sets the ids of the nodes of a namespace. -/
theorem foldl_addNode (hv : t.Valid) {ns : NamespaceRow} {i : Nat} {c : NamespaceConfig}
    (hns : ns ∈ t.namespaces) (hc : buildNamespace t ns i = some c) (map : NodeIdMap) :
    c.nodes.foldl (addNode t c.name) map = ((nodeRows t ns.id).map (fun node =>
      (node.id, assignedId t ns i node))).foldl (fun map p => map.set p.1 p.2) map := by
  obtain ⟨mappings, -, rfl⟩ := buildNamespace_eq_some hc
  simp only [List.foldl_map]
  apply List.foldl_ext
  intro map node hnode
  obtain ⟨hmem, hid⟩ := mem_nodeRows.mp hnode
  show addNode t ns.name map (toNodeConfig _ _ ns.name (i + 2) node) = _
  rw [addNode]
  show (match selectNode t node.name ns.name with | none => map | some id => map.set id _) = _
  rw [selectNode_eq hv hns hmem hid]
  rfl

/-- The outer loop sets the ids of one namespace after another. -/
theorem foldl_namespaces (hv : t.Valid) {rows : List (NamespaceRow × Nat)}
    (hrows : ∀ e ∈ rows, e.1 ∈ t.namespaces) {config : List NamespaceConfig}
    (h : rows.mapM (fun e => buildNamespace t e.1 e.2) = some config) (map : NodeIdMap) :
    config.foldl (fun map ns => ns.nodes.foldl (addNode t ns.name) map) map =
      (rows.flatMap (fun e => (nodeRows t e.1.id).map (fun node =>
        (node.id, assignedId t e.1 e.2 node)))).foldl (fun map p => map.set p.1 p.2) map := by
  induction rows generalizing config map with
  | nil =>
      rw [← Option.some.inj h]
      rfl
  | cons e rows ih =>
      rw [List.mapM_cons] at h
      obtain ⟨c, hc, h⟩ := Option.bind_eq_some_iff.mp h
      obtain ⟨cs, hcs, h⟩ := Option.bind_eq_some_iff.mp h
      obtain rfl := Option.some.inj h
      rw [List.foldl_cons, List.flatMap_cons, List.foldl_append,
        foldl_addNode hv (hrows e List.mem_cons_self) hc]
      exact ih (fun e' he' => hrows e' (List.mem_cons_of_mem e he')) hcs _

/-- A map that has just been built has the ids that the generator assigns. -/
theorem get?_buildNodeIdMap (hv : t.Valid) {map : NodeIdMap} (h : buildNodeIdMap t = some map)
    (uuid : String) : map.get? uuid = nodeIdOf t uuid := by
  obtain ⟨config, hconfig, rfl⟩ := Option.map_eq_some_iff.mp h
  have hrows : ∀ e ∈ (namespaceRows t).zipIdx, e.1 ∈ t.namespaces := fun e he =>
    mem_orderBy.mp (List.mem_of_getElem? (List.mk_mem_zipIdx_iff_getElem?.mp he))
  rw [foldl_namespaces hv hrows hconfig]
  show ((assignments t).foldl (fun (map : NodeIdMap) p => map.set p.1 p.2) ∅).get? uuid = _
  rw [JsMap.get?_foldl_set (assignments_functional hv), JsMap.get?_empty, Option.or_none]
  rfl

/-! ## A batch -/

/-- A map that has just been built is built again for every UUID that is not in the database. -/
theorem filterUpdates_built {map : NodeIdMap} (h : buildNodeIdMap t = some map)
    (us : List ValueUpdate) :
    filterUpdates t map us = (map, some (us.filter (knows map))) := by
  induction us with
  | nil => rfl
  | cons u us ih =>
      rw [filterUpdates, List.filter_cons]
      split_ifs with hu
      · rw [ih]
        rfl
      · rw [h]
        simp only [ih, if_neg hu]

/-- If the map has all UUIDs of the batch it stays. Otherwise it is built again at the first one that it
does not have: the updates before this one are let through, the others if the new map has them. -/
theorem filterUpdates_eq (map : NodeIdMap) (us : List ValueUpdate) : filterUpdates t map us =
    if us.all (knows map) then (map, some us)
    else match buildNodeIdMap t with
      | none => (map, none)
      | some rebuilt => (rebuilt, some (us.takeWhile (knows map) ++
          (us.dropWhile (knows map)).filter (knows rebuilt))) := by
  induction us with
  | nil => rfl
  | cons u us ih =>
      rw [filterUpdates, List.all_cons]
      by_cases hu : knows map u = true
      · rw [if_pos hu, ih, List.takeWhile_cons_of_pos hu, List.dropWhile_cons_of_pos hu, hu,
          Bool.true_and]
        split_ifs
        · rfl
        · cases buildNodeIdMap t <;> rfl
      · rw [if_neg hu, List.takeWhile_cons_of_neg hu, List.dropWhile_cons_of_neg hu,
          Bool.eq_false_iff.mpr hu, Bool.false_and, if_neg Bool.false_ne_true]
        cases hb : buildNodeIdMap t with
        | none => rfl
        | some rebuilt =>
            simp only [filterUpdates_built hb, List.filter_cons]
            split_ifs <;> rfl

/-- Every entry is for a node of the database, under the id that the generator assigns to it. -/
def Resolved (t : Tables) (message : Option (List Entry)) : Prop :=
  ∀ entries, message = some entries → ∀ e ∈ entries,
    t.hasNode e.update.nodeId = true ∧ ∃ id, e.nodeId = some id ∧ nodeIdOf t e.update.nodeId = some id

/-- What the map that the bridge holds must meet. If it has all UUIDs of the batch, their nodes still
have the ids that it has for them. Otherwise the nodes before the first one that it does not have are
still there, or the generator throws. -/
def upToDate (t : Tables) (map : NodeIdMap) (us : List ValueUpdate) : Bool :=
  if us.all (knows map) then us.all (fun u => nodeIdOf t u.nodeId = map.get? u.nodeId)
  else (generate t).isNone || (us.takeWhile (knows map)).all (fun u => t.hasNode u.nodeId)

/-- The runtime does not run, or there is no map yet, or the map is up to date for the batch. -/
def settled (t : Tables) (running : Bool) (cache : Option NodeIdMap) (us : List ValueUpdate) : Bool :=
  !running || cache.all (fun map => upToDate t map us)

theorem resolved_none : Resolved t none := nofun

theorem resolved_some {us : List ValueUpdate} {map : NodeIdMap} :
    Resolved t (if us.map (fun u => (⟨map.get? u.nodeId, u⟩ : Entry)) = [] then none
      else some (us.map (fun u => ⟨map.get? u.nodeId, u⟩))) ↔
    ∀ u ∈ us, t.hasNode u.nodeId = true ∧
      ∃ id, map.get? u.nodeId = some id ∧ nodeIdOf t u.nodeId = some id := by
  constructor
  · intro h u hu
    rw [if_neg (List.map_eq_nil_iff.not.mpr (List.ne_nil_of_mem hu))] at h
    exact h _ rfl ⟨map.get? u.nodeId, u⟩ (List.mem_map_of_mem hu)
  · intro h entries hentries e he
    split_ifs at hentries
    rw [← Option.some.inj hentries] at he
    obtain ⟨u, hu, rfl⟩ := List.mem_map.mp he
    exact h u hu

/-- With a map that has just been built, an update gets the right id if its node is in the database. -/
theorem resolved_built (hv : t.Valid) {map : NodeIdMap} (h : buildNodeIdMap t = some map) (uuid : String) :
    (t.hasNode uuid = true ∧ ∃ id, map.get? uuid = some id ∧ nodeIdOf t uuid = some id) ↔
      t.hasNode uuid = true := by
  refine and_iff_left_of_imp fun hnode => ?_
  rw [get?_buildNodeIdMap hv h]
  rw [← nodeIdOf_isSome hv, Option.isSome_iff_exists] at hnode
  obtain ⟨id, hid⟩ := hnode
  exact ⟨id, hid, hid⟩

theorem knows_built (hv : t.Valid) {map : NodeIdMap} (h : buildNodeIdMap t = some map) (u : ValueUpdate) :
    knows map u = t.hasNode u.nodeId := by
  rw [← nodeIdOf_isSome hv, ← get?_buildNodeIdMap hv h]
  rfl

/-- The message of a batch is right if and only if the map is up to date for the batch. -/
theorem resolved_iff (hv : t.Valid) (running : Bool) (cache : Option NodeIdMap) (us : List ValueUpdate) :
    Resolved t (handleValueUpdates t running cache us).2 ↔ settled t running cache us = true := by
  unfold handleValueUpdates settled
  cases running with
  | false => exact ⟨fun _ => rfl, fun _ => resolved_none⟩
  | true =>
      simp only [Bool.not_true, Bool.false_eq_true, if_false, Bool.false_or]
      cases cache with
      | none =>
          refine ⟨fun _ => rfl, fun _ => ?_⟩
          rw [Option.none_or]
          cases hb : buildNodeIdMap t with
          | none => exact resolved_none
          | some map =>
              simp only [filterUpdates_built hb]
              rw [resolved_some]
              intro u hu
              rw [resolved_built hv hb, ← knows_built hv hb]
              exact (List.mem_filter.mp hu).2
      | some map =>
          rw [Option.some_or, Option.all_some, upToDate]
          simp only [filterUpdates_eq]
          split_ifs with hall
          · rw [List.all_eq_true] at hall
            rw [resolved_some, List.all_eq_true]
            refine forall₂_congr fun u hu => ?_
            obtain ⟨id, hid⟩ := JsMap.has_eq_true_iff.mp (hall u hu)
            rw [hid, decide_eq_true_eq, ← nodeIdOf_isSome hv]
            constructor
            · rintro ⟨-, id', hid', hassigned⟩
              rw [hassigned, hid']
            · intro hassigned
              rw [hassigned]
              exact ⟨rfl, id, rfl, rfl⟩
          · rw [Bool.or_eq_true, Option.isNone_iff_eq_none]
            cases hb : buildNodeIdMap t with
            | none =>
                have hnone : generate t = none := Option.map_eq_none_iff.mp hb
                exact ⟨fun _ => Or.inl hnone, fun _ => resolved_none⟩
            | some rebuilt =>
                have hsome : ¬ generate t = none := fun hnone => by
                  rw [buildNodeIdMap, hnone] at hb
                  cases hb
                rw [or_iff_right hsome, List.all_eq_true]
                simp only [resolved_some]
                simp only [resolved_built hv hb, List.mem_append, or_imp, forall_and]
                refine and_iff_left fun u hu => ?_
                rw [← knows_built hv hb]
                exact (List.mem_filter.mp hu).2

end OpcuaLight.Connector
