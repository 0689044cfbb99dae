import OpcuaLight.Connector.IpcBridge
import OpcuaLight.Db.Reachable

/-!
# The map of node ids

The map from UUIDs to node ids names its nodes by their names only. Names are unique in a namespace and
among the namespaces, so that every row is found again, and the map is exact whenever the generator returns
(`buildNodeIdMap_exact_iff`).
-/

namespace OpcuaLight.Connector

open Db Config

variable {t : Tables}

/-- The entry that the generator makes of a row of `nodes`: both have the same place in their lists. -/
def EntryOfRow (t : Tables) (config : List NamespaceConfig) (row : NodeRow) (entry : NodeConfig) : Prop :=
  ∃ (i j : Nat) (ns : NamespaceRow) (c : NamespaceConfig), (namespaceRows t)[i]? = some ns ∧
    (nodeRows t ns.id)[j]? = some row ∧ config[i]? = some c ∧ c.nodes[j]? = some entry

/-- The map has the UUIDs of the rows of `nodes` as its keys, each with the id of the row's own entry. -/
def NodeIdMapExact (t : Tables) : Prop :=
  ∃ map config, buildNodeIdMap t = some map ∧ generate t = some config ∧
    (∀ uuid, map.has uuid = true ↔ ∃ row ∈ t.nodes, row.id = uuid) ∧
    ∀ row ∈ t.nodes, ∃ entry, EntryOfRow t config row entry ∧ map.get? row.id = some entry.nodeId

/-- No connection of a mapped node has `null` for its parameters. -/
def HostsReadable (t : Tables) : Prop :=
  ∀ m ∈ t.mappings, m.nodeId.isSome = true → ∀ c ∈ t.connections, c.id = m.connectionId → c.params ≠ .null

/-! ## When the generator returns -/

theorem mapM_isSome {α β : Type} {f : α → Option β} {l : List α} :
    (l.mapM f).isSome = true ↔ ∀ a ∈ l, (f a).isSome = true := by
  induction l with
  | nil => exact iff_of_true rfl nofun
  | cons a l ih =>
      rw [List.forall_mem_cons, ← ih, List.mapM_cons]
      cases f a with
      | none => exact iff_of_false nofun fun h => absurd h.1 nofun
      | some b => cases l.mapM f <;> simp

theorem loadMappings_isSome {namespaceId : String} : (loadMappings t namespaceId).isSome = true ↔
    ∀ r ∈ mappingRows t namespaceId, r.2.2.params ≠ .null := by
  unfold loadMappings
  simp only
  split_ifs with h
  · refine iff_of_false nofun fun hall => ?_
    obtain ⟨r, hr, hnull⟩ := List.any_eq_true.mp h
    exact hall r hr (decide_eq_true_eq.mp hnull)
  · refine iff_of_true rfl fun r hr hnull => ?_
    exact h (List.any_eq_true.mpr ⟨r, hr, decide_eq_true hnull⟩)

theorem mem_mappingRows {namespaceId uuid : String} {m : Mapping} {c : ConnectionConfig} :
    (uuid, m, c) ∈ mappingRows t namespaceId ↔ m ∈ t.mappings ∧ (c ∈ t.connections ∧ c.id = m.connectionId) ∧
      ∃ row ∈ t.nodes, row.namespaceId = namespaceId ∧ m.nodeId = some row.id ∧ row.id = uuid := by
  simp only [mappingRows, List.mem_flatMap, List.mem_map, List.mem_filter, decide_eq_true_eq,
    Prod.mk.injEq]
  constructor
  · rintro ⟨m', hm, c', hc, row, ⟨hrow, hns, hnode⟩, hid, rfl, rfl⟩
    exact ⟨hm, hc, row, hrow, hns, hnode, hid⟩
  · rintro ⟨hm, hc, row, hrow, hns, hnode, hid⟩
    exact ⟨m, hm, c, hc, row, ⟨hrow, hns, hnode⟩, hid, rfl, rfl⟩

theorem generate_isSome (hv : t.Valid) : (generate t).isSome = true ↔ HostsReadable t := by
  have hnamespaces : (generate t).isSome = true ↔
      ∀ ns ∈ namespaceRows t, (loadMappings t ns.id).isSome = true := by
    rw [generate, mapM_isSome]
    simp only [buildNamespace, buildNodes, Option.isSome_map]
    constructor
    · intro h ns hns
      obtain ⟨i, hi⟩ := List.mem_iff_getElem?.mp hns
      exact h (ns, i) (List.mk_mem_zipIdx_iff_getElem?.mpr hi)
    · intro h e he
      exact h e.1 (List.mem_of_getElem? (List.mk_mem_zipIdx_iff_getElem?.mp he))
  rw [hnamespaces]
  simp only [loadMappings_isSome]
  constructor
  · intro h m hm hsome c hc hid
    -- the mapping is read with the mappings of its node's namespace
    obtain ⟨uuid, huuid⟩ := Option.isSome_iff_exists.mp hsome
    have hnode := (hv.mappingKeys m hm).2
    rw [huuid] at hnode
    obtain ⟨row, hrow, hrowid⟩ := List.any_eq_true.mp hnode
    obtain ⟨ns, hns, hnsid⟩ := List.any_eq_true.mp (hv.nodeKeys row hrow).1
    rw [decide_eq_true_eq] at hrowid hnsid
    exact h ns (mem_orderBy.mpr hns) (uuid, m, c)
      (mem_mappingRows.mpr ⟨hm, ⟨hc, hid⟩, row, hrow, hnsid.symm, by rw [huuid, hrowid], hrowid⟩)
  · rintro h ns - ⟨uuid, m, c⟩ hr
    obtain ⟨hm, ⟨hc, hid⟩, row, -, -, hnode, -⟩ := mem_mappingRows.mp hr
    exact h m hm (by rw [hnode]; rfl) c hc hid

/-! ## The map -/

/-- The id that is assigned to a row is that of its entry. -/
theorem nodeIdOf_entry (hv : t.Valid) {config : List NamespaceConfig} (hconfig : generate t = some config)
    {row : NodeRow} (hrow : row ∈ t.nodes) :
    ∃ entry, EntryOfRow t config row entry ∧ nodeIdOf t row.id = some entry.nodeId := by
  obtain ⟨ns, hns, hnsid⟩ := List.any_eq_true.mp (hv.nodeKeys row hrow).1
  have hnsrow : ns ∈ namespaceRows t := mem_orderBy.mpr hns
  have hmem : row ∈ nodeRows t ns.id := mem_nodeRows.mpr ⟨hrow, (decide_eq_true_eq.mp hnsid).symm⟩
  obtain ⟨i, hi⟩ := List.mem_iff_getElem?.mp hnsrow
  obtain ⟨j, hj⟩ := List.mem_iff_getElem?.mp hmem
  have hgenerated := generate_getElem? hconfig i
  rw [hi, Option.map_some] at hgenerated
  obtain ⟨c, hc, hbuilt⟩ := Option.map_eq_some_iff.mp hgenerated
  obtain ⟨mappings, -, rfl⟩ := buildNamespace_eq_some hbuilt.symm
  refine ⟨toNodeConfig (buildObjectNodeTree t ns.id) mappings ns.name (i + 2) row,
    ⟨i, j, ns, _, hi, hj, hc, ?_⟩, ?_⟩
  · rw [List.getElem?_map, hj, Option.map_some]
  · exact (nodeIdOf_eq_some hv).mpr (mem_assignments.mpr ⟨i, ns, row, hi, hmem, rfl, rfl⟩)

theorem nodeIdMapExact_of_generate (hv : t.Valid) {config : List NamespaceConfig}
    (hconfig : generate t = some config) : NodeIdMapExact t := by
  obtain ⟨map, hmap⟩ : ∃ map, buildNodeIdMap t = some map := by
    rw [buildNodeIdMap, hconfig]
    exact ⟨_, rfl⟩
  have hget := get?_buildNodeIdMap hv hmap
  refine ⟨map, config, hmap, hconfig, fun uuid => ?_, fun row hrow => ?_⟩
  · rw [JsMap.has, hget, nodeIdOf_isSome hv, Tables.hasNode, List.any_eq_true]
    simp only [decide_eq_true_eq]
  · obtain ⟨entry, hentry, hid⟩ := nodeIdOf_entry hv hconfig hrow
    exact ⟨entry, hentry, (hget row.id).trans hid⟩

/-- **The map of node ids.** In every state `buildNodeIdMap` returns a map with exactly the rows of `nodes`,
each with the id of its own entry, if and only if no mapped node has a connection without parameters. -/
theorem buildNodeIdMap_exact_iff (ops : List Operation) :
    NodeIdMapExact (Db.reach ops) ↔ HostsReadable (Db.reach ops) := by
  have hv := reach_valid ops
  rw [← generate_isSome hv]
  constructor
  · rintro ⟨_, config, -, hconfig, -⟩
    rw [hconfig]
    rfl
  · intro h
    obtain ⟨config, hconfig⟩ := Option.isSome_iff_exists.mp h
    exact nodeIdMapExact_of_generate hv hconfig

/-- A mapped node whose connection is updated with `null` for the parameters. -/
def nulledOps : List Operation :=
  [.createNamespace "n1" ⟨"Plant", none, "urn:plant"⟩,
   .createNode "v1" ⟨some "level", some "n1", none, some "Double", none, none⟩,
   .createConnection "c1" "2024-01-01" ⟨"s7", "PLC", .obj [("host", .str "10.0.0.1")], none, none, none⟩,
   .createMapping "m1" "2024-01-01" ⟨"c1", some "v1", "DB1,REAL0", none⟩,
   .updateConnection "c1" ⟨none, some .null, none, none, none⟩]

theorem nulledOps_not_exact : ¬ NodeIdMapExact (Db.reach nulledOps) := by
  rintro ⟨_, config, -, hconfig, -⟩
  have hnone : generate (Db.reach nulledOps) = none := by decide
  rw [hnone] at hconfig
  cases hconfig

end OpcuaLight.Connector
