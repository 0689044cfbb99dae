import OpcuaLight.Api.MappingsCsv

/-!
# Mappings are restored

The names that the export writes lead back to the rows they stand for exactly if each mapping is
`MappingExportable`; then the import restores all of them.
-/

namespace OpcuaLight.Api

open Connector (ConnectionConfig Mapping)
open Db
open Db.ConnectorRepository (CreateMappingRequest findAllConnections findAllMappings)

variable {t : Tables} {ids : Nat → String} {now : String}

/-! ## Lookups -/

theorem nodup_reverse {α κ : Type} {rows : List α} {key : α → κ} (h : (rows.map key).Nodup) :
    (rows.reverse.map key).Nodup := by
  rw [List.map_reverse]
  exact List.nodup_reverse.mpr h

/-- The connection that a name leads to is the last one of the name. -/
theorem connectionNamed_eq_some (hp : t.Proper) {name id : String} :
    connectionNamed t name = some id ↔ ∃ (c : ConnectionConfig) (before after : List ConnectionConfig),
      findAllConnections t = before ++ c :: after ∧ c.id = id ∧ c.name = name ∧ ∀ d ∈ after, d.name ≠ name := by
  rw [connectionNamed, Option.filter_eq_some_iff, Option.map_eq_some_iff]
  constructor
  · rintro ⟨⟨c, hc, hid⟩, -⟩
    obtain ⟨hname, after, before, hsplit, hafter⟩ := List.find?_eq_some_iff_append.mp hc
    refine ⟨c, before.reverse, after.reverse, ?_, hid, by simpa using hname, fun d hd => ?_⟩
    · have hrev := congrArg List.reverse hsplit
      rwa [List.reverse_reverse, List.reverse_append, List.reverse_cons, List.append_assoc] at hrev
    · simpa using hafter d (List.mem_reverse.mp hd)
  · rintro ⟨c, before, after, hsplit, hid, hname, hafter⟩
    have hc : c ∈ t.connections := by
      have hmem : c ∈ findAllConnections t := by
        rw [hsplit]
        exact List.mem_append_right _ List.mem_cons_self
      exact mem_orderBy.mp hmem
    refine ⟨⟨c, List.find?_eq_some_iff_append.mpr ⟨by simpa using hname, after.reverse, before.reverse, ?_,
      fun d hd => by simpa using hafter d (List.mem_reverse.mp hd)⟩, hid⟩, ?_⟩
    · rw [hsplit, List.reverse_append, List.reverse_cons, List.append_assoc]
      rfl
    · simpa using hid ▸ hp.connections c hc

theorem namespaceNamed_eq_some (hv : t.Valid) (hp : t.Proper) {name id : String} :
    namespaceNamed t name = some id ↔ ∃ r ∈ t.namespaces, r.name = name ∧ r.id = id := by
  rw [namespaceNamed, Option.filter_eq_some_iff, Option.map_eq_some_iff]
  constructor
  · rintro ⟨⟨r, hr, hid⟩, -⟩
    obtain ⟨hmem, hname⟩ := (Rows.find?_eq_some _ (nodup_reverse hv.namespaceNames)).mp hr
    exact ⟨r, List.mem_reverse.mp hmem, hname, hid⟩
  · rintro ⟨r, hr, hname, hid⟩
    exact ⟨⟨r, (Rows.find?_eq_some _ (nodup_reverse hv.namespaceNames)).mpr
      ⟨List.mem_reverse.mpr hr, hname⟩, hid⟩, by simpa using hid ▸ hp.namespaces r hr⟩

theorem exportedConnection_eq (hv : t.Valid) {m : Mapping} {c : ConnectionConfig} (hc : c ∈ t.connections)
    (hid : c.id = m.connectionId) : exportedConnection t m = some c := by
  have hnodup : ((findAllConnections t).map (fun c => c.id)).Nodup :=
    ((orderBy_perm _ _).map _).nodup_iff.mpr hv.connectionIds
  exact (Rows.find?_eq_some _ (nodup_reverse hnodup)).mpr
    ⟨List.mem_reverse.mpr (mem_orderBy.mpr hc), hid⟩

theorem exportedNode_eq_some (hv : t.Valid) (hp : t.Proper) {m : Mapping} {n : NodeRow} :
    exportedNode t m = some n ↔ n ∈ t.nodes ∧ m.nodeId = some n.id := by
  rw [exportedNode, Option.bind_eq_some_iff]
  constructor
  · rintro ⟨id, hid, hfind⟩
    obtain ⟨hmem, hn⟩ := (Rows.find?_eq_some _ (nodup_reverse hv.nodeIds)).mp hfind
    exact ⟨List.mem_reverse.mp hmem, by rw [hn]; exact (Option.filter_eq_some_iff.mp hid).1⟩
  · rintro ⟨hn, hnode⟩
    exact ⟨n.id, Option.filter_eq_some_iff.mpr ⟨hnode, by simpa using (hp.nodes n hn).1⟩,
      (Rows.find?_eq_some _ (nodup_reverse hv.nodeIds)).mpr ⟨List.mem_reverse.mpr hn, rfl⟩⟩

theorem namespaceName_eq_some (hv : t.Valid) {id name : String} :
    namespaceName t id = some name ↔ ∃ r ∈ t.namespaces, r.id = id ∧ r.name = name := by
  rw [namespaceName, Option.map_eq_some_iff]
  constructor
  · rintro ⟨r, hr, hname⟩
    obtain ⟨hmem, hid⟩ := (Rows.find?_eq_some _ (nodup_reverse hv.namespaceIds)).mp hr
    exact ⟨r, List.mem_reverse.mp hmem, hid, hname⟩
  · rintro ⟨r, hr, hid, hname⟩
    exact ⟨r, (Rows.find?_eq_some _ (nodup_reverse hv.namespaceIds)).mpr
      ⟨List.mem_reverse.mpr hr, hid⟩, hname⟩

/-- Where the namespace column is blank or names no namespace, all nodes of the name are found. -/
theorem nodesNamed_untold (hv : t.Valid) (hp : t.Proper) {nodeName nsName : String}
    (h : Js.trim nsName = "" ∨ ∀ r ∈ t.namespaces, r.name ≠ Js.trim nsName) :
    nodesNamed t nodeName nsName = t.nodes.filter (fun n => n.name = Js.trim nodeName) := by
  unfold nodesNamed
  simp only
  split
  · rename_i nsId hns
    obtain ⟨r, hr, hname, -⟩ := (namespaceNamed_eq_some hv hp).mp hns
    rw [if_pos (h.resolve_right fun hall => hall r hr hname)]
  · rfl

/-- Where it names a namespace, the nodes of the name in the namespace are found. -/
theorem nodesNamed_told (hv : t.Valid) (hp : t.Proper) {nodeName nsName : String}
    (hne : Js.trim nsName ≠ "") {r : NamespaceRow} (hr : r ∈ t.namespaces) (hname : r.name = Js.trim nsName) :
    nodesNamed t nodeName nsName =
      t.nodes.filter (fun n => n.name = Js.trim nodeName ∧ n.namespaceId = r.id) := by
  have hns : namespaceNamed t (Js.trim nsName) = some r.id :=
    (namespaceNamed_eq_some hv hp).mpr ⟨r, hr, hname, rfl⟩
  unfold nodesNamed
  rw [hns]
  simp only
  rw [if_neg hne, List.filter_filter]
  congr 1
  funext n
  rw [Bool.and_comm, Bool.decide_and]

theorem mem_nodesNamed {nodeName nsName : String} {n : NodeRow} (h : n ∈ nodesNamed t nodeName nsName) :
    n ∈ t.nodes ∧ n.name = Js.trim nodeName := by
  have hmatched : n ∈ t.nodes.filter (fun n => n.name = Js.trim nodeName) := by
    unfold nodesNamed at h
    simp only at h
    split at h
    · split_ifs at h
      · exact h
      · exact List.mem_of_mem_filter h
    · exact h
  exact ⟨List.mem_of_mem_filter hmatched, by simpa using (List.mem_filter.mp hmatched).2⟩

/-! ## The fields of a row -/

theorem connection_of_mapping (hv : t.Valid) {m : Mapping} (hm : m ∈ t.mappings) :
    ∃ c ∈ t.connections, c.id = m.connectionId := by
  obtain ⟨c, hc, hid⟩ := List.any_eq_true.mp (hv.mappingKeys m hm).1
  exact ⟨c, hc, of_decide_eq_true hid⟩

theorem namespace_of_node (hv : t.Valid) {n : NodeRow} (hn : n ∈ t.nodes) :
    ∃ r ∈ t.namespaces, r.id = n.namespaceId := by
  obtain ⟨r, hr, hid⟩ := List.any_eq_true.mp (hv.nodeKeys n hn).1
  exact ⟨r, hr, of_decide_eq_true hid⟩

/-- The node columns of a mapping that has a node. -/
theorem mappingFields_node (hv : t.Valid) (hp : t.Proper) {m : Mapping} {n : NodeRow} (hn : n ∈ t.nodes)
    (hnode : m.nodeId = some n.id) {r : NamespaceRow} (hr : r ∈ t.namespaces) (hid : r.id = n.namespaceId) :
    (mappingFields t m).getD 3 "" = n.name ∧ (mappingFields t m).getD 4 "" = r.name := by
  have hname : namespaceName t n.namespaceId = some r.name :=
    (namespaceName_eq_some hv).mpr ⟨r, hr, hid, rfl⟩
  simp [mappingFields, (exportedNode_eq_some hv hp).mpr ⟨hn, hnode⟩, hname]

/-- A mapping whose row names a node has that node. -/
theorem node_of_named (hv : t.Valid) (hp : t.Proper) {m : Mapping}
    (hnamed : Js.trim ((mappingFields t m).getD 3 "") ≠ "") : ∃ n ∈ t.nodes, m.nodeId = some n.id := by
  cases hnode : exportedNode t m with
  | none =>
      have hblank : (mappingFields t m).getD 3 "" = "" := by simp [mappingFields, hnode]
      rw [hblank] at hnamed
      exact absurd (by decide) hnamed
  | some n => exact ⟨n, (exportedNode_eq_some hv hp).mp hnode⟩

/-! ## What is read is exportable -/

/-- The node that a row asks for. -/
theorem Reads.exists_node {fields : List String} {m : Mapping} (h : Reads t fields (mappingContent m)) :
    ∃ n ∈ t.nodes, m.nodeId = some n.id ∧ Js.trim n.name = n.name ∧ n.name ≠ "" ∧
      nodesNamed t (fields.getD 3 "") (fields.getD 4 "") = [n] := by
  obtain ⟨n, hnodes, hid⟩ := h.node
  obtain ⟨hn, hname⟩ := mem_nodesNamed (hnodes ▸ List.mem_singleton.mpr rfl)
  refine ⟨n, hn, hid, ?_, ?_, hnodes⟩
  · rw [hname, Js.trim_trim]
  · rw [hname]
    exact h.named

/-- Where the column tells no namespace, the one node that is found is the only one of the name. -/
theorem eq_of_untold (hv : t.Valid) (hp : t.Proper) {nodeName nsName : String} {n q : NodeRow}
    (hnodes : nodesNamed t nodeName nsName = [n])
    (huntold : Js.trim nsName = "" ∨ ∀ r ∈ t.namespaces, r.name ≠ Js.trim nsName) (hq : q ∈ t.nodes)
    (hname : q.name = Js.trim nodeName) : q = n := by
  rw [nodesNamed_untold hv hp huntold] at hnodes
  have hin : q ∈ t.nodes.filter (fun q => q.name = Js.trim nodeName) :=
    List.mem_filter.mpr ⟨hq, decide_eq_true hname⟩
  rw [hnodes] at hin
  exact List.mem_singleton.mp hin

/-- Where it does, the node that is found is in a namespace of that name. -/
theorem namespace_of_told (hv : t.Valid) (hp : t.Proper) {nodeName nsName : String} {n : NodeRow}
    (hnodes : nodesNamed t nodeName nsName = [n])
    (htold : ¬ (Js.trim nsName = "" ∨ ∀ r ∈ t.namespaces, r.name ≠ Js.trim nsName)) :
    ∃ r ∈ t.namespaces, r.name = Js.trim nsName ∧ n.namespaceId = r.id := by
  rw [not_or, not_forall] at htold
  obtain ⟨hne, r, hr⟩ := htold
  rw [Classical.not_imp, not_not] at hr
  rw [nodesNamed_told hv hp hne hr.1 hr.2] at hnodes
  have hin : n ∈ t.nodes.filter (fun q => q.name = Js.trim nodeName ∧ q.namespaceId = r.id) :=
    hnodes ▸ List.mem_singleton.mpr rfl
  exact ⟨r, hr.1, hr.2, (of_decide_eq_true (List.mem_filter.mp hin).2).2⟩

/-- The namespace column of a mapping that is asked for leads to its node, where its own row is read and so is
that of the mapping that asks for it. -/
theorem namespaceTold_of_reads (hv : t.Valid) (hp : t.Proper) {m m' own own' : Mapping}
    (hask : Reads t (mappingFields t m') (mappingContent m))
    (hown : Reads t (mappingFields t m) (mappingContent own))
    (hown' : Reads t (mappingFields t m') (mappingContent own'))
    {n : NodeRow} (hn : n ∈ t.nodes) (hnode : m.nodeId = some n.id) {r : NamespaceRow} (hr : r ∈ t.namespaces)
    (hid : r.id = n.namespaceId) : NamespaceTold t n r.name := by
  obtain ⟨q, hq, hqnode, htrim, -, hasked⟩ := hask.exists_node
  have hsame : q = n := List.inj_on_of_nodup_map hv.nodeIds hq hn (Option.some.inj (hqnode.symm.trans hnode))
  rw [hsame] at htrim hasked
  obtain ⟨hfield, hnsField⟩ := mappingFields_node hv hp hn hnode hr hid
  obtain ⟨n₂, hn₂, -, -, -, hfound⟩ := hown.exists_node
  have hname₂ := (mem_nodesNamed (hfound ▸ List.mem_singleton.mpr rfl)).2
  rw [hfield, htrim] at hname₂
  rw [hfield, hnsField] at hfound
  by_cases htold : Js.trim r.name = "" ∨ ∀ s ∈ t.namespaces, s.name ≠ Js.trim r.name
  · refine Or.inr ⟨htold, fun q hq hqname => ?_⟩
    rw [eq_of_untold hv hp hfound htold hq (hqname.trans htrim.symm),
      eq_of_untold hv hp hfound htold hn htrim.symm]
  · obtain ⟨r₂, hr₂, hrname₂, hns₂⟩ := namespace_of_told hv hp hfound htold
    have hne : r.name ≠ "" := fun hblank => htold (Or.inl (by rw [hblank]; decide))
    refine Or.inl ⟨?_, hne⟩
    by_cases hns : r₂ = r
    · rw [← hrname₂, hns]
    · -- then the row that asks for the node would find the node of the other namespace, too
      exfalso
      have hother : n₂ ≠ n := by
        rintro rfl
        exact hns (List.inj_on_of_nodup_map hv.namespaceIds hr₂ hr (hns₂.symm.trans hid.symm))
      obtain ⟨n', hn', hnode'⟩ := node_of_named hv hp hown'.named
      obtain ⟨r', hr', hid'⟩ := namespace_of_node hv hn'
      obtain ⟨hfield', hnsField'⟩ := mappingFields_node hv hp hn' hnode' hr' hid'
      rw [hfield', hnsField'] at hasked
      have hname' := (mem_nodesNamed (hasked ▸ List.mem_singleton.mpr rfl)).2
      by_cases htold' : Js.trim r'.name = "" ∨ ∀ s ∈ t.namespaces, s.name ≠ Js.trim r'.name
      · exact hother (eq_of_untold hv hp hasked htold' hn₂ (hname₂.trans hname'))
      · obtain ⟨r₃, hr₃, hrname₃, hns₃⟩ := namespace_of_told hv hp hasked htold'
        have hsame₃ : r₃ = r := List.inj_on_of_nodup_map hv.namespaceIds hr₃ hr (hns₃.symm.trans hid.symm)
        have htrimmed : Js.trim r.name = r.name := by rw [← hsame₃, hrname₃, Js.trim_trim]
        exact hns (List.inj_on_of_nodup_map hv.namespaceNames hr₂ hr (hrname₂.trans htrimmed))

theorem mappingExportable_of_reads (hv : t.Valid) (hp : t.Proper) {m m' own own' : Mapping}
    (hask : Reads t (mappingFields t m') (mappingContent m))
    (hown : Reads t (mappingFields t m) (mappingContent own))
    (hown' : Reads t (mappingFields t m') (mappingContent own')) : MappingExportable t m where
  connection := by
    obtain ⟨c, before, after, hsplit, hid, hname, hafter⟩ := (connectionNamed_eq_some hp).mp hask.connection
    exact ⟨c, before, after, hsplit, hid, by rw [hname, Js.trim_trim], hname ▸ hafter⟩
  address := by
    refine ⟨?_, hask.addressed⟩
    have haddress : _ = m.deviceAddress := hask.address
    rw [← haddress, Js.trim_trim]
  node := by
    obtain ⟨n, hn, hnode, htrim, hne, -⟩ := hask.exists_node
    obtain ⟨r, hr, hid⟩ := namespace_of_node hv hn
    exact ⟨n, hn, hnode, htrim, hne, r, hr, hid, namespaceTold_of_reads hv hp hask hown hown' hn hnode hr hid⟩
  description := by
    intro d hd
    have hdesc : m.description = _ := hask.description
    rw [hdesc, Option.mem_def] at hd
    split_ifs at hd with hblank
    rw [← Option.some.inj hd]
    exact ⟨Js.trim_trim _, hblank⟩

theorem exists_of_mem_left {α β : Type} {R : α → β → Prop} {l : List α} {l' : List β} (h : List.Forall₂ R l l')
    {a : α} (ha : a ∈ l) : ∃ b ∈ l', R a b := by
  induction h with
  | nil => cases ha
  | cons hab _ ih =>
      rcases List.mem_cons.mp ha with rfl | ha
      · exact ⟨_, List.mem_cons_self, hab⟩
      · obtain ⟨b, hb, hr⟩ := ih ha
        exact ⟨b, List.mem_cons_of_mem _ hb, hr⟩

/-- What is restored is exportable. -/
theorem exportable_of_restored (hv : t.Valid) (hp : t.Proper)
    (hlines : ∀ m ∈ t.mappings, ∀ f ∈ mappingFields t m, '\n' ∉ f.toList) (h : MappingsRestored t ids now) :
    t.mappings ≠ [] ∧ ∀ m ∈ t.mappings, MappingExportable t m := by
  obtain ⟨hne, t', hall, hcontents⟩ := (mappingsRestored_iff hlines).mp h
  have hrows := restored_rows hall
  refine ⟨hne, fun m hm => ?_⟩
  have hreads : ∀ m ∈ findAllMappings t, ∃ own, Reads t (mappingFields t m) (mappingContent own) := fun m hm =>
    have ⟨own, _, hown⟩ := exists_of_mem_left hrows hm
    ⟨own, hown⟩
  obtain ⟨own, hown⟩ := hreads m ((findAllMappings_perm t).mem_iff.mpr hm)
  -- its content is that of a row that some mapping asks for
  obtain ⟨row, hrow, hcontent⟩ :=
    List.mem_map.mp ((hcontents (mappingContent m)).mpr (List.mem_map.mpr ⟨m, hm, rfl⟩))
  obtain ⟨m', hm', hask⟩ := exists_of_mem_left hrows.flip hrow
  obtain ⟨own', hown'⟩ := hreads m' hm'
  have hask : Reads t (mappingFields t m') (mappingContent row) := hask
  rw [hcontent] at hask
  exact mappingExportable_of_reads hv hp hask hown hown'

/-! ## What is exportable is restored -/

/-- The only row that meets a condition. -/
theorem filter_eq_singleton {rows : List NodeRow} {q : NodeRow → Bool} {n : NodeRow} (hrows : rows.Nodup)
    (hn : n ∈ rows) (h : ∀ r ∈ rows, q r = true ↔ r = n) : rows.filter q = [n] := by
  have hsame : rows.filter q = rows.filter (· == n) :=
    List.filter_congr fun r hr => by rw [Bool.eq_iff_iff, h r hr, beq_iff_eq]
  rw [hsame, List.filter_beq, List.count_eq_one_of_mem hrows hn]
  rfl

theorem nodesNamed_of_told (hv : t.Valid) (hp : t.Proper) {n : NodeRow} (hn : n ∈ t.nodes)
    (htrim : Js.trim n.name = n.name) {r : NamespaceRow} (hr : r ∈ t.namespaces) (hid : r.id = n.namespaceId)
    (htold : NamespaceTold t n r.name) : nodesNamed t n.name r.name = [n] := by
  have hrows : t.nodes.Nodup := List.Nodup.of_map _ hv.nodeIds
  rcases htold with ⟨hrtrim, hne⟩ | ⟨huntold, hunique⟩
  · rw [nodesNamed_told hv hp (by rw [hrtrim]; exact hne) hr hrtrim.symm, htrim]
    refine filter_eq_singleton hrows hn fun q hq => ?_
    rw [decide_eq_true_eq]
    constructor
    · rintro ⟨hname, hns⟩
      exact List.inj_on_of_nodup_map hv.nodeNames hq hn (by rw [hname, hns, hid])
    · rintro rfl
      exact ⟨rfl, hid.symm⟩
  · rw [nodesNamed_untold hv hp huntold, htrim]
    refine filter_eq_singleton hrows hn fun q hq => ?_
    rw [decide_eq_true_eq]
    exact ⟨hunique q hq, fun heq => by rw [heq]⟩

/-- The row of an exportable mapping asks for its content. -/
theorem MappingExportable.reads (hv : t.Valid) (hp : t.Proper) {m : Mapping} (h : MappingExportable t m) :
    Reads t (mappingFields t m) (mappingContent m) := by
  obtain ⟨c, before, after, hsplit, hid, htrim, hafter⟩ := h.connection
  obtain ⟨n, hn, hnode, hntrim, hnne, r, hr, hrid, htold⟩ := h.node
  obtain ⟨hfield, hnsField⟩ := mappingFields_node hv hp hn hnode hr hrid
  have hc : c ∈ t.connections := by
    have hmem : c ∈ findAllConnections t := by
      rw [hsplit]
      exact List.mem_append_right _ List.mem_cons_self
    exact mem_orderBy.mp hmem
  have hconn : (mappingFields t m).getD 0 "" = c.name := by
    simp [mappingFields, exportedConnection_eq hv hc hid]
  have hdescription : (mappingFields t m).getD 5 "" = m.description.getD "" := rfl
  refine ⟨?_, h.address.1, h.address.2, ?_, ⟨n, ?_, hnode⟩, ?_⟩
  · rw [hconn, htrim]
    exact (connectionNamed_eq_some hp).mpr ⟨c, before, after, hsplit, hid, rfl, hafter⟩
  · rw [hfield, hntrim]
    exact hnne
  · rw [hfield, hnsField]
    exact nodesNamed_of_told hv hp hn hntrim hr hrid htold
  · rw [hdescription]
    cases hd : m.description with
    | none => exact hd.trans (if_pos (by decide)).symm
    | some d =>
        obtain ⟨htrimmed, hne⟩ := h.description d hd
        rw [Option.getD_some, htrimmed, if_neg hne]
        exact hd

/-- The row that stands for a mapping after the import. -/
def restoredRow (ids : Nat → String) (now : String) (p : Mapping × Nat) : Mapping :=
  { p.1 with id := ids p.2, createdAt := now }

/-- The tables when some rows have been restored. -/
def restoredTables (t : Tables) (ids : Nat → String) (now : String) (pre : List Mapping) : Tables :=
  { t with mappings := pre.zipIdx.map (restoredRow ids now) }

theorem valid_restoredTables (hv : t.Valid) (hversion : t.migrated = true) (hids : Function.Injective ids)
    {pre : List Mapping} (hpre : pre <+: findAllMappings t) : (restoredTables t ids now pre).Valid := by
  have hmem : ∀ m ∈ pre, m ∈ t.mappings := fun m hm => (findAllMappings_perm t).mem_iff.mp (hpre.subset hm)
  exact { hv with
    mappingIds := Batch.nodup_numbered hids (fun _ _ => rfl) pre
    mappingAddresses := by
      change ((pre.zipIdx.map (restoredRow ids now)).map (fun m => (m.connectionId, m.deviceAddress))).Nodup
      rw [Batch.map_numbered (fun m => (m.connectionId, m.deviceAddress)) (fun _ _ => rfl)]
      exact (((findAllMappings_perm t).map _).nodup_iff.mpr hv.mappingAddresses).sublist (hpre.sublist.map _)
    mappedNodes := Or.inl hversion
    mappedNodesDiffer := Or.inl hversion
    mappingKeys := by
      intro row hrow
      obtain ⟨p, hp, rfl⟩ := List.mem_map.mp hrow
      exact hv.mappingKeys p.1 (hmem p.1 (List.fst_mem_of_mem_zipIdx hp)) }

theorem restoredTables_snoc (pre : List Mapping) (m : Mapping) : (restoredTables t ids now (pre ++ [m])).mappings =
    (restoredTables t ids now pre).mappings ++ [restoredRow ids now (m, pre.length)] := by
  rw [restoredTables, restoredTables, Batch.numbered_concat]

section Fresh
variable {m : Mapping} {pre post : List Mapping} (hall : findAllMappings t = pre ++ m :: post)
include hall

theorem restored_address_ne (hv : t.Valid) : ∀ row ∈ (restoredTables t ids now pre).mappings,
    (row.connectionId, row.deviceAddress) ≠ (m.connectionId, m.deviceAddress) := by
  have hnodup := ((findAllMappings_perm t).map (fun m => (m.connectionId, m.deviceAddress))).nodup_iff.mpr
    hv.mappingAddresses
  rw [hall] at hnodup
  exact Batch.fresh_numbered (fun m : Mapping => (m.connectionId, m.deviceAddress)) (fun _ _ => rfl) hnodup

theorem restored_nodeId_ne (hnodes : (t.mappings.filterMap (fun m => m.nodeId)).Nodup) {id : String}
    (hnode : m.nodeId = some id) : ∀ row ∈ (restoredTables t ids now pre).mappings, row.nodeId ≠ some id := by
  intro row hrow hsame
  obtain ⟨p, hp, rfl⟩ := List.mem_map.mp hrow
  have hnodup := ((findAllMappings_perm t).filterMap (fun m => m.nodeId)).nodup_iff.mpr hnodes
  rw [hall, List.filterMap_append, List.filterMap_cons_some hnode] at hnodup
  refine (List.nodup_append.mp hnodup).2.2 id ?_ id List.mem_cons_self rfl
  exact List.mem_filterMap.mpr ⟨p.1, List.fst_mem_of_mem_zipIdx hp, hsame⟩

end Fresh

/-- The row of an exportable mapping succeeds after those before it. -/
theorem restoreMapping_succeeds (hv : t.Valid) (hp : t.Proper) (hversion : t.migrated = true)
    (hids : Function.Injective ids) (hnodes : (t.mappings.filterMap (fun m => m.nodeId)).Nodup) {m : Mapping}
    (hexport : MappingExportable t m) {pre post : List Mapping} (hall : findAllMappings t = pre ++ m :: post) :
    restoreMapping t ids now (restoredTables t ids now pre) pre.length m =
      some (restoredTables t ids now (pre ++ [m])) := by
  have hvalid : (restoredTables t ids now (pre ++ [m])).Valid :=
    valid_restoredTables hv hversion hids ⟨post, by rw [hall]; simp⟩
  have hsnoc : { restoredTables t ids now pre with
      mappings := (restoredTables t ids now pre).mappings ++ [restoredRow ids now (m, pre.length)] } =
      restoredTables t ids now (pre ++ [m]) := by
    rw [← restoredTables_snoc]
    rfl
  have hasks : ∃ result, csvAttempt t (pre.length + 2) 2 (mappingFields t m) = .create (mappingContent m) result :=
    (csvAttempt_create_iff (by rw [length_mappingFields]; decide)).mpr (hexport.reads hv hp)
  obtain ⟨result, hattempt⟩ := hasks
  obtain ⟨n, hn, hnode, -⟩ := hexport.node
  have hm : m ∈ t.mappings := (findAllMappings_perm t).mem_iff.mp (hall ▸ List.mem_append_right _ List.mem_cons_self)
  obtain ⟨c, hc, hid⟩ := connection_of_mapping hv hm
  have hconnection : ¬ (ConnectorRepository.findConnectionById (restoredTables t ids now pre)
      m.connectionId).isNone = true := by
    rw [Option.isNone_iff_eq_none, ConnectorRepository.findConnectionById, List.find?_eq_none]
    exact fun h => h c hc (decide_eq_true hid)
  have hfree : ∀ row ∈ (restoredTables t ids now pre).mappings, row.nodeId ≠ some n.id :=
    restored_nodeId_ne hall hnodes hnode
  have hcheck : ConnectorRepository.checkNode (restoredTables t ids now pre) m.nodeId = none := by
    have hhas : (restoredTables t ids now pre).hasNode n.id = true :=
      List.any_eq_true.mpr ⟨n, hn, decide_eq_true rfl⟩
    rw [hnode]
    unfold ConnectorRepository.checkNode
    simp only
    rw [if_neg (hp.nodes n hn).1, hhas, findMappingByNodeId_none.mpr hfree]
    rfl
  have haddress : ConnectorRepository.findMappingByConnectionAndAddress (restoredTables t ids now pre)
      m.connectionId m.deviceAddress = none := by
    rw [ConnectorRepository.findMappingByConnectionAndAddress, List.find?_eq_none]
    intro row hrow
    rw [decide_eq_true_eq]
    exact fun hsame => restored_address_ne hall hv row hrow (Prod.ext hsame.1 hsame.2)
  have hinsert : (restoredTables t ids now pre).insertMapping (restoredRow ids now (m, pre.length)) =
      .ok (restoredTables t ids now (pre ++ [m])) := by
    rw [Tables.insertMapping, hsnoc]
    exact Tables.checked_eq_ok.mpr ⟨hvalid, rfl⟩
  have hcreate : ConnectorRepository.createMapping (restoredTables t ids now pre) (ids pre.length) now
      (mappingContent m) = .ok (restoredTables t ids now (pre ++ [m]), restoredRow ids now (m, pre.length)) := by
    unfold ConnectorRepository.createMapping
    rw [mappingContent, if_neg hconnection, hcheck]
    simp only
    rw [haddress, if_neg (by decide)]
    change (execute (Tables.insertMapping _ (restoredRow ids now (m, pre.length)))).map _ = _
    rw [hinsert]
    rfl
  rw [restoreMapping, hattempt, createAttempt, hcreate]
  rfl

/-- What is exportable is restored. -/
theorem restored_of_exportable (hv : t.Valid) (hp : t.Proper) (hversion : t.migrated = true)
    (hids : Function.Injective ids) (hnodes : (t.mappings.filterMap (fun m => m.nodeId)).Nodup)
    (hlines : ∀ m ∈ t.mappings, ∀ f ∈ mappingFields t m, '\n' ∉ f.toList) (hne : t.mappings ≠ [])
    (hexport : ∀ m ∈ t.mappings, MappingExportable t m) : MappingsRestored t ids now := by
  refine (mappingsRestored_iff hlines).mpr ⟨hne, ?_⟩
  have hall : Batch.all (restoreMapping t ids now) (restoredTables t ids now []) 0 (findAllMappings t) =
      some (restoredTables t ids now (findAllMappings t)) := by
    refine Batch.all_states fun pre m post hwhole => ?_
    have hm : m ∈ t.mappings :=
      (findAllMappings_perm t).mem_iff.mp (hwhole ▸ List.mem_append_right _ List.mem_cons_self)
    exact restoreMapping_succeeds hv hp hversion hids hnodes (hexport m hm) hwhole
  refine ⟨_, hall, fun c => ?_⟩
  change c ∈ ((findAllMappings t).zipIdx.map (restoredRow ids now)).map mappingContent ↔ _
  rw [Batch.map_numbered mappingContent (fun _ _ => rfl)]
  exact ((findAllMappings_perm t).map mappingContent).mem_iff

/-! ## Reachable states -/

theorem unnamed_of_proper {op : Operation} (h : op.Proper) : op.unnamed = false := by
  cases op with
  | createNode id request => exact decide_eq_false h.1
  | _ => rfl

theorem reach_uniquely {ops : List Operation} (hops : ∀ op ∈ ops, op.Proper) : Uniquely (Db.reach ops) :=
  Uniquely.run ⟨valid_empty false, rfl, List.nodup_nil⟩ fun op hop => unnamed_of_proper (hops op hop)

/-- **Mappings come back from their export.** At schema version 5, where no field has a line break, the import of
the exported text restores the mappings exactly if there are some and each of them is exportable. -/
theorem mappings_restored_iff {ops : List Operation} (hops : ∀ op ∈ ops, op.Proper)
    (hversion : (Db.reach ops).migrated = true) {ids : Nat → String} (hids : Function.Injective ids) (now : String)
    (hlines : ∀ m ∈ (Db.reach ops).mappings, ∀ f ∈ mappingFields (Db.reach ops) m, '\n' ∉ f.toList) :
    MappingsRestored (Db.reach ops) ids now ↔ (Db.reach ops).mappings ≠ [] ∧
      ∀ m ∈ (Db.reach ops).mappings, MappingExportable (Db.reach ops) m := by
  obtain ⟨hv, hp⟩ := reach_proper hops
  constructor
  · exact exportable_of_restored hv hp hlines
  · rintro ⟨hne, hexport⟩
    exact restored_of_exportable hv hp hversion hids (reach_uniquely hops).nodes hlines hne hexport

/-- Ids that differ. -/
def unaryId (n : Nat) : String := String.ofList (List.replicate n 'i')

theorem unaryId_injective : Function.Injective unaryId := by
  intro m n h
  have hlen := congrArg (fun s : String => s.toList.length) h
  simpa [unaryId] using hlen

/-- A node and a connection at version 5, and a mapping of one for the other. -/
def mappedOps (nodeId : Option String) : List Operation :=
  [.reopen, .createNamespace "ns" ⟨"Plant", none, "urn:plant"⟩,
    .createNode "n" ⟨some "Level", some "ns", none, some "Double", none, none⟩,
    .createConnection "c" "now" ⟨"s7", "Press", .obj [], none, none, none⟩,
    .createMapping "m" "now" ⟨"c", nodeId, "DB1,REAL0", none⟩]

theorem mappedOps_proper (nodeId : Option String) : ∀ op ∈ mappedOps nodeId, op.Proper := by
  simp [mappedOps, Operation.Proper]

theorem mappedOps_mappings (nodeId : Option String) (h : nodeId = some "n" ∨ nodeId = none) :
    (Db.reach (mappedOps nodeId)).mappings = [⟨"m", "c", nodeId, "DB1,REAL0", none, "now"⟩] := by
  rcases h with rfl | rfl <;> decide +kernel

theorem mappings_restored_one : MappingsRestored (Db.reach (mappedOps (some "n"))) unaryId "now" := by
  refine (mappings_restored_iff (mappedOps_proper _) (by decide +kernel) unaryId_injective "now"
    (by decide +kernel)).mpr ?_
  have hmappings := mappedOps_mappings (some "n") (Or.inl rfl)
  refine ⟨by rw [hmappings]; exact List.cons_ne_nil _ _, fun m hm => ?_⟩
  rw [hmappings] at hm
  rw [List.mem_singleton.mp hm]
  exact
    { connection := ⟨⟨"c", "s7", "Press", .obj [], 1000, 5000, true, "now"⟩, [], [], by decide +kernel, rfl,
        by decide +kernel, fun d hd => absurd hd List.not_mem_nil⟩
      address := by decide +kernel
      node := ⟨⟨"n", "ns", none, "Level", .double, none, none⟩, by decide +kernel, rfl, by decide +kernel,
        by decide +kernel, ⟨"ns", "Plant", none, "urn:plant"⟩, by decide +kernel, rfl, Or.inl (by decide +kernel)⟩
      description := fun d hd => by cases hd }

/-- A mapping without a node is not restored. -/
theorem unmapped_not_restored : (∀ op ∈ mappedOps none, op.Proper) ∧ (Db.reach (mappedOps none)).migrated = true ∧
    ¬ MappingsRestored (Db.reach (mappedOps none)) unaryId "now" := by
  refine ⟨mappedOps_proper none, by decide +kernel, fun h => ?_⟩
  obtain ⟨hv, hp⟩ := reach_proper (mappedOps_proper none)
  have hexport := (exportable_of_restored hv hp (by decide +kernel) h).2
  rw [mappedOps_mappings none (Or.inr rfl)] at hexport
  obtain ⟨n, -, hnode, -⟩ := (hexport _ List.mem_cons_self).node
  cases hnode

end OpcuaLight.Api
