import OpcuaLight.Config.Builders
import OpcuaLight.Config.Security
import OpcuaLight.Db.Values
import OpcuaLight.Lib.Doubles
import OpcuaLight.Lib.JsonPretty
import OpcuaLight.Lib.Utf8

/-!
# The configuration file

`ConfigGenerator.writeToFile`: the configuration as an object of JavaScript, without the fields that are
`undefined`, and the bytes of its text. `generatedAt` is an argument here.

A configuration of a state is nested as deep as its initial values and the hosts of its connections, and up
to five levels of object nodes (`json_fits`).
-/

namespace OpcuaLight.Config

open Db
open Json (fieldOf mem_fieldOf fieldOf_keys)

def ConnectorMappingConfig.json (m : ConnectorMappingConfig) : Json :=
  .obj [("connectionType", .str m.connectionType), ("connectionHost", m.connectionHost),
    ("deviceAddress", .str m.deviceAddress)]

def S7MappingConfig.json (m : S7MappingConfig) : Json :=
  .obj [("connectionHost", m.connectionHost), ("plcAddress", .str m.plcAddress)]

def NodeConfig.fields (node : NodeConfig) : List (String × Json) :=
  [("name", .str node.name), ("nodeId", .str node.nodeId), ("dataType", .str node.dataType.name),
    ("parentPath", .str node.parentPath)] ++ fieldOf "initialValue" node.initialValue ++
    fieldOf "connectorMapping" (node.connectorMapping.map (fun m => m.json)) ++
    fieldOf "s7Mapping" (node.s7Mapping.map (fun m => m.json))

def NodeConfig.json (node : NodeConfig) : Json := .obj node.fields

mutual

def ObjectNodeConfig.json : ObjectNodeConfig → Json
  | .mk name path children => .obj [("name", .str name), ("path", .str path), ("children", .arr (jsonAll children))]

def jsonAll : List ObjectNodeConfig → List Json
  | [] => []
  | o :: os => o.json :: jsonAll os

end

def NamespaceConfig.json (ns : NamespaceConfig) : Json :=
  .obj [("name", .str ns.name), ("uri", .str ns.uri), ("objectNodes", .arr (jsonAll ns.objectNodes)),
    ("nodes", .arr (ns.nodes.map (fun node => node.json)))]

def SecurityConfigOutput.fields (s : SecurityConfigOutput) : List (String × Json) :=
  [("mode", .str s.mode)] ++ fieldOf "certificatePath" (s.certificatePath.map .str) ++
    fieldOf "privateKeyPath" (s.privateKeyPath.map .str) ++
    fieldOf "applicationUri" (s.applicationUri.map .str) ++
    fieldOf "pkiTrustedPath" (s.pkiTrustedPath.map .str) ++ fieldOf "pkiRejectedPath" (s.pkiRejectedPath.map .str)

def SecurityConfigOutput.json (s : SecurityConfigOutput) : Json := .obj s.fields

def AddressSpaceConfig.json (generatedAt : String) (config : AddressSpaceConfig) : Json :=
  .obj [("version", .num config.version), ("generatedAt", .str generatedAt), ("port", .num config.port),
    ("security", config.security.json), ("namespaces", .arr (config.namespaces.map (fun ns => ns.json)))]

/-- The file that `writeToFile` writes. -/
def writeToFile (generatedAt : String) (config : AddressSpaceConfig) : List UInt8 :=
  Utf8.encode (Json.pretty 2 (config.json generatedAt)).toList

/-! ## Its values -/

theorem NodeConfig.nodup_keys (node : NodeConfig) : (node.fields.map Prod.fst).Nodup := by
  have hsub : (node.fields.map Prod.fst).Sublist (["name", "nodeId", "dataType", "parentPath"] ++
      ["initialValue"] ++ ["connectorMapping"] ++ ["s7Mapping"]) := by
    rw [NodeConfig.fields, List.map_append, List.map_append, List.map_append]
    exact (((List.Sublist.refl _).append (fieldOf_keys _ _)).append (fieldOf_keys _ _)).append
      (fieldOf_keys _ _)
  exact List.Nodup.sublist hsub (by decide)

theorem SecurityConfigOutput.nodup_keys (s : SecurityConfigOutput) : (s.fields.map Prod.fst).Nodup := by
  have hsub : (s.fields.map Prod.fst).Sublist (["mode"] ++ ["certificatePath"] ++ ["privateKeyPath"] ++
      ["applicationUri"] ++ ["pkiTrustedPath"] ++ ["pkiRejectedPath"]) := by
    simp only [SecurityConfigOutput.fields, List.map_append]
    exact (((((List.Sublist.refl _).append (fieldOf_keys _ _)).append (fieldOf_keys _ _)).append
      (fieldOf_keys _ _)).append (fieldOf_keys _ _)).append (fieldOf_keys _ _)
  exact List.Nodup.sublist hsub (by decide)

/-- A JSON value of doubles with at most `n` levels. -/
def Fits (n : Nat) (v : Json) : Prop := v.Canonical ∧ v.depth ≤ n

/-- The JSON values of a node entry. -/
structure NodeConfig.Fits (n : Nat) (node : NodeConfig) : Prop where
  initialValue : ∀ v ∈ node.initialValue, Config.Fits n v
  connectorMapping : ∀ m ∈ node.connectorMapping, Config.Fits (n - 1) m.connectionHost
  s7Mapping : ∀ m ∈ node.s7Mapping, Config.Fits (n - 1) m.connectionHost

theorem fits_str (n : Nat) (s : String) : Fits n (.str s) := ⟨trivial, Nat.zero_le n⟩

/-- The value of a property is a level less deep than the object. -/
theorem Fits.field {n : Nat} {v w : Json} {key : String} (h : Fits n v) (hw : v.field key = some w) :
    Fits (n - 1) w := by
  cases v with
  | obj fields =>
      obtain ⟨f, hf, rfl⟩ := Json.mem_of_field hw
      have hdepth : Json.depthFields fields + 1 ≤ n := h.2
      exact ⟨Json.canonicalFields_iff.mp h.1.2 f hf, by have hle := Json.depth_le_of_mem hf; omega⟩
  | _ => cases hw

theorem fits_host {n : Nat} {params : Json} (h : Fits n params) :
    Fits (n - 1) (Json.orElse (params.field "host") (.str "")) := by
  cases hw : params.field "host" with
  | none => exact fits_str _ _
  | some w =>
      cases w with
      | null => exact fits_str _ _
      | _ => exact h.field hw

theorem loadMappings_fits {t : Tables} {n : Nat} (h : t.Values (Fits n)) {namespaceId : String}
    {mappings : String → Option ConnectorMappingConfig} (hm : loadMappings t namespaceId = some mappings)
    {nodeId : String} {m : ConnectorMappingConfig} (hmem : mappings nodeId = some m) :
    Fits (n - 1) m.connectionHost := by
  unfold loadMappings at hm
  simp only at hm
  split_ifs at hm
  rw [← Option.some.inj hm] at hmem
  obtain ⟨row, hrow, rfl⟩ := Option.map_eq_some_iff.mp hmem
  have hin : row ∈ mappingRows t namespaceId :=
    List.mem_reverse.mp (List.mem_of_find?_eq_some hrow)
  obtain ⟨mapping, -, hin⟩ := List.mem_flatMap.mp hin
  obtain ⟨c, hc, hin⟩ := List.mem_flatMap.mp hin
  obtain ⟨node, -, rfl⟩ := List.mem_map.mp hin
  exact fits_host (h.connections c (List.mem_of_mem_filter hc))

/-- The entries have the values of the tables. -/
theorem toNodeConfig_fits {t : Tables} {n : Nat} (h : t.Values (Fits n)) {namespaceId namespaceName : String}
    {mappings : String → Option ConnectorMappingConfig} (hm : loadMappings t namespaceId = some mappings)
    (rows : List ObjectNodeRow) (nsIndex : Nat) {node : NodeRow} (hnode : node ∈ t.nodes) :
    (toNodeConfig rows mappings namespaceName nsIndex node).Fits n where
  initialValue := h.nodes node hnode
  connectorMapping m hmem := loadMappings_fits h hm hmem
  s7Mapping m hmem := by
    obtain ⟨m', hm', hmem⟩ := Option.bind_eq_some_iff.mp hmem
    unfold s7Mapping at hmem
    split_ifs at hmem
    rw [← Option.some.inj hmem]
    exact loadMappings_fits h hm hm'

/-! ## The levels of object nodes -/

theorem jsonAll_eq (os : List ObjectNodeConfig) : jsonAll os = os.map (fun o => o.json) := by
  induction os with
  | nil => rw [jsonAll, List.map_nil]
  | cons o os ih => rw [jsonAll, ih, List.map_cons]

theorem rank_le_four {all rows : List ObjectNodeRow} (hn : (all.map (fun r => r.id)).Nodup) (hsub : rows ⊆ all)
    (hup : ∀ r ∈ all, ReachesRoot all 5 r.id) : ∀ r ∈ rows, rank rows r ≤ 4 := by
  intro r hr
  have hway := (hup r (hsub hr)).detach hn hsub ⟨r, hr, rfl⟩
  exact Nat.sInf_le hway

/-- An entry is canonical, with two levels for each level of object nodes from its own on. -/
theorem toObjectNodeConfig_fits {rows : List ObjectNodeRow} (hn : (rows.map (fun r => r.id)).Nodup)
    (hup : ∀ r ∈ rows, ReachesRoot (detach rows) rows.length r.id) (hrank : ∀ r ∈ rows, rank rows r ≤ 4)
    (namespaceName : String) (fuel : Nat) : ∀ r ∈ rows,
      Fits (2 * (5 - rank rows r)) (toObjectNodeConfig rows namespaceName fuel r).json := by
  have hkeys : ["name", "path", "children"].Nodup := by decide
  induction fuel with
  | zero =>
      intro r hr
      have hle := hrank r hr
      rw [toObjectNodeConfig, ObjectNodeConfig.json, jsonAll]
      refine ⟨⟨hkeys, trivial, trivial, trivial, trivial⟩, ?_⟩
      simp only [Json.depth, Json.depthFields, Json.depthItems]
      omega
  | succ fuel ih =>
      intro r hr
      have hle := hrank r hr
      have hchildren : ∀ o ∈ (childRows rows r.id).map (toObjectNodeConfig rows namespaceName fuel),
          Fits (2 * (5 - rank rows r) - 2) o.json := by
        intro o ho
        obtain ⟨s, hs, rfl⟩ := List.mem_map.mp ho
        have hlineage := lineage hn hup
        obtain ⟨hs, hpar⟩ := (hlineage.mem_children hr).mp hs
        have hnext := hlineage.rank_child hs hpar
        have hfits := ih s hs
        rw [hnext] at hfits
        exact ⟨hfits.1, hfits.2.trans (by omega)⟩
      rw [toObjectNodeConfig, ObjectNodeConfig.json, jsonAll_eq]
      refine ⟨⟨hkeys, trivial, trivial, ?_, trivial⟩, ?_⟩
      · refine Json.canonicalItems_iff.mpr fun v hv => ?_
        obtain ⟨o, ho, rfl⟩ := List.mem_map.mp hv
        exact (hchildren o ho).1
      · have hitems : Json.depthItems (((childRows rows r.id).map
            (toObjectNodeConfig rows namespaceName fuel)).map (fun o => o.json)) ≤
              2 * (5 - rank rows r) - 2 := by
          refine Json.depthItems_le fun v hv => ?_
          obtain ⟨o, ho, rfl⟩ := List.mem_map.mp hv
          exact (hchildren o ho).2
        simp only [Json.depth, Json.depthFields]
        omega

/-! ## The configuration of a state -/

theorem ConnectorMappingConfig.json_fits {n : Nat} {m : ConnectorMappingConfig} (h : Fits n m.connectionHost) :
    Fits (n + 1) m.json := by
  refine ⟨⟨by show ["connectionType", "connectionHost", "deviceAddress"].Nodup; decide, trivial, h.1, trivial,
    trivial⟩, ?_⟩
  have hdepth := h.2
  simp only [ConnectorMappingConfig.json, Json.depth, Json.depthFields]
  omega

theorem S7MappingConfig.json_fits {n : Nat} {m : S7MappingConfig} (h : Fits n m.connectionHost) :
    Fits (n + 1) m.json := by
  refine ⟨⟨by show ["connectionHost", "plcAddress"].Nodup; decide, h.1, trivial, trivial⟩, ?_⟩
  have hdepth := h.2
  simp only [S7MappingConfig.json, Json.depth, Json.depthFields]
  omega

/-- The values of the entry are as deep as those of the tables, or mappings. -/
theorem NodeConfig.Fits.fields {n : Nat} {node : NodeConfig} (h : node.Fits n) :
    ∀ f ∈ node.fields, Config.Fits (max n 1) f.2 := by
  have hmap : ∀ {α : Type} {key : String} {o : Option α} {g : α → Json},
      (∀ m ∈ o, Config.Fits (max n 1) (g m)) → ∀ f ∈ fieldOf key (o.map g), Config.Fits (max n 1) f.2 := by
    intro α key o g ho f hf
    obtain ⟨m, hm, hfm⟩ := Option.map_eq_some_iff.mp (mem_fieldOf.mp hf).2
    rw [← hfm]
    exact ho m hm
  have hstep : ∀ {v : Json}, Config.Fits (n - 1 + 1) v → Config.Fits (max n 1) v :=
    fun hv => ⟨hv.1, hv.2.trans (by omega)⟩
  intro f hf
  rw [NodeConfig.fields, List.mem_append, List.mem_append, List.mem_append] at hf
  rcases hf with ((hf | hf) | hf) | hf
  · simp only [List.mem_cons, List.not_mem_nil, or_false] at hf
    rcases hf with rfl | rfl | rfl | rfl <;> exact fits_str _ _
  · have hv := h.initialValue f.2 (mem_fieldOf.mp hf).2
    exact ⟨hv.1, hv.2.trans (Nat.le_max_left n 1)⟩
  · exact hmap (fun m hm => hstep (ConnectorMappingConfig.json_fits (h.connectorMapping m hm))) f hf
  · exact hmap (fun m hm => hstep (S7MappingConfig.json_fits (h.s7Mapping m hm))) f hf

theorem NodeConfig.Fits.json {n : Nat} {node : NodeConfig} (h : node.Fits n) :
    Config.Fits (max n 1 + 1) node.json :=
  ⟨⟨node.nodup_keys, Json.canonicalFields_iff.mpr fun f hf => (h.fields f hf).1⟩,
    Nat.succ_le_succ (Json.depthFields_le fun f hf => (h.fields f hf).2)⟩

theorem NamespaceConfig.json_fits {n : Nat} {ns : NamespaceConfig}
    (hobjects : ∀ o ∈ ns.objectNodes, Fits 10 o.json) (hnodes : ∀ node ∈ ns.nodes, node.Fits n) :
    Fits (max 10 (n + 1) + 2) ns.json := by
  have hobjects' : ∀ v ∈ jsonAll ns.objectNodes, Fits 10 v := by
    rw [jsonAll_eq]
    exact List.forall_mem_map.mpr hobjects
  have hnodes' : ∀ v ∈ ns.nodes.map (fun node => node.json), Fits (max n 1 + 1) v :=
    List.forall_mem_map.mpr fun node hnode => (hnodes node hnode).json
  refine ⟨⟨by show ["name", "uri", "objectNodes", "nodes"].Nodup; decide, trivial, trivial,
    Json.canonicalItems_iff.mpr fun v hv => (hobjects' v hv).1,
    Json.canonicalItems_iff.mpr fun v hv => (hnodes' v hv).1, trivial⟩, ?_⟩
  have hdepth := Json.depthItems_le fun v hv => (hobjects' v hv).2
  have hdepth' := Json.depthItems_le fun v hv => (hnodes' v hv).2
  simp only [NamespaceConfig.json, Json.depth, Json.depthFields]
  omega

theorem SecurityConfigOutput.json_fits (s : SecurityConfigOutput) : Fits 1 s.json := by
  have hstr : ∀ f ∈ s.fields, ∃ text, f.2 = .str text := by
    have hfield : ∀ {key : String} {o : Option String}, ∀ f ∈ fieldOf key (o.map .str), ∃ text, f.2 = .str text := by
      intro key o f hf
      obtain ⟨text, -, htext⟩ := Option.map_eq_some_iff.mp (mem_fieldOf.mp hf).2
      exact ⟨text, htext.symm⟩
    simp only [SecurityConfigOutput.fields, List.forall_mem_append]
    exact ⟨⟨⟨⟨⟨List.forall_mem_singleton.mpr ⟨s.mode, rfl⟩, hfield⟩, hfield⟩, hfield⟩, hfield⟩, hfield⟩
  refine ⟨⟨s.nodup_keys, Json.canonicalFields_iff.mpr fun f hf => ?_⟩,
    Nat.succ_le_succ (Json.depthFields_le fun f hf => ?_)⟩
  · obtain ⟨text, htext⟩ := hstr f hf
    rw [htext]
    trivial
  · obtain ⟨text, htext⟩ := hstr f hf
    rw [htext]
    exact Nat.le_refl 0

theorem canonical_natCast {n : Nat} (h : n < 2 ^ 53) : (Json.num n).Canonical := by
  have hint := @Json.canonical_intCast n (by rw [Nat.abs_cast]; exact_mod_cast h)
  rwa [Int.cast_natCast] at hint

/-- The namespaces of a generated configuration. -/
theorem generate_fits {ops : List Operation} {n : Nat} (h : (reach ops).Values (Fits n))
    {namespaces : List NamespaceConfig} (hgen : generate (reach ops) = some namespaces) :
    ∀ ns ∈ namespaces, Fits (max 10 (n + 1) + 2) ns.json := by
  intro c hc
  obtain ⟨i, hi⟩ := List.getElem?_of_mem hc
  obtain ⟨ns, -, hns⟩ := (generate_entry hgen).mp hi
  obtain ⟨mappings, hmappings, rfl⟩ := buildNamespace_eq_some hns
  have hv := reach_valid ops
  have hn := namespaceRows_nodup hv ns.id
  refine NamespaceConfig.json_fits ?_ ?_
  · intro o ho
    obtain ⟨r, hr, rfl⟩ := List.mem_map.mp ho
    have hfits := toObjectNodeConfig_fits hn (buildObjectNodeTree_way ops ns.id)
      (rank_le_four hv.objectNodeIds (namespaceRows_subset _ _) (reach_bounded ops)) ns.name
      (buildObjectNodeTree (reach ops) ns.id).length r (List.mem_of_mem_filter hr)
    exact ⟨hfits.1, hfits.2.trans (by omega)⟩
  · intro node hnode
    obtain ⟨r, hr, rfl⟩ := List.mem_map.mp hnode
    exact toNodeConfig_fits h hmappings _ _ (mem_nodeRows.mp hr).1

/-- **The configuration of a state fits** if the values in its tables do, under a bound on the port. -/
theorem json_fits {ops : List Operation} {n : Nat} (h : (reach ops).Values (Fits n)) {env : Env}
    (hport : env.port < 2 ^ 53) {security : Option SecurityConfigRow} {config : AddressSpaceConfig}
    (hconfig : addressSpaceConfig env ⟨reach ops, security⟩ = some config) (generatedAt : String) :
    Fits (max 14 (n + 5)) (config.json generatedAt) := by
  obtain ⟨namespaces, hgen, rfl⟩ := Option.map_eq_some_iff.mp hconfig
  have hnamespaces : ∀ v ∈ namespaces.map (fun ns => ns.json), Fits (max 10 (n + 1) + 2) v :=
    List.forall_mem_map.mpr (generate_fits h hgen)
  have hsecurity := (buildSecurityConfig env security).json_fits
  refine ⟨⟨by show ["version", "generatedAt", "port", "security", "namespaces"].Nodup; decide,
    canonical_natCast (by show 1 < _; decide), trivial, canonical_natCast hport, hsecurity.1,
    Json.canonicalItems_iff.mpr fun v hv => (hnamespaces v hv).1, trivial⟩, ?_⟩
  have hdepth := Json.depthItems_le fun v hv => (hnamespaces v hv).2
  have hdepth' := hsecurity.2
  simp only [AddressSpaceConfig.json, Json.depth, Json.depthFields] at hdepth' ⊢
  omega

end OpcuaLight.Config
