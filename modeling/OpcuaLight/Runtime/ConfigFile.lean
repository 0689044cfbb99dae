import OpcuaLight.Config.Output
import OpcuaLight.Runtime.AddressSpace

/-!
# The configuration file in the runtime

`file_read_text`, `config_parse_file` and what the runtime looks up in the tree of cJSON. `cJSON_Parse` is a
parameter: it reads the texts of JavaScript up to its limit of nesting (`ReadsJson`).

* `parse_configFile` : of each state of the database the runtime reads the configuration that was generated,
  from the bytes that were written.
-/

namespace OpcuaLight.Runtime

open Binary (Datum binary64 truncate)
open Config (NamespaceConfig ObjectNodeConfig NodeConfig AddressSpaceConfig SecurityConfigOutput)
open Db (reach)

/-! ## cJSON -/

/-- `CJSON_NESTING_LIMIT`. -/
def nestingLimit : Nat := 1000

/-- `cJSON_Parse` reads what `JSON.stringify` writes, with and without a gap. -/
structure ReadsJson (cJsonParse : List UInt8 → Option Json) : Prop where
  line : ∀ v : Json, v.Canonical → v.depth ≤ nestingLimit → cJsonParse (Utf8.encode v.text) = some v
  pretty : ∀ gap, ∀ v : Json, v.Canonical → v.depth ≤ nestingLimit →
    cJsonParse (Utf8.encode (Json.pretty gap v).toList) = some v

/-- `cJSON_GetObjectItemCaseSensitive`: the first item with the key. -/
def getObjectItem (v : Json) (key : String) : Option Json :=
  match v with
  | .obj fields => (fields.find? (fun f => cString f.1 = key)).map (fun f => f.2)
  | _ => none

/-- The string of an item. -/
def stringItem (v : Json) (key : String) : Option String := (getObjectItem v key).bind getStringValue

/-- The items that `cJSON_ArrayForEach` goes through, if it is an array. -/
def arrayItems : Option Json → List Json
  | some (.arr items) => items
  | _ => []

def isArray : Option Json → Bool
  | some (.arr _) => true
  | _ => false

/-- `valueint`: the number without its fraction, within the range of an `int`. -/
def valueInt (q : ℚ) : Int :=
  match binary64.ofRat q with
  | .finite x => max (-2 ^ 31) (min (2 ^ 31 - 1) (truncate x))
  | .infinite true => -2 ^ 31
  | _ => 2 ^ 31 - 1

/-! ## What is looked up in the tree -/

def readVariable (v : Json) : VariableJson where
  name := stringItem v "name"
  nodeId := stringItem v "nodeId"
  dataType := stringItem v "dataType"
  parentPath := stringItem v "parentPath"
  initialValue := getObjectItem v "initialValue"

mutual

def readObjectNode : Json → ObjectJson
  | .obj fields => .mk (stringItem (.obj fields) "name") (stringItem (.obj fields) "path") (readChildren fields)
  | _ => .mk none none []

/-- The children among the fields of an object node. -/
def readChildren : List (String × Json) → List ObjectJson
  | [] => []
  | (key, v) :: fields => if cString key = "children" then readObjectNodes v else readChildren fields

def readObjectNodes : Json → List ObjectJson
  | .arr items => readObjectNodeItems items
  | _ => []

def readObjectNodeItems : List Json → List ObjectJson
  | [] => []
  | v :: items => readObjectNode v :: readObjectNodeItems items

end

def readNamespace (v : Json) : NamespaceJson where
  name := stringItem v "name"
  uri := stringItem v "uri"
  objectNodes := ((getObjectItem v "objectNodes").map readObjectNodes).getD []
  nodes := (arrayItems (getObjectItem v "nodes")).map readVariable

/-- The namespaces that the loops of `address_space_build` and `address_space_clear` go through. -/
def readConfig (root : Json) : List NamespaceJson := (arrayItems (getObjectItem root "namespaces")).map readNamespace

/-- The port of `server_create`. -/
def readPort (root : Json) : Nat :=
  match getObjectItem root "port" with
  | some (.num q) => if 0 < valueInt q ∧ valueInt q ≤ 65535 then (valueInt q).toNat else 4840
  | _ => 4840

/-- The strings of the security section. -/
structure SecurityJson where
  mode : Option String
  certificatePath : Option String
  privateKeyPath : Option String
  applicationUri : Option String
  pkiTrustedPath : Option String
  pkiRejectedPath : Option String
  deriving DecidableEq, Repr, Inhabited

/-- The security section, if it is an object. -/
def readSecurity (root : Json) : Option SecurityJson :=
  match getObjectItem root "security" with
  | some (.obj fields) => some
      { mode := stringItem (.obj fields) "mode"
        certificatePath := stringItem (.obj fields) "certificatePath"
        privateKeyPath := stringItem (.obj fields) "privateKeyPath"
        applicationUri := stringItem (.obj fields) "applicationUri"
        pkiTrustedPath := stringItem (.obj fields) "pkiTrustedPath"
        pkiRejectedPath := stringItem (.obj fields) "pkiRejectedPath" }
  | _ => none

/-! ## `file_io.c` and `config_parser.c` -/

/-- `file_read_text`, as a C string; there is no content if the file cannot be opened. -/
def fileReadText (content : Option (List UInt8)) : Option (List UInt8) :=
  content.map (fun bytes => bytes.takeWhile (· ≠ 0))

def configParseFile (cJsonParse : List UInt8 → Option Json) (content : Option (List UInt8)) : Option Json :=
  ((fileReadText content).bind cJsonParse).filter (fun root => isArray (getObjectItem root "namespaces"))

/-! ## `address_space_clearer.c` and `server.c` -/

/-- `address_space_clear`, with the content of the file when it reads that. -/
def addressSpaceClearFrom (cJsonParse : List UInt8 → Option Json) (S : Server) (content : Option (List UInt8)) :
    Server :=
  match (fileReadText content).bind cJsonParse with
  | none => S
  | some root => addressSpaceClear S (readConfig root)

/-- `handle_reload`, with the content of the file when it is parsed and when the address space is cleared. -/
def handleReloadFrom (cJsonParse : List UInt8 → Option Json) (ua : Ua) (S : Server)
    (parsed cleared : Option (List UInt8)) : Server :=
  match configParseFile cJsonParse parsed with
  | none => S
  | some root => addressSpaceBuild ua (addressSpaceClearFrom cJsonParse S cleared) (readConfig root)

/-- A reload that reads a configuration twice. -/
theorem handleReloadFrom_some {cJsonParse : List UInt8 → Option Json} {content : Option (List UInt8)} {root : Json}
    (h : configParseFile cJsonParse content = some root) (ua : Ua) (S : Server) :
    handleReloadFrom cJsonParse ua S content content = handleReload ua S (readConfig root) := by
  have hclear : (fileReadText content).bind cJsonParse = some root := by
    rw [configParseFile] at h
    exact (Option.filter_eq_some_iff.mp h).1
  rw [handleReloadFrom, h, addressSpaceClearFrom, hclear]
  rfl

/-- A file that is refused changes nothing. -/
theorem handleReloadFrom_none {cJsonParse : List UInt8 → Option Json} {parsed : Option (List UInt8)}
    (h : configParseFile cJsonParse parsed = none) (ua : Ua) (S : Server) (cleared : Option (List UInt8)) :
    handleReloadFrom cJsonParse ua S parsed cleared = S := by
  rw [handleReloadFrom, h]

/-! ## Reading what was written -/

/-- The security section as the runtime reads it. -/
def parseSecurity (s : SecurityConfigOutput) : SecurityJson where
  mode := some (cString s.mode)
  certificatePath := s.certificatePath.map cString
  privateKeyPath := s.privateKeyPath.map cString
  applicationUri := s.applicationUri.map cString
  pkiTrustedPath := s.pkiTrustedPath.map cString
  pkiRejectedPath := s.pkiRejectedPath.map cString

/-- An item among those that may be left out. -/
theorem getObjectItem_fieldOf {key : String} (v : Option Json) (fields : List (String × Json)) {k : String} :
    getObjectItem (.obj (Json.fieldOf key v ++ fields)) k =
      if cString key = k then v.or (getObjectItem (.obj fields) k) else getObjectItem (.obj fields) k := by
  cases v with
  | none =>
      rw [Json.fieldOf_none, List.nil_append, Option.none_or, ite_self]
  | some v =>
      rw [Json.fieldOf_some, List.singleton_append, getObjectItem, List.find?_cons]
      by_cases hk : cString key = k
      · rw [if_pos hk]
        simp [hk]
      · rw [if_neg hk]
        simp [hk, getObjectItem]

theorem getObjectItem_cons {key : String} (v : Json) (fields : List (String × Json)) {k : String} :
    getObjectItem (.obj ((key, v) :: fields)) k =
      if cString key = k then some v else getObjectItem (.obj fields) k := by
  have h : getObjectItem (.obj (Json.fieldOf key (some v) ++ fields)) k = _ := getObjectItem_fieldOf (some v) fields
  rwa [Json.fieldOf_some, List.singleton_append, Option.some_or] at h

theorem getObjectItem_nil (k : String) : getObjectItem (.obj []) k = none := rfl

theorem getObjectItem_last {key : String} (v : Option Json) {k : String} :
    getObjectItem (.obj (Json.fieldOf key v)) k = if cString key = k then v else none := by
  have h : getObjectItem (.obj (Json.fieldOf key v ++ [])) k = _ := getObjectItem_fieldOf v []
  rwa [List.append_nil, getObjectItem_nil, Option.or_none] at h

theorem readVariable_json (node : NodeConfig) : readVariable node.json = parseNode node := by
  simp +decide only [readVariable, parseNode, stringItem, NodeConfig.json, NodeConfig.fields, List.append_assoc,
    List.cons_append, List.nil_append, getObjectItem_cons, getObjectItem_fieldOf, getObjectItem_last, if_true,
    if_false, Option.or_none, Option.bind_some, getStringValue]

mutual

theorem readObjectNode_json : ∀ o : ObjectNodeConfig, readObjectNode o.json = parseObjectNode o
  | .mk name path children => by
      have hchildren := readObjectNodeItems_jsonAll children
      simp +decide only [ObjectNodeConfig.json, readObjectNode, readChildren, readObjectNodes, parseObjectNode,
        stringItem, getObjectItem_cons, if_true, if_false, Option.bind_some, getStringValue, hchildren]

theorem readObjectNodeItems_jsonAll : ∀ os : List ObjectNodeConfig,
    readObjectNodeItems (Config.jsonAll os) = parseObjectNodes os
  | [] => by rw [Config.jsonAll, readObjectNodeItems, parseObjectNodes]
  | o :: os => by
      rw [Config.jsonAll, readObjectNodeItems, parseObjectNodes, readObjectNode_json o,
        readObjectNodeItems_jsonAll os]

end

theorem readNamespace_json (ns : NamespaceConfig) : readNamespace ns.json = parseNamespace ns := by
  have hobjects := readObjectNodeItems_jsonAll ns.objectNodes
  have hnodes : (ns.nodes.map (fun node => node.json)).map readVariable = ns.nodes.map parseNode := by
    rw [List.map_map]
    exact List.map_congr_left fun node _ => readVariable_json node
  simp +decide only [readNamespace, parseNamespace, stringItem, NamespaceConfig.json, getObjectItem_cons, if_true,
    if_false, Option.bind_some, getStringValue, Option.map_some, Option.getD_some, readObjectNodes, hobjects,
    arrayItems, hnodes]

variable (config : AddressSpaceConfig) (generatedAt : String)

theorem namespaces_json : getObjectItem (config.json generatedAt) "namespaces" =
    some (.arr (config.namespaces.map (fun ns => ns.json))) := by
  simp +decide only [AddressSpaceConfig.json, getObjectItem_cons, if_true, if_false]

theorem readConfig_json : readConfig (config.json generatedAt) = parse config.namespaces := by
  rw [readConfig, namespaces_json, arrayItems, List.map_map]
  exact List.map_congr_left fun ns _ => readNamespace_json ns

theorem readSecurity_json : readSecurity (config.json generatedAt) = some (parseSecurity config.security) := by
  have hstring : ∀ s : Option String, (s.map Json.str).bind getStringValue = s.map cString := by
    intro s
    cases s <;> rfl
  simp +decide only [readSecurity, parseSecurity, AddressSpaceConfig.json, SecurityConfigOutput.json,
    SecurityConfigOutput.fields, List.append_assoc, List.cons_append, List.nil_append, getObjectItem_cons,
    getObjectItem_fieldOf, getObjectItem_last, if_true, if_false, stringItem, Option.bind_some, getStringValue,
    Option.or_none, hstring]

/-- A port of TCP is read as it is. -/
theorem valueInt_natCast {n : Nat} (h : n ≤ 65535) : valueInt n = n := by
  have hround : binary64.ofRat n = .finite n := Config.canonical_natCast (by omega)
  have htruncate : truncate (n : ℚ) = n := by exact_mod_cast Binary.truncate_intCast n
  rw [valueInt, hround]
  simp only [htruncate]
  omega

theorem readPort_json (hport : 0 < config.port ∧ config.port ≤ 65535) :
    readPort (config.json generatedAt) = config.port := by
  have hport' : getObjectItem (config.json generatedAt) "port" = some (.num config.port) := by
    simp +decide only [AddressSpaceConfig.json, getObjectItem_cons, if_true, if_false]
  rw [readPort, hport']
  simp only [valueInt_natCast hport.2]
  rw [if_pos (by omega), Int.toNat_natCast]

/-- No character of the text ends a C string. -/
theorem fileReadText_pretty {v : Json} (h : v.Canonical) (gap : Nat) :
    fileReadText (some (Utf8.encode (Json.pretty gap v).toList)) =
      some (Utf8.encode (Json.pretty gap v).toList) := by
  have hnul : ∀ b ∈ Utf8.encode (Json.pretty gap v).toList, (b ≠ 0 : Bool) = true := by
    intro b hb
    refine decide_eq_true fun hzero => ?_
    rw [hzero] at hb
    obtain ⟨c, hc, hcode⟩ := (Utf8.mem_encode_ascii (by decide)).mp hb
    rw [Json.pretty, String.toList_ofList] at hc
    rcases Json.prettyText_printable gap v 0 h c hc with rfl | hge
    · exact absurd hcode (by decide)
    · rw [hcode] at hge
      exact absurd hge (by decide)
  rw [fileReadText, Option.map_some, List.takeWhile_eq_self_iff.mpr hnul]

/-- What the runtime reads of a generated file, if it does not refuse it. -/
theorem configParseFile_of_reads {cJsonParse : List UInt8 → Option Json} {v : Json} (hv : v.Canonical)
    (hparse : ∀ u, cJsonParse (Utf8.encode (Json.pretty 2 v).toList) = some u → u = v) {root : Json}
    (h : configParseFile cJsonParse (some (Utf8.encode (Json.pretty 2 v).toList)) = some root) : root = v := by
  rw [configParseFile, fileReadText_pretty hv, Option.bind_some] at h
  exact hparse root (Option.filter_eq_some_iff.mp h).1

theorem configParseFile_written {cJsonParse : List UInt8 → Option Json} (hparse : ReadsJson cJsonParse)
    {generatedAt : String} {config : AddressSpaceConfig}
    (h : Config.Fits nestingLimit (config.json generatedAt)) :
    configParseFile cJsonParse (some (Config.writeToFile generatedAt config)) = some (config.json generatedAt) := by
  rw [configParseFile, Config.writeToFile, fileReadText_pretty h.1, Option.bind_some,
    hparse.pretty 2 _ h.1 h.2, Option.filter_some, namespaces_json]
  rfl

/-- **The runtime reads what the generator wrote.** In every state of the database whose values are nested within
995 levels, the file is accepted, and its namespaces, its port and its security section are those of the
configuration, as C strings. -/
theorem parse_configFile {cJsonParse : List UInt8 → Option Json} (hparse : ReadsJson cJsonParse)
    {ops : List Db.Operation} (hops : ∀ op ∈ ops, op.Values (Config.Fits 995)) {env : Config.Env}
    (hport : 0 < env.port ∧ env.port ≤ 65535) {security : Option Config.SecurityConfigRow}
    {config : AddressSpaceConfig}
    (hconfig : Config.addressSpaceConfig env ⟨reach ops, security⟩ = some config) (generatedAt : String) :
    ∃ root, configParseFile cJsonParse (some (Config.writeToFile generatedAt config)) = some root ∧
      readConfig root = parse config.namespaces ∧ readPort root = env.port ∧
      readSecurity root = some (parseSecurity config.security) := by
  have hfits : Config.Fits nestingLimit (config.json generatedAt) :=
    Config.json_fits (Db.reach_values hops) (by omega) hconfig generatedAt
  have hport' : config.port = env.port := by
    obtain ⟨namespaces, -, rfl⟩ := Option.map_eq_some_iff.mp hconfig
    rfl
  refine ⟨config.json generatedAt, configParseFile_written hparse hfits, readConfig_json config generatedAt, ?_,
    readSecurity_json config generatedAt⟩
  rw [readPort_json config generatedAt (hport' ▸ hport), hport']

/-- A parser that reads every text as `JSON.parse` does. -/
def readJson (bytes : List UInt8) : Option Json := (Utf8.decode bytes).bind (fun cs => Json.parse (String.ofList cs))

theorem readJson_pretty (gap : Nat) {v : Json} (hv : v.Canonical) :
    readJson (Utf8.encode (Json.pretty gap v).toList) = some v := by
  rw [readJson, Utf8.decode_encode, Option.bind_some, String.ofList_toList]
  exact Json.parse_pretty gap hv

theorem readsJson_readJson : ReadsJson readJson where
  line v hv _ := by
    rw [readJson, Utf8.decode_encode, Option.bind_some]
    exact Json.parse_stringify hv
  pretty gap _ hv _ := readJson_pretty gap hv

/-- A namespace with an object node, and a variable below it with an initial value and a mapping. -/
def plantOps : List Db.Operation :=
  [.createNamespace "n1" ⟨"Plant", none, "urn:plant"⟩, .createObjectNode "o1" ⟨"n1", none, "Hall"⟩,
   .createNode "v1" ⟨some "Speed", some "n1", some "o1", some "Double", some (.num 2), none⟩,
   .createConnection "c1" "2024-05-01T08:00:00.000Z" ⟨"s7", "Press", .obj [("host", .str "10.0.0.7")], none, none, none⟩,
   .createMapping "m1" "2024-05-01T08:00:00.000Z" ⟨"c1", some "v1", "DB1,REAL0", none⟩]

def plantEnv : Config.Env := ⟨4841, fun path => "/srv/" ++ path, fun _ => true⟩

theorem plantOps_values : ∀ op ∈ plantOps, op.Values (Config.Fits 995) := by
  simp only [plantOps, List.forall_mem_cons, List.not_mem_nil, false_implies, implies_true, and_true]
  refine ⟨trivial, trivial, fun v hv => ?_, ⟨⟨by decide, trivial, trivial⟩, by decide⟩, trivial⟩
  rw [← Option.some.inj hv]
  exact ⟨Config.canonical_natCast (n := 2) (by decide), Nat.zero_le _⟩

theorem parse_configFile_plant :
    ∃ config, Config.addressSpaceConfig plantEnv ⟨reach plantOps, none⟩ = some config ∧
      ∃ root, configParseFile readJson (some (Config.writeToFile "2024-05-01T08:00:00.000Z" config)) = some root ∧
        (readConfig root).length = 1 ∧ readPort root = 4841 := by
  have hsome : (Config.addressSpaceConfig plantEnv ⟨reach plantOps, none⟩).isSome = true := by decide
  obtain ⟨config, hconfig⟩ := Option.isSome_iff_exists.mp hsome
  have hlength : config.namespaces.length = 1 := by
    obtain ⟨namespaces, hgen, rfl⟩ := Option.map_eq_some_iff.mp hconfig
    have huris := congrArg List.length (Config.generate_uris hgen)
    rw [List.length_map, List.length_map] at huris
    exact huris.trans (by decide)
  obtain ⟨root, hroot, hread, hport, -⟩ := parse_configFile readsJson_readJson plantOps_values (by decide) hconfig
    "2024-05-01T08:00:00.000Z"
  exact ⟨config, hconfig, root, hroot, by rw [hread, parse, List.length_map, hlength], hport⟩

end OpcuaLight.Runtime
