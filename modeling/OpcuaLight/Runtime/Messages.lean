import OpcuaLight.Lib.Dates
import OpcuaLight.Runtime.ConfigFile
import OpcuaLight.Runtime.Framing

/-!
# The bytes on stdin

The messages of the bridge and of the TOFU manager as they are written, and `apply_value_update` on a line as
cJSON reads it. A message of the bridge does what its entries do (`applyLine_message`), and one of the TOFU manager
does nothing.
-/

namespace OpcuaLight.Runtime

open Connector (Entry Quality)
open Json (fieldOf mem_fieldOf fieldOf_keys)

/-! ## `ipc-bridge.ts` and `tofu-manager.ts` -/

def qualityText : Quality → String
  | .good => "good"
  | .bad => "bad"

/-- The fields that `handleValueUpdates` gives an update. -/
def entryFields (e : Entry) : List (String × Json) :=
  fieldOf "nodeId" (e.nodeId.map .str) ++ fieldOf "value" e.update.value ++
    [("quality", .str (qualityText e.update.quality)), ("timestamp", .str (Dates.toISOString e.update.timestamp))]

def entryJson (e : Entry) : Json := .obj (entryFields e)

/-- A message to the runtime. -/
inductive Message where
  | valueUpdate (entries : List Entry)
  | trustStoreReload

def Message.json : Message → Json
  | .valueUpdate entries => .obj [("type", .str "value_update"), ("updates", .arr (entries.map entryJson))]
  | .trustStoreReload => .obj [("type", .str "trust_store_reload")]

/-- `JSON.stringify(message)`, without the newline that is written behind it. -/
def Message.line (m : Message) : List UInt8 := Utf8.encode m.json.text

/-- The updates of the message. -/
def Message.entries : Message → List Entry
  | .valueUpdate entries => entries
  | .trustStoreReload => []

/-! ## `ipc_processor.c` -/

/-- What an update writes, if anything. -/
def updateItemValue (v : Json) : Option WriteValue :=
  if stringItem v "quality" = some "bad" then some .badNotConnected
  else ((getObjectItem v "value").bind updateVariant).map .good

/-- The body of the loop of `apply_value_update`. -/
def applyUpdateItem (ua : Ua) (S : Server) (v : Json) : Server :=
  match (stringItem v "nodeId").bind parseNodeIdString, updateItemValue v with
  | some id, some wv => S.write ua id wv
  | _, _ => S

/-- `apply_value_update` on the line that cJSON has read. -/
def applyMessage (ua : Ua) (S : Server) (root : Json) : Server :=
  match stringItem root "type" with
  | none => S
  | some type =>
      if type = "trust_store_reload" then S
      else if type ≠ "value_update" then S
      else (arrayItems (getObjectItem root "updates")).foldl (applyUpdateItem ua) S

def applyLine (cJsonParse : List UInt8 → Option Json) (ua : Ua) (S : Server) (line : List UInt8) : Server :=
  match cJsonParse line with
  | none => S
  | some root => applyMessage ua S root

/-! ## Reading what was written -/

/-- The values of the message are canonical and its nesting is within the limit of cJSON, and the line fits the
buffer. -/
structure Message.Sendable (m : Message) : Prop where
  values : ∀ e ∈ m.entries, ∀ v ∈ e.update.value, Config.Fits 997 v
  length : m.line.length ≤ 65534

theorem entryFields_fits {e : Entry} {n : Nat} (h : ∀ v ∈ e.update.value, Config.Fits n v) :
    ∀ f ∈ entryFields e, Config.Fits n f.2 := by
  intro f hf
  rw [entryFields, List.mem_append, List.mem_append] at hf
  rcases hf with (hf | hf) | hf
  · obtain ⟨text, -, htext⟩ := Option.map_eq_some_iff.mp (mem_fieldOf.mp hf).2
    rw [← htext]
    exact Config.fits_str n text
  · exact h f.2 (mem_fieldOf.mp hf).2
  · simp only [List.mem_cons, List.not_mem_nil, or_false] at hf
    rcases hf with rfl | rfl <;> exact Config.fits_str n _

theorem entryJson_fits {e : Entry} {n : Nat} (h : ∀ v ∈ e.update.value, Config.Fits n v) :
    Config.Fits (n + 1) (entryJson e) := by
  have hsub : ((entryFields e).map Prod.fst).Sublist (["nodeId"] ++ ["value"] ++ ["quality", "timestamp"]) := by
    rw [entryFields, List.map_append, List.map_append]
    exact ((fieldOf_keys _ _).append (fieldOf_keys _ _)).append (List.Sublist.refl _)
  have hfields := entryFields_fits h
  exact ⟨⟨List.Nodup.sublist hsub (by decide), Json.canonicalFields_iff.mpr fun f hf => (hfields f hf).1⟩,
    Nat.succ_le_succ (Json.depthFields_le fun f hf => (hfields f hf).2)⟩

theorem Message.json_fits {m : Message} {n : Nat} (h : ∀ e ∈ m.entries, ∀ v ∈ e.update.value, Config.Fits n v) :
    Config.Fits (n + 3) m.json := by
  cases m with
  | trustStoreReload =>
      refine ⟨⟨by show ["type"].Nodup; decide, trivial, trivial⟩, ?_⟩
      simp only [Message.json, Json.depth, Json.depthFields]
      omega
  | valueUpdate entries =>
      have hitems : ∀ v ∈ entries.map entryJson, Config.Fits (n + 1) v :=
        List.forall_mem_map.mpr fun e he => entryJson_fits (h e he)
      refine ⟨⟨by show ["type", "updates"].Nodup; decide, trivial,
        Json.canonicalItems_iff.mpr fun v hv => (hitems v hv).1, trivial⟩, ?_⟩
      have hdepth := Json.depthItems_le fun v hv => (hitems v hv).2
      simp only [Message.json, Json.depth, Json.depthFields]
      omega

/-- An update is applied as its entry is. -/
theorem applyUpdateItem_json (ua : Ua) (S : Server) (e : Entry) :
    applyUpdateItem ua S (entryJson e) = applyUpdate ua S e := by
  have hid : stringItem (entryJson e) "nodeId" = e.nodeId.map cString := by
    have hitem : getObjectItem (entryJson e) "nodeId" = e.nodeId.map Json.str := by
      simp +decide only [entryJson, entryFields, List.append_assoc, getObjectItem_fieldOf, getObjectItem_cons,
        getObjectItem_nil, if_true, if_false, Option.or_none]
    rw [stringItem, hitem]
    cases e.nodeId <;> rfl
  have hquality : stringItem (entryJson e) "quality" = some (qualityText e.update.quality) := by
    have hitem : getObjectItem (entryJson e) "quality" = some (.str (qualityText e.update.quality)) := by
      simp +decide only [entryJson, entryFields, List.append_assoc, getObjectItem_fieldOf, getObjectItem_cons,
        if_true, if_false]
    rw [stringItem, hitem]
    cases e.update.quality <;> decide
  have hvalue : getObjectItem (entryJson e) "value" = e.update.value := by
    simp +decide only [entryJson, entryFields, List.append_assoc, getObjectItem_fieldOf, getObjectItem_cons,
      getObjectItem_nil, if_true, if_false, Option.or_none]
  have hwrite : updateItemValue (entryJson e) = updateValue e := by
    rw [updateItemValue, updateValue, hquality, hvalue]
    cases e.update.quality with
    | good => rw [if_neg (by decide)]
    | bad => rw [if_pos (by decide)]
  rw [applyUpdateItem, applyUpdate, hid, hwrite]
  rfl

theorem applyMessage_json (ua : Ua) (S : Server) (m : Message) :
    applyMessage ua S m.json = applyValueUpdate ua S m.entries := by
  cases m with
  | trustStoreReload =>
      have htype : stringItem (Message.json .trustStoreReload) "type" = some "trust_store_reload" := by decide
      rw [applyMessage, htype]
      rfl
  | valueUpdate entries =>
      have hlookup : ∀ v, getObjectItem (.obj [("type", .str "value_update"), ("updates", v)]) "type" =
          some (.str "value_update") ∧
          getObjectItem (.obj [("type", .str "value_update"), ("updates", v)]) "updates" = some v := by
        intro v
        simp +decide only [getObjectItem_cons, if_true, if_false, and_self]
      obtain ⟨htype, hupdates⟩ := hlookup (.arr (entries.map entryJson))
      rw [applyMessage, Message.json, stringItem, htype, hupdates]
      show (if cString "value_update" = "trust_store_reload" then S
        else if cString "value_update" ≠ "value_update" then S
        else (entries.map entryJson).foldl (applyUpdateItem ua) S) = entries.foldl (applyUpdate ua) S
      rw [if_neg (by decide), if_neg (by decide), List.foldl_map]
      simp only [applyUpdateItem_json]

/-- **A line does what its entries do.** -/
theorem applyLine_message {cJsonParse : List UInt8 → Option Json} (hparse : ReadsJson cJsonParse) (ua : Ua)
    (S : Server) {m : Message} (hm : m.Sendable) :
    applyLine cJsonParse ua S m.line = applyValueUpdate ua S m.entries := by
  obtain ⟨hcanonical, hdepth⟩ := Message.json_fits hm.values
  rw [applyLine, Message.line, hparse.line _ hcanonical hdepth]
  exact applyMessage_json ua S m

/-! ## The bytes of a line -/

/-- A line is not empty, and has neither a NUL nor a newline in it. -/
theorem line_bytes {m : Message} (hm : m.Sendable) : m.line ≠ [] ∧ 0 ∉ m.line ∧ newline ∉ m.line := by
  have hcanonical := (Message.json_fits hm.values).1
  have hlow : ∀ b : UInt8, b.toNat < 0x20 → b ∉ m.line := by
    intro b hb hmem
    obtain ⟨c, hc, hcode⟩ := (Utf8.mem_encode_ascii (by omega)).mp hmem
    have hge := Json.text_printable m.json hcanonical c hc
    omega
  refine ⟨fun hnil => ?_, hlow 0 (by decide), hlow newline (by decide)⟩
  have htext : m.json.text = [] := Utf8.encode_eq_nil_iff.mp hnil
  exact absurd (congrArg List.length htext) (Json.text_length_pos hcanonical).ne'

end OpcuaLight.Runtime
