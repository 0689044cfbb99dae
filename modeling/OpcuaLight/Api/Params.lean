import OpcuaLight.Connector.ParamsValidator
import OpcuaLight.Connector.Step

/-!
# The parameters of a connection

`validateParams` with the schemas of the four built-in connectors, of parameters that are JSON.
-/

namespace OpcuaLight.Api

open Connector
open Db (FieldError)

/-- `params[key]` of a JSON value. -/
def paramValue (params : Json) (key : String) : ParamValue :=
  match params.field key with
  | none => .undefined
  | some .null => .null
  | some (.bool b) => .boolean b
  | some (.num q) => .number (.finite q)
  | some (.str s) => .string s
  | some (.arr _) | some (.obj _) => .other

/-! ## The schemas -/

def hostField : ParamFieldSchema where
  key := "host"
  label := "Host"
  type := .text
  required := true

def numberField (key label : String) (required : Bool) (min : ℚ) (max : Option ℚ) : ParamFieldSchema where
  key := key
  label := label
  type := .number
  required := required
  min := some (.finite min)
  max := max.map .finite

def paramsSchema : Protocol → List ParamFieldSchema
  | .s7 => [hostField, numberField "rack" "Rack" false 0 none, numberField "slot" "Slot" false 0 none]
  | .modbusTcp => [hostField, numberField "port" "Port" true 1 (some 65535),
      numberField "unitId" "Unit ID" true 0 (some 255)]
  | .ethernetIp => [hostField, numberField "port" "Port" false 1 (some 65535),
      numberField "slot" "Slot" false 0 none]
  | .pccc => [hostField, numberField "port" "Port" false 1 (some 65535), numberField "slot" "Slot" false 0 none]

/-- The errors of `validateParams` with the schema of a built-in connector. No schema of theirs has a pattern, so
that no regular expression is asked for (`validateParams_builtIn`). -/
def paramsErrorsOf (p : Protocol) (params : Json) : List FieldError :=
  match validateParams (fun _ => .error "") (paramValue params) (paramsSchema p) with
  | .ok result => result.errors
  | .error _ => []

/-- The built-in connectors, in the registry's order. -/
def protocols : List Protocol := [.ethernetIp, .modbusTcp, .pccc, .s7]

/-- `getConnector`: the connector that is registered for a type. -/
def getConnector (type : String) : Option Protocol := protocols.find? (fun p => p.type = type)

theorem getConnector_type (p : Protocol) : getConnector p.type = some p := by
  cases p <;> decide

theorem getConnector_eq_some {type : String} {p : Protocol} : getConnector type = some p ↔ type = p.type := by
  constructor
  · intro h
    have htype := List.find?_some h
    exact (decide_eq_true_eq.mp htype).symm
  · rintro rfl
    exact getConnector_type p

/-! ## What is validated has a host -/

theorem pattern_of_mem {p : Protocol} {field : ParamFieldSchema} (h : field ∈ paramsSchema p) :
    field.pattern = none := by
  cases p <;> simp only [paramsSchema, List.mem_cons, List.not_mem_nil, or_false] at h <;>
    rcases h with rfl | rfl | rfl <;> rfl

/-- The regular expressions do not matter, and nothing is thrown. -/
theorem validateParams_builtIn (regExp : String → Except String (String → Bool)) (p : Protocol) (params : Json) :
    validateParams regExp (paramValue params) (paramsSchema p) =
      .ok ⟨paramsErrorsOf p params = [], paramsErrorsOf p params⟩ := by
  have hok : ∀ field ∈ paramsSchema p, ∃ errors, ∀ regExp,
      validateField regExp field (paramValue params field.key) = .ok errors := fun field hfield =>
    validateField_of_noPattern field _ (pattern_of_mem hfield)
  have hresult : ∀ regExp, validateParams regExp (paramValue params) (paramsSchema p) =
      .ok ⟨(paramsSchema p).flatMap (fieldErrors regExp (paramValue params)) = [],
        (paramsSchema p).flatMap (fieldErrors regExp (paramValue params))⟩ := fun regExp =>
    validateParams_ok_iff.mpr ⟨fun field hfield => (hok field hfield).imp fun _ h => h regExp, rfl⟩
  have hsame : (paramsSchema p).flatMap (fieldErrors regExp (paramValue params)) =
      (paramsSchema p).flatMap (fieldErrors (fun _ => .error "") (paramValue params)) := by
    refine List.flatMap_congr fun field hfield => ?_
    obtain ⟨_, h⟩ := hok field hfield
    rw [fieldErrors, fieldErrors, h, h]
  rw [paramsErrorsOf, hresult, hresult, hsame]

theorem paramValue_eq_string {params : Json} {key s : String} (h : paramValue params key = .string s) :
    params.field key = some (.str s) := by
  unfold paramValue at h
  split at h
  case h_5 t hfield => rw [hfield, ParamValue.string.inj h]
  all_goals cases h

theorem host_of_noErrors {value : ParamValue} {regExp : String → Except String (String → Bool)}
    (h : validateField regExp hostField value = .ok []) : ∃ host, value = .string host ∧ host ≠ "" := by
  cases value with
  | string s =>
      refine ⟨s, rfl, fun hempty => ?_⟩
      rw [hempty] at h
      cases h
  | _ => cases h

theorem host_of_valid {params : Json} {p : Protocol} (h : paramsErrorsOf p params = []) :
    ∃ host, params.field "host" = some (.str host) ∧ host ≠ "" := by
  have hvalid := validateParams_builtIn (fun _ => .error "") p params
  have hmem : hostField ∈ paramsSchema p := by cases p <;> exact List.mem_cons_self
  obtain ⟨hok, hresult⟩ := validateParams_ok_iff.mp hvalid
  obtain ⟨errors, herrors⟩ := hok hostField hmem
  have hnil : fieldErrors (fun _ => .error "") (paramValue params) hostField = [] :=
    List.flatMap_eq_nil_iff.mp ((ValidationResult.mk.inj hresult).2.symm.trans h) hostField hmem
  rw [fieldErrors, herrors] at hnil
  have hempty : errors = [] := hnil
  obtain ⟨host, hhost, hne⟩ := host_of_noErrors (hempty ▸ herrors)
  exact ⟨host, paramValue_eq_string hhost, hne⟩

/-- Every `extractParams` lets the same parameters pass: those with a host. -/
def hasHost (params : Json) : Bool := (params.field "host").any Json.truthy

theorem extractWith_cases (protocolName : String) (fields : Json → List (String × Json))
    (config : Connector.ConnectionConfig) :
    (hasHost config.params = true ∧ ∃ l, Connector.extractWith protocolName fields config = .ok l) ∨
    (hasHost config.params = false ∧ ∃ e, Connector.extractWith protocolName fields config = .error e) := by
  unfold Connector.extractWith Connector.paramsHost hasHost
  split
  · rename_i e he
    split at he
    · rename_i hnull
      exact Or.inr ⟨by rw [hnull]; rfl, e, rfl⟩
    · cases he
  · rename_i host he
    split at he
    · cases he
    · rw [← Except.ok.inj he]
      cases hhost : config.params.field "host" with
      | none => exact Or.inr ⟨rfl, _, rfl⟩
      | some v =>
          cases hv : v.truthy with
          | true => exact Or.inl ⟨hv, _, if_pos hv⟩
          | false => exact Or.inr ⟨hv, _, if_neg (by rw [hv]; exact Bool.false_ne_true)⟩

theorem extractParams_cases (p : Protocol) (config : Connector.ConnectionConfig) :
    (hasHost config.params = true ∧ ∃ fields, Connector.extractParams p config = .ok fields) ∨
    (hasHost config.params = false ∧ ∃ e, Connector.extractParams p config = .error e) := by
  cases p
  all_goals
    simp only [Connector.extractParams, Connector.S7.extractParams, Connector.Modbus.extractParams,
      Connector.EthernetIp.extractParams, Connector.Pccc.extractParams]
    exact extractWith_cases _ _ config

theorem hasHost_of_valid {params : Json} {p : Protocol}
    (h : paramsErrorsOf p params = []) : hasHost params = true := by
  obtain ⟨host, hhost, hne⟩ := host_of_valid h
  unfold hasHost
  rw [hhost]
  exact decide_eq_true hne

end OpcuaLight.Api
