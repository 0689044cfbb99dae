import OpcuaLight.Db.Repositories
import OpcuaLight.Lib.Doubles
import OpcuaLight.Lib.Numerals

/-!
# Validation of connection parameters

`connectors/core/params-validator.ts` over the values that a parameter can have. The schema and the record are
any; `RegExp` is a parameter, which gives the test of a pattern or the message of its syntax error.
-/

namespace OpcuaLight.Connector

open Binary (Datum binary64)
open Db (FieldError)

inductive ParamType where
  | text
  | number
  | boolean
  | select
  deriving DecidableEq, Repr

/-- A field of a schema; of an option only its value is read. -/
structure ParamFieldSchema where
  key : String
  label : String
  type : ParamType
  required : Bool
  min : Option Datum := none
  max : Option Datum := none
  options : Option (List String) := none
  pattern : Option String := none
  patternMessage : Option String := none
  deriving DecidableEq

/-- A value of JavaScript; `other` is an object, an array, or of a type that JSON does not have. -/
inductive ParamValue where
  | undefined
  | null
  | boolean (b : Bool)
  | number (x : Datum)
  | string (s : String)
  | other
  deriving DecidableEq

/-- The properties of a record, by their keys. -/
abbrev Params := String → ParamValue

structure ValidationResult where
  valid : Bool
  errors : List FieldError
  deriving DecidableEq

/-! ## `connectors/core/params-validator.ts` -/

/-- `value === undefined || value === null || value === ""`. -/
def ParamValue.isAbsent : ParamValue → Bool
  | undefined | null => true
  | string s => s = ""
  | _ => false

/-- A number in a message. -/
def numberText : Datum → String
  | .finite x => String.ofList (Numerals.numberText binary64 x)
  | .infinite negative => if negative then "-Infinity" else "Infinity"
  | .nan => "NaN"

section Validation
variable (regExp : String → Except String (String → Bool))

def validateText (field : ParamFieldSchema) (value : ParamValue) : Except String (List FieldError) :=
  match value with
  | .string s =>
      if Js.truthyString field.pattern then do
        let test ← regExp (field.pattern.getD "")
        if test s then return []
        else return [⟨field.key,
          field.patternMessage.getD s!"{field.label} does not match the required pattern"⟩]
      else .ok []
  | _ => .ok [⟨field.key, s!"{field.label} must be a string"⟩]

/-- The number that is compared with the bounds; `none` where there is an error before. -/
def numValue : ParamValue → Option Datum
  | .number x => some x
  | .string s => if Js.number s = .nan then none else some (Js.number s)
  | _ => none

def validateNumber (field : ParamFieldSchema) (value : ParamValue) : List FieldError :=
  match numValue value with
  | none => [⟨field.key, s!"{field.label} must be a valid number"⟩]
  | some x =>
      (match field.min with
        | some min =>
            if x.lt min then [⟨field.key, s!"{field.label} must be at least {numberText min}"⟩] else []
        | none => []) ++
      (match field.max with
        | some max =>
            if max.lt x then [⟨field.key, s!"{field.label} must be at most {numberText max}"⟩] else []
        | none => [])

def validateBoolean (field : ParamFieldSchema) (value : ParamValue) : List FieldError :=
  match value with
  | .boolean _ => []
  | .string s => if s = "true" ∨ s = "false" then [] else [⟨field.key, s!"{field.label} must be a boolean"⟩]
  | _ => [⟨field.key, s!"{field.label} must be a boolean"⟩]

def validateSelect (field : ParamFieldSchema) (value : ParamValue) : List FieldError :=
  match value with
  | .string s =>
      let allowedValues := field.options.getD []
      if s ∈ allowedValues then []
      else [⟨field.key, s!"{field.label} must be one of: " ++ ", ".intercalate allowedValues⟩]
  | _ => [⟨field.key, s!"{field.label} must be a string"⟩]

/-- One round of the loop. -/
def validateField (field : ParamFieldSchema) (value : ParamValue) : Except String (List FieldError) :=
  if value.isAbsent then
    .ok (if field.required then [⟨field.key, s!"{field.label} is required"⟩] else [])
  else
    match field.type with
    | .text => validateText regExp field value
    | .number => .ok (validateNumber field value)
    | .boolean => .ok (validateBoolean field value)
    | .select => .ok (validateSelect field value)

def validateParams (params : Params) (schema : List ParamFieldSchema) : Except String ValidationResult := do
  let errors ← schema.foldlM (fun errors field => do
    return errors ++ (← validateField regExp field (params field.key))) []
  return ⟨errors = [], errors⟩

/-! ## Conformity -/

/-- The finite number that a value is, or that a text denotes which is not blank. -/
inductive DenotesNumber : ParamValue → ℚ → Prop
  | number {x : ℚ} : DenotesNumber (.number (.finite x)) x
  | text {s : String} {x : ℚ} : Js.trim s ≠ "" → Js.number s = .finite x → DenotesNumber (.string s) x

/-- The number is not below the minimum and not above the maximum. -/
def InBounds (field : ParamFieldSchema) (x : Datum) : Prop :=
  (∀ min, field.min = some min → x.lt min = false) ∧ ∀ max, field.max = some max → max.lt x = false

/-- The value is one of the type of the field. -/
def ConformsTo (field : ParamFieldSchema) (value : ParamValue) : ParamType → Prop
  | .text => ∃ s, value = .string s ∧ ∀ pattern, field.pattern = some pattern → pattern ≠ "" →
      ∃ test, regExp pattern = .ok test ∧ test s = true
  | .number => ∃ x, DenotesNumber value x ∧ InBounds field (.finite x)
  | .boolean => (∃ b, value = .boolean b) ∨ value = .string "true" ∨ value = .string "false"
  | .select => ∃ s, value = .string s ∧ s ∈ field.options.getD []

/-- A field is absent and not required, or its value is one of its type. -/
def Conforms (field : ParamFieldSchema) (value : ParamValue) : Prop :=
  if value.isAbsent then field.required = false else ConformsTo regExp field value field.type

/-- The record is valid if every field conforms, and the errors name the fields that do not. -/
def Exact (params : Params) (schema : List ParamFieldSchema) : Prop :=
  ∃ result, validateParams regExp params schema = .ok result ∧
    (result.valid = true ↔ ∀ field ∈ schema, Conforms regExp field (params field.key)) ∧
    ∀ key, (∃ e ∈ result.errors, e.field = key) ↔
      ∃ field ∈ schema, field.key = key ∧ ¬ Conforms regExp field (params field.key)

/-- What is compared with the bounds though it is no number: a `NaN`, an infinity, also as a text, and a blank
text, which counts as zero. -/
inductive ReadsAs : ParamValue → Datum → Prop
  | nan : ReadsAs (.number .nan) .nan
  | infinite {negative : Bool} : ReadsAs (.number (.infinite negative)) (.infinite negative)
  | infiniteText {s : String} {negative : Bool} : Js.number s = .infinite negative →
      ReadsAs (.string s) (.infinite negative)
  | blank {s : String} : s ≠ "" → Js.trim s = "" → ReadsAs (.string s) (.finite 0)

/-- A text meets a pattern that is no regular expression. -/
def MeetsBadPattern (field : ParamFieldSchema) (value : ParamValue) : Prop :=
  ∃ s pattern error, value = .string s ∧ s ≠ "" ∧ field.pattern = some pattern ∧ pattern ≠ "" ∧
    regExp pattern = .error error

/-- The number field has such a value within its bounds, or the text field has a bad pattern for its text. -/
def Misread (field : ParamFieldSchema) (value : ParamValue) : Prop :=
  (field.type = .number ∧ ∃ x, ReadsAs value x ∧ InBounds field x) ∨
    field.type = .text ∧ MeetsBadPattern regExp field value

end Validation

/-! ## Numbers -/

theorem number_of_blank {s : String} (h : Js.trim s = "") : Js.number s = .finite 0 := by
  have hexact : Js.numberExact s = .finite 0 := by
    rw [Js.numberExact, h]
    rfl
  have hzero : binary64.ofRat 0 = .finite 0 := by
    rw [Binary.Format.ofRat_eq_finite, Binary.Format.round_zero, abs_zero]
    exact ⟨zpow_pos two_pos _, rfl⟩
  rw [Js.number, hexact]
  exact hzero

theorem numValue_iff {value : ParamValue} {x : Datum} (h : value.isAbsent = false) :
    numValue value = some x ↔ (∃ q, x = .finite q ∧ DenotesNumber value q) ∨ ReadsAs value x := by
  constructor
  · intro hx
    cases value with
    | number y =>
        obtain rfl : y = x := Option.some.inj hx
        cases y with
        | finite q => exact Or.inl ⟨q, rfl, .number⟩
        | infinite => exact Or.inr .infinite
        | nan => exact Or.inr .nan
    | string s =>
        have hs : s ≠ "" := of_decide_eq_false h
        rw [numValue] at hx
        split_ifs at hx with hnan
        rw [← Option.some.inj hx]
        by_cases hblank : Js.trim s = ""
        · rw [number_of_blank hblank]
          exact Or.inr (.blank hs hblank)
        · cases hnumber : Js.number s with
          | finite q => exact Or.inl ⟨q, rfl, .text hblank hnumber⟩
          | infinite => exact Or.inr (.infiniteText hnumber)
          | nan => exact absurd hnumber hnan
    | _ => cases hx
  · rintro (⟨q, rfl, hq⟩ | hread)
    · cases hq with
      | number => rfl
      | text hblank hnumber => rw [numValue, hnumber, if_neg nofun]
    · cases hread with
      | nan | infinite => rfl
      | infiniteText hnumber => rw [numValue, hnumber, if_neg nofun]
      | blank hs hblank => rw [numValue, number_of_blank hblank, if_neg nofun]

theorem validateNumber_of_some {field : ParamFieldSchema} {value : ParamValue} {x : Datum}
    (h : numValue value = some x) : validateNumber field value = [] ↔ InBounds field x := by
  rw [validateNumber, h]
  simp only [List.append_eq_nil_iff, InBounds]
  refine and_congr ?_ ?_
  · cases field.min with
    | none => exact iff_of_true rfl nofun
    | some min => simp
  · cases field.max with
    | none => exact iff_of_true rfl nofun
    | some max => simp

theorem validateNumber_nil_iff {field : ParamFieldSchema} {value : ParamValue} (h : value.isAbsent = false) :
    validateNumber field value = [] ↔ (∃ x, DenotesNumber value x ∧ InBounds field (.finite x)) ∨
      ∃ x, ReadsAs value x ∧ InBounds field x := by
  cases hx : numValue value with
  | none =>
      have hno : ∀ x, ¬ ((∃ q, x = .finite q ∧ DenotesNumber value q) ∨ ReadsAs value x) := fun x hread =>
        nomatch hx.symm.trans ((numValue_iff h).mpr hread)
      rw [validateNumber, hx]
      refine iff_of_false nofun ?_
      rintro (⟨x, hread, -⟩ | ⟨x, hread, -⟩)
      · exact hno _ (Or.inl ⟨x, rfl, hread⟩)
      · exact hno _ (Or.inr hread)
  | some y =>
      have hunique : ∀ x, (∃ q, x = .finite q ∧ DenotesNumber value q) ∨ ReadsAs value x → x = y :=
        fun x hread => Option.some.inj (((numValue_iff h).mpr hread).symm.trans hx)
      rw [validateNumber_of_some hx]
      constructor
      · intro hbounds
        rcases (numValue_iff h).mp hx with ⟨q, rfl, hq⟩ | hread
        · exact Or.inl ⟨q, hq, hbounds⟩
        · exact Or.inr ⟨y, hread, hbounds⟩
      · rintro (⟨x, hread, hbounds⟩ | ⟨x, hread, hbounds⟩)
        · exact hunique _ (Or.inl ⟨x, rfl, hread⟩) ▸ hbounds
        · exact hunique x (Or.inr hread) ▸ hbounds

/-- Nothing that is misread denotes a number. -/
theorem not_denotes_of_readsAs {value : ParamValue} {x : Datum} (h : ReadsAs value x) :
    ∀ q, ¬ DenotesNumber value q := by
  intro q hq
  cases h with
  | nan | infinite => cases hq
  | infiniteText hnumber =>
      cases hq with
      | text _ hfinite => cases hnumber.symm.trans hfinite
  | blank _ hblank =>
      cases hq with
      | text hne _ => exact hne hblank

/-! ## Fields -/

section Fields
variable {regExp : String → Except String (String → Bool)} {field : ParamFieldSchema} {value : ParamValue}

theorem validateBoolean_nil_iff : validateBoolean field value = [] ↔ ConformsTo regExp field value .boolean := by
  cases value with
  | string s => simp [validateBoolean, ConformsTo, or_iff_not_imp_left]
  | _ => simp [validateBoolean, ConformsTo]

theorem validateSelect_nil_iff : validateSelect field value = [] ↔ ConformsTo regExp field value .select := by
  cases value with
  | string s => simp [validateSelect, ConformsTo]
  | _ => simp [validateSelect, ConformsTo]

/-- A text is tested against a pattern if there is one that is not empty. -/
theorem truthy_pattern_iff : Js.truthyString field.pattern = true ↔
    ∃ pattern, field.pattern = some pattern ∧ pattern ≠ "" := by
  rw [Js.truthyString, Option.any_eq_true]
  simp only [decide_eq_true_eq]

theorem validateText_pattern {s pattern : String} (hpattern : field.pattern = some pattern) (hne : pattern ≠ "") :
    validateText regExp field (.string s) = (regExp pattern).map (fun test => if test s then []
      else [⟨field.key, field.patternMessage.getD s!"{field.label} does not match the required pattern"⟩]) := by
  rw [validateText, if_pos (truthy_pattern_iff.mpr ⟨pattern, hpattern, hne⟩), hpattern, Option.getD_some]
  cases regExp pattern with
  | error => rfl
  | ok test =>
      cases htest : test s with
      | true => simp [bind, Except.bind, Except.map, htest, pure, Except.pure]
      | false => simp [bind, Except.bind, Except.map, htest, pure, Except.pure]

theorem validateText_of_badPattern (h : MeetsBadPattern regExp field value) :
    ∃ error, validateText regExp field value = .error error := by
  obtain ⟨s, pattern, error, rfl, -, hpattern, hne, hbad⟩ := h
  exact ⟨error, by rw [validateText_pattern hpattern hne, hbad]; rfl⟩

theorem conformsTo_text_iff {s pattern : String} {test : String → Bool} (hpattern : field.pattern = some pattern)
    (hne : pattern ≠ "") (htest : regExp pattern = .ok test) :
    ConformsTo regExp field (.string s) .text ↔ test s = true := by
  constructor
  · rintro ⟨t, ht, hmatch⟩
    obtain ⟨test', htest', hs⟩ := hmatch pattern hpattern hne
    rwa [ParamValue.string.inj ht, ← Except.ok.inj (htest'.symm.trans htest)]
  · intro hs
    refine ⟨s, rfl, fun p hp _ => ⟨test, ?_, hs⟩⟩
    rwa [← Option.some.inj (hpattern.symm.trans hp)]

theorem validateText_cases (h : value.isAbsent = false) :
    (∃ errors, validateText regExp field value = .ok errors ∧ (∀ e ∈ errors, e.field = field.key) ∧
      (errors = [] ↔ ConformsTo regExp field value .text)) ∨ MeetsBadPattern regExp field value := by
  cases value with
  | string s =>
      by_cases hpattern : ∃ pattern, field.pattern = some pattern ∧ pattern ≠ ""
      · obtain ⟨pattern, hpattern, hne⟩ := hpattern
        cases hregExp : regExp pattern with
        | error error => exact Or.inr ⟨s, pattern, error, rfl, of_decide_eq_false h, hpattern, hne, hregExp⟩
        | ok test =>
            left
            rw [validateText_pattern hpattern hne, conformsTo_text_iff hpattern hne hregExp, hregExp]
            refine ⟨_, rfl, ?_, ?_⟩
            · cases htest : test s <;> simp [htest]
            · cases htest : test s <;> simp [htest]
      · left
        refine ⟨[], ?_, nofun, iff_of_true rfl ⟨s, rfl, fun pattern hp hne => absurd ⟨pattern, hp, hne⟩ hpattern⟩⟩
        rw [validateText, if_neg (fun htruthy => hpattern (truthy_pattern_iff.mp htruthy))]
  | _ =>
      left
      refine ⟨_, rfl, ?_, ?_⟩
      · simp
      · simp [ConformsTo]

theorem validateNumber_field : ∀ e ∈ validateNumber field value, e.field = field.key := by
  unfold validateNumber
  split
  · simp
  · intro e he
    rcases List.mem_append.mp he with he | he
    all_goals
      split at he
      · split_ifs at he
        · rw [List.mem_singleton.mp he]
        · cases he
      · cases he

theorem validateBoolean_field : ∀ e ∈ validateBoolean field value, e.field = field.key := by
  unfold validateBoolean
  split
  · exact nofun
  · split_ifs <;> simp
  · simp

theorem validateSelect_field : ∀ e ∈ validateSelect field value, e.field = field.key := by
  unfold validateSelect
  split
  · simp only
    split_ifs <;> simp
  · simp

/-- What is compared or tested is not absent. -/
theorem readsAs_notAbsent {x : Datum} (h : ReadsAs value x) : value.isAbsent = false := by
  cases h with
  | nan | infinite => rfl
  | @infiniteText s _ hnumber =>
      refine decide_eq_false fun hempty => ?_
      rw [hempty, number_of_blank (by decide)] at hnumber
      cases hnumber
  | blank hne _ => exact decide_eq_false hne

/-- Without a pattern no regular expression is asked for. -/
theorem validateField_of_noPattern (field : ParamFieldSchema) (value : ParamValue) (h : field.pattern = none) :
    ∃ errors, ∀ regExp, validateField regExp field value = .ok errors := by
  unfold validateField
  split
  · exact ⟨_, fun _ => rfl⟩
  · cases field.type with
    | text =>
        cases value with
        | string s =>
            refine ⟨[], fun regExp => ?_⟩
            rw [validateText, h]
            rfl
        | _ => exact ⟨_, fun _ => rfl⟩
    | _ => exact ⟨_, fun _ => rfl⟩

/-- One round names its own field, if the value neither conforms nor is misread, or throws, if it is. -/
theorem validateField_cases (regExp : String → Except String (String → Bool)) (field : ParamFieldSchema)
    (value : ParamValue) :
    (∃ errors, validateField regExp field value = .ok errors ∧ (∀ e ∈ errors, e.field = field.key) ∧
      (errors = [] ↔ Conforms regExp field value ∨ Misread regExp field value)) ∨
    ((∃ error, validateField regExp field value = .error error) ∧ Misread regExp field value) := by
  unfold validateField Conforms Misread
  cases habsent : value.isAbsent with
  | true =>
      have hnumber : ∀ x, ¬ ReadsAs value x := fun x hread =>
        Bool.false_ne_true ((readsAs_notAbsent hread).symm.trans habsent)
      have htext : ¬ MeetsBadPattern regExp field value := by
        rintro ⟨s, -, -, rfl, hne, -⟩
        exact hne (of_decide_eq_true habsent)
      refine Or.inl ⟨_, rfl, ?_, ?_⟩
      · split_ifs <;> simp
      · cases field.required <;> simp [hnumber, htext]
  | false =>
      cases htype : field.type with
      | text =>
          simp only [Bool.false_eq_true, if_false, reduceCtorEq, false_and, true_and, false_or]
          by_cases hbad : MeetsBadPattern regExp field value
          · exact Or.inr ⟨validateText_of_badPattern hbad, hbad⟩
          · obtain ⟨errors, hok, hfield, hnil⟩ := (validateText_cases habsent).resolve_right hbad
            exact Or.inl ⟨errors, hok, hfield, hnil.trans (or_iff_left hbad).symm⟩
      | number =>
          left
          refine ⟨_, rfl, validateNumber_field, ?_⟩
          simp only [Bool.false_eq_true, if_false, reduceCtorEq, false_and, true_and, or_false]
          exact validateNumber_nil_iff habsent
      | boolean =>
          left
          refine ⟨_, rfl, validateBoolean_field, ?_⟩
          simp only [Bool.false_eq_true, if_false, reduceCtorEq, false_and, or_false]
          exact validateBoolean_nil_iff
      | select =>
          left
          refine ⟨_, rfl, validateSelect_field, ?_⟩
          simp only [Bool.false_eq_true, if_false, reduceCtorEq, false_and, or_false]
          exact validateSelect_nil_iff

theorem not_conforms_of_misread (h : Misread regExp field value) : ¬ Conforms regExp field value := by
  rcases h with ⟨htype, x, hread, -⟩ | ⟨htype, s, pattern, error, rfl, hne, hpattern, hnonempty, hbad⟩
  · rw [Conforms, readsAs_notAbsent hread, if_neg Bool.false_ne_true, htype]
    rintro ⟨q, hq, -⟩
    exact not_denotes_of_readsAs hread q hq
  · have habsent : (ParamValue.string s).isAbsent = false := decide_eq_false hne
    rw [Conforms, habsent, if_neg Bool.false_ne_true, htype]
    rintro ⟨t, -, hmatch⟩
    obtain ⟨test, htest, -⟩ := hmatch pattern hpattern hnonempty
    cases htest.symm.trans hbad

end Fields

/-! ## Schemas -/

section Schemas
variable {regExp : String → Except String (String → Bool)} {params : Params} {schema : List ParamFieldSchema}

/-- The errors of one round that does not throw. -/
def fieldErrors (regExp : String → Except String (String → Bool)) (params : Params) (field : ParamFieldSchema) :
    List FieldError :=
  (validateField regExp field (params field.key)).toOption.getD []

/-- The loop collects the errors of its rounds, if none throws. -/
theorem validateLoop_ok_iff (errors out : List FieldError) :
    schema.foldlM (fun errors field => do
      return errors ++ (← validateField regExp field (params field.key))) errors = .ok out ↔
      (∀ field ∈ schema, ∃ errors, validateField regExp field (params field.key) = .ok errors) ∧
        out = errors ++ schema.flatMap (fieldErrors regExp params) := by
  induction schema generalizing errors with
  | nil => simp [pure, Except.pure, eq_comm]
  | cons field schema ih =>
      rw [List.foldlM_cons]
      cases hfield : validateField regExp field (params field.key) with
      | error e =>
          refine iff_of_false nofun fun h => ?_
          obtain ⟨errors, hok⟩ := h.1 field List.mem_cons_self
          cases hok.symm.trans hfield
      | ok new =>
          have hnew : fieldErrors regExp params field = new := by rw [fieldErrors, hfield]; rfl
          refine (ih (errors ++ new)).trans ?_
          rw [List.flatMap_cons, hnew, List.append_assoc, List.forall_mem_cons]
          exact and_congr_left fun _ => ⟨fun h => ⟨⟨new, hfield⟩, h⟩, And.right⟩

theorem validateParams_ok_iff {result : ValidationResult} :
    validateParams regExp params schema = .ok result ↔
      (∀ field ∈ schema, ∃ errors, validateField regExp field (params field.key) = .ok errors) ∧
        result = ⟨schema.flatMap (fieldErrors regExp params) = [], schema.flatMap (fieldErrors regExp params)⟩ := by
  rw [validateParams]
  constructor
  · intro h
    cases hloop : schema.foldlM (fun errors field => do
        return errors ++ (← validateField regExp field (params field.key))) [] with
    | error e =>
        rw [hloop] at h
        cases h
    | ok errors =>
        rw [hloop] at h
        obtain ⟨hall, rfl⟩ := (validateLoop_ok_iff [] errors).mp hloop
        exact ⟨hall, (Except.ok.inj h).symm⟩
  · rintro ⟨hall, rfl⟩
    rw [(validateLoop_ok_iff [] _).mpr ⟨hall, rfl⟩]
    rfl

theorem fieldErrors_key {field : ParamFieldSchema} {e : FieldError} (he : e ∈ fieldErrors regExp params field) :
    e.field = field.key := by
  rcases validateField_cases regExp field (params field.key) with ⟨errors, hok, hkey, -⟩ | ⟨⟨error, herror⟩, -⟩
  · rw [fieldErrors, hok] at he
    exact hkey e he
  · rw [fieldErrors, herror] at he
    cases he

theorem mem_errors {e : FieldError} (h : e ∈ schema.flatMap (fieldErrors regExp params)) :
    ∃ field ∈ schema, e.field = field.key ∧ e ∈ fieldErrors regExp params field := by
  obtain ⟨field, hfield, he⟩ := List.mem_flatMap.mp h
  exact ⟨field, hfield, fieldErrors_key he, he⟩

/-- The errors of a round are none if its field conforms, or is misread. -/
theorem fieldErrors_nil_iff {field : ParamFieldSchema}
    (h : ∃ errors, validateField regExp field (params field.key) = .ok errors) :
    fieldErrors regExp params field = [] ↔
      Conforms regExp field (params field.key) ∨ Misread regExp field (params field.key) := by
  obtain ⟨errors, hok⟩ := h
  rcases validateField_cases regExp field (params field.key) with ⟨_, hok', -, hnil⟩ | ⟨⟨_, herror⟩, -⟩
  · rw [fieldErrors, hok', ← hnil]
    rfl
  · cases hok.symm.trans herror

theorem misread_of_throws {field : ParamFieldSchema} {error : String}
    (h : validateField regExp field (params field.key) = .error error) :
    Misread regExp field (params field.key) := by
  rcases validateField_cases regExp field (params field.key) with ⟨_, hok, -⟩ | ⟨-, hmisread⟩
  · cases h.symm.trans hok
  · exact hmisread

/-- **Parameters are validated exactly** if and only if no field is misread. -/
theorem validateParams_exact_iff (regExp : String → Except String (String → Bool)) (params : Params)
    (schema : List ParamFieldSchema) (hkeys : (schema.map (·.key)).Nodup) :
    Exact regExp params schema ↔ ∀ field ∈ schema, ¬ Misread regExp field (params field.key) := by
  constructor
  · rintro ⟨result, hresult, -, hnamed⟩ field hfield hmisread
    obtain ⟨hall, rfl⟩ := validateParams_ok_iff.mp hresult
    obtain ⟨e, he, hkey⟩ := (hnamed field.key).mpr ⟨field, hfield, rfl, not_conforms_of_misread hmisread⟩
    -- an error under the field's key is the field's own, which has none
    obtain ⟨other, hother, hotherKey, he⟩ := mem_errors he
    have hsame : other = field :=
      List.inj_on_of_nodup_map hkeys hother hfield (hotherKey.symm.trans hkey)
    rw [hsame, (fieldErrors_nil_iff (hall field hfield)).mpr (Or.inr hmisread)] at he
    cases he
  · intro h
    have hall : ∀ field ∈ schema, ∃ errors, validateField regExp field (params field.key) = .ok errors := by
      intro field hfield
      cases hok : validateField regExp field (params field.key) with
      | ok errors => exact ⟨errors, rfl⟩
      | error error => exact absurd (misread_of_throws hok) (h field hfield)
    have hnil : ∀ field ∈ schema, fieldErrors regExp params field = [] ↔
        Conforms regExp field (params field.key) := fun field hfield =>
      (fieldErrors_nil_iff (hall field hfield)).trans (or_iff_left (h field hfield))
    refine ⟨_, validateParams_ok_iff.mpr ⟨hall, rfl⟩, ?_, ?_⟩
    · simp only [decide_eq_true_eq, List.flatMap_eq_nil_iff]
      exact forall₂_congr hnil
    · intro key
      constructor
      · rintro ⟨e, he, rfl⟩
        obtain ⟨field, hfield, hkey, he⟩ := mem_errors he
        refine ⟨field, hfield, hkey.symm, fun hconforms => ?_⟩
        rw [(hnil field hfield).mpr hconforms] at he
        cases he
      · rintro ⟨field, hfield, rfl, hconforms⟩
        obtain ⟨e, he⟩ := List.exists_mem_of_ne_nil _ (fun h => hconforms ((hnil field hfield).mp h))
        have hmem : e ∈ schema.flatMap (fieldErrors regExp params) := List.mem_flatMap.mpr ⟨field, hfield, he⟩
        exact ⟨e, hmem, fieldErrors_key he⟩

end Schemas

/-- An optional number from zero on. -/
def rackField : ParamFieldSchema where
  key := "rack"
  label := "Rack"
  type := .number
  required := false
  min := some (.finite 0)

/-- A required name of lower case letters. -/
def nameField : ParamFieldSchema where
  key := "name"
  label := "Name"
  type := .text
  required := true
  pattern := some "^[a-z]+$"

/-- The only regular expression is that of the name. -/
def lowerCase (pattern : String) : Except String (String → Bool) :=
  if pattern = "^[a-z]+$" then .ok fun s => s.toList ≠ [] && s.toList.all fun c => 'a' ≤ c && c ≤ 'z'
  else .error "Invalid regular expression"

def rackParams : Params := fun key =>
  if key = "rack" then .number (.finite 2) else if key = "name" then .string "plc" else .undefined

theorem validateParams_exact_two : ([nameField, rackField].map (·.key)).Nodup ∧
    Exact lowerCase rackParams [nameField, rackField] := by
  have hkeys : ([nameField, rackField].map (·.key)).Nodup := by decide
  refine ⟨hkeys, (validateParams_exact_iff _ _ _ hkeys).mpr ?_⟩
  have hname : ¬ Misread lowerCase nameField (rackParams "name") := by
    rintro (⟨htype, -⟩ | ⟨-, s, pattern, error, -, -, hpattern, -, hbad⟩)
    · cases htype
    · obtain rfl := Option.some.inj hpattern
      cases hbad
  have hrack : ¬ Misread lowerCase rackField (rackParams "rack") := by
    rintro (⟨-, x, hread, -⟩ | ⟨htype, -⟩)
    · cases hread
    · cases htype
  intro field hfield
  rcases List.mem_pair.mp hfield with rfl | rfl
  · exact hname
  · exact hrack

/-- A blank text is accepted as a number. -/
theorem validateParams_blank_not_exact : ([rackField].map (·.key)).Nodup ∧
    ¬ Exact (fun _ => .error "") (fun _ => .string "  ") [rackField] := by
  refine ⟨by decide, ?_⟩
  rintro ⟨result, hresult, hvalid, -⟩
  have haccepted : validateParams (fun _ => .error "") (fun _ => .string "  ") [rackField] = .ok ⟨true, []⟩ := by
    decide +kernel
  rw [← Except.ok.inj (haccepted.symm.trans hresult)] at hvalid
  obtain ⟨x, hnumber, -⟩ := hvalid.mp rfl rackField List.mem_cons_self
  cases hnumber with
  | text hblank _ => exact hblank (by decide)

end OpcuaLight.Connector
