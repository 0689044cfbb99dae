import Mathlib.Data.List.TakeWhile
import OpcuaLight.Connector.Address
import OpcuaLight.Lib.Trim

/-!
# The grammar of Modbus addresses

The strings that denote a Modbus address, and the strings of which the parser says just that. It reads the
numbers with `parseInt`, which takes the integer at the start of a text and rounds it to a double, looks at a third
part for registers only, and lets it be empty (`parseDeviceAddress_exact_iff`).
-/

namespace OpcuaLight.Connector

open Binary (Datum binary64)
open Js (leadingInteger digitsValue)

def RegisterType.name : RegisterType → String
  | .hr => "HR"
  | .ir => "IR"
  | .co => "CO"
  | .di => "DI"

/-- A holding or an input register, which may have a count. -/
def RegisterType.IsRegister (t : RegisterType) : Prop := t = .hr ∨ t = .ir

instance (t : RegisterType) : Decidable t.IsRegister := inferInstanceAs (Decidable (_ ∨ _))

/-- One or more decimal digits. -/
def IsDigits (cs : List Char) : Prop := cs ≠ [] ∧ ∀ c ∈ cs, c.isDigit = true

/-- `TYPE:digits`, and `TYPE:digits:digits` for registers, with a positive count; the type in capitals or not. -/
inductive Denotes : String → ParsedAddress → Prop
  | single {text digits : List Char} {t : RegisterType} : text.map Char.toUpper = t.name.toList →
      IsDigits digits →
      Denotes (String.ofList (text ++ ':' :: digits)) ⟨t, .finite (digitsValue digits), .finite 1⟩
  | counted {text digits count : List Char} {t : RegisterType} : text.map Char.toUpper = t.name.toList →
      t.IsRegister → IsDigits digits → IsDigits count → 0 < digitsValue count →
      Denotes (String.ofList (text ++ ':' :: (digits ++ ':' :: count)))
        ⟨t, .finite (digitsValue digits), .finite (digitsValue count)⟩

/-- The parser returns what the string denotes, and rejects it if that is nothing. -/
def AddressExact (s : String) : Prop := ∀ parsed, parseDeviceAddress s = .ok parsed ↔ Denotes s parsed

/-- What the parser asks of a string: two or three parts, a type, an integer at the start of the second part that is
not negative, and for registers a positive one at the start of a third part that is not empty. -/
structure Scans (s : String) (t : RegisterType) (type addr : String) (third : Option String) : Prop where
  parts : Js.split s ':' = type :: addr :: third.toList
  type : Js.toUpperCase type = t.name
  address : ∃ n, leadingInteger addr.toList = some n ∧ 0 ≤ n
  count : t.IsRegister → ∀ part ∈ third, part ≠ "" → ∃ n, leadingInteger part.toList = some n ∧ 1 ≤ n

/-- The part consists of digits, and its number is a double. -/
def IsPlain (part : String) : Prop :=
  IsDigits part.toList ∧ binary64.Contains (digitsValue part.toList) ∧ (digitsValue part.toList : ℚ) < 2 ^ 1024

/-- No dotless `ı` stands for an `I`, the numbers are the whole parts, and only registers have a third one. -/
structure ReadsPlainly (t : RegisterType) (type addr : String) (third : Option String) : Prop where
  type : 'ı' ∉ type.toList
  address : IsPlain addr
  count : ∀ part ∈ third, t.IsRegister ∧ IsPlain part

/-! ## Numbers -/

theorem rejects_zero_iff (part : String) :
    (Js.parseInt part = .nan || (Js.parseInt part).lt (.finite 0)) = false ↔
      ∃ n, leadingInteger part.toList = some n ∧ 0 ≤ n := by
  unfold Js.parseInt
  cases leadingInteger part.toList with
  | none => simp
  | some n =>
      have hlt := Binary.Format.ofRat_intCast_lt_zero (F := binary64) (by decide) (by decide) n
      simp [Binary.Format.ofRat_ne_nan, hlt]

theorem rejects_one_iff (part : String) :
    (Js.parseInt part = .nan || (Js.parseInt part).lt (.finite 1)) = false ↔
      ∃ n, leadingInteger part.toList = some n ∧ 1 ≤ n := by
  unfold Js.parseInt
  cases leadingInteger part.toList with
  | none => simp
  | some n =>
      have hlt := Binary.Format.ofRat_intCast_lt_one (F := binary64) (by decide) (by decide) n
      simp [Binary.Format.ofRat_ne_nan, hlt]

theorem leadingInteger_digits {part : List Char} (h : IsDigits part) :
    leadingInteger part = some (digitsValue part : ℤ) := by
  obtain ⟨hne, hdigits⟩ := h
  obtain ⟨d, ds, rfl⟩ := List.exists_cons_of_ne_nil hne
  have hd := hdigits d List.mem_cons_self
  have hspace : (d :: ds).dropWhile Js.isSpace = d :: ds :=
    Js.dropWhile_eq_self fun c hc => Option.some.inj hc ▸ Js.digit_notSpace hd
  have hsigned : Js.signed (d :: ds) = (false, d :: ds) := by
    unfold Js.signed
    split
    · rename_i heq
      rw [(List.cons.inj heq).1] at hd
      cases hd
    · rename_i heq
      rw [(List.cons.inj heq).1] at hd
      cases hd
    · rfl
  have htake : (d :: ds).takeWhile Char.isDigit = d :: ds := List.takeWhile_eq_self_iff.mpr hdigits
  simp only [leadingInteger, hspace, hsigned, htake, Bool.false_eq_true, if_false]

theorem parseInt_digits {part : String} (h : IsDigits part.toList) :
    Js.parseInt part = binary64.ofRat (digitsValue part.toList) := by
  rw [Js.parseInt, leadingInteger_digits h]
  rfl

/-- The number of a plain part is kept as it is. -/
theorem parseInt_eq_iff {part : String} (h : IsDigits part.toList) :
    Js.parseInt part = .finite (digitsValue part.toList) ↔ IsPlain part := by
  rw [parseInt_digits h, Binary.Format.ofRat_eq_self]
  have habs : |(digitsValue part.toList : ℚ)| = digitsValue part.toList := abs_of_nonneg (Nat.cast_nonneg _)
  rw [habs]
  exact (and_iff_right h).symm

/-! ## The parser -/

/-- The count that the parser returns. -/
def countOf (t : RegisterType) (third : Option String) : Datum :=
  match t, Js.truthyString third with
  | .hr, true | .ir, true => Js.parseInt (third.getD "")
  | _, _ => .finite 1

theorem register_ok_iff {address : String} {t : RegisterType} {a : Datum} {third : Option String}
    {parsed : ParsedAddress} (ht : t.IsRegister) :
    parseDeviceAddress.register address t a third = .ok parsed ↔ parsed = ⟨t, a, countOf t third⟩ ∧
      ∀ part ∈ third, part ≠ "" → ∃ n, leadingInteger part.toList = some n ∧ 1 ≤ n := by
  have hcount : (if Js.truthyString third then Js.parseInt (third.getD "") else .finite 1) = countOf t third := by
    rcases ht with rfl | rfl <;> cases h : Js.truthyString third <;> simp [countOf, h]
  have haccepts : (countOf t third = .nan || (countOf t third).lt (.finite 1)) = false ↔
      ∀ part ∈ third, part ≠ "" → ∃ n, leadingInteger part.toList = some n ∧ 1 ≤ n := by
    rw [← hcount]
    cases third with
    | none => simp [Js.truthyString, Datum.lt]
    | some part =>
        by_cases hpart : part = ""
        · simp [Js.truthyString, Datum.lt, hpart]
        · have htruthy : Js.truthyString (some part) = true := decide_eq_true hpart
          rw [if_pos htruthy, Option.getD_some, rejects_one_iff]
          simp [hpart]
  rw [parseDeviceAddress.register, hcount, ← haccepts]
  split_ifs with hreject
  · rw [hreject]
    simp
  · rw [Bool.eq_false_iff.mpr hreject]
    simp [eq_comm]

theorem countOf_bit {t : RegisterType} (ht : ¬ t.IsRegister) (third : Option String) :
    countOf t third = .finite 1 := by
  cases t with
  | hr => exact absurd (Or.inl rfl) ht
  | ir => exact absurd (Or.inr rfl) ht
  | co | di => rfl

theorem name_inj {t t' : RegisterType} (h : t.name = t'.name) : t = t' := by
  cases t <;> cases t' <;> first | rfl | exact absurd h (by decide)

theorem bit_iff {t : RegisterType} (ht : ¬ t.IsRegister) {a : Datum} {third : Option String}
    {parsed : ParsedAddress} : (Except.ok ⟨t, a, .finite 1⟩ : Except String ParsedAddress) = .ok parsed ↔
      t.name = parsed.type.name ∧ (parsed.type.IsRegister →
        ∀ part ∈ third, part ≠ "" → ∃ n, leadingInteger part.toList = some n ∧ 1 ≤ n) ∧
      parsed = ⟨parsed.type, a, countOf parsed.type third⟩ := by
  constructor
  · rintro ⟨⟩
    exact ⟨rfl, fun hregister => absurd hregister ht, by rw [countOf_bit ht]⟩
  · rintro ⟨hname, -, hparsed⟩
    rw [hparsed, ← name_inj hname, countOf_bit ht]

theorem register_iff {address : String} {t : RegisterType} (ht : t.IsRegister) {a : Datum}
    {third : Option String} {parsed : ParsedAddress} :
    parseDeviceAddress.register address t a third = .ok parsed ↔
      t.name = parsed.type.name ∧ (parsed.type.IsRegister →
        ∀ part ∈ third, part ≠ "" → ∃ n, leadingInteger part.toList = some n ∧ 1 ≤ n) ∧
      parsed = ⟨parsed.type, a, countOf parsed.type third⟩ := by
  rw [register_ok_iff ht]
  constructor
  · rintro ⟨rfl, hcount⟩
    exact ⟨rfl, fun _ => hcount, rfl⟩
  · rintro ⟨hname, hcount, hparsed⟩
    rw [← name_inj hname] at hcount hparsed
    exact ⟨hparsed, hcount ht⟩

/-- The parser on two or three parts. -/
theorem parse_of_parts {s type addr : String} {third : Option String} {parsed : ParsedAddress}
    (h : Js.split s ':' = type :: addr :: third.toList) : parseDeviceAddress s = .ok parsed ↔
      Scans s parsed.type type addr third ∧ parsed = ⟨parsed.type, Js.parseInt addr, countOf parsed.type third⟩ := by
  have hlen : ¬ third.toList.length > 1 := by cases third <;> simp
  have hhead : third.toList.head? = third := by cases third <;> rfl
  have hscans : Scans s parsed.type type addr third ↔ Js.toUpperCase type = parsed.type.name ∧
      (∃ n, leadingInteger addr.toList = some n ∧ 0 ≤ n) ∧ (parsed.type.IsRegister →
        ∀ part ∈ third, part ≠ "" → ∃ n, leadingInteger part.toList = some n ∧ 1 ≤ n) :=
    ⟨fun h => ⟨h.type, h.address, h.count⟩, fun ⟨htype, haddr, hcount⟩ => ⟨h, htype, haddr, hcount⟩⟩
  rw [hscans, ← rejects_zero_iff, parseDeviceAddress, h]
  simp only [hlen, if_false, hhead]
  cases hreject : (Js.parseInt addr = .nan || (Js.parseInt addr).lt (.finite 0)) with
  | true => simp
  | false =>
      simp only [Bool.false_eq_true, if_false, true_and, and_assoc]
      split
      case h_1 htype =>
        rw [htype]
        exact register_iff (t := .hr) (Or.inl rfl)
      case h_2 htype =>
        rw [htype]
        exact register_iff (t := .ir) (Or.inr rfl)
      case h_3 htype =>
        rw [htype]
        exact bit_iff (t := .co) (by decide)
      case h_4 htype =>
        rw [htype]
        exact bit_iff (t := .di) (by decide)
      case h_5 hhr hir hco hdi =>
        refine iff_of_false nofun fun h => ?_
        cases ht : parsed.type with
        | hr => exact hhr (h.1.trans (congrArg RegisterType.name ht))
        | ir => exact hir (h.1.trans (congrArg RegisterType.name ht))
        | co => exact hco (h.1.trans (congrArg RegisterType.name ht))
        | di => exact hdi (h.1.trans (congrArg RegisterType.name ht))

theorem parseDeviceAddress_ok_iff {s : String} {parsed : ParsedAddress} :
    parseDeviceAddress s = .ok parsed ↔ ∃ type addr third, Scans s parsed.type type addr third ∧
      parsed = ⟨parsed.type, Js.parseInt addr, countOf parsed.type third⟩ := by
  constructor
  · intro h
    have hparts : ∃ type addr third, Js.split s ':' = type :: addr :: Option.toList third := by
      unfold parseDeviceAddress at h
      split at h
      · rename_i type addr rest hsplit
        split_ifs at h with hlen
        all_goals
          refine ⟨type, addr, rest.head?, ?_⟩
          rw [hsplit]
          match rest, hlen with
          | [], _ => rfl
          | [part], _ => rfl
          | _ :: _ :: _, hlen => exact absurd (by simp) hlen
      · cases h
    obtain ⟨type, addr, third, hparts⟩ := hparts
    exact ⟨type, addr, third, (parse_of_parts hparts).mp h⟩
  · rintro ⟨type, addr, third, hscans, hparsed⟩
    exact (parse_of_parts hscans.parts).mpr ⟨hscans, hparsed⟩

/-! ## The grammar -/

/-- A type in capitals or not, without the dotless `ı`. -/
theorem toUpperCase_iff {type : String} {t : RegisterType} :
    type.toList.map Char.toUpper = t.name.toList ↔ Js.toUpperCase type = t.name ∧ 'ı' ∉ type.toList := by
  have hnames : ∀ c ∈ t.name.toList, c ≠ 'S' ∧ c ≠ 'ı' ∧ c ≠ 'ſ' := by
    have hall : t.name.toList.all (fun c => c ≠ 'S' ∧ c ≠ 'ı' ∧ c ≠ 'ſ') = true := by cases t <;> decide
    exact fun c hc => of_decide_eq_true (List.all_eq_true.mp hall c hc)
  have hupper : Js.toUpperCase type = t.name ↔
      type.toList.map (fun c => if c = 'ı' then 'I' else if c = 'ſ' then 'S' else c.toUpper) = t.name.toList := by
    rw [Js.toUpperCase, ← String.toList_inj, String.toList_ofList]
  rw [hupper]
  constructor
  · intro h
    have hno : ∀ c ∈ type.toList, c ≠ 'ı' ∧ c ≠ 'ſ' := by
      intro c hc
      have hmem : c.toUpper ∈ t.name.toList := h ▸ List.mem_map_of_mem hc
      constructor
      · rintro rfl
        exact (hnames _ hmem).2.1 (by decide)
      · rintro rfl
        exact (hnames _ hmem).2.2 (by decide)
    refine ⟨?_, fun hmem => (hno _ hmem).1 rfl⟩
    rw [← h]
    exact List.map_congr_left fun c hc => by rw [if_neg (hno c hc).1, if_neg (hno c hc).2]
  · rintro ⟨h, hdotless⟩
    rw [← h]
    refine List.map_congr_left fun c hc => ?_
    have hmem := h ▸ List.mem_map_of_mem (f := fun c =>
      if c = 'ı' then 'I' else if c = 'ſ' then 'S' else c.toUpper) hc
    have hc' : c ≠ 'ı' := fun he => hdotless (he ▸ hc)
    have hlong : c ≠ 'ſ' := by
      rintro rfl
      exact (hnames _ hmem).1 (by decide)
    rw [if_neg hc', if_neg hlong]

theorem colon_notMem_digits {cs : List Char} (h : IsDigits cs) : ':' ∉ cs := fun hmem =>
  absurd (h.2 ':' hmem) (by decide)

theorem colon_notMem_type {cs : List Char} {t : RegisterType} (h : cs.map Char.toUpper = t.name.toList) :
    ':' ∉ cs := by
  intro hmem
  have hname : Char.toUpper ':' ∈ t.name.toList := h ▸ List.mem_map_of_mem hmem
  revert hname
  cases t <;> decide

theorem split_intercalate {pieces : List (List Char)} (hno : ∀ piece ∈ pieces, ':' ∉ piece) (hne : pieces ≠ []) :
    Js.split (String.ofList ([':'].intercalate pieces)) ':' = pieces.map String.ofList := by
  rw [Js.split, String.toList_ofList, List.splitOn_intercalate ':' hno hne]

/-- What a string denotes, by its parts. -/
theorem denotes_iff {s : String} {parsed : ParsedAddress} :
    Denotes s parsed ↔ ∃ type addr third, Js.split s ':' = type :: addr :: Option.toList third ∧
      type.toList.map Char.toUpper = parsed.type.name.toList ∧ IsDigits addr.toList ∧
      (∀ part ∈ third, parsed.type.IsRegister ∧ IsDigits part.toList ∧ 0 < digitsValue part.toList) ∧
      parsed = ⟨parsed.type, .finite (digitsValue addr.toList),
        .finite (third.elim 1 fun part => digitsValue part.toList)⟩ := by
  constructor
  · intro h
    cases h with
    | @single text digits t htype hdigits =>
        refine ⟨String.ofList text, String.ofList digits, none, ?_, ?_, ?_, nofun, ?_⟩
        · have hno : ∀ piece ∈ [text, digits], ':' ∉ piece := by
            simp [colon_notMem_type htype, colon_notMem_digits hdigits]
          simpa using split_intercalate hno (List.cons_ne_nil _ _)
        · rwa [String.toList_ofList]
        · rwa [String.toList_ofList]
        · rw [String.toList_ofList]
          rfl
    | @counted text digits count t htype hregister hdigits hcount hpos =>
        refine ⟨String.ofList text, String.ofList digits, some (String.ofList count), ?_, ?_, ?_, ?_, ?_⟩
        · have hno : ∀ piece ∈ [text, digits, count], ':' ∉ piece := by
            simp [colon_notMem_type htype, colon_notMem_digits hdigits, colon_notMem_digits hcount]
          simpa using split_intercalate hno (List.cons_ne_nil _ _)
        · rwa [String.toList_ofList]
        · rwa [String.toList_ofList]
        · intro part hpart
          rw [← Option.some.inj hpart, String.toList_ofList]
          exact ⟨hregister, hcount, hpos⟩
        · rw [String.toList_ofList, Option.elim_some, String.toList_ofList]
  · rintro ⟨type, addr, third, hsplit, htype, haddr, hthird, hparsed⟩
    have hjoin : s = String.ofList ([':'].intercalate ((type :: addr :: third.toList).map String.toList)) := by
      rw [← hsplit, Js.split, List.map_map]
      have hid : String.toList ∘ String.ofList = id := funext fun cs => String.toList_ofList
      rw [hid, List.map_id, List.intercalate_splitOn, String.ofList_toList]
    rw [hjoin, hparsed]
    cases third with
    | none => simpa using Denotes.single htype haddr
    | some part =>
        obtain ⟨hregister, hdigits, hpos⟩ := hthird part rfl
        simpa using Denotes.counted htype hregister haddr hdigits hpos

theorem countOf_digits {t : RegisterType} {part : String} (ht : t.IsRegister) (h : IsDigits part.toList) :
    countOf t (some part) = Js.parseInt part := by
  have htruthy : Js.truthyString (some part) = true := decide_eq_true fun hempty => h.1 (by rw [hempty]; rfl)
  rcases ht with rfl | rfl
  · simp only [countOf, htruthy, Option.getD_some]
  · simp only [countOf, htruthy, Option.getD_some]

/-- What is denoted is scanned. -/
theorem scans_of_digits {s type addr : String} {third : Option String} {t : RegisterType}
    (hsplit : Js.split s ':' = type :: addr :: third.toList) (htype : type.toList.map Char.toUpper = t.name.toList)
    (haddr : IsDigits addr.toList) (hthird : ∀ part ∈ third, IsDigits part.toList ∧ 0 < digitsValue part.toList) :
    Scans s t type addr third where
  parts := hsplit
  type := (toUpperCase_iff.mp htype).1
  address := ⟨_, leadingInteger_digits haddr, Int.natCast_nonneg _⟩
  count _ part hpart _ := ⟨_, leadingInteger_digits (hthird part hpart).1, by
    exact_mod_cast (hthird part hpart).2⟩

/-- What is read plainly is returned as it is denoted. -/
theorem parsed_of_plain {t : RegisterType} {type addr : String} {third : Option String}
    (h : ReadsPlainly t type addr third) :
    (⟨t, Js.parseInt addr, countOf t third⟩ : ParsedAddress) = ⟨t, .finite (digitsValue addr.toList),
      .finite (third.elim 1 fun part => digitsValue part.toList)⟩ := by
  rw [(parseInt_eq_iff h.address.1).mpr h.address]
  cases third with
  | none => cases t <;> rfl
  | some part =>
      obtain ⟨hregister, hplain⟩ := h.count part rfl
      rw [countOf_digits hregister hplain.1, (parseInt_eq_iff hplain.1).mpr hplain]
      rfl

/-- **The parser accepts its grammar** at a string if and only if what it scans there is read plainly. -/
theorem parseDeviceAddress_exact_iff (s : String) :
    AddressExact s ↔ ∀ t type addr third, Scans s t type addr third → ReadsPlainly t type addr third := by
  constructor
  · intro h t type addr third hscans
    have hok : parseDeviceAddress s = .ok ⟨t, Js.parseInt addr, countOf t third⟩ :=
      (parse_of_parts hscans.parts).mpr ⟨hscans, rfl⟩
    obtain ⟨type', addr', third', hsplit, htype, haddr, hthird, hparsed⟩ := denotes_iff.mp ((h _).mp hok)
    obtain ⟨rfl, hrest⟩ := List.cons.inj (hscans.parts.symm.trans hsplit)
    obtain ⟨rfl, hthirds⟩ := List.cons.inj hrest
    obtain rfl : third = third' := by
      have hheads := congrArg List.head? hthirds
      rwa [Option.head?_toList, Option.head?_toList] at hheads
    obtain ⟨-, hvalue, hcount⟩ := ParsedAddress.mk.inj hparsed
    refine ⟨(toUpperCase_iff.mp htype).2, (parseInt_eq_iff haddr).mp hvalue, fun part hpart => ?_⟩
    obtain ⟨hregister, hdigits, -⟩ := hthird part hpart
    obtain rfl := hpart
    rw [countOf_digits hregister hdigits] at hcount
    exact ⟨hregister, (parseInt_eq_iff hdigits).mp hcount⟩
  · intro h parsed
    constructor
    · intro hok
      obtain ⟨type, addr, third, hscans, hparsed⟩ := parseDeviceAddress_ok_iff.mp hok
      have hplain := h _ _ _ _ hscans
      refine denotes_iff.mpr ⟨type, addr, third, hscans.parts, toUpperCase_iff.mpr ⟨hscans.type, hplain.type⟩,
        hplain.address.1, fun part hpart => ?_, hparsed.trans (parsed_of_plain hplain)⟩
      obtain ⟨hregister, hdigits, -⟩ := hplain.count part hpart
      have hne : part ≠ "" := fun hempty => hdigits.1 (by rw [hempty]; rfl)
      obtain ⟨n, hn, hpos⟩ := hscans.count hregister part hpart hne
      rw [leadingInteger_digits hdigits] at hn
      refine ⟨hregister, hdigits, ?_⟩
      have hvalue := Option.some.inj hn
      omega
    · intro hdenotes
      obtain ⟨type, addr, third, hsplit, htype, haddr, hthird, hparsed⟩ := denotes_iff.mp hdenotes
      have hscans := scans_of_digits hsplit htype haddr fun part hpart => (hthird part hpart).2
      exact (parse_of_parts hsplit).mpr ⟨hscans, hparsed.trans (parsed_of_plain (h _ _ _ _ hscans)).symm⟩

/-- Text after the number is dropped. -/
theorem trailingText_not_exact : ¬ AddressExact "HR:12abc" := by
  intro h
  have hok : parseDeviceAddress "HR:12abc" = .ok ⟨.hr, .finite 12, .finite 1⟩ := by decide +kernel
  obtain ⟨type, addr, third, hsplit, -, haddr, -⟩ := denotes_iff.mp ((h _).mp hok)
  have hparts : Js.split "HR:12abc" ':' = ["HR", "12abc"] := by decide
  have haddr' : addr = "12abc" := by
    rw [hparts] at hsplit
    exact (List.cons.inj (List.cons.inj hsplit).2).1.symm
  exact absurd (haddr.2 'a' (by rw [haddr']; decide)) (by decide)

end OpcuaLight.Connector
