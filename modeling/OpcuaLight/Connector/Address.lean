import OpcuaLight.Connector.Types
import OpcuaLight.Lib.Doubles

/-!
# Device addresses

The address formats that `addMapping` of the Modbus and PCCC connectors checks.
-/

namespace OpcuaLight.Connector

/-! ## Modbus -/

inductive RegisterType where
  | hr
  | ir
  | co
  | di
  deriving DecidableEq, Repr

structure ParsedAddress where
  type : RegisterType
  address : Binary.Datum
  count : Binary.Datum
  deriving DecidableEq

/-- `parseDeviceAddress` of the Modbus connector; an error is the message thrown. -/
def parseDeviceAddress (address : String) : Except String ParsedAddress :=
  match Js.split address ':' with
  | type :: addr :: rest =>
      if rest.length > 1 then .error (formatError address)
      else if Js.parseInt addr = .nan || (Js.parseInt addr).lt (.finite 0) then .error (numberError address)
      else
        match Js.toUpperCase type with
        | "HR" => register .hr (Js.parseInt addr) rest.head?
        | "IR" => register .ir (Js.parseInt addr) rest.head?
        | "CO" => .ok ⟨.co, Js.parseInt addr, .finite 1⟩
        | "DI" => .ok ⟨.di, Js.parseInt addr, .finite 1⟩
        | t => .error s!"Unknown Modbus register type '{t}' in address '{address}'. Expected HR, IR, CO, or DI"
  | _ => .error (formatError address)
where
  formatError (address : String) : String :=
    s!"Invalid Modbus device address format: '{address}'. Expected \"TYPE:address[:count]\""
  numberError (address : String) : String :=
    s!"Invalid Modbus address number in '{address}': must be a non-negative integer"
  register (type : RegisterType) (a : Binary.Datum) (third : Option String) : Except String ParsedAddress :=
    -- an empty third part is falsy and counts as omitted
    let count := if Js.truthyString third then Js.parseInt (third.getD "") else .finite 1
    if count = .nan || count.lt (.finite 1) then
      .error s!"Invalid register count in '{address}': must be a positive integer"
    else .ok ⟨type, a, count⟩

/-! ## PCCC -/

def isWordChar (c : Char) : Bool := c.isAlphanum || c = '_'

/-- An optional group that starts with `sep` and goes on with one or more characters of `body`; what
is left, or `none` where the group starts and does not match. -/
def optionalGroup (sep : Char) (body : Char → Bool) : List Char → Option (List Char)
  | [] => some []
  | c :: cs =>
      if c = sep then
        match cs.takeWhile body with
        | [] => none
        | _ => some (cs.dropWhile body)
      else some (c :: cs)

/-- The sub-element keywords that may follow the slash instead of a bit number. -/
def pcccKeywords : List String :=
  ["DN", "EN", "TT", "ACC", "PRE", "LEN", "POS", "CU", "CD", "OV", "UN", "UA"]

/-- The optional `/bit` or `/keyword` group. -/
def bitGroup : List Char → Option (List Char)
  | '/' :: cs =>
      match cs.takeWhile Char.isDigit with
      | [] =>
          (pcccKeywords.find? (fun k => k.toList <+: cs.map Char.toUpper)).map
            (fun k => cs.drop k.length)
      | _ => some (cs.dropWhile Char.isDigit)
  | cs => some cs

/-- `PCCC_ADDRESS_REGEX.test`: one or two letters, an optional file number, a colon and the element,
then the optional bit, sub-element and length groups. No two alternatives of the pattern can match at
one place, so reading from left to right decides it. -/
def pcccAddressTest (address : String) : Bool :=
  let letters := address.toList.takeWhile Char.isAlpha
  let rest := (address.toList.dropWhile Char.isAlpha).dropWhile Char.isDigit
  (letters.length == 1 || letters.length == 2) &&
    match rest with
    | ':' :: cs =>
        match cs.takeWhile Char.isDigit with
        | [] => false
        | _ =>
            (((bitGroup (cs.dropWhile Char.isDigit)).bind (optionalGroup '.' isWordChar)).bind
              (optionalGroup ',' Char.isDigit)) == some []
    | _ => false

/-- The message thrown for an address that is not a PCCC address. -/
def pcccAddressError (address : String) : String :=
  s!"Invalid PCCC address '{address}'. Expected format: " ++
    "<FileType><FileNumber>:<Element>[/<Bit>][.SubElement][,ArrayLength] " ++
    "(e.g., N7:0, F8:1, B3:0/5, T4:0.ACC)"

end OpcuaLight.Connector
