import OpcuaLight.Lib.Trim

/-!
# Validation of certificate requests

`cert-generator/validation.ts`: the checks of the single fields, and `validateGenerateRequest` with the errors
of a request. A name that is not a text makes it throw.
-/

namespace OpcuaLight.Cert

structure ValidationError where
  field : String
  message : String
  deriving DecidableEq, Repr

/-- The fields of `GenerateCertificateRequest` that are validated; `none` for `undefined`. -/
structure GenerateCertificateRequest where
  commonName : Option Json
  organization : Option Json
  country : Option Json
  dnsNames : Option Json
  ipAddresses : Option Json

/-! ## Addresses -/

/-- `/^\d{1,3}$/`. -/
def isDigits3 (part : List Char) : Bool := 1 ≤ part.length && part.length ≤ 3 && part.all Char.isDigit

/-- An octet as `isValidIpv4` tests it: `String(parseInt(part, 10)) === part` refuses leading zeros. -/
def isOctet (part : List Char) : Bool :=
  isDigits3 part && Js.digitsValue part ≤ 255 && Nat.toDigits 10 (Js.digitsValue part) = part

def isValidIpv4 (ip : List Char) : Bool :=
  let parts := ip.splitOn '.'
  parts.length = 4 && parts.all isOctet

def isHexDigit (c : Char) : Bool :=
  c.isDigit || ('a' ≤ c && c ≤ 'f') || ('A' ≤ c && c ≤ 'F')

/-- `/^[0-9a-fA-F]{1,4}$/`. -/
def isGroup (part : List Char) : Bool := 1 ≤ part.length && part.length ≤ 4 && part.all isHexDigit

/-- `(ip.match(/::/g) || []).length`. -/
def doubleColonCount : List Char → Nat
  | ':' :: ':' :: cs => doubleColonCount cs + 1
  | _ :: cs => doubleColonCount cs
  | [] => 0

/-- `ip.split("::")`. -/
def splitDoubleColon : List Char → List (List Char)
  | ':' :: ':' :: cs => [] :: splitDoubleColon cs
  | c :: cs => (splitDoubleColon cs).modifyHead (c :: ·)
  | [] => [[]]

/-- `side === "" ? [] : side.split(":")`. -/
def groupsOf (side : List Char) : List (List Char) := if side = [] then [] else side.splitOn ':'

def isValidIpv6 (ip : List Char) : Bool :=
  if ip.length = 0 then false
  else if '%' ∈ ip then false
  else if doubleColonCount ip > 1 then false
  else if doubleColonCount ip = 1 then
    match splitDoubleColon ip with
    | left :: right :: _ =>
        (groupsOf left).length + (groupsOf right).length ≤ 7 && (groupsOf left ++ groupsOf right).all isGroup
    | _ => false
  else
    let parts := ip.splitOn ':'
    parts.length = 8 && parts.all isGroup

def validateIpAddress (ip : String) : Bool :=
  let trimmed := (Js.trim ip).toList
  if trimmed.length = 0 then false else isValidIpv4 trimmed || isValidIpv6 trimmed

/-! ## Names -/

/-- The length of a string in code units. -/
def codeUnits (s : String) : Nat := (s.toList.map (fun c => if c.toNat < 0x10000 then 1 else 2)).sum

/-- `/^[a-zA-Z0-9.\-]+$/`, for a string that is not empty. -/
def isHostText (cs : List Char) : Bool := cs.all (fun c => c.isAlphanum || c = '.' || c = '-')

def validateDnsName (dns : String) : Bool :=
  let trimmed := Js.trim dns
  codeUnits trimmed ≠ 0 && codeUnits trimmed ≤ 253 && isHostText trimmed.toList

/-- `/^[A-Z]{2}$/`. -/
def validateCountryCode (code : String) : Bool :=
  (Js.trim code).toList.length = 2 && (Js.trim code).toList.all Char.isUpper

/-- 1 to 64 characters after trimming. -/
def hasLength1To64 (s : String) : Bool := 1 ≤ codeUnits (Js.trim s) && codeUnits (Js.trim s) ≤ 64

def validateCommonName (cn : String) : Bool := hasLength1To64 cn

def validateOrganization (org : String) : Bool := hasLength1To64 org

/-! ## Requests -/

/-- The check of a name, if one is provided and not blank. -/
def validateText (field message : String) (valid : String → Bool) :
    Option Json → Except String (List ValidationError)
  | none | some .null => .ok []
  | some (.str s) =>
      if codeUnits (Js.trim s) > 0 && !valid (Js.trim s) then .ok [⟨field, message⟩] else .ok []
  | some _ => .error s!"body.{field}.trim is not a function"

/-- The check of every text of a list, if a list is provided. -/
def validateList (field : String) (message : Nat → String) (valid : String → Bool) :
    Option Json → List ValidationError
  | some (.arr items) => items.zipIdx.flatMap (fun item =>
      match item.1 with
      | .str s => if valid (Js.trim s) then [] else [⟨field, message item.2⟩]
      | _ => [])
  | _ => []

def dnsMessage (i : Nat) : String :=
  s!"Invalid DNS name at index {i}: must contain only [a-zA-Z0-9.-] and be 1-253 characters"

def ipMessage (i : Nat) : String :=
  s!"Invalid IP address at index {i}: must be a valid IPv4 or IPv6 address"

/-- The errors of a request; an error of its own is what it throws. -/
def validateGenerateRequest (body : GenerateCertificateRequest) : Except String (List ValidationError) := do
  let commonName ← validateText "commonName" "Common name must be 1-64 characters" validateCommonName
    body.commonName
  let organization ← validateText "organization" "Organization must be 1-64 characters"
    validateOrganization body.organization
  let country ← validateText "country" "Country must be exactly 2 uppercase ASCII letters (A-Z)"
    validateCountryCode body.country
  return commonName ++ organization ++ country ++
    validateList "dnsNames" dnsMessage validateDnsName body.dnsNames ++
    validateList "ipAddresses" ipMessage validateIpAddress body.ipAddresses

end OpcuaLight.Cert
