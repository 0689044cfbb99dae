import Mathlib.Data.Finset.Basic
import OpcuaLight.Lib.Machine

/-!
# The trust and reject stores

`tofu_verifier.c` in the runtime and `tofu-manager.ts` in the API process, which share two directories of
certificate files and nothing else. A verification makes one call to the file system at a time
(`Verification.step`); the operations of the manager are atomic. The files are known by their names: what is
written into them, and the reload signal, change no verdict. SHA-1 is a parameter.
-/

namespace OpcuaLight.Pki

/-! ## Thumbprints -/

/-- `/[0-9a-f]/`. -/
def isHexDigit (c : Char) : Bool := ('0' ≤ c && c ≤ '9') || ('a' ≤ c && c ≤ 'f')

/-- `THUMBPRINT_REGEX`, which the routes test before they call the manager. -/
def isValidThumbprint (value : String) : Bool :=
  value.toList.length == 40 && value.toList.all isHexDigit

structure Thumbprint where
  hex : String
  valid : isValidThumbprint hex = true
  deriving DecidableEq

/-- `sprintf("%02x")`. -/
def hexByte (b : UInt8) : List Char := [(b.toNat / 16).digitChar, (b.toNat % 16).digitChar]

theorem isHexDigit_digitChar : ∀ n < 16, isHexDigit n.digitChar = true := by decide

theorem isHexDigit_hexByte (b : UInt8) : (hexByte b).all isHexDigit = true := by
  have hb : b.toNat < 256 := b.toNat_lt
  simp [hexByte, isHexDigit_digitChar (b.toNat / 16) (by omega),
    isHexDigit_digitChar (b.toNat % 16) (by omega)]

theorem length_flatMap_hexByte (bytes : List UInt8) :
    (bytes.flatMap hexByte).length = 2 * bytes.length := by
  induction bytes with
  | nil => rfl
  | cons b bytes ih =>
      rw [List.flatMap_cons, List.length_append, ih, List.length_cons]
      show 2 + _ = _
      omega

/-- `compute_thumbprint`, from the hash of the certificate. -/
def computeThumbprint (hash : Vector UInt8 20) : Thumbprint where
  hex := String.ofList (hash.toList.flatMap hexByte)
  valid := by
    rw [isValidThumbprint, String.toList_ofList, length_flatMap_hexByte, Vector.length_toList]
    simp [List.all_flatMap, isHexDigit_hexByte]

/-! ## The file system -/

/-- A directory: whether the runtime may read it, and the thumbprints of its `.der` files. -/
structure Directory where
  readable : Bool
  files : Finset Thumbprint

/-- The two directories; one that is missing is `none`. -/
structure Stores where
  trusted : Option Directory
  rejected : Option Directory

/-- `access(path, R_OK) == 0`. -/
def readable (directory : Option Directory) : Bool := directory.elim false Directory.readable

/-- The files of the directory, which has none if it is missing. -/
def files (directory : Option Directory) : Finset Thumbprint := directory.elim ∅ Directory.files

def Directory.create (directory : Directory) (t : Thumbprint) : Directory :=
  { directory with files := insert t directory.files }

def Directory.remove (directory : Directory) (t : Thumbprint) : Directory :=
  { directory with files := directory.files.erase t }

@[simp] theorem files_create (directory : Option Directory) (t : Thumbprint) :
    files (directory.map (·.create t)) = if directory.isSome then insert t (files directory) else ∅ := by
  cases directory <;> rfl

@[simp] theorem files_remove (directory : Option Directory) (t : Thumbprint) :
    files (directory.map (·.remove t)) = (files directory).erase t := by
  cases directory <;> rfl

/-! ## `tofu_verifier.c` -/

inductive VerifyStatus where
  | good
  | badCertificateUntrusted
  deriving DecidableEq, Repr

/-- What a verification does next. -/
inductive Phase where
  /-- `access` of the trusted directory. -/
  | trustedDirectory
  /-- `access` of the rejected directory. -/
  | rejectedDirectory
  /-- `access` of the file in the reject store. -/
  | rejectStore
  /-- `access` of the file in the trust store. -/
  | trustStore
  /-- `fopen` of the file in the trust store, which creates it. -/
  | opening
  /-- `fwrite` and `fclose`. -/
  | writing
  | returned (status : VerifyStatus)
  deriving DecidableEq, Repr

/-- A run of `tofu_verify_certificate`. -/
structure Verification where
  certificate : List UInt8
  phase : Phase
  deriving DecidableEq

variable (sha1 : List UInt8 → Vector UInt8 20)

def Verification.thumbprint (v : Verification) : Thumbprint := computeThumbprint (sha1 v.certificate)

/-- The phase after the next call to the file system; `opened` says whether an `fopen` succeeds. -/
def Verification.next (stores : Stores) (v : Verification) (opened : Bool) : Phase :=
  match v.phase with
  | .trustedDirectory =>
      if readable stores.trusted then .rejectedDirectory else .returned .badCertificateUntrusted
  | .rejectedDirectory =>
      if readable stores.rejected then .rejectStore else .returned .badCertificateUntrusted
  -- in both stores: rejected
  | .rejectStore =>
      if v.thumbprint sha1 ∈ files stores.rejected then .returned .badCertificateUntrusted else .trustStore
  | .trustStore => if v.thumbprint sha1 ∈ files stores.trusted then .returned .good else .opening
  -- accepted also when the file cannot be saved
  | .opening => if opened ∧ stores.trusted.isSome then .writing else .returned .good
  | .writing => .returned .good
  | .returned status => .returned status

/-- The verification is about to create its file in the trust store. -/
def Verification.creates (stores : Stores) (v : Verification) (opened : Bool) : Bool :=
  v.phase = .opening && opened && stores.trusted.isSome

/-- The stores after the next call of the verification. -/
def Verification.write (stores : Stores) (v : Verification) (opened : Bool) : Stores :=
  if v.creates stores opened then
    { stores with trusted := stores.trusted.map (·.create (v.thumbprint sha1)) }
  else stores

/-! ## `tofu-manager.ts` -/

inductive TofuError where
  | notFound (message : String)
  | conflict (message : String)
  /-- An error of the file system, passed on. -/
  | fileSystem
  deriving DecidableEq, Repr

/-- `mkdirSync(path, { recursive: true })`. -/
def mkdirSync (directory : Option Directory) : Option Directory := some (directory.getD ⟨true, ∅⟩)

/-- `initialize`; `made` says of each directory whether it can be made. -/
def Stores.initializeStores (stores : Stores) (made : Bool × Bool) : Stores × Except TofuError Unit :=
  if made.1 then
    let stores := { stores with trusted := mkdirSync stores.trusted }
    if made.2 then ({ stores with rejected := mkdirSync stores.rejected }, .ok ())
    else (stores, .error .fileSystem)
  else (stores, .error .fileSystem)

/-- `unlinkSync` of a file of the trust store, or of the reject store. -/
def Stores.deleteCertificate (stores : Stores) (t : Thumbprint) (unlinked : Bool) :
    Stores × Except TofuError Unit :=
  if t ∈ files stores.trusted then
    if unlinked then ({ stores with trusted := stores.trusted.map (·.remove t) }, .ok ())
    else (stores, .error .fileSystem)
  else if t ∈ files stores.rejected then
    if unlinked then ({ stores with rejected := stores.rejected.map (·.remove t) }, .ok ())
    else (stores, .error .fileSystem)
  else (stores, .error (.notFound s!"Certificate not found: {t.hex}"))

/-- The rename fails if there is no reject store. -/
def Stores.rejectCertificate (stores : Stores) (t : Thumbprint) (renamed : Bool) :
    Stores × Except TofuError Unit :=
  if t ∈ files stores.trusted then
    if renamed ∧ stores.rejected.isSome then
      (⟨stores.trusted.map (·.remove t), stores.rejected.map (·.create t)⟩, .ok ())
    else (stores, .error .fileSystem)
  else (stores, .error (.notFound s!"Certificate not found in trust store: {t.hex}"))

/-- The rename fails if there is no trust store. -/
def Stores.trustCertificate (stores : Stores) (t : Thumbprint) (renamed : Bool) :
    Stores × Except TofuError Unit :=
  if t ∈ files stores.rejected then
    if t ∈ files stores.trusted then
      (stores, .error (.conflict s!"Certificate {t.hex} is already trusted"))
    else if renamed ∧ stores.trusted.isSome then
      (⟨stores.trusted.map (·.create t), stores.rejected.map (·.remove t)⟩, .ok ())
    else (stores, .error .fileSystem)
  else (stores, .error (.notFound s!"Certificate {t.hex} not found in reject store"))

/-! ## The two processes -/

/-- The stores and the verifications begun so far, in order. -/
structure State where
  stores : Stores
  verifications : List Verification

inductive Event where
  /-- The runtime begins to verify a certificate. -/
  | begin (certificate : List UInt8)
  /-- The next call of the verification with this number. -/
  | verify (i : Nat) (opened : Bool)
  | initializeStores (made : Bool × Bool)
  | delete (t : Thumbprint) (unlinked : Bool)
  | reject (t : Thumbprint) (renamed : Bool)
  | trust (t : Thumbprint) (renamed : Bool)

def State.verify (s : State) (i : Nat) (opened : Bool) : State :=
  match s.verifications[i]? with
  | none => s
  | some v =>
      ⟨v.write sha1 s.stores opened,
        s.verifications.set i { v with phase := v.next sha1 s.stores opened }⟩

def State.step (s : State) : Event → State
  | .begin certificate =>
      { s with verifications := s.verifications ++ [⟨certificate, .trustedDirectory⟩] }
  | .verify i opened => s.verify sha1 i opened
  | .initializeStores made => { s with stores := (s.stores.initializeStores made).1 }
  | .delete t unlinked => { s with stores := (s.stores.deleteCertificate t unlinked).1 }
  | .reject t renamed => { s with stores := (s.stores.rejectCertificate t renamed).1 }
  | .trust t renamed => { s with stores := (s.stores.trustCertificate t renamed).1 }

/-- The state after the events. -/
abbrev State.run (s : State) (es : List Event) : State := Machine.run (State.step sha1) s es

end OpcuaLight.Pki
