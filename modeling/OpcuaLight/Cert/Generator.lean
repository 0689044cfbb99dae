import Mathlib.Logic.Function.Basic
import OpcuaLight.Cert.Validation

/-!
# Files of the certificate generator

`generateCertificate`: the request is validated, the key and the certificate are generated, and the two files are
written one after the other, the key first. A failing write of the certificate removes the key, also that of an
earlier run (`generateCertificate_pairKept_iff`).
-/

namespace OpcuaLight.Cert

abbrev Bytes := List UInt8

/-- The contents of the files, by their paths. -/
abbrev Files := String → Option Bytes

/-- What becomes of a call of `writeFileSync`. -/
inductive WriteOutcome where
  | written
  /-- The file is not opened. -/
  | refused (error : String)
  /-- The file is opened, which empties it, and fails after `n` bytes. -/
  | cut (n : Nat) (error : String)
  deriving DecidableEq

/-- What becomes of the calls of the file system, each at its place. -/
structure FileSystem where
  keyDirectory : Except String Unit
  certDirectory : Except String Unit
  keyWrite : WriteOutcome
  certWrite : WriteOutcome
  unlink : Except String Unit

/-- What `node-forge` makes of the options: the certificate in DER, the key in PEM, and the dates. -/
structure Generated where
  certBuffer : Bytes
  keyPem : Bytes
  expiresAt : String
  createdAt : String

structure CertGenerateResult where
  certificatePath : String
  privateKeyPath : String
  expiresAt : String
  createdAt : String

/-- Code that reads and writes files and may throw. -/
abbrev FileM := ExceptT String (StateM Files)

/-! ## `cert-generator/index.ts` -/

def mkdirSync (outcome : Except String Unit) : FileM Unit := liftExcept outcome

def writeFileSync (path : String) (content : Bytes) : WriteOutcome → FileM Unit
  | .written => modify fun files => Function.update files path (some content)
  | .refused error => throw error
  | .cut n error => do
      modify fun files => Function.update files path (some (content.take n))
      throw error

def unlinkSync (path : String) (outcome : Except String Unit) : FileM Unit := do
  liftExcept outcome
  modify fun files => Function.update files path none

/-- `validationErrors.map((e) => …).join("; ")`. -/
def validationMessages (errors : List ValidationError) : String :=
  "; ".intercalate (errors.map fun e => s!"{e.field}: {e.message}")

/-- `chmodSync` is left out: it changes no content, and its errors are ignored. -/
def generateCertificate (certOutputPath keyOutputPath : String) (options : GenerateCertificateRequest)
    (forge : Except String Generated) (fs : FileSystem) : FileM CertGenerateResult := do
  let validationErrors ← liftExcept (validateGenerateRequest options)
  if validationErrors.length > 0 then
    throw s!"Validation failed: {validationMessages validationErrors}"
  let generated ← liftExcept forge
  mkdirSync fs.keyDirectory
  mkdirSync fs.certDirectory
  writeFileSync keyOutputPath generated.keyPem fs.keyWrite
  tryCatch (writeFileSync certOutputPath generated.certBuffer fs.certWrite) fun error => do
    tryCatch (unlinkSync keyOutputPath fs.unlink) fun _ => pure ()
    throw error
  return ⟨certOutputPath, keyOutputPath, generated.expiresAt, generated.createdAt⟩

/-! ## The pair -/

/-- Both files are new where the call returns, and neither has changed where it throws. -/
def PairKept (certPath keyPath : String) (forge : Except String Generated) (before : Files)
    (outcome : Except String CertGenerateResult × Files) : Prop :=
  match outcome.1 with
  | .ok _ => ∃ generated, forge = .ok generated ∧
      outcome.2 certPath = some generated.certBuffer ∧ outcome.2 keyPath = some generated.keyPem
  | .error _ => outcome.2 certPath = before certPath ∧ outcome.2 keyPath = before keyPath

/-- What the cleanup leaves of the key: nothing, or the new key where it cannot be removed. -/
def keyAfterCleanup (unlink : Except String Unit) (newKey : Bytes) : Option Bytes :=
  match unlink with
  | .ok _ => none
  | .error _ => some newKey

/-- A write that fails finds what it leaves: a key that is cut was there cut, and with a certificate that is
not written there was the key that the cleanup leaves, and the certificate that a cut one leaves. -/
def FailsInPlace (certBefore keyBefore : Option Bytes) (generated : Generated) (fs : FileSystem) : Prop :=
  match fs.keyWrite, fs.certWrite with
  | .refused _, _ => True
  | .cut n _, _ => keyBefore = some (generated.keyPem.take n)
  | .written, .written => True
  | .written, .refused _ => keyBefore = keyAfterCleanup fs.unlink generated.keyPem
  | .written, .cut n _ => keyBefore = keyAfterCleanup fs.unlink generated.keyPem ∧
      certBefore = some (generated.certBuffer.take n)

/-- The call gets as far as its writes. -/
def ReachesWrites (options : GenerateCertificateRequest) (forge : Except String Generated) (fs : FileSystem)
    (generated : Generated) : Prop :=
  validateGenerateRequest options = .ok [] ∧ forge = .ok generated ∧
    fs.keyDirectory = .ok () ∧ fs.certDirectory = .ok ()

/-! ## Runs -/

/-- A call that does not get as far as its writes throws, and changes nothing. -/
theorem run_of_not_reaches {certPath keyPath : String} {options : GenerateCertificateRequest}
    {forge : Except String Generated} {fs : FileSystem} {files : Files}
    (h : ∀ generated, ¬ ReachesWrites options forge fs generated) :
    ∃ error, (generateCertificate certPath keyPath options forge fs).run files = (.error error, files) := by
  cases hvalid : validateGenerateRequest options with
  | error e =>
      refine ⟨e, ?_⟩
      rw [generateCertificate, hvalid]
      rfl
  | ok errors =>
      cases errors with
      | cons e errors =>
          refine ⟨s!"Validation failed: {validationMessages (e :: errors)}", ?_⟩
          rw [generateCertificate, hvalid]
          rfl
      | nil =>
          rcases fs with ⟨keyDirectory, certDirectory, keyWrite, certWrite, unlink⟩
          cases forge with
          | error e =>
              refine ⟨e, ?_⟩
              rw [generateCertificate, hvalid]
              rfl
          | ok generated =>
              cases keyDirectory with
              | error e =>
                  refine ⟨e, ?_⟩
                  rw [generateCertificate, hvalid]
                  rfl
              | ok =>
                  cases certDirectory with
                  | error e =>
                      refine ⟨e, ?_⟩
                      rw [generateCertificate, hvalid]
                      rfl
                  | ok => exact absurd ⟨hvalid, rfl, rfl, rfl⟩ (h generated)

/-- The files and the result of a call that gets as far as its writes. -/
def afterWrites (certPath keyPath : String) (generated : Generated) (fs : FileSystem) (files : Files) :
    Except String CertGenerateResult × Files :=
  match fs.keyWrite, fs.certWrite with
  | .refused error, _ => (.error error, files)
  | .cut n error, _ => (.error error, Function.update files keyPath (some (generated.keyPem.take n)))
  | .written, .written => (.ok ⟨certPath, keyPath, generated.expiresAt, generated.createdAt⟩,
      Function.update (Function.update files keyPath (some generated.keyPem)) certPath (some generated.certBuffer))
  | .written, .refused error =>
      (.error error, Function.update files keyPath (keyAfterCleanup fs.unlink generated.keyPem))
  | .written, .cut n error => (.error error,
      Function.update (Function.update files certPath (some (generated.certBuffer.take n))) keyPath
        (keyAfterCleanup fs.unlink generated.keyPem))

theorem run_of_reaches {certPath keyPath : String} {options : GenerateCertificateRequest}
    {forge : Except String Generated} {fs : FileSystem} {files : Files} {generated : Generated}
    (hpaths : certPath ≠ keyPath) (h : ReachesWrites options forge fs generated) :
    (generateCertificate certPath keyPath options forge fs).run files =
      afterWrites certPath keyPath generated fs files := by
  obtain ⟨hvalid, rfl, hkey, hcert⟩ := h
  rcases fs with ⟨keyDirectory, certDirectory, keyWrite, certWrite, unlink⟩
  cases hkey
  cases hcert
  rw [generateCertificate, hvalid]
  cases keyWrite with
  | refused => rfl
  | cut => rfl
  | written =>
      cases certWrite with
      | written => rfl
      | refused e =>
          cases unlink with
          | ok u => exact congrArg (Prod.mk _) (Function.update_idem _ _ _)
          | error e => rfl
      | cut n e =>
          cases unlink with
          | ok u =>
              refine congrArg (Prod.mk _) ?_
              change Function.update (Function.update (Function.update files keyPath _) certPath _) keyPath none = _
              rw [Function.update_comm hpaths.symm, Function.update_idem]
              rfl
          | error e => exact congrArg (Prod.mk _) (Function.update_comm hpaths.symm _ _ _)

theorem pairKept_afterWrites_iff {certPath keyPath : String} {forge : Except String Generated} {fs : FileSystem}
    {files : Files} {generated : Generated} (hpaths : certPath ≠ keyPath) (hforge : forge = .ok generated) :
    PairKept certPath keyPath forge files (afterWrites certPath keyPath generated fs files) ↔
      FailsInPlace (files certPath) (files keyPath) generated fs := by
  rcases fs with ⟨keyDirectory, certDirectory, keyWrite, certWrite, unlink⟩
  cases keyWrite with
  | refused => simp [PairKept, FailsInPlace, afterWrites]
  | cut => simp [PairKept, FailsInPlace, afterWrites, hpaths, eq_comm]
  | written =>
      cases certWrite with
      | written => simp [PairKept, FailsInPlace, afterWrites, hpaths.symm, hforge]
      | refused => simp [PairKept, FailsInPlace, afterWrites, hpaths, eq_comm]
      | cut => simp [PairKept, FailsInPlace, afterWrites, hpaths, eq_comm, and_comm]

/-- **Certificate and key as a pair.** A call keeps them a pair if and only if it does not get as far as its
writes, or its writes succeed, or the one that fails finds what it leaves. -/
theorem generateCertificate_pairKept_iff (certPath keyPath : String) (options : GenerateCertificateRequest)
    (forge : Except String Generated) (fs : FileSystem) (files : Files) (hpaths : certPath ≠ keyPath) :
    PairKept certPath keyPath forge files
        ((generateCertificate certPath keyPath options forge fs).run files) ↔
      ∀ generated, ReachesWrites options forge fs generated →
        FailsInPlace (files certPath) (files keyPath) generated fs := by
  by_cases hreach : ∃ generated, ReachesWrites options forge fs generated
  · obtain ⟨generated, hreach⟩ := hreach
    have hunique : ∀ other, ReachesWrites options forge fs other → other = generated := fun other h =>
      Except.ok.inj (h.2.1.symm.trans hreach.2.1)
    rw [run_of_reaches hpaths hreach, pairKept_afterWrites_iff hpaths hreach.2.1]
    exact ⟨fun h other hother => hunique other hother ▸ h, fun h => h generated hreach⟩
  · have hnone := not_exists.mp hreach
    obtain ⟨error, hrun⟩ : ∃ error,
        (generateCertificate certPath keyPath options forge fs).run files = (.error error, files) :=
      run_of_not_reaches hnone
    rw [hrun]
    exact iff_of_true ⟨rfl, rfl⟩ fun generated h => absurd h (hnone generated)

/-- An empty request. -/
def emptyRequest : GenerateCertificateRequest := ⟨none, none, none, none, none⟩

/-- A generation whose certificate and key are one byte each. -/
def secondGeneration : Generated := ⟨[0x32], [0x62], "2031-01-01T00:00:00.000Z", "2026-01-01T00:00:00.000Z"⟩

theorem generateCertificate_pairKept_first : "data/certs/server.der" ≠ "data/certs/server.key" ∧
    PairKept "data/certs/server.der" "data/certs/server.key" (.ok secondGeneration) (fun _ => none)
      ((generateCertificate "data/certs/server.der" "data/certs/server.key" emptyRequest (.ok secondGeneration)
        ⟨.ok (), .ok (), .written, .refused "ENOSPC", .ok ()⟩).run fun _ => none) := by
  have hpaths : "data/certs/server.der" ≠ "data/certs/server.key" := by decide
  refine ⟨hpaths, (generateCertificate_pairKept_iff _ _ _ _ _ _ hpaths).mpr ?_⟩
  rintro generated ⟨-, -, -, -⟩
  rfl

/-- A new key, and a certificate that cannot be written over an earlier pair: the earlier certificate stays,
without its key. -/
theorem not_pairKept_of_certWrite {certPath keyPath : String} {options : GenerateCertificateRequest}
    {fs : FileSystem} {files : Files} {generated : Generated} {key : Bytes} (hpaths : certPath ≠ keyPath)
    (h : ReachesWrites options (.ok generated) fs generated) (hkey : files keyPath = some key)
    (hnew : key ≠ generated.keyPem) (hkeyWrite : fs.keyWrite = .written) (hcertWrite : fs.certWrite ≠ .written) :
    ¬ PairKept certPath keyPath (.ok generated) files
      ((generateCertificate certPath keyPath options (.ok generated) fs).run files) := by
  have hcleanup : files keyPath ≠ keyAfterCleanup fs.unlink generated.keyPem := by
    rw [hkey]
    cases fs.unlink with
    | ok => exact nofun
    | error => exact fun he => hnew (Option.some.inj he)
  rw [run_of_reaches hpaths h, pairKept_afterWrites_iff hpaths rfl, FailsInPlace, hkeyWrite]
  cases hwrite : fs.certWrite with
  | written => exact absurd hwrite hcertWrite
  | refused => exact hcleanup
  | cut => exact fun hin => hcleanup hin.1

/-- The files of an earlier generation. -/
def firstPair : Files := fun path =>
  if path = "data/certs/server.der" then some [0x31] else if path = "data/certs/server.key" then some [0x61] else none

theorem regeneration_not_pairKept :
    ¬ PairKept "data/certs/server.der" "data/certs/server.key" (.ok secondGeneration) firstPair
      ((generateCertificate "data/certs/server.der" "data/certs/server.key" emptyRequest (.ok secondGeneration)
        ⟨.ok (), .ok (), .written, .refused "ENOSPC", .ok ()⟩).run firstPair) :=
  not_pairKept_of_certWrite (by decide) ⟨rfl, rfl, rfl, rfl⟩ rfl (by decide) rfl nofun

end OpcuaLight.Cert
