import OpcuaLight.Runtime.ConfigFile
import OpcuaLight.Runtime.Endpoints
import OpcuaLight.Runtime.PemToDer

/-!
# Starting the runtime

`security_configure` and `server_create`, from the configuration file to the address space. What the library makes
of a certificate and a key, and the files themselves, are parameters (`Host`). A result is `none` where C leaves the
behaviour undefined, and `some none` where the call fails.

* `serverCreate_generated` : a runtime that starts on a generated configuration is as secure as that says, and fails
  only over the files of its certificate and key.
-/

namespace OpcuaLight.Runtime

open Config (AddressSpaceConfig SecurityConfigOutput SecurityConfigRow)
open Db (reach)

/-! ## `security_config.c` -/

/-- What the runtime is run with. -/
structure Host (κ : Type) where
  cJsonParse : List UInt8 → Option Json
  /-- `file_read_binary`, with `none` where it returns no data. -/
  fileReadBinary : String → Option (List UInt8)
  allocates : ℕ → Bool
  decodeBlock : List UInt8 → ℤ → ℤ × List UInt8
  /-- The endpoints that `UA_ServerConfig_setMinimal` makes. -/
  setMinimal : Nat → List (EndpointDescription κ)
  /-- The endpoints that `UA_ServerConfig_setDefaultWithSecurityPolicies` makes of a certificate and a key. -/
  setDefaultWithSecurityPolicies : Nat → List UInt8 → List UInt8 → Option (List (EndpointDescription κ))
  /-- The memory of a description whose bytes are zero. -/
  empty : κ
  ua : Ua
  applicationUri : String

/-- The configuration of the server. -/
structure ServerConfig (κ : Type) where
  port : Nat
  /-- The application URI, if it was set. -/
  applicationUri : Option String
  /-- The directories of the TOFU verifier, if it was registered. -/
  verifier : Option (List UInt8 × List UInt8)
  endpoints : Endpoints κ

/-- `strncpy` to a path of 4096 bytes that were zero. -/
def verifierPath (s : String) : List UInt8 := (Utf8.encode s.toList).take 4095

def isPem (key : List UInt8) : Bool := 10 < key.length && key.take 10 = ascii "-----BEGIN"

variable {κ : Type}

/-- The private key in DER. -/
def privateKeyDer (host : Host κ) (key : List UInt8) : Option (Option (List UInt8)) :=
  if isPem key then
    (pemToDer host.allocates host.decodeBlock key).map fun r => if r.1 = 0 then some r.2 else none
  else some (some key)

/-- The verifier is registered if neither path is empty. -/
def tofuVerifier (s : SecurityJson) : Option (List UInt8 × List UInt8) :=
  match nonEmpty s.pkiTrustedPath, nonEmpty s.pkiRejectedPath with
  | some trusted, some rejected => some (verifierPath trusted, verifierPath rejected)
  | _, _ => none

def minimalConfig (host : Host κ) (port : Nat) : ServerConfig κ where
  port := port
  applicationUri := none
  verifier := none
  endpoints := ⟨host.setMinimal port, (host.setMinimal port).length, []⟩

/-- The server's configuration for a mode with a certificate. -/
def secureConfig (host : Host κ) (port : Nat) (mode : String) (s : SecurityJson)
    (endpoints : List (EndpointDescription κ)) : Option (ServerConfig κ) :=
  (filterEndpoints host.empty mode endpoints).map fun endpoints =>
    { port := port
      applicationUri := some (s.applicationUri.getD "urn:opcua-light-server:application")
      verifier := tofuVerifier s
      endpoints := endpoints }

def securityConfigure (host : Host κ) (security : Option SecurityJson) (port : Nat) :
    Option (Option (ServerConfig κ)) :=
  match security with
  | none => some (some (minimalConfig host port))
  | some s =>
      match s.mode with
      | none => some (some (minimalConfig host port))
      | some mode =>
          if mode = "None" then some (some (minimalConfig host port))
          else match s.certificatePath, s.privateKeyPath with
            | some certPath, some keyPath =>
                match host.fileReadBinary certPath, host.fileReadBinary keyPath with
                | some certificate, some key => do
                    match ← privateKeyDer host key with
                    | none => return none
                    | some der =>
                        match host.setDefaultWithSecurityPolicies port certificate der with
                        | none => return none
                        | some endpoints => return some (← secureConfig host port mode s endpoints)
                | _, _ => some none
            | _, _ => some none

/-! ## `server.c` -/

/-- `server_create`, with the content of the configuration file. -/
def serverCreateFrom (host : Host κ) (content : Option (List UInt8)) : Option (Option (ServerConfig κ × Server)) :=
  match configParseFile host.cJsonParse content with
  | none => some none
  | some root =>
      (securityConfigure host (readSecurity root) (readPort root)).map fun config =>
        config.map fun config => (config, serverCreate host.ua host.applicationUri (readConfig root))

/-! ## Any key -/

/-- The scan stays in the buffer, and an END marker that it finds is in it. -/
theorem findBoundaries_within {data : List UInt8} (n i : ℕ) (h : i + n ≤ data.length) (start : Option ℕ) :
    ∃ first stop, findBoundaries data n i start = some (first, stop) ∧ ∀ j ∈ stop, j ≤ data.length := by
  induction n generalizing i start with
  | zero => exact ⟨start, none, rfl, nofun⟩
  | succ n ih =>
      have hget := List.getElem?_eq_getElem (show i < data.length by omega)
      rw [findBoundaries_succ hget]
      split_ifs
      · refine ⟨_, some i, rfl, fun j hj => ?_⟩
        rw [← Option.some.inj hj]
        omega
      · exact ih (i + 1) (by omega) _

theorem copyBody_within {data : List UInt8} {capacity : ℕ} (n p : ℕ) (out : List UInt8)
    (h : p + n ≤ data.length) (hout : out.length + n ≤ capacity) :
    ∃ b64, copyBody data capacity n p out = some b64 := by
  induction n generalizing p out with
  | zero => exact ⟨out, rfl⟩
  | succ n ih =>
      have hget := List.getElem?_eq_getElem (show p < data.length by omega)
      rw [copyBody, hget]
      simp only [Option.bind_eq_bind, Option.bind_some]
      split_ifs
      · exact ih (p + 1) _ (by omega) (by rw [List.length_append, List.length_singleton]; omega)
      · omega
      · exact ih (p + 1) out (by omega) (by omega)

/-- **The conversion reads and writes no memory but its own**, for every buffer that is not empty. -/
theorem pemToDer_defined (allocates : ℕ → Bool) {decodeBlock : List UInt8 → ℤ → ℤ × List UInt8}
    (hdecode : ∀ buffer n, (decodeBlock buffer n).2.length ≤ buffer.length / 4 * 3 + 3) {data : List UInt8}
    (hdata : data ≠ []) : ∃ r, pemToDer allocates decodeBlock data = some r := by
  have hlen : data.length ≠ 0 := fun h => hdata (List.length_eq_zero_iff.mp h)
  obtain ⟨start, stop, hscan, hstop⟩ := @findBoundaries_within data (data.length - 1) 0 (by omega) none
  unfold pemToDer
  simp only [if_neg hlen, hscan, Option.bind_eq_bind, Option.bind_some]
  rcases start with _ | start
  · exact ⟨_, rfl⟩
  rcases stop with _ | stop
  · exact ⟨_, rfl⟩
  have hle := hstop stop rfl
  dsimp only
  split_ifs with hempty hbody
  · exact ⟨_, rfl⟩
  · exact ⟨_, rfl⟩
  obtain ⟨b64, hb64⟩ := @copyBody_within data (stop - start) (stop - start) start []
    (by omega) (by rw [List.length_nil]; omega)
  rw [hb64, Option.bind_some]
  have hfits := hdecode b64 ((b64.length : ℤ).bmod (2 ^ 32))
  split_ifs
  all_goals first | exact ⟨_, rfl⟩ | omega

/-! ## Starting on a generated configuration -/

/-- The endpoints that are kept in a mode. -/
def keeps (mode : String) (e : EndpointDescription κ) : Bool :=
  if mode = "SignAndEncrypt" then e.securityMode ≠ .none else e.securityMode ≠ .signAndEncrypt

/-- The certificate and the key, in DER, that are in the files, with what the library makes of them. -/
structure Loaded (host : Host κ) (port : Nat) (certPath keyPath : String)
    (endpoints : List (EndpointDescription κ)) : Prop where
  files : ∃ certificate key der, host.fileReadBinary certPath = some certificate ∧
    host.fileReadBinary keyPath = some key ∧ privateKeyDer host key = some (some der) ∧
    host.setDefaultWithSecurityPolicies port certificate der = some endpoints

theorem filterEndpoints_mode (host : Host κ) {mode : String} (hmode : mode = "Sign" ∨ mode = "SignAndEncrypt")
    (endpoints : List (EndpointDescription κ)) :
    ∃ result, filterEndpoints host.empty mode endpoints = some result ∧
      Filtered (keeps mode) endpoints result := by
  rcases hmode with rfl | rfl
  · exact (removeEndpoints_filtered host.empty (fun e => e.securityMode ≠ .signAndEncrypt) endpoints)
  · exact (removeEndpoints_filtered host.empty (fun e => e.securityMode ≠ .none) endpoints)

theorem privateKeyDer_defined (host : Host κ)
    (hdecode : ∀ buffer n, (host.decodeBlock buffer n).2.length ≤ buffer.length / 4 * 3 + 3) (key : List UInt8) :
    ∃ r, privateKeyDer host key = some r := by
  unfold privateKeyDer
  split_ifs with hpem
  · have hne : key ≠ [] := by
      rintro rfl
      exact absurd hpem (by decide)
    obtain ⟨r, hr⟩ := pemToDer_defined host.allocates hdecode hne
    rw [hr]
    exact ⟨_, rfl⟩
  · exact ⟨_, rfl⟩

/-- In a mode with certificates the server is configured with what was loaded, or not at all. -/
theorem securityConfigure_mode (host : Host κ)
    (hdecode : ∀ buffer n, (host.decodeBlock buffer n).2.length ≤ buffer.length / 4 * 3 + 3) {s : SecurityJson}
    {mode certPath keyPath : String} (hmode : mode = "Sign" ∨ mode = "SignAndEncrypt") (hs : s.mode = some mode)
    (hcert : s.certificatePath = some certPath) (hkey : s.privateKeyPath = some keyPath) (port : Nat) :
    (securityConfigure host (some s) port = some none ∧ ∀ endpoints, ¬ Loaded host port certPath keyPath endpoints) ∨
    ∃ endpoints result, Loaded host port certPath keyPath endpoints ∧ Filtered (keeps mode) endpoints result ∧
      securityConfigure host (some s) port = some (some
        ⟨port, some (s.applicationUri.getD "urn:opcua-light-server:application"), tofuVerifier s, result⟩) := by
  have hne : mode ≠ "None" := by rcases hmode with rfl | rfl <;> decide
  unfold securityConfigure
  simp only [hs, hcert, hkey, if_neg hne]
  cases hc : host.fileReadBinary certPath with
  | none =>
      refine Or.inl ⟨rfl, fun endpoints h => ?_⟩
      obtain ⟨_, _, _, hread, -⟩ := h.files
      cases hc.symm.trans hread
  | some certificate =>
      cases hk : host.fileReadBinary keyPath with
      | none =>
          refine Or.inl ⟨rfl, fun endpoints h => ?_⟩
          obtain ⟨_, _, _, -, hread, -⟩ := h.files
          cases hk.symm.trans hread
      | some key =>
          obtain ⟨r, hr⟩ := privateKeyDer_defined host hdecode key
          have hloaded : ∀ endpoints, Loaded host port certPath keyPath endpoints → ∃ der, r = some der ∧
              host.setDefaultWithSecurityPolicies port certificate der = some endpoints := by
            intro endpoints h
            obtain ⟨certificate', key', der, hc', hk', hder, hset⟩ := h.files
            rw [← Option.some.inj (hc.symm.trans hc')] at hset
            rw [← Option.some.inj (hk.symm.trans hk')] at hder
            exact ⟨der, Option.some.inj (hr.symm.trans hder), hset⟩
          simp only [hr, Option.bind_eq_bind, Option.bind_some]
          cases r with
          | none =>
              refine Or.inl ⟨rfl, fun endpoints h => ?_⟩
              obtain ⟨_, hnone, -⟩ := hloaded endpoints h
              cases hnone
          | some der =>
              cases hset : host.setDefaultWithSecurityPolicies port certificate der with
              | none =>
                  refine Or.inl ⟨by simp only [hset]; rfl, fun endpoints h => ?_⟩
                  obtain ⟨der', hder', hset'⟩ := hloaded endpoints h
                  rw [← Option.some.inj hder'] at hset'
                  cases hset.symm.trans hset'
              | some endpoints =>
                  obtain ⟨result, hfilter, hfiltered⟩ := filterEndpoints_mode host hmode endpoints
                  refine Or.inr ⟨endpoints, result, ⟨certificate, key, der, hc, hk, hr, hset⟩, hfiltered, ?_⟩
                  simp only [hset, secureConfig, hfilter, Option.map_some, Option.bind_some]
                  rfl

/-- A generated security section is without certificates, or it has all that a mode with them needs. -/
theorem buildSecurityConfig_cases (env : Config.Env) (row : Option SecurityConfigRow) :
    (Config.buildSecurityConfig env row).mode = "None" ∨
    ∃ r certPath keyPath, row = some r ∧ Config.buildSecurityConfig env row =
      ⟨r.mode, some certPath, some keyPath, some "urn:opcua-light-server:application",
        some (env.resolve "data/pki/trusted"), some (env.resolve "data/pki/rejected")⟩ := by
  cases row with
  | none => exact Or.inl rfl
  | some r =>
      unfold Config.buildSecurityConfig
      dsimp only
      split_ifs with hpaths hmode hfolders
      · exact Or.inl rfl
      · exact Or.inl rfl
      · exact Or.inl rfl
      · simp only [not_and, not_or] at hpaths
        obtain ⟨hcert, hkey⟩ := hpaths hmode
        obtain ⟨certPath, hcert⟩ := Option.ne_none_iff_exists'.mp hcert
        obtain ⟨keyPath, hkey⟩ := Option.ne_none_iff_exists'.mp hkey
        exact Or.inr ⟨r, certPath, keyPath, rfl, by rw [hcert, hkey]⟩

/-- **A runtime starts on a generated configuration as securely as that says, or not at all.** In mode `None` it
starts without certificates. In the other two modes the configuration has the paths of a certificate and a key; the
runtime starts if and only if they can be loaded, and then exactly the endpoints that the mode allows are left and
the TOFU verifier guards the directories of the API. Either way it listens on the port of the API, with the address
space of the database. -/
theorem serverCreate_generated (host : Host κ) (hparse : ReadsJson host.cJsonParse)
    (hdecode : ∀ buffer n, (host.decodeBlock buffer n).2.length ≤ buffer.length / 4 * 3 + 3)
    {ops : List Db.Operation} (hops : ∀ op ∈ ops, op.Values (Config.Fits 995)) {env : Config.Env}
    (hport : 0 < env.port ∧ env.port ≤ 65535) (hresolve : ∀ path, cString (env.resolve path) ≠ "")
    {security : Option SecurityConfigRow}
    (hmodes : ∀ row ∈ security, row.mode = "None" ∨ row.mode = "Sign" ∨ row.mode = "SignAndEncrypt")
    {config : AddressSpaceConfig}
    (hconfig : Config.addressSpaceConfig env ⟨reach ops, security⟩ = some config) (generatedAt : String) :
    let space := serverCreate host.ua host.applicationUri (parse config.namespaces)
    let started := serverCreateFrom host (some (Config.writeToFile generatedAt config))
    (config.security.mode = "None" ∧ started = some (some (minimalConfig host env.port, space))) ∨
    ∃ mode certPath keyPath, (mode = "Sign" ∨ mode = "SignAndEncrypt") ∧ config.security.mode = mode ∧
      config.security.certificatePath = some certPath ∧ config.security.privateKeyPath = some keyPath ∧
      ((started = some none ∧
          ∀ endpoints, ¬ Loaded host env.port (cString certPath) (cString keyPath) endpoints) ∨
        ∃ endpoints result, Loaded host env.port (cString certPath) (cString keyPath) endpoints ∧
          Filtered (keeps mode) endpoints result ∧
          started = some (some (⟨env.port, some "urn:opcua-light-server:application",
            some (verifierPath (cString (env.resolve "data/pki/trusted")),
              verifierPath (cString (env.resolve "data/pki/rejected"))), result⟩, space))) := by
  obtain ⟨root, hroot, hread, hrootPort, hsecurity⟩ := parse_configFile hparse hops hport hconfig generatedAt
  have hsection : config.security = Config.buildSecurityConfig env security := by
    obtain ⟨namespaces, -, rfl⟩ := Option.map_eq_some_iff.mp hconfig
    rfl
  have hstarted : serverCreateFrom host (some (Config.writeToFile generatedAt config)) =
      (securityConfigure host (some (parseSecurity config.security)) env.port).map fun c =>
        c.map fun c => (c, serverCreate host.ua host.applicationUri (parse config.namespaces)) := by
    rw [serverCreateFrom, hroot]
    simp only [hread, hrootPort, hsecurity]
  have hmode' : (parseSecurity config.security).mode = some (cString config.security.mode) := rfl
  intro space started
  rcases buildSecurityConfig_cases env security with hnone | ⟨row, certPath, keyPath, rfl, hfull⟩
  · refine Or.inl ⟨hsection ▸ hnone, hstarted.trans ?_⟩
    have hmode : (parseSecurity config.security).mode = some "None" := by
      rw [hmode', hsection, hnone]
      decide
    have hminimal : securityConfigure host (some (parseSecurity config.security)) env.port =
        some (some (minimalConfig host env.port)) := by
      unfold securityConfigure
      simp only [hmode, if_true]
    rw [hminimal]
    rfl
  rw [← hsection] at hfull
  have hsame : config.security.mode = row.mode := by rw [hfull]
  rcases hmodes row rfl with hmode | hmode
  · refine Or.inl ⟨by rw [hfull, ← hmode], hstarted.trans ?_⟩
    have hminimal : securityConfigure host (some (parseSecurity config.security)) env.port =
        some (some (minimalConfig host env.port)) := by
      have hread : (parseSecurity config.security).mode = some "None" := by
        rw [hmode', hsame, hmode]
        decide
      unfold securityConfigure
      simp only [hread, if_true]
    rw [hminimal]
    rfl
  refine Or.inr ⟨row.mode, certPath, keyPath, hmode, by rw [hfull], by rw [hfull], by rw [hfull], ?_⟩
  have hread : (parseSecurity config.security).mode = some row.mode := by
    rw [hmode', hsame]
    rcases hmode with h | h <;> rw [h] <;> decide
  have hverifier : tofuVerifier (parseSecurity config.security) =
      some (verifierPath (cString (env.resolve "data/pki/trusted")),
        verifierPath (cString (env.resolve "data/pki/rejected"))) := by
    have hfilter : ∀ path, nonEmpty (some (cString (env.resolve path))) = some (cString (env.resolve path)) :=
      fun path => by rw [nonEmpty, Option.filter_some, if_pos (decide_eq_true (hresolve path))]
    rw [hfull]
    simp only [tofuVerifier, parseSecurity, Option.map_some, hfilter]
  have hcertPath : (parseSecurity config.security).certificatePath = some (cString certPath) := by
    rw [hfull]
    rfl
  have hkeyPath : (parseSecurity config.security).privateKeyPath = some (cString keyPath) := by
    rw [hfull]
    rfl
  rcases securityConfigure_mode host hdecode hmode hread hcertPath hkeyPath env.port with
    ⟨hfails, hloaded⟩ | ⟨endpoints, result, hloaded, hfiltered, hresult⟩
  · refine Or.inl ⟨hstarted.trans ?_, hloaded⟩
    rw [hfails]
    rfl
  · refine Or.inr ⟨endpoints, result, hloaded, hfiltered, hstarted.trans ?_⟩
    have huri : (parseSecurity config.security).applicationUri = some "urn:opcua-light-server:application" := by
      rw [hfull]
      rfl
    rw [hresult, hverifier, huri]
    rfl

/-- A host with one certificate and a key that is in DER. -/
def plantHost : Host Nat where
  cJsonParse := readJson
  fileReadBinary path := if path = "cert.der" then some [48, 1] else if path = "key.der" then some [48, 2] else none
  allocates _ := true
  decodeBlock _ _ := (-1, [])
  setMinimal _ := [⟨.none, 0⟩]
  setDefaultWithSecurityPolicies _ _ _ := some [⟨.none, 1⟩, ⟨.sign, 2⟩, ⟨.signAndEncrypt, 3⟩]
  empty := 0
  ua := ⟨fun _ _ => true, fun _ _ => true⟩
  applicationUri := "urn:opcua-light-server:application"

def plantSecurity : SecurityConfigRow := ⟨"SignAndEncrypt", some "cert.der", some "key.der"⟩

theorem plantEnv_resolve (path : String) : cString (plantEnv.resolve path) ≠ "" := by
  intro h
  have hchars := congrArg String.toList h
  rw [cString, String.toList_ofList, show (plantEnv.resolve path) = "/srv/" ++ path from rfl,
    String.toList_append] at hchars
  simp at hchars

theorem serverCreate_generated_plant :
    ∃ config, Config.addressSpaceConfig plantEnv ⟨reach plantOps, some plantSecurity⟩ = some config ∧
      ∃ started, serverCreateFrom plantHost (some (Config.writeToFile "2024-05-01T08:00:00.000Z" config)) =
        some (some started) ∧ started.1.port = 4841 ∧
        started.1.endpoints.endpoints.take started.1.endpoints.endpointsSize = [⟨.sign, 2⟩, ⟨.signAndEncrypt, 3⟩] := by
  have hsome : (Config.addressSpaceConfig plantEnv ⟨reach plantOps, some plantSecurity⟩).isSome = true := by
    decide
  obtain ⟨config, hconfig⟩ := Option.isSome_iff_exists.mp hsome
  have hload : Loaded plantHost 4841 (cString "cert.der") (cString "key.der")
      [⟨.none, 1⟩, ⟨.sign, 2⟩, ⟨.signAndEncrypt, 3⟩] :=
    ⟨[48, 1], [48, 2], [48, 2], by decide, by decide, by decide, rfl⟩
  have hsecurity : config.security = Config.buildSecurityConfig plantEnv (some plantSecurity) := by
    obtain ⟨namespaces, -, rfl⟩ := Option.map_eq_some_iff.mp hconfig
    rfl
  refine ⟨config, hconfig, ?_⟩
  rcases serverCreate_generated plantHost readsJson_readJson (fun _ _ => Nat.zero_le _) plantOps_values
      (by decide) plantEnv_resolve (fun row hrow => Or.inr (Or.inr (by rw [← Option.some.inj hrow]; rfl)))
      hconfig "2024-05-01T08:00:00.000Z" with ⟨hnone, -⟩ | ⟨mode, certPath, keyPath, -, hmode, hcert, hkey, hrest⟩
  · rw [hsecurity] at hnone
    exact absurd hnone (by decide)
  · rw [hsecurity] at hmode hcert hkey
    obtain rfl : "SignAndEncrypt" = mode := hmode
    obtain rfl : "cert.der" = certPath := Option.some.inj hcert
    obtain rfl : "key.der" = keyPath := Option.some.inj hkey
    rcases hrest with ⟨-, hfails⟩ | ⟨endpoints, result, hloaded, hfiltered, hstarted⟩
    · exact absurd hload (hfails _)
    · refine ⟨_, hstarted, rfl, hfiltered.left.trans ?_⟩
      obtain ⟨certificate, key, der, -, -, -, hset⟩ := hloaded.files
      rw [← Option.some.inj hset]
      decide

end OpcuaLight.Runtime
