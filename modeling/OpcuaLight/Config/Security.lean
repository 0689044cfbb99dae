import OpcuaLight.Config.Generator

/-!
# The whole configuration

`generate` with its security section, from the row of `security_config`; `generatedAt` and the log lines
are left out.
-/

namespace OpcuaLight.Config

open Db

/-- The row of `security_config`. -/
structure SecurityConfigRow where
  mode : String
  certificatePath : Option String
  privateKeyPath : Option String
  deriving DecidableEq, Repr, Inhabited

structure SecurityConfigOutput where
  mode : String
  certificatePath : Option String
  privateKeyPath : Option String
  applicationUri : Option String
  pkiTrustedPath : Option String
  pkiRejectedPath : Option String
  deriving DecidableEq, Repr, Inhabited

structure AddressSpaceConfig where
  version : Nat
  port : Nat
  security : SecurityConfigOutput
  namespaces : List NamespaceConfig

/-- What the API server runs in: its port, how the system resolves a path, and which files there are. -/
structure Env where
  port : Nat
  resolve : String → String
  existsSync : String → Bool

/-- The database as the API server sees it. -/
structure Database where
  tables : Tables
  security : Option SecurityConfigRow
  deriving DecidableEq, Inhabited

/-- The security section for a mode without certificates. -/
def noSecurity : SecurityConfigOutput := ⟨"None", none, none, none, none, none⟩

/-- `if (path)`: a path that is not empty. -/
def somePath (path : Option String) : Option String := path.filter (· ≠ "")

def buildSecurityConfig (env : Env) : Option SecurityConfigRow → SecurityConfigOutput
  | none => noSecurity
  | some row =>
      if row.mode ≠ "None" ∧ (somePath row.certificatePath = none ∨ somePath row.privateKeyPath = none) then
        noSecurity
      else if row.mode = "None" then
        { noSecurity with
          certificatePath := somePath row.certificatePath
          privateKeyPath := somePath row.privateKeyPath }
      else
        let trusted := env.resolve "data/pki/trusted"
        let rejected := env.resolve "data/pki/rejected"
        if !env.existsSync trusted || !env.existsSync rejected then noSecurity
        else
          { mode := row.mode
            certificatePath := somePath row.certificatePath
            privateKeyPath := somePath row.privateKeyPath
            applicationUri := some "urn:opcua-light-server:application"
            pkiTrustedPath := some trusted
            pkiRejectedPath := some rejected }

/-- `generate`; `none` when it throws. -/
def addressSpaceConfig (env : Env) (db : Database) : Option AddressSpaceConfig :=
  (generate db.tables).map (fun namespaces =>
    ⟨1, env.port, buildSecurityConfig env db.security, namespaces⟩)

end OpcuaLight.Config
