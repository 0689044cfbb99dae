import OpcuaLight.Lib.JsMap
import OpcuaLight.Lib.Loop

/-!
# The plugin loader

`loadPlugins` over two directories of plugins, whose modules may do anything: what each piece of their
code returns or throws is part of the input. `V` is the type of JavaScript values, compared as the
keys of a map are.

* `Thrown` : a thrown value, by the text that the loader's handlers make of it;
* `inspect` : the body of the loop up to the test for a duplicate type, which depends on the plugin
  alone; `scanPlugin` : the whole body, with the state as it is when the body throws.
-/

namespace OpcuaLight.Plugins

/-- `err instanceof Error ? err.message : String(err)` in a template; a value that this fails for
throws another one. -/
inductive Thrown where
  | message (text : String)
  | unreadable (thrown : Thrown)
  deriving DecidableEq, Repr

/-- What some code of a plugin returns or throws. -/
abbrev Outcome (α : Type) := Except Thrown α

/-- What `getType` returns: the value, and what becomes of it in a template. -/
structure TypeValue (V : Type) where
  value : V
  text : Outcome String

/-- What `getMetadata` returns, by what reading its `displayName` gives. -/
structure Metadata (V : Type) where
  displayName : Outcome V

/-- A property of an object: reading it throws, or it is no function, or one that can be called. -/
inductive Property (α : Type) where
  | throws (thrown : Thrown)
  | other
  | method (result : Outcome α)

structure Instance (V : Type) where
  getType : Property (TypeValue V)
  getMetadata : Property (Metadata V)

/-- A value that is exported; what a function does as a constructor may differ from call to call. -/
inductive Export (V : Type) where
  | value
  | function (construct : Nat → Outcome (Instance V))

/-- A module; `default` is `none` when it is missing, `null` or `undefined`. -/
structure Module (V : Type) where
  default : Option (Export V)
  named : List (String × Export V)

/-- What an import resolves to, by what reading the exports gives. An export named `then` can make that
`null`, of which no export can be read. -/
structure Imported (V : Type) where
  exports : Outcome (Module V)

/-- A subdirectory, with what importing its entry points gives where they can be accessed. -/
structure Plugin (V : Type) where
  name : String
  indexJs : Option (Outcome (Imported V))
  indexTs : Option (Outcome (Imported V))

structure DirEntry (V : Type) where
  isDirectory : Bool
  plugin : Plugin V

/-- What `readdir` returns, if it does not fail. -/
abbrev Directory (V : Type) := Option (List (DirEntry V))

/-- What `stat` says about the external directory. -/
inductive ExternalDir (V : Type) where
  | inaccessible
  | notDirectory
  | directory (dir : Directory V)

inductive Source where
  | builtIn
  | external
  deriving DecidableEq, Repr

structure PluginInfo (V : Type) where
  type : TypeValue V
  displayName : V
  source : Source
  connector : Instance V
  metadata : Metadata V

structure SkippedPlugin where
  directory : String
  reason : String
  deriving DecidableEq, Repr

structure LoadResult (V : Type) where
  loaded : List (PluginInfo V)
  skipped : List SkippedPlugin

variable {V : Type}

/-! ## Validation -/

inductive Validation (V : Type) where
  | valid (construct : Nat → Outcome (Instance V))
  | invalid (reason : String)

/-- The first loop of `validateConnectorModule`, which constructs each candidate once. -/
def findConnector : List (Export V) → Outcome (Option (Validation V))
  | [] => .ok none
  | .value :: rest => findConnector rest
  | .function construct :: rest =>
      match construct 0 with
      | .error _ => findConnector rest
      | .ok instance' =>
          match instance'.getType, instance'.getMetadata with
          | .throws t, _ => .error t
          | .other, _ => findConnector rest
          | .method _, .throws t => .error t
          | .method _, .other => .ok (some (.invalid "missing getMetadata method"))
          | .method _, .method _ => .ok (some (.valid construct))

/-- The second loop, which constructs each candidate again. -/
def findIncomplete : List (Export V) → Outcome (Option (Validation V))
  | [] => .ok none
  | .value :: rest => findIncomplete rest
  | .function construct :: rest =>
      match construct 1 with
      | .error _ => findIncomplete rest
      | .ok instance' =>
          match instance'.getType, instance'.getMetadata with
          | .throws t, _ => .error t
          | .other, _ => findIncomplete rest
          | .method _, .throws t => .error t
          | .method _, .other => .ok (some (.invalid "missing getMetadata method"))
          | .method _, .method _ => findIncomplete rest

def Export.isFunction : Export V → Bool
  | .value => false
  | .function _ => true

def candidates (mod : Module V) : List (Export V) :=
  mod.default.toList ++
    ((mod.named.filter (fun e => e.1 ≠ "default")).map (·.2)).filter Export.isFunction

def validateConnectorModule (mod : Module V) : Outcome (Validation V) :=
  let noExport : Validation V := .invalid "no valid Connector export found"
  if (candidates mod).isEmpty then .ok noExport
  else match findConnector (candidates mod) with
    | .error t => .error t
    | .ok (some validation) => .ok validation
    | .ok none =>
        match findIncomplete (candidates mod) with
        | .error t => .error t
        | .ok (some validation) => .ok validation
        | .ok none => .ok noExport

/-! ## One plugin -/

/-- `connector.name()`. -/
def Property.call {α : Type} (name : String) : Property α → Outcome α
  | .throws t => .error t
  | .other => .error (.message s!"connector.{name} is not a function")
  | .method result => result

/-- What the loader makes of a plugin before it looks at the types registered. -/
inductive Inspection (V : Type) where
  | skip (reason : String)
  | offer (type : TypeValue V) (metadata : Metadata V) (connector : Instance V)

/-- The `catch` of an import, a construction or `getMetadata()`. -/
def explain (what : String) : Thrown → Outcome (Inspection V)
  | .message text => .ok (.skip s!"{what}: {text}")
  | .unreadable t => .error t

/-- `index.js`, or else `index.ts`. -/
def Plugin.entryPoint (p : Plugin V) : Option (Outcome (Imported V)) := p.indexJs.or p.indexTs

/-- The constructor of the connector has been called once when it was validated. -/
def Plugin.inspect (p : Plugin V) : Outcome (Inspection V) :=
  match p.entryPoint with
  | none => .ok (.skip "no entry point found")
  | some (.error t) => explain "failed to import" t
  | some (.ok imported) =>
      match imported.exports.bind validateConnectorModule with
      | .error t => .error t
      | .ok (.invalid reason) => .ok (.skip reason)
      | .ok (.valid construct) =>
          match construct 1 with
          | .error t => explain "failed to instantiate" t
          | .ok connector =>
              match connector.getMetadata.call "getMetadata" with
              | .error t => explain "getMetadata() threw" t
              | .ok metadata =>
                  match connector.getType.call "getType" with
                  | .error t => .error t
                  | .ok type => .ok (.offer type metadata connector)

/-- The accumulators that the scans share. -/
structure Scan (V : Type) where
  registeredTypes : JsMap V String
  loaded : List (PluginInfo V)
  skipped : List SkippedPlugin

namespace Scan

def empty : Scan V := ⟨∅, [], []⟩

def skip (s : Scan V) (directory reason : String) : Scan V :=
  { s with skipped := s.skipped ++ [⟨directory, reason⟩] }

def load (s : Scan V) (info : PluginInfo V) : Scan V := { s with loaded := s.loaded ++ [info] }

def result (s : Scan V) : LoadResult V := ⟨s.loaded, s.skipped⟩

end Scan

variable [DecidableEq V]

def alreadyRegistered (type existingDir : String) : String :=
  s!"type '{type}' already registered by '{existingDir}'"

/-- The body of the loop of `scanDirectory`, with what it throws. The type is registered before the
display name is read, and written to the log after the plugin is loaded. -/
def scanPlugin (s : Scan V) (sub : Source × Plugin V) : Scan V × Option Thrown :=
  match sub.2.inspect with
  | .error t => (s, some t)
  | .ok (.skip reason) => (s.skip sub.2.name reason, none)
  | .ok (.offer type metadata connector) =>
      match s.registeredTypes.get? type.value with
      | some existingDir =>
          match type.text with
          | .error t => (s, some t)
          | .ok text => (s.skip sub.2.name (alreadyRegistered text existingDir), none)
      | none =>
          let s := { s with registeredTypes := s.registeredTypes.set type.value sub.2.name }
          match metadata.displayName with
          | .error t => (s, some t)
          | .ok displayName =>
              let s := s.load ⟨type, displayName, sub.1, connector, metadata⟩
              match type.text with
              | .error t => (s, some t)
              | .ok _ => (s, none)

/-! ## The directories -/

/-- The subdirectories that are scanned: none if the directory cannot be read. -/
def Directory.subdirectories (dir : Directory V) (source : Source) : List (Source × Plugin V) :=
  ((dir.getD []).filter DirEntry.isDirectory).map (fun e => (source, e.plugin))

def scanDirectory (dir : Directory V) (source : Source) (s : Scan V) : Scan V × Option Thrown :=
  Loop.loop scanPlugin s (dir.subdirectories source)

/-- `loadPlugins`; what the scan of the external directory throws is caught, and its message logged. -/
def loadPlugins (builtInDir : Directory V) (externalDir : Option (ExternalDir V)) :
    Outcome (LoadResult V) :=
  match scanDirectory builtInDir .builtIn .empty with
  | (_, some t) => .error t
  | (s, none) =>
      match externalDir with
      | some (.directory dir) =>
          match scanDirectory dir .external s with
          | (_, some (.unreadable t)) => .error t
          | (s, _) => .ok s.result
      | _ => .ok s.result

def ExternalDir.subdirectories : Option (ExternalDir V) → List (Source × Plugin V)
  | some (.directory dir) => Directory.subdirectories dir .external
  | _ => []

/-- All subdirectories in scan order. -/
def subdirectories (builtInDir : Directory V) (externalDir : Option (ExternalDir V)) :
    List (Source × Plugin V) :=
  Directory.subdirectories builtInDir .builtIn ++ ExternalDir.subdirectories externalDir

end OpcuaLight.Plugins
