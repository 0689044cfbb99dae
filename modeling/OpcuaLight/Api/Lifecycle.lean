import OpcuaLight.Api.AddressSpace
import OpcuaLight.Config.Security
import OpcuaLight.Process.Tracking

/-!
# The lifecycle of the runtime

The API server as far as it starts, stops and reloads the runtime: the handlers of `POST /start`,
`POST /stop`, `POST /reload` and `PUT /policy`, the requests that change the database with the
reload that follows them, the events of the runtime, and `main`'s own start. A handler runs up to its
next `await`, where it is suspended until the promise is settled; a suspended handler goes on in an event
of its own, at any time after that.
-/

namespace OpcuaLight.Api

open Config (AddressSpaceConfig Database Env addressSpaceConfig)
open Process (Manager Spawned StartResult)

/-! ## The state of the server -/

inductive Promise (α : Type) where
  | pending
  | resolved (a : α)
  | rejected (message : String)
  deriving DecidableEq, Repr

/-- Where a handler waits. -/
inductive Point where
  | startStart (p : Promise StartResult)
  | stopStop (p : Promise Unit)
  | policyStop (p : Promise Unit)
  | policyStart (p : Promise StartResult)
  deriving DecidableEq, Repr

structure Handler where
  id : Nat
  point : Point
  deriving DecidableEq, Repr

/-- The endpoint of a request. -/
inductive Endpoint where
  | start
  | stop
  | policy
  | reload
  | other (path : String)
  deriving DecidableEq, Repr

/-- What the runtime finds in its file when it reads it, and what `generate` yields at that time. -/
structure Read where
  found : Option AddressSpaceConfig
  generated : Option AddressSpaceConfig

/-- The server. A file is known by its resolved path. `requests` are the endpoints of all requests in the
order in which they came, and a request goes by its place there; `finishing` are the statuses of the
responses that trigger a reload once they are sent. `replies`, `reads`, and the states of the database
that the files were `written` from, are kept for the statements only. -/
structure Server where
  configPath : String
  db : Database
  files : String → Option AddressSpaceConfig
  manager : Manager
  started : Bool
  requests : List Endpoint
  handlers : List Handler
  finishing : List Nat
  replies : List (Nat × Nat)
  reads : List Read
  written : String → Option Database

/-- Whether `writeFileSync` succeeds; where it throws, what it leaves in the file. -/
inductive Disk where
  | ok
  | fails (left : Option AddressSpaceConfig)

/-- The path that the routers and the reload write to: `main` does not pass them another one. -/
def configFilePath : String := "runtime/config.json"

def addressSpacePaths : List String :=
  ["/api/nodes", "/api/object-nodes", "/api/namespaces", "/api/connectors/mappings"]

variable (env : Env)

namespace Server

/-! ## Parts of the handlers -/

/-- `writeToFile`, and whether it returns. -/
def writeToFile (s : Server) (path : String) (disk : Disk) : Server × Bool :=
  match addressSpaceConfig env s.db, disk with
  | none, _ => (s, false)
  | some config, .ok =>
      ({ s with
          files := Function.update s.files (env.resolve path) (some config)
          written := Function.update s.written (env.resolve path) (some s.db) }, true)
  | some _, .fails left =>
      ({ s with
          files := Function.update s.files (env.resolve path) left
          written := Function.update s.written (env.resolve path) none }, false)

/-- The runtime reads the file whose path the process manager passes to it. -/
def runtimeReads (s : Server) : Server :=
  { s with
    reads := s.reads ++ [⟨s.files (env.resolve s.configPath), addressSpaceConfig env s.db⟩] }

/-- `processManager.start()`: a spawned runtime reads its configuration. -/
def startProcess (s : Server) (now : Nat) (spawned : Spawned) : Server × Promise StartResult :=
  match s.manager.start now spawned with
  | (m, .ok result) => ({ s with manager := m }.runtimeReads env, .resolved result)
  | (m, .error message) => ({ s with manager := m }, .rejected message)

/-- `processManager.stop()`, called by the request `id`. -/
def stopProcess (s : Server) (id : Nat) : Server × Promise Unit :=
  match s.manager.stop id with
  | (m, none) => ({ s with manager := m }, .pending)
  | (m, some message) => ({ s with manager := m }, .rejected message)

/-- `processManager.reload()`: a runtime that gets the signal reads its configuration. -/
def reloadProcess (s : Server) (signal : Option String) : Server × Option String :=
  match s.manager.reload signal with
  | none => (s.runtimeReads env, none)
  | some message => (s, some message)

def startAll (s : Server) : Server := { s with started := true }

def stopAll (s : Server) : Server := { s with started := false }

def reply (s : Server) (id status : Nat) : Server := { s with replies := s.replies ++ [(id, status)] }

def wait (s : Server) (id : Nat) (point : Point) : Server :=
  { s with handlers := s.handlers ++ [⟨id, point⟩] }

/-- A new request, and its id. -/
def receive (s : Server) (endpoint : Endpoint) : Server × Nat :=
  ({ s with requests := s.requests ++ [endpoint] }, s.requests.length)

/-- The status of a failed start, stop or reload. -/
def failureStatus (refused message : String) : Nat := if message = refused then 409 else 500

/-! ## Requests -/

def postStart (s : Server) (disk : Disk) (now : Nat) (spawned : Spawned) : Server :=
  let (s, id) := s.receive .start
  match s.writeToFile env configFilePath disk with
  | (s, false) => s.reply id 500
  | (s, true) =>
      let (s, p) := s.startProcess env now spawned
      s.wait id (.startStart p)

def postStop (s : Server) : Server :=
  let (s, id) := s.receive .stop
  let (s, p) := s.stopAll.stopProcess id
  s.wait id (.stopStop p)

def validModes : List String := ["None", "Sign", "SignAndEncrypt"]

/-- Whether the database has a certificate and a key, as `get()` reports it. -/
def hasCertificate (s : Server) : Bool :=
  s.db.security.any (fun row =>
    Js.truthyString row.certificatePath && Js.truthyString row.privateKeyPath)

/-- `PUT /policy` lets the mode through. -/
def acceptsMode (s : Server) (mode : Option String) : Bool :=
  mode.any (fun mode => decide (mode ∈ validModes) && (decide (mode = "None") || s.hasCertificate))

def updatePolicy (s : Server) (mode : String) : Server :=
  { s with db := { s.db with security := s.db.security.map (fun row => { row with mode := mode }) } }

def putPolicy (s : Server) (mode : Option String) (disk : Disk) : Server :=
  let (s, id) := s.receive .policy
  match mode, s.acceptsMode mode with
  | some mode, true =>
      let s := s.updatePolicy mode
      if s.manager.state = .running then
        match s.stopAll.writeToFile env configFilePath disk with
        | (s, false) => s.reply id 200
        | (s, true) =>
            let (s, p) := s.stopProcess id
            s.wait id (.policyStop p)
      else s.reply id 200
  | _, _ => s.reply id 400

def postReload (s : Server) (disk : Disk) (signal : Option String) : Server :=
  let (s, id) := s.receive .reload
  match s.writeToFile env configFilePath disk with
  | (s, false) => s.reply id 500
  | (s, true) =>
      match s.reloadProcess env signal with
      | (s, none) => s.reply id 200
      | (s, some message) => s.reply id (failureStatus "Process is not running" message)

/-- Any other request: what it makes of the database, and its status. -/
def request (s : Server) (path : String) (db : Database) (status : Nat) : Server :=
  let (s, id) := s.receive (.other path)
  let s := { s with db := db }.reply id status
  if addressSpacePaths.any (fun p => p.toList.isPrefixOf path.toList) then
    { s with finishing := s.finishing ++ [status] }
  else s

/-- The first of the responses that trigger a reload has been sent. -/
def finish (s : Server) (disk : Disk) (signal : Option String) : Server :=
  match s.finishing with
  | [] => s
  | status :: rest =>
      let s := { s with finishing := rest }
      if 200 ≤ status ∧ status < 300 ∧ s.manager.state = .running then
        match s.writeToFile env configFilePath disk with
        | (s, false) => s
        | (s, true) => (s.reloadProcess env signal).1
      else s

/-! ## Going on -/

/-- A handler whose promise is settled goes on. -/
def proceed (s : Server) (h : Handler) (now : Nat) (spawned : Spawned) : Server :=
  let rest := { s with handlers := s.handlers.erase h }
  match h.point with
  | .startStart (.resolved _) => rest.startAll.reply h.id 200
  | .startStart (.rejected message) =>
      rest.reply h.id (failureStatus "Process is already running" message)
  | .stopStop (.resolved _) => rest.reply h.id 200
  | .stopStop (.rejected message) => rest.reply h.id (failureStatus "Process is not running" message)
  | .policyStop (.resolved _) =>
      let (s, p) := rest.startProcess env now spawned
      s.wait h.id (.policyStart p)
  | .policyStop (.rejected _) => rest.reply h.id 200
  | .policyStart (.resolved _) => rest.startAll.reply h.id 200
  | .policyStart (.rejected _) => rest.reply h.id 200
  | .startStart .pending | .stopStop .pending | .policyStop .pending | .policyStart .pending => s

def resume (s : Server) (id now : Nat) (spawned : Spawned) : Server :=
  match s.handlers.find? (fun h => h.id = id) with
  | none => s
  | some h => s.proceed env h now spawned

end Server

/-! ## Events of the runtime -/

/-- The promise of a call of `stop` that an event settles; a settled one stays as it is. -/
def Promise.settle (settled : List (Nat × Option String)) (id : Nat) : Promise Unit → Promise Unit
  | .pending =>
      match settled.find? (fun call => call.1 = id) with
      | none => .pending
      | some (_, none) => .resolved ()
      | some (_, some message) => .rejected message
  | p => p

def Handler.settle (settled : List (Nat × Option String)) (h : Handler) : Handler :=
  match h.point with
  | .stopStop p => { h with point := .stopStop (Promise.settle settled h.id p) }
  | .policyStop p => { h with point := .policyStop (Promise.settle settled h.id p) }
  | _ => h

/-- The listeners of an event of the runtime: the crash handler of `main` stops the connectors. -/
def Server.onRuntime (s : Server) (r : Manager × Process.Manager.Outcome) : Server :=
  { s with
    manager := r.1
    started := s.started && r.2.crashes.isEmpty
    handlers := s.handlers.map (Handler.settle r.2.settled) }

/-! ## Runs -/

inductive Event where
  | postStart (disk : Disk) (now : Nat) (spawned : Spawned)
  | postStop
  | putPolicy (mode : Option String) (disk : Disk)
  | postReload (disk : Disk) (signal : Option String)
  | request (path : String) (db : Database) (status : Nat)
  | finish (disk : Disk) (signal : Option String)
  | resume (id now : Nat) (spawned : Spawned)
  | exit (child : Nat) (code : Option Int) (signal : Option String)
  | error (child : Nat) (message : String)

def step (s : Server) : Event → Server
  | .postStart disk now spawned => s.postStart env disk now spawned
  | .postStop => s.postStop
  | .putPolicy mode disk => s.putPolicy env mode disk
  | .postReload disk signal => s.postReload env disk signal
  | .request path db status => s.request path db status
  | .finish disk signal => s.finish env disk signal
  | .resume id now spawned => s.resume env id now spawned
  | .exit child code signal => s.onRuntime (s.manager.onExit child code signal)
  | .error child message => s.onRuntime (s.manager.onError child message)

/-- The server before `main` starts the runtime. -/
def Server.blank (configPath : String) (db : Database) (files : String → Option AddressSpaceConfig) :
    Server where
  configPath := configPath
  db := db
  files := files
  manager := Manager.init
  started := false
  requests := []
  handlers := []
  finishing := []
  replies := []
  reads := []
  written := fun _ => none

/-- `main`: it writes the configuration to its own path, starts the runtime and then the connectors. -/
def Server.boot (s : Server) (disk : Disk) (now : Nat) (spawned : Spawned) : Server :=
  match s.writeToFile env s.configPath disk with
  | (s, false) => s
  | (s, true) =>
      match s.startProcess env now spawned with
      | (s, .resolved _) => s.startAll
      | (s, _) => s

/-- A server that `main` has just set up, for the given `CONFIG_PATH`. -/
def Server.Booted (configPath : String) (s : Server) : Prop :=
  ∃ db files disk now spawned, s = (Server.blank configPath db files).boot env disk now spawned

end OpcuaLight.Api
