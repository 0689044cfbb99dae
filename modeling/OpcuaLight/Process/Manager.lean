import OpcuaLight.Lib.Js
import OpcuaLight.Lib.Machine

/-!
# The process manager

`ProcessManager`: its fields, and the children it has spawned with the listeners that are still attached
to them. The listeners of `attachEventListeners` stay for ever; each call of `stop` attaches one more
for the next `exit` and one more for the next `error`, and whichever comes first settles it. The status
timer and the broadcasts are left out, and so is the timeout that kills a child that does not stop.
-/

namespace OpcuaLight.Process

inductive State where
  | stopped
  | running
  | error
  deriving DecidableEq, Repr, Inhabited

/-- A spawned child: whether it has exited, and the calls of `stop` that listen for its next `exit` and
for its next `error`. -/
structure Child where
  exited : Bool
  onceExit : List Nat
  onceError : List Nat
  deriving DecidableEq, Repr, Inhabited

/-- A call of `stop` listens to the child. -/
def Child.listen (child : Child) (call : Nat) : Child :=
  { child with onceExit := child.onceExit ++ [call], onceError := child.onceError ++ [call] }

/-- The fields of the manager; `process` is a place in `children`. -/
structure Manager where
  process : Option Nat
  state : State
  startedAt : Option Nat
  lastError : Option String
  connectedClients : Nat
  stopping : Bool
  stderrBuffer : String
  children : List Child
  deriving DecidableEq, Repr, Inhabited

/-- What `spawn` comes to: a child with a process id, one without, or an exception. -/
inductive Spawned where
  | pid (pid : Nat)
  | noPid
  | thrown (message : String)
  deriving DecidableEq, Repr

structure StartResult where
  pid : Nat
  startedAt : Nat
  deriving DecidableEq, Repr

namespace Manager

def init : Manager := ⟨none, .stopped, none, none, 0, false, "", []⟩

def cleanup (m : Manager) : Manager :=
  { m with
    state := .stopped
    process := none
    startedAt := none
    connectedClients := 0
    stopping := false
    stderrBuffer := "" }

def setChild (m : Manager) (k : Nat) (child : Child) : Manager :=
  { m with children := m.children.set k child }

/-! ## Calls -/

def start (m : Manager) (now : Nat) (spawned : Spawned) : Manager × Except String StartResult :=
  if m.state = .running ∧ m.process.isSome then (m, .error "Process is already running")
  else
    let m := { m with stopping := false, lastError := none, stderrBuffer := "" }
    match spawned with
    | .thrown message => (m, .error message)
    | .noPid =>
        let message := "Failed to spawn process: no PID assigned"
        ({ m with state := .error, lastError := some message }, .error message)
    | .pid pid =>
        ({ m with
            process := some m.children.length
            state := .running
            startedAt := some now
            connectedClients := 0
            children := m.children ++ [⟨false, [], []⟩] }, .ok ⟨pid, now⟩)

/-- A call of `stop`, up to its wait; the second component is what it throws. -/
def stop (m : Manager) (call : Nat) : Manager × Option String :=
  match m.state, m.process.bind (fun k => (m.children[k]?).map (fun child => (k, child))) with
  | .running, some (k, child) =>
      ({ m with stopping := true }.setChild k (child.listen call), none)
  | _, _ => (m, some "Process is not running")

/-- `reload`, with what the sending of the signal throws. -/
def reload (m : Manager) (signal : Option String) : Option String :=
  if m.state = .running ∧ m.process.isSome then signal else some "Process is not running"

/-! ## Events of a child -/

/-- What the listeners of an event did besides: the calls of `stop` that they settled, each with what it
is rejected with, and the reasons passed to the crash handlers. -/
structure Outcome where
  settled : List (Nat × Option String)
  crashes : List String
  deriving DecidableEq, Repr

/-- The listener of `attachEventListeners` for an unexpected end. -/
def crash (m : Manager) (reason : String) : Manager × List String :=
  if m.stopping then (m, [])
  else ({ m with state := .error, lastError := some reason, process := none }, [reason])

def exitReason (m : Manager) (code : Option Int) (signal : Option String) : String :=
  let reason := match signal, code with
    | some signal, _ => s!"Process killed by signal: {signal}"
    | none, some code => s!"Process exited with code: {code}"
    | none, none => "Process exited with code: null"
  if Js.trim m.stderrBuffer ≠ "" then s!"{reason}\nstderr: {Js.trim m.stderrBuffer}" else reason

/-- The listeners that calls of `stop` attached: each cleans up. -/
def cleanups (m : Manager) (calls : List Nat) : Manager := calls.foldl (fun m _ => m.cleanup) m

def onExit (m : Manager) (k : Nat) (code : Option Int) (signal : Option String) : Manager × Outcome :=
  match m.children[k]? with
  | none => (m, ⟨[], []⟩)
  | some child =>
      if child.exited then (m, ⟨[], []⟩)
      else
        let (m, crashes) := m.crash (m.exitReason code signal)
        let m := m.setChild k { child with exited := true, onceExit := [] }
        (m.cleanups child.onceExit, ⟨child.onceExit.map (fun call => (call, none)), crashes⟩)

def onError (m : Manager) (k : Nat) (message : String) : Manager × Outcome :=
  match m.children[k]? with
  | none => (m, ⟨[], []⟩)
  | some child =>
      let (m, crashes) := m.crash s!"Process error: {message}"
      let m := m.setChild k { child with onceError := [] }
      (m.cleanups child.onceError, ⟨child.onceError.map (fun call => (call, some message)), crashes⟩)

/-- The count of a line `clients:N`. -/
def clientsLine (line : List Char) : Option Nat :=
  match "clients:".toList.isPrefixOf line, line.drop 8 with
  | true, d :: ds => if (d :: ds).all Char.isDigit then some (Js.digitsValue (d :: ds)) else none
  | _, _ => none

def parseStdout (m : Manager) (output : String) : Manager :=
  (output.toList.splitOn '\n').foldl (fun m line =>
    match clientsLine line with
    | some n => { m with connectedClients := n }
    | none => m) m

def onStderr (m : Manager) (data : String) : Manager :=
  if Js.trim data ≠ "" then { m with stderrBuffer := m.stderrBuffer ++ Js.trim data ++ "\n" } else m

def onStdinError (m : Manager) (code message : String) : Manager :=
  if code ≠ "EPIPE" then { m with lastError := some s!"stdin error: {message}" } else m

end Manager

/-! ## Runs -/

/-- A call of a method, or an event of a child. -/
inductive Event where
  | start (now : Nat) (spawned : Spawned)
  | stop (call : Nat)
  | reload (signal : Option String)
  | exit (child : Nat) (code : Option Int) (signal : Option String)
  | error (child : Nat) (message : String)
  | stdout (child : Nat) (output : String)
  | stderr (child : Nat) (data : String)
  | stdinError (child : Nat) (code message : String)
  deriving DecidableEq, Repr

/-- The child that an event is of. -/
def Event.child? : Event → Option Nat
  | .exit k _ _ | .error k _ | .stdout k _ | .stderr k _ | .stdinError k _ _ => some k
  | _ => none

def step (m : Manager) : Event → Manager
  | .start now spawned => (m.start now spawned).1
  | .stop call => (m.stop call).1
  | .reload _ => m
  | .exit k code signal => (m.onExit k code signal).1
  | .error k message => (m.onError k message).1
  | .stdout _ output => m.parseStdout output
  | .stderr _ data => m.onStderr data
  | .stdinError _ code message => m.onStdinError code message

/-! ## Tracking the child -/

/-- A running manager has the child spawned last, and this child has not exited. -/
def Tracks (m : Manager) : Prop :=
  m.state = .running → ∃ child, m.process = some (m.children.length - 1) ∧
    m.children[m.children.length - 1]? = some child ∧ child.exited = false

/-- The event, if it is one of an earlier child, leaves the manager's view of the process alone. -/
def Undisturbed (m : Manager) (e : Event) : Prop :=
  ∀ k, e.child? = some k → k + 1 < m.children.length →
    (step m e).state = m.state ∧ (step m e).process = m.process ∧ (step m e).startedAt = m.startedAt

/-- Nothing is spawned beside a child that has not exited. -/
def SpawnsAlone (m : Manager) (e : Event) : Prop :=
  (step m e).children.length = m.children.length ∨ ∀ child ∈ m.children, child.exited = true

/-- A start of a manager that is not running comes after the exit of the child spawned last, and no
`error` comes of an earlier child. -/
def Settled (m : Manager) : Event → Prop
  | .start _ _ => m.state = .running ∨ ∀ child ∈ m.children.getLast?, child.exited = true
  | .error k _ => m.children.length ≤ k + 1
  | _ => True

instance (m : Manager) : (e : Event) → Decidable (Settled m e)
  | .start _ _ => inferInstanceAs (Decidable (_ ∨ ∀ child ∈ m.children.getLast?, child.exited = true))
  | .error k _ => inferInstanceAs (Decidable (m.children.length ≤ k + 1))
  | .stop _ | .reload _ | .exit _ _ _ | .stdout _ _ | .stderr _ _ | .stdinError _ _ _ =>
      inferInstanceAs (Decidable True)

end OpcuaLight.Process
