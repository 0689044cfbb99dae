import OpcuaLight.Lib.JsonPretty
import OpcuaLight.Process.Manager
import OpcuaLight.Runtime.StatusWriter

/-!
# Client sessions

`validateSessions`, and what the process manager reads from the status file of the runtime. `new Date(s)` is a
parameter, as far as it tells which strings are dates.

* `sessions_read` : while the manager is running it reads the sessions of the last report that the runtime could
  write, each of them and in order; before the first one, what an earlier runtime has left.
-/

namespace OpcuaLight.Process

open Dates (toISOString yearLimit)
open OpcuaLight.Runtime (Session SessionJson StatusCall StatusFile StatusJson newline)

/-! ## `validate-sessions.ts` -/

inductive ClientSessionState where
  | created
  | activated
  | closing
  deriving DecidableEq, Repr

def ClientSessionState.text : ClientSessionState → String
  | .created => "Created"
  | .activated => "Activated"
  | .closing => "Closing"

def validSessionStates : List ClientSessionState := [.created, .activated, .closing]

structure ClientSession where
  applicationName : String
  applicationUri : String
  securityPolicyUri : String
  clientAddress : String
  connectTime : String
  sessionState : ClientSessionState
  deriving DecidableEq, Repr

section Read
variable (isValidIso8601 : String → Bool)

/-- The session of an entry, unless that is filtered out. -/
def validateSession (entry : Json) : Option ClientSession :=
  match entry.field "applicationName", entry.field "applicationUri", entry.field "securityPolicyUri",
    entry.field "clientAddress", entry.field "connectTime", entry.field "sessionState" with
  | some (.str applicationName), some (.str applicationUri), some (.str securityPolicyUri), some (.str clientAddress),
    some (.str connectTime), some (.str sessionState) =>
      match validSessionStates.find? (fun state => state.text = sessionState) with
      | none => none
      | some state =>
          if isValidIso8601 connectTime then
            some ⟨applicationName, applicationUri, securityPolicyUri, clientAddress, connectTime, state⟩
          else none
  | _, _, _, _, _, _ => none

def validateSessions (raw : Option Json) : List ClientSession :=
  match raw with
  | some (.arr entries) => entries.filterMap (validateSession isValidIso8601)
  | _ => []

/-! ## `process-manager/index.ts` -/

/-- The data of the status file; there is none if it does not exist or cannot be parsed. -/
def readStatus (content : Option (List UInt8)) : Option Json :=
  content.bind fun bytes => Json.parse (String.ofList (Utf8.decodeLossy bytes))

def readConnectedClients (content : Option (List UInt8)) : ℚ :=
  match (readStatus content).bind (fun data => data.field "connectedClients") with
  | some (.num q) => q
  | _ => 0

def readClientSessions (state : State) (content : Option (List UInt8)) : List ClientSession :=
  if state ≠ .running then []
  else
    match readStatus content with
    | none => []
    | some data => validateSessions isValidIso8601 (data.field "sessions")

end Read

/-! ## The file of the runtime -/

/-- The text of a C string. -/
def shown (bytes : List UInt8) : String := String.ofList (Utf8.decodeLossy bytes)

/-- The object of a session in the report. -/
def sessionObject (s : SessionJson) : Json :=
  .obj [("applicationName", .str (shown s.applicationName)), ("applicationUri", .str (shown s.applicationUri)),
    ("securityPolicyUri", .str (shown s.securityPolicyUri)), ("clientAddress", .str (shown s.clientAddress)),
    ("connectTime", .str (shown s.connectTime)), ("sessionState", .str (shown s.sessionState))]

def statusObject (root : StatusJson) : Json :=
  .obj [("connectedClients", .num root.connectedClients.toInt), ("sessions", .arr (root.sessions.map sessionObject))]

/-- `cJSON_PrintUnformatted` writes JSON, with the bytes of the strings as they are. -/
structure PrintsStatus (cJsonPrintUnformatted : StatusJson → List UInt8) : Prop where
  reads : ∀ root : StatusJson, (∀ s ∈ root.sessions, s.Terminated) →
    readStatus (some (cJsonPrintUnformatted root ++ [newline])) = some (statusObject root)

/-- What is to be shown of a session that was looked at at some time. -/
def view (s : Session) (now : Int) : ClientSession where
  applicationName := shown (Runtime.copied 512 s.applicationName)
  applicationUri := shown (Runtime.copied 1024 s.applicationUri)
  securityPolicyUri := shown (Runtime.copied 512 ((s.channel.bind Runtime.SecureChannel.policyUri).getD []))
  clientAddress := (((s.channel.bind Runtime.SecureChannel.peer).map fun peer => String.ofList peer.text)).getD ""
  connectTime := toISOString (Runtime.unixMillis (Runtime.connectTime s now))
  sessionState := if s.activated then .activated else .created

theorem shown_encode (cs : List Char) : shown (Utf8.encode cs) = String.ofList cs := by
  rw [shown, Utf8.decodeLossy_encode]

/-- A name without NUL is shown up to the size of the buffer, with U+FFFD if that cuts a character. -/
theorem shown_copied {name : String} (h : ∀ c ∈ name.toList, 0 < c.toNat) (size : Nat) :
    shown (Runtime.copied size (Utf8.encode name.toList)) =
      String.ofList (Utf8.whole (size - 1) name.toList ++
        if (Utf8.encode (Utf8.whole (size - 1) name.toList)).length <
          min (size - 1) (Utf8.encode name.toList).length then ['\ufffd'] else []) := by
  rw [shown, Runtime.copied_encode h, Utf8.decodeLossy_take]

/-- A name without NUL that fits the buffer is shown as it is. -/
theorem shown_name {name : String} (h : ∀ c ∈ name.toList, 0 < c.toNat) {size : Nat}
    (hsize : (Utf8.encode name.toList).length < size) :
    shown (Runtime.copied size (Utf8.encode name.toList)) = name := by
  rw [shown, Runtime.copied_encode h, List.take_of_length_le (by omega), ← shown, shown_encode, String.ofList_toList]

variable {isValidIso8601 : String → Bool}

/-- No session of a report is filtered out. -/
theorem validateSession_object (hiso : ∀ t < yearLimit, isValidIso8601 (toISOString t) = true) {s : Session}
    {now : Int} (h : Runtime.Dated (Runtime.connectTime s now)) :
    validateSession isValidIso8601 (sessionObject (Runtime.sessionJson s now)) = some (view s now) := by
  have htime : shown (Runtime.uaDatetimeToIso8601 (Runtime.connectTime s now)) =
      toISOString (Runtime.unixMillis (Runtime.connectTime s now)) := by
    rw [Runtime.uaDatetimeToIso8601_eq h, shown_encode, String.ofList_toList]
  have hpeer : shown (Runtime.getClientAddress (s.channel.bind Runtime.SecureChannel.peer)) =
      (view s now).clientAddress := by
    unfold view
    cases s.channel.bind Runtime.SecureChannel.peer with
    | none => rfl
    | some peer =>
        rw [Runtime.getClientAddress_some, shown_encode]
        rfl
  have hstate : shown (Utf8.encode (Runtime.getSessionStateString s).toList) = (view s now).sessionState.text := by
    rw [shown_encode, String.ofList_toList, view, Runtime.getSessionStateString]
    split_ifs <;> rfl
  have hfind : ∀ state : ClientSessionState,
      validSessionStates.find? (fun state' => state'.text = state.text) = some state := by
    intro state
    cases state <;> decide
  have hvalid := hiso _ (Runtime.unixMillis_lt h)
  simp only [validateSession, sessionObject, Json.field, Runtime.sessionJson, List.find?_cons, String.reduceEq,
    decide_true, decide_false, Option.map_some, htime, hpeer, hstate, hfind, hvalid, if_true]
  rfl

/-- **The manager reads the last report that the runtime could write**: each session that the server had then, in
order. Before the first one the file is as an earlier runtime has left it. -/
theorem sessions_read (hiso : ∀ t < yearLimit, isValidIso8601 (toISOString t) = true)
    {cJsonPrintUnformatted : StatusJson → List UInt8} (hprint : PrintsStatus cJsonPrintUnformatted)
    {statusPath : String} (hpath : statusPath ≠ "") (left : Option (List UInt8)) {cs : List StatusCall}
    (hfits : ∀ c ∈ cs, c.Fits cJsonPrintUnformatted)
    (htimes : ∀ c ∈ cs, ∀ s ∈ c.sessions, Runtime.Dated (Runtime.connectTime s.1 s.2)) :
    let f := Machine.run (Runtime.statusWriteIfChanged cJsonPrintUnformatted) (.start statusPath left) cs
    (∀ c ∈ Runtime.reported cs,
      readClientSessions isValidIso8601 .running f.content = c.sessions.map (fun s => view s.1 s.2) ∧
      readConnectedClients f.content = (Int32.ofNat c.currentSessionCount).toInt) ∧
    (Runtime.reported cs = none → f.content = left) := by
  intro f
  have hf := Runtime.file_run hpath left hfits
  refine ⟨fun c hc => ?_, fun hnone => ?_⟩
  · have hmem : c ∈ cs := List.mem_of_mem_filter (List.mem_of_getLast? hc)
    have hcontent : f.content = some (cJsonPrintUnformatted c.root ++ [newline]) := by
      rw [hf.content, show Runtime.reported cs = some c from hc]
      rfl
    have hstatus : readStatus f.content = some (statusObject c.root) := by
      rw [hcontent]
      refine hprint.reads c.root fun s hs => ?_
      obtain ⟨looked, hlooked, rfl⟩ := List.mem_map.mp hs
      exact Runtime.sessionJson_terminated (htimes c hmem looked hlooked)
    have hsessions : (statusObject c.root).field "sessions" = some (.arr (c.root.sessions.map sessionObject)) := by
      simp [statusObject, Json.field]
    have hclients : (statusObject c.root).field "connectedClients" = some (.num c.root.connectedClients.toInt) := by
      simp [statusObject, Json.field]
    constructor
    · rw [readClientSessions, if_neg (by simp), hstatus]
      show validateSessions isValidIso8601 ((statusObject c.root).field "sessions") = _
      rw [hsessions, validateSessions, StatusCall.root, List.map_map, List.filterMap_map]
      exact List.filterMap_eq_map_iff_forall_eq_some.mpr fun s hs =>
        validateSession_object hiso (htimes c hmem s hs)
    · rw [readConnectedClients, hstatus, Option.bind_some, hclients]
      rfl
  · rw [hf.content, hnone]
    rfl

/-- A printer that writes what `JSON.stringify` would. -/
def printStatus (root : StatusJson) : List UInt8 := Utf8.encode (statusObject root).text

theorem canonical_sessionObject (s : SessionJson) : (sessionObject s).Canonical := by
  refine ⟨?_, trivial, trivial, trivial, trivial, trivial, trivial, trivial⟩
  show ["applicationName", "applicationUri", "securityPolicyUri", "clientAddress", "connectTime",
    "sessionState"].Nodup
  decide

theorem canonical_statusObject (root : StatusJson) : (statusObject root).Canonical := by
  have hclients : (Json.num root.connectedClients.toInt).Canonical := by
    have hge := root.connectedClients.le_toInt
    have hlt := root.connectedClients.toInt_lt
    exact Json.canonical_intCast (abs_lt.mpr ⟨by omega, by omega⟩)
  have hsessions : Json.CanonicalItems (root.sessions.map sessionObject) := by
    rw [Json.canonicalItems_iff]
    exact List.forall_mem_map.mpr fun s _ => canonical_sessionObject s
  exact ⟨by simp, hclients, hsessions, trivial⟩

theorem printsStatus_printStatus : PrintsStatus printStatus where
  reads root _ := by
    have htext : Utf8.decodeLossy (printStatus root ++ [newline]) = (statusObject root).text ++ ['\n'] := by
      rw [Utf8.decodeLossy, printStatus, Utf8.decodeFrom_encode]
      rfl
    rw [readStatus, Option.bind_some, htext, Json.parse_line (canonical_statusObject root)]

/-- A session that was looked at on 2024-05-01, and the call that reports it. -/
def viewer : Session × Int :=
  (⟨Utf8.encode "Viewer".toList, Utf8.encode "urn:viewer".toList, none, true⟩, 133590240000000000)

def viewerCall (written : Nat) : StatusCall := ⟨1, [viewer], true, some written⟩

/-- At the second call the session has gone, and the file cannot be opened. -/
def twoCalls : List StatusCall :=
  [viewerCall ((printStatus (viewerCall 0).root).length + 1), ⟨0, [], true, none⟩]

theorem sessions_read_two :
    readClientSessions (fun s => s.toList.length = 24) .running
      (Machine.run (Runtime.statusWriteIfChanged printStatus) (.start "/srv/status.json" none) twoCalls).content =
        [view viewer.1 viewer.2] := by
  have hiso : ∀ t < yearLimit, decide ((toISOString t).toList.length = 24) = true := fun t ht =>
    decide_eq_true (Dates.length_toISOString ht)
  have hfits : ∀ c ∈ twoCalls, c.Fits printStatus := by
    refine List.forall_mem_cons.mpr ⟨fun written hwritten => ?_, List.forall_mem_singleton.mpr ?_⟩
    · rw [← Option.some.inj hwritten]
      exact Nat.lt_succ_self _
    · simp [StatusCall.Fits]
  have htimes : ∀ c ∈ twoCalls, ∀ s ∈ c.sessions, Runtime.Dated (Runtime.connectTime s.1 s.2) := by
    refine List.forall_mem_cons.mpr ⟨List.forall_mem_singleton.mpr ?_, by simp⟩
    show Runtime.Dated 133590240000000000
    unfold Runtime.Dated Runtime.unixEpoch yearLimit
    decide
  exact ((sessions_read hiso printsStatus_printStatus (by simp) none hfits htimes).1 _ rfl).1

end OpcuaLight.Process
