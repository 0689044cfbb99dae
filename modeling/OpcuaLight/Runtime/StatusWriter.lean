import OpcuaLight.Lib.Dates
import OpcuaLight.Lib.Js
import OpcuaLight.Lib.Machine
import OpcuaLight.Lib.Utf8Lossy
import OpcuaLight.Runtime.Stdin

/-!
# The status file

`status_writer.c`: the report about the sessions of the server, and when it is written. A report is a tree of cJSON
whose strings are C strings; `cJSON_PrintUnformatted` is a parameter.

* `uaDatetimeToIso8601_eq` : up to the year 9999 a time is written as `toISOString` writes it;
* `file_run` : the file has the last report that could be built, and for which it could be opened.
-/

namespace OpcuaLight.Runtime

open Dates (toISOString yearLimit)

/-! ## Times -/

/-- `%0wd`. -/
def zeroPadded (w n : Nat) : List Char := if n < 10 ^ w then Dates.pad w n else Nat.toDigits 10 n

/-- `UA_DATETIME_UNIX_EPOCH`, in units of 100 ns since 1601. -/
def unixEpoch : Int := 116444736000000000

/-- `ua_datetime_to_iso8601` of a time since 1970. -/
def uaDatetimeToIso8601 (dt : Int) : List UInt8 :=
  let unixUs := dt.tdiv 10 - 11644473600000000
  let secs := (unixUs.tdiv 1000000).toNat
  -- a negative number is replaced by 0
  let millis := ((unixUs.tmod 1000000).tdiv 1000).toNat
  let day := Dates.epochDay + secs / 86400
  let month := Dates.monthOf day
  let date := zeroPadded 4 ((month + 2) / 12) ++ '-' :: (zeroPadded 2 ((month + 2) % 12 + 1) ++
    '-' :: zeroPadded 2 (day - Dates.monthStart month + 1))
  let time := zeroPadded 2 (secs % 86400 / 3600) ++ ':' :: (zeroPadded 2 (secs % 3600 / 60) ++
    ':' :: (zeroPadded 2 (secs % 60) ++ '.' :: zeroPadded 3 millis))
  (Utf8.encode (date ++ 'T' :: (time ++ ['Z']))).take 63

/-- A time in the years from 1970 to 9999. -/
def Dated (dt : Int) : Prop := unixEpoch ≤ dt ∧ dt < unixEpoch + yearLimit * 10000

/-- The milliseconds since 1970. -/
def unixMillis (dt : Int) : Nat := ((dt - unixEpoch) / 10000).toNat

theorem zeroPadded_eq {w n : Nat} (h : n < 10 ^ w) : zeroPadded w n = Dates.pad w n := if_pos h

theorem unixMillis_lt {dt : Int} (h : Dated dt) : unixMillis dt < yearLimit := by
  unfold Dated unixEpoch yearLimit at h
  unfold unixMillis unixEpoch yearLimit
  omega

/-- The seconds and the milliseconds that are left. -/
theorem unixMicros_eq {dt : Int} (h : unixEpoch ≤ dt) :
    ((dt.tdiv 10 - 11644473600000000).tdiv 1000000).toNat = unixMillis dt / 1000 ∧
      (((dt.tdiv 10 - 11644473600000000).tmod 1000000).tdiv 1000).toNat = unixMillis dt % 1000 := by
  unfold unixMillis unixEpoch at *
  have hmicros : dt.tdiv 10 = dt / 10 := Int.tdiv_eq_ediv_of_nonneg (by omega)
  rw [hmicros, Int.tdiv_eq_ediv_of_nonneg (by omega), Int.tmod_eq_emod_of_nonneg (by omega),
    Int.tdiv_eq_ediv_of_nonneg (by omega)]
  omega

/-- **A time is written as JavaScript writes it.** -/
theorem uaDatetimeToIso8601_eq {dt : Int} (h : Dated dt) :
    uaDatetimeToIso8601 dt = Utf8.encode (toISOString (unixMillis dt)).toList := by
  have hlt := unixMillis_lt h
  have hlength : (Utf8.encode (toISOString (unixMillis dt)).toList).length ≤ 63 := by
    rw [Utf8.length_encode_ascii fun c hc => (Dates.toISOString_ascii _ c hc).2, Dates.length_toISOString hlt]
    decide
  obtain ⟨hsecs, hmillis⟩ := unixMicros_eq h.1
  set t := unixMillis dt with ht
  have hyear := Dates.yearOf_le hlt
  unfold Dates.yearOf at hyear
  have hspec := Dates.monthOf_spec (Dates.epochDay + t / 86400000)
  have hlast := (Dates.monthStart_bounds (Dates.monthOf (Dates.epochDay + t / 86400000) + 1)).2
  have hfirst := (Dates.monthStart_bounds (Dates.monthOf (Dates.epochDay + t / 86400000))).1
  rw [← List.take_of_length_le hlength, toISOString, String.toList_ofList, Dates.dateText, Dates.timeText,
    Dates.yearText, if_pos hyear]
  unfold uaDatetimeToIso8601
  simp only [hsecs, hmillis, Nat.div_div_eq_div_mul, Nat.reduceMul]
  rw [zeroPadded_eq (by omega), zeroPadded_eq (by omega), zeroPadded_eq (by omega), zeroPadded_eq (by omega),
    zeroPadded_eq (by omega), zeroPadded_eq (by omega), zeroPadded_eq (by omega)]
  rw [show t / 1000 % 86400 / 3600 = t % 86400000 / 3600000 by omega,
    show t / 1000 % 3600 / 60 = t % 86400000 / 60000 % 60 by omega,
    show t / 1000 % 60 = t % 86400000 / 1000 % 60 by omega, show t % 1000 = t % 86400000 % 1000 by omega]

/-! ## Sessions -/

/-- An address as `inet_ntop` writes it, with its port. -/
structure SocketAddress where
  ip : String
  port : Nat
  ascii : ∀ c ∈ ip.toList, 0 < c.toNat ∧ c.toNat < 128
  length : ip.toList.length ≤ 45
  port_lt : port < 65536

/-- What `getpeername` gives, by its family. -/
inductive Peer where
  | inet (address : SocketAddress)
  | inet6 (address : SocketAddress)
  | other

/-- The text that `snprintf` writes for a peer. -/
def Peer.text : Peer → List Char
  | .inet address => address.ip.toList ++ ':' :: Nat.toDigits 10 address.port
  | .inet6 address => '[' :: (address.ip.toList ++ ']' :: ':' :: Nat.toDigits 10 address.port)
  | .other => []

/-- The fields of a channel; there may be no policy, and no connection with a peer. -/
structure SecureChannel where
  policyUri : Option (List UInt8)
  peer : Option Peer
  createdAt : Int

/-- The fields of a session, with the description of its client. -/
structure Session where
  applicationName : List UInt8
  applicationUri : List UInt8
  channel : Option SecureChannel
  activated : Bool

/-- `get_client_address`, into a buffer of 128 bytes. -/
def getClientAddress (peer : Option Peer) : List UInt8 :=
  match peer with
  | none => []
  | some peer => (Utf8.encode peer.text).take 127

def getSessionStateString (s : Session) : String := if s.activated then "Activated" else "Created"

/-- The time of the channel, or the present one. -/
def connectTime (s : Session) (now : Int) : Int :=
  match s.channel with
  | none => now
  | some channel => if channel.createdAt > unixEpoch then channel.createdAt else now

/-- The C string of the bytes that are copied to a buffer of `size` bytes. -/
def copied (size : Nat) (bytes : List UInt8) : List UInt8 := (bytes.take (size - 1)).takeWhile (· ≠ 0)

/-- The strings of a session in the report. -/
structure SessionJson where
  applicationName : List UInt8
  applicationUri : List UInt8
  securityPolicyUri : List UInt8
  clientAddress : List UInt8
  connectTime : List UInt8
  sessionState : List UInt8
  deriving DecidableEq, Repr

structure StatusJson where
  connectedClients : Int32
  sessions : List SessionJson
  deriving DecidableEq, Repr

/-- The strings are C strings. -/
def SessionJson.Terminated (s : SessionJson) : Prop :=
  ∀ bytes ∈ [s.applicationName, s.applicationUri, s.securityPolicyUri, s.clientAddress, s.connectTime, s.sessionState],
    0 ∉ bytes

def sessionJson (s : Session) (now : Int) : SessionJson where
  applicationName := copied 512 s.applicationName
  applicationUri := copied 1024 s.applicationUri
  securityPolicyUri := copied 512 ((s.channel.bind SecureChannel.policyUri).getD [])
  clientAddress := getClientAddress (s.channel.bind SecureChannel.peer)
  connectTime := uaDatetimeToIso8601 (Runtime.connectTime s now)
  sessionState := Utf8.encode (getSessionStateString s).toList

theorem Peer.text_ascii (peer : Peer) : ∀ c ∈ peer.text, 0 < c.toNat ∧ c.toNat < 128 := by
  have hdigits : ∀ n, ∀ c ∈ Nat.toDigits 10 n, 0 < c.toNat ∧ c.toNat < 128 := by
    intro n c hc
    have hdigit := Nat.isDigit_of_mem_toDigits (by decide) (by decide) hc
    simp only [Char.isDigit, Bool.and_eq_true, decide_eq_true_eq, ge_iff_le, UInt32.le_iff_toNat_le] at hdigit
    exact ⟨Nat.lt_of_lt_of_le (by decide) hdigit.1, Nat.lt_of_le_of_lt hdigit.2 (by decide)⟩
  cases peer with
  | inet address =>
      exact List.forall_mem_append.mpr ⟨address.ascii, List.forall_mem_cons.mpr ⟨by decide, hdigits _⟩⟩
  | inet6 address =>
      exact List.forall_mem_cons.mpr ⟨by decide, List.forall_mem_append.mpr ⟨address.ascii,
        List.forall_mem_cons.mpr ⟨by decide, List.forall_mem_cons.mpr ⟨by decide, hdigits _⟩⟩⟩⟩
  | other => simp [Peer.text]

theorem Peer.length_text (peer : Peer) : peer.text.length ≤ 127 := by
  have hdigits : ∀ {n}, n < 65536 → (Nat.toDigits 10 n).length ≤ 5 := fun h =>
    (Nat.length_toDigits_le_iff (by decide) (by decide)).mpr (by omega)
  cases peer with
  | inet address =>
      have hip := address.length
      have hport := hdigits address.port_lt
      simp only [Peer.text, List.length_append, List.length_cons]
      omega
  | inet6 address =>
      have hip := address.length
      have hport := hdigits address.port_lt
      simp only [Peer.text, List.length_append, List.length_cons]
      omega
  | other => simp [Peer.text]

/-- The buffer is large enough for every address. -/
theorem getClientAddress_some (peer : Peer) : getClientAddress (some peer) = Utf8.encode peer.text := by
  have hascii := Utf8.length_encode_ascii fun c hc => (peer.text_ascii c hc).2
  exact List.take_of_length_le (hascii.trans_le peer.length_text)

theorem zero_notMem_encode {cs : List Char} (h : ∀ c ∈ cs, 0 < c.toNat) : 0 ∉ Utf8.encode cs := by
  rw [Utf8.mem_encode_ascii (by decide)]
  rintro ⟨c, hc, heq⟩
  exact Nat.ne_of_gt (h c hc) heq

theorem zero_notMem_copied (size : Nat) (bytes : List UInt8) : 0 ∉ copied size bytes := by
  intro h
  simpa using List.mem_takeWhile_imp h

/-- A text without NUL is copied up to the size of the buffer. -/
theorem copied_encode {cs : List Char} (h : ∀ c ∈ cs, 0 < c.toNat) (size : Nat) :
    copied size (Utf8.encode cs) = (Utf8.encode cs).take (size - 1) := by
  refine List.takeWhile_eq_self_iff.mpr fun b hb => ?_
  have hne : b ≠ 0 := by
    rintro rfl
    exact zero_notMem_encode h (List.mem_of_mem_take hb)
  simpa using hne

theorem sessionJson_terminated {s : Session} {now : Int} (h : Dated (connectTime s now)) :
    (sessionJson s now).Terminated := by
  have htime : 0 ∉ uaDatetimeToIso8601 (connectTime s now) := by
    rw [uaDatetimeToIso8601_eq h]
    exact zero_notMem_encode fun c hc => (Dates.toISOString_ascii _ c hc).1
  have hpeer : 0 ∉ getClientAddress (s.channel.bind SecureChannel.peer) := by
    cases s.channel.bind SecureChannel.peer with
    | none => exact List.not_mem_nil
    | some peer =>
        rw [getClientAddress_some]
        exact zero_notMem_encode fun c hc => (peer.text_ascii c hc).1
  have hstate : 0 ∉ Utf8.encode (getSessionStateString s).toList := by
    unfold getSessionStateString
    split_ifs <;> decide
  simp only [SessionJson.Terminated, sessionJson, List.forall_mem_cons]
  exact ⟨zero_notMem_copied _ _, zero_notMem_copied _ _, zero_notMem_copied _ _, hpeer, htime, hstate, by simp⟩

/-! ## Writing the file -/

/-- What a call finds: the sessions with the times at which they are looked at, whether the report can be built and
printed, and how many bytes get to the file, if it can be opened. -/
structure StatusCall where
  currentSessionCount : Nat
  sessions : List (Session × Int)
  allocates : Bool
  fopen : Option Nat

def StatusCall.root (c : StatusCall) : StatusJson :=
  ⟨Int32.ofNat c.currentSessionCount, c.sessions.map fun s => sessionJson s.1 s.2⟩

/-- The fields of the context, and the content of the file. -/
structure StatusFile where
  statusPath : String
  lastStatusJson : Option (List UInt8)
  content : Option (List UInt8)

section Write
variable (cJsonPrintUnformatted : StatusJson → List UInt8)

def statusWriteIfChanged (f : StatusFile) (c : StatusCall) : StatusFile :=
  if f.statusPath = "" ∨ c.allocates = false then f
  else
    let jsonStr := cJsonPrintUnformatted c.root
    if f.lastStatusJson = some jsonStr then f
    else
      match c.fopen with
      | none => f
      | some written =>
          { f with lastStatusJson := some jsonStr, content := some ((jsonStr ++ [newline]).take written) }

/-- The file of a runtime that has started; an earlier one may have left it. -/
def StatusFile.start (statusPath : String) (content : Option (List UInt8)) : StatusFile := ⟨statusPath, none, content⟩

/-- The report can be built, and the file opened. -/
def StatusCall.written (c : StatusCall) : Bool := c.allocates && c.fopen.isSome

/-- The last call whose report could be written. -/
def reported (cs : List StatusCall) : Option StatusCall := (cs.filter StatusCall.written).getLast?

/-- No text is cut short by the disk. -/
def StatusCall.Fits (c : StatusCall) : Prop :=
  ∀ written ∈ c.fopen, (cJsonPrintUnformatted c.root).length < written

/-- The file has the report of the call, or what was left in it. -/
structure StatusFile.Has (f : StatusFile) (r : Option StatusCall) (left : Option (List UInt8)) : Prop where
  last : f.lastStatusJson = r.map fun c => cJsonPrintUnformatted c.root
  content : f.content = (r.map fun c => cJsonPrintUnformatted c.root ++ [newline]).or left

variable {cJsonPrintUnformatted} {f : StatusFile} {r : Option StatusCall} {left : Option (List UInt8)}

theorem reported_snoc (cs : List StatusCall) (c : StatusCall) :
    reported (cs ++ [c]) = if c.written then some c else reported cs := by
  rw [reported, List.filter_append, List.filter_singleton]
  split_ifs with h <;> simp [h, reported]

theorem StatusFile.Has.step (h : f.Has cJsonPrintUnformatted r left) (hpath : f.statusPath ≠ "") {c : StatusCall}
    (hc : c.Fits cJsonPrintUnformatted) :
    (statusWriteIfChanged cJsonPrintUnformatted f c).Has cJsonPrintUnformatted (if c.written then some c else r)
      left := by
  unfold statusWriteIfChanged StatusCall.written
  cases hallocates : c.allocates with
  | false => simpa using h
  | true =>
      simp only [hpath, Bool.true_eq_false, or_self, if_false, Bool.true_and]
      split_ifs with hsame hopens hopens
      · -- the file has this text
        rw [h.last] at hsame
        obtain ⟨c', rfl, htext⟩ := Option.map_eq_some_iff.mp hsame
        have hcontent := h.content
        rw [Option.map_some, htext] at hcontent
        exact ⟨h.last.trans hsame, hcontent⟩
      · exact h
      · obtain ⟨written, hwritten⟩ := Option.isSome_iff_exists.mp hopens
        have hlength := hc written hwritten
        rw [hwritten]
        refine ⟨rfl, ?_⟩
        show some ((_ ++ [newline]).take written) = _
        rw [List.take_of_length_le (by rw [List.length_append, List.length_singleton]; omega)]
        rfl
      · rw [Option.not_isSome_iff_eq_none.mp hopens]
        exact h

theorem statusPath_step (f : StatusFile) (c : StatusCall) :
    (statusWriteIfChanged cJsonPrintUnformatted f c).statusPath = f.statusPath := by
  unfold statusWriteIfChanged
  simp only
  split_ifs
  · rfl
  · rfl
  · cases c.fopen <;> rfl

/-- **The file has the last report that could be written**, or what was left in it before. -/
theorem file_run {statusPath : String} (hpath : statusPath ≠ "") (left : Option (List UInt8)) {cs : List StatusCall}
    (hcs : ∀ c ∈ cs, c.Fits cJsonPrintUnformatted) :
    (Machine.run (statusWriteIfChanged cJsonPrintUnformatted) (.start statusPath left) cs).Has cJsonPrintUnformatted
      (reported cs) left := by
  suffices h : (Machine.run (statusWriteIfChanged cJsonPrintUnformatted) (.start statusPath left) cs).statusPath =
      statusPath ∧ (Machine.run (statusWriteIfChanged cJsonPrintUnformatted) (.start statusPath left) cs).Has
        cJsonPrintUnformatted (reported cs) left from h.2
  induction cs using List.reverseRecOn with
  | nil => exact ⟨rfl, rfl, rfl⟩
  | append_singleton cs c ih =>
      obtain ⟨hbefore, hc⟩ := List.forall_mem_append.mp hcs
      obtain ⟨hsame, hhas⟩ := ih hbefore
      rw [Machine.run_snoc, reported_snoc]
      exact ⟨(statusPath_step _ c).trans hsame,
        hhas.step (hsame.symm ▸ hpath) (List.forall_mem_singleton.mp hc)⟩

end Write

end OpcuaLight.Runtime
