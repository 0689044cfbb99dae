import OpcuaLight.Api.SseHub
import OpcuaLight.Lib.Dates
import OpcuaLight.Lib.Recent

/-!
# The log service

`LogService` over the hub to which it broadcasts its entries, and `GET /api/logs`.

* `poll_iff` : a client that asks for what is newer than the last entry it has gets the entries since exactly if
  none of them has the timestamp of that one, and no more than `MAX_ENTRIES` have come.
-/

namespace OpcuaLight.Log

open Api (SseHub HubEvent)
open Dates (toISOString yearLimit)
open Recent (recent)

inductive LogLevel where
  | info
  | warn
  | error
  | debug
  deriving DecidableEq

def LogLevel.text : LogLevel → String
  | .info => "info"
  | .warn => "warn"
  | .error => "error"
  | .debug => "debug"

structure LogEntry where
  timestamp : String
  level : LogLevel
  source : String
  message : String
  deriving DecidableEq

def LogEntry.json (e : LogEntry) : Json :=
  .obj [("timestamp", .str e.timestamp), ("level", .str e.level.text), ("source", .str e.source),
    ("message", .str e.message)]

def maxEntries : Nat := 1000

structure LogService where
  entries : List LogEntry
  /-- The hub is set. -/
  sseHub : Bool

/-- What is logged, at a time. -/
structure Logged where
  time : Nat
  level : LogLevel
  source : String
  message : String
  deriving DecidableEq

def Logged.entry (l : Logged) : LogEntry := ⟨toISOString l.time, l.level, l.source, l.message⟩

namespace LogService

def initial : LogService := ⟨[], false⟩

/-- The entries after `log`. -/
def push (entries : List LogEntry) (entry : LogEntry) : List LogEntry :=
  let entries := entries ++ [entry]
  if entries.length > maxEntries then entries.drop 1 else entries

/-- UTF-16 code units, by which strings are compared. -/
def units (s : String) : List Nat :=
  s.toList.flatMap fun c =>
    if c.toNat < 0x10000 then [c.toNat]
    else [0xD800 + (c.toNat - 0x10000) / 0x400, 0xDC00 + (c.toNat - 0x10000) % 0x400]

/-- A query parameter that is given and not empty. -/
def given (option : Option String) : Option String := option.filter (· ≠ "")

def getEntries (s : LogService) (since level source : Option String) : List LogEntry :=
  let result := match given since with
    | none => s.entries
    | some since => s.entries.filter (fun e => units since < units e.timestamp)
  let result := match given level with
    | none => result
    | some level => result.filter (fun e => e.level.text ∈ Js.split level ',')
  match given source with
  | none => result
  | some source => result.filter (fun e => e.source ∈ Js.split source ',')

end LogService

/-- The service with the hub. -/
structure LogSystem where
  service : LogService
  hub : SseHub

inductive LogEvent where
  | setSseHub
  /-- `throws` are the clients that the entry cannot be written to. -/
  | log (l : Logged) (throws : Nat → Bool)
  | clear
  | hub (e : HubEvent)

namespace LogSystem

def initial : LogSystem := ⟨.initial, .initial⟩

def step (s : LogSystem) : LogEvent → LogSystem
  | .setSseHub => { s with service := { s.service with sseHub := true } }
  | .log l throws =>
      ⟨{ s.service with entries := LogService.push s.service.entries l.entry },
        if s.service.sseHub then s.hub.broadcast .logEntry l.entry.json throws else s.hub⟩
  | .clear => { s with service := { s.service with entries := [] } }
  | .hub e => { s with hub := s.hub.step e }

/-- The state after a list of events. -/
def reach (es : List LogEvent) : LogSystem := Machine.run step initial es

end LogSystem

/-- What was logged since the log was last cleared. -/
def historyStep (history : List Logged) : LogEvent → List Logged
  | .log l _ => history ++ [l]
  | .clear => []
  | _ => history

def history (es : List LogEvent) : List Logged := Machine.run historyStep [] es

/-- The service keeps the last of what was logged. -/
theorem entries_reach (es : List LogEvent) :
    (LogSystem.reach es).service.entries = recent maxEntries ((history es).map Logged.entry) := by
  induction es using List.reverseRecOn with
  | nil => rfl
  | append_singleton es e ih =>
      rw [LogSystem.reach, Machine.run_snoc, history, Machine.run_snoc]
      rw [LogSystem.reach, history] at ih
      cases e with
      | setSseHub => exact ih
      | hub e => exact ih
      | clear => exact (Recent.recent_of_le (Nat.zero_le maxEntries)).symm
      | log l throws =>
          have hpush := Recent.recent_push maxEntries ((Machine.run historyStep [] es).map Logged.entry) l.entry
          rw [← ih] at hpush
          rw [historyStep, List.map_append, List.map_singleton]
          exact hpush

/-! ## Timestamps -/

theorem map_toNat_lt_iff (a b : List Char) : a.map Char.toNat < b.map Char.toNat ↔ a < b := by
  induction a generalizing b with
  | nil => cases b <;> simp
  | cons c a ih =>
      cases b with
      | nil => simp
      | cons d b =>
          rw [List.map_cons, List.map_cons, List.cons_lt_cons_iff, List.cons_lt_cons_iff, ih, Char.toNat_inj]
          rfl

/-- Text of one code unit a character. -/
theorem units_ascii {s : String} (hs : ∀ c ∈ s.toList, c.toNat < 128) :
    LogService.units s = s.toList.map Char.toNat := by
  rw [LogService.units, ← List.flatMap_singleton' (s.toList.map Char.toNat), List.flatMap_map]
  refine List.flatMap_congr fun c hc => ?_
  exact if_pos (Nat.lt_trans (hs c hc) (by decide))

/-- Timestamps are in the order of the times. -/
theorem units_toISOString_lt_iff {t t' : Nat} (ht : t < yearLimit) (ht' : t' < yearLimit) :
    LogService.units (toISOString t) < LogService.units (toISOString t') ↔ t < t' := by
  rw [units_ascii fun c hc => (Dates.toISOString_ascii t c hc).2,
    units_ascii fun c hc => (Dates.toISOString_ascii t' c hc).2, map_toNat_lt_iff,
    Dates.toISOString_lt_iff ht ht']

theorem toISOString_inj {t t' : Nat} (ht : t < yearLimit) (ht' : t' < yearLimit)
    (h : toISOString t = toISOString t') : t = t' := by
  rcases Nat.lt_trichotomy t t' with hlt | heq | hlt
  · have horder := Dates.toISOString_lt hlt ht'
    rw [h] at horder
    exact absurd horder (List.lt_irrefl _)
  · exact heq
  · have horder := Dates.toISOString_lt hlt ht
    rw [h] at horder
    exact absurd horder (List.lt_irrefl _)

/-- What is newer than a time. -/
theorem getEntries_since {s : LogService} {logged : List Logged} (hs : s.entries = logged.map Logged.entry)
    (hyears : ∀ l ∈ logged, l.time < yearLimit) {t : Nat} (ht : t < yearLimit) :
    s.getEntries (some (toISOString t)) none none = (logged.filter (fun l => t < l.time)).map Logged.entry := by
  have hgiven : LogService.given (some (toISOString t)) = some (toISOString t) := by
    rw [LogService.given, Option.filter_some, if_pos]
    refine decide_eq_true fun hempty => ?_
    have hlist := congrArg String.toList hempty
    rw [toISOString, String.toList_ofList] at hlist
    exact absurd hlist (List.append_ne_nil_of_right_ne_nil _ (List.cons_ne_nil _ _))
  show (match LogService.given (some (toISOString t)) with
    | none => s.entries
    | some since => s.entries.filter (fun e => LogService.units since < LogService.units e.timestamp)) = _
  rw [hgiven]
  show s.entries.filter (fun e => LogService.units (toISOString t) < LogService.units e.timestamp) = _
  rw [hs, List.filter_map]
  refine congrArg (List.map Logged.entry) (List.filter_congr fun l hl => ?_)
  exact decide_eq_decide.mpr (units_toISOString_lt_iff ht (hyears l hl))

/-- **Polling the log.** A client that has the log up to an entry asks for what is newer than that one. In every run
without a clear in between, if the clock does not go back, it is given the entries logged since exactly if all of
them are of a later millisecond, and no more than are kept. -/
theorem poll_iff {es fs : List LogEvent} {seen news : List Logged} {last : Logged}
    (hseen : history es = seen ++ [last]) (hnews : history (es ++ fs) = history es ++ news)
    (hclock : (history (es ++ fs)).Pairwise (fun a b => a.time ≤ b.time))
    (hyears : ∀ l ∈ history (es ++ fs), l.time < yearLimit) :
    (LogSystem.reach (es ++ fs)).service.getEntries (some last.entry.timestamp) none none = news.map Logged.entry ↔
      (∀ l ∈ news, last.time < l.time) ∧ news.length ≤ maxEntries := by
  have hlast : last ∈ history (es ++ fs) := by
    rw [hnews, hseen]
    exact List.mem_append_left _ (List.mem_append_right _ (List.mem_singleton_self last))
  have hentries := entries_reach (es ++ fs)
  rw [← Recent.map_recent] at hentries
  have hkept : ∀ l ∈ recent maxEntries (history (es ++ fs)), l.time < yearLimit := fun l hl =>
    hyears l ((Recent.recent_suffix _ _).subset hl)
  rw [show last.entry.timestamp = toISOString last.time from rfl,
    getEntries_since hentries hkept (hyears last hlast)]
  constructor
  · intro heq
    constructor
    · intro l hl
      have hentry : l.entry ∈ ((recent maxEntries (history (es ++ fs))).filter
          (fun l => last.time < l.time)).map Logged.entry := by
        rw [heq]
        exact List.mem_map_of_mem hl
      obtain ⟨l', hl', hsame⟩ := List.mem_map.mp hentry
      obtain ⟨hin, hlater⟩ := List.mem_filter.mp hl'
      have htime : l'.time = l.time :=
        toISOString_inj (hkept l' hin) (hyears l (hnews ▸ List.mem_append_right _ hl))
          (congrArg LogEntry.timestamp hsame)
      exact htime ▸ of_decide_eq_true hlater
    · have hlength : ((recent maxEntries (history (es ++ fs))).filter (fun l => last.time < l.time)).length =
          news.length := by
        have hboth := congrArg List.length heq
        rwa [List.length_map, List.length_map] at hboth
      have hle := List.length_filter_le (fun l : Logged => last.time < l.time) (recent maxEntries (history (es ++ fs)))
      have hkeeps := Recent.length_recent maxEntries (history (es ++ fs))
      omega
  · rintro ⟨hlater, hfew⟩
    rw [hnews, Recent.recent_append_of_ge _ hfew, List.filter_append]
    have hold : (recent (maxEntries - news.length) (history es)).filter (fun l => last.time < l.time) = [] := by
      refine List.filter_eq_nil_iff.mpr fun l hl hlt => ?_
      have hl := (Recent.recent_suffix _ _).subset hl
      rw [hnews, hseen, List.pairwise_append, List.pairwise_append] at hclock
      rw [hseen] at hl
      have hle : l.time ≤ last.time := by
        rcases List.mem_append.mp hl with hl | hl
        · exact hclock.1.2.2 l hl last (List.mem_singleton_self last)
        · rw [List.mem_singleton.mp hl]
      exact absurd (of_decide_eq_true hlt) (Nat.not_lt.mpr hle)
    rw [hold, List.nil_append, List.filter_eq_self.mpr fun l hl => decide_eq_true (hlater l hl)]

/-- Two entries, the second after the client has asked for the first time. -/
def startLog : List LogEvent := [.log ⟨1714550400000, .info, "Runtime", "Server started"⟩ (fun _ => false)]

def laterLog : List LogEvent := [.setSseHub, .log ⟨1714550400001, .warn, "IPC", "Built"⟩ (fun _ => false)]

theorem poll_iff_later :
    (LogSystem.reach (startLog ++ laterLog)).service.getEntries (some "2024-05-01T08:00:00.000Z") none none =
      [⟨"2024-05-01T08:00:00.001Z", .warn, "IPC", "Built"⟩] :=
  (@poll_iff startLog laterLog [] [⟨1714550400001, .warn, "IPC", "Built"⟩]
    ⟨1714550400000, .info, "Runtime", "Server started"⟩ rfl rfl (by decide) (by decide)).mpr ⟨by decide, by decide⟩

end OpcuaLight.Log
