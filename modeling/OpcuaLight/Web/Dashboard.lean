import Mathlib.Data.List.ReduceOption
import OpcuaLight.Api.SseHub
import OpcuaLight.Lib.Recent

/-!
# The dashboard

What the listeners of `useSSE` and the log panel do with the events of `GET /api/events`: the query cache, and the
entries of the log.

* `dashboard_shows` : it shows the last data that the hub has sent this client of each type, and the last log
  entries, whatever became of the other clients and however the bytes are cut.
-/

namespace OpcuaLight.Web

open Api (SseEventType SseHub HubEvent Feed sentItem)
open EventStream (ascii stream events)
open Recent (recent)

/-- The data of the queries, and the entries of the log panel. -/
structure Dashboard where
  cache : List String → Option Json
  logs : List Json

namespace Dashboard

def initial : Dashboard := ⟨fun _ => none, []⟩

def setQueryData (d : Dashboard) (key : List String) (data : Json) : Dashboard :=
  { d with cache := Function.update d.cache key (some data) }

/-- `handleLogEntry` of the log panel; `next.slice(-1000)` are the recent ones. -/
def handleLogEntry (d : Dashboard) (entry : Json) : Dashboard :=
  let next := d.logs ++ [entry]
  { d with logs := if next.length > 1000 then recent 1000 next else next }

/-- The listeners; what cannot be parsed is ignored. -/
def onMessage (d : Dashboard) (type data : String) : Dashboard :=
  match Json.parse data with
  | none => d
  | some v =>
      if type = "server:status" then (d.setQueryData ["serverStatus"] v).setQueryData ["server-status"] v
      else if type = "server:clients" then d.setQueryData ["server", "clients"] v
      else if type = "connector:status" then d.setQueryData ["connectors-status"] v
      else if type = "connector:values" then d.setQueryData ["connectors-values"] v
      else if type = "log:entry" then d.handleLogEntry v
      else d

/-- An event that the event source dispatches. -/
def receive (d : Dashboard) (event : List UInt8 × List UInt8) : Dashboard :=
  match Utf8.decode event.1, Utf8.decode event.2 with
  | some type, some data => d.onMessage (String.ofList type) (String.ofList data)
  | _, _ => d

end Dashboard

/-- The dashboard whose event source has read the bytes. -/
def dashboard (bytes : List UInt8) : Dashboard := (events bytes).foldl Dashboard.receive .initial

/-! ## What it is to show -/

/-- The queries that are told of events of this type. -/
def queryKeys : SseEventType → List (List String)
  | .serverStatus => [["serverStatus"], ["server-status"]]
  | .serverClients => [["server", "clients"]]
  | .connectorStatus => [["connectors-status"]]
  | .connectorValues => [["connectors-values"]]
  | .logEntry => []

/-- The data of the last event of the type. -/
def lastData (type : SseEventType) (sent : List (SseEventType × Json)) : Option Json :=
  ((sent.filter (fun e => e.1 = type)).getLast?).map Prod.snd

/-- The data of the events of the type. -/
def allData (type : SseEventType) (sent : List (SseEventType × Json)) : List Json :=
  (sent.filter (fun e => e.1 = type)).map Prod.snd

structure Dashboard.Shows (d : Dashboard) (sent : List (SseEventType × Json)) : Prop where
  cache : ∀ type, ∀ key ∈ queryKeys type, d.cache key = lastData type sent
  logs : d.logs = recent 1000 (allData .logEntry sent)

/-! ## One event -/

/-- Text in which no control character is. -/
theorem inline_of_printable {cs : List Char} (h : ∀ c ∈ cs, 0x20 ≤ c.toNat) : EventStream.Inline (Utf8.encode cs) := by
  have hno : ∀ b : UInt8, b.toNat < 0x20 → b ∉ Utf8.encode cs := by
    intro b hb hmem
    obtain ⟨c, hc, heq⟩ := (Utf8.mem_encode_ascii (by omega)).mp hmem
    have hge := h c hc
    omega
  exact ⟨hno EventStream.lf (by decide), hno EventStream.cr (by decide)⟩

theorem sentItem_inline {what : Option (SseEventType × Json)} (h : ∀ e ∈ what, e.2.Canonical) :
    (sentItem what).Inline := by
  cases what with
  | none =>
      show EventStream.Inline (ascii "heartbeat")
      decide
  | some e =>
      refine ⟨?_, inline_of_printable (Json.text_printable e.2 (h e rfl))⟩
      cases e.1 <;> decide

theorem lastData_snoc (sent : List (SseEventType × Json)) (e : SseEventType × Json) (type : SseEventType) :
    lastData type (sent ++ [e]) = if e.1 = type then some e.2 else lastData type sent := by
  rw [lastData, List.filter_append, List.filter_singleton]
  split_ifs with h <;> simp [h, lastData]

theorem allData_snoc (sent : List (SseEventType × Json)) (e : SseEventType × Json) (type : SseEventType) :
    allData type (sent ++ [e]) = allData type sent ++ if e.1 = type then [e.2] else [] := by
  rw [allData, List.filter_append, List.filter_singleton]
  split_ifs with h <;> simp [h, allData]

/-- The last entries, one more of them. -/
theorem handleLogEntry_logs {d : Dashboard} {entries : List Json} (h : d.logs = recent 1000 entries) (entry : Json) :
    (d.handleLogEntry entry).logs = recent 1000 (entries ++ [entry]) := by
  show (if (d.logs ++ [entry]).length > 1000 then _ else d.logs ++ [entry]) = _
  rw [← Recent.recent_append 1000 entries [entry], ← h]
  split_ifs with hmany
  · rfl
  · exact (Recent.recent_of_le (Nat.not_lt.mp hmany)).symm

theorem onMessage_cache (d : Dashboard) (type : SseEventType) {data : Json} (hdata : data.Canonical)
    (type' : SseEventType) {key : List String} (hkey : key ∈ queryKeys type') :
    (d.onMessage type.text data.stringify).cache key = if type = type' then some data else d.cache key := by
  rw [Dashboard.onMessage, Json.parse_stringify hdata]
  revert key
  cases type <;> cases type' <;>
    simp +decide [queryKeys, Dashboard.setQueryData, Dashboard.handleLogEntry, Function.update_apply]

theorem onMessage_logs (d : Dashboard) (type : SseEventType) {data : Json} (hdata : data.Canonical) :
    (d.onMessage type.text data.stringify).logs =
      if type = .logEntry then (d.handleLogEntry data).logs else d.logs := by
  rw [Dashboard.onMessage, Json.parse_stringify hdata]
  cases type <;> simp +decide [Dashboard.setQueryData]

theorem Dashboard.Shows.receive {d : Dashboard} {sent : List (SseEventType × Json)} (h : d.Shows sent)
    {e : SseEventType × Json} (he : e.2.Canonical) :
    (d.receive (ascii e.1.text, Utf8.encode e.2.text)).Shows (sent ++ [e]) := by
  have hmessage : d.receive (ascii e.1.text, Utf8.encode e.2.text) = d.onMessage e.1.text e.2.stringify := by
    rw [Dashboard.receive, ascii, Utf8.decode_encode, Utf8.decode_encode]
    show d.onMessage (String.ofList e.1.text.toList) (String.ofList e.2.text) = _
    rw [String.ofList_toList, Json.stringify]
  rw [hmessage]
  constructor
  · intro type key hkey
    rw [onMessage_cache d e.1 he type hkey, lastData_snoc, h.cache type key hkey]
  · rw [onMessage_logs d e.1 he, allData_snoc]
    split_ifs with htype
    · exact handleLogEntry_logs h.logs e.2
    · rw [List.append_nil]
      exact h.logs

theorem shows_events {sent : List (SseEventType × Json)} (h : ∀ e ∈ sent, e.2.Canonical) :
    ((sent.map fun e => (ascii e.1.text, Utf8.encode e.2.text)).foldl Dashboard.receive .initial).Shows sent := by
  induction sent using List.reverseRecOn with
  | nil => exact ⟨fun _ _ _ => rfl, rfl⟩
  | append_singleton sent e ih =>
      obtain ⟨hsent, he⟩ := List.forall_mem_append.mp h
      rw [List.map_append, List.map_singleton, List.foldl_append]
      exact (ih hsent).receive (he e (List.mem_singleton_self e))

/-- The data that the hub is given can be written as JSON. -/
def Serializable : HubEvent → Prop
  | .broadcast _ data _ => data.Canonical
  | .sendToClient _ _ data _ => data.Canonical
  | _ => True

theorem sent_serializable (id : String) (res : Nat) {es : List HubEvent} (hes : ∀ e ∈ es, Serializable e) :
    ∀ what ∈ (Feed.reach id res es).sent, ∀ e ∈ what, e.2.Canonical := by
  have hsend : ∀ (f : Feed) what throws, (∀ w ∈ f.sent, ∀ e ∈ w, e.2.Canonical) → (∀ e ∈ what, e.2.Canonical) →
      ∀ w ∈ (f.send what throws).sent, ∀ e ∈ w, e.2.Canonical := by
    intro f what throws hf hwhat
    rw [Feed.send]
    split_ifs
    · exact hf
    · exact List.forall_mem_append.mpr ⟨hf, List.forall_mem_singleton.mpr hwhat⟩
    · exact hf
  have hguarded : Machine.Guarded (Feed.step id res) (fun _ e => Serializable e) .initial es :=
    Machine.guarded_of_forall _ hes
  refine Machine.run_invariant (I := fun f : Feed => ∀ w ∈ f.sent, ∀ e ∈ w, e.2.Canonical) ?_ hguarded
    (fun _ hw => absurd hw List.not_mem_nil)
  intro f e he hf
  cases e with
  | addClient | removeClient =>
      rw [Feed.step]
      split_ifs <;> exact hf
  | startHeartbeat | shutdown => exact hf
  | broadcast type data throws =>
      exact hsend f _ _ hf fun e hmem => (Option.mem_some.mp hmem) ▸ he
  | sendToClient id' type data throws =>
      rw [Feed.step]
      split_ifs
      · exact hsend f _ _ hf fun e hmem => (Option.mem_some.mp hmem) ▸ he
      · exact hf
  | heartbeat throws =>
      rw [Feed.step]
      split_ifs
      · exact hsend f _ _ hf fun e hmem => absurd hmem (Option.not_mem_none e)
      · exact hf

/-- The events among what was sent. -/
theorem events_sent (sent : List (Option (SseEventType × Json))) :
    (sent.map sentItem).flatMap EventStream.Item.events =
      sent.reduceOption.map fun e => (ascii e.1.text, Utf8.encode e.2.text) := by
  induction sent with
  | nil => rfl
  | cons what sent ih =>
      rw [List.map_cons, List.flatMap_cons, ih]
      cases what with
      | none => rw [List.reduceOption_cons_of_none]; rfl
      | some e => rw [List.reduceOption_cons_of_some]; rfl

theorem canonical_sent {id : String} {res : Nat} {es : List HubEvent} (hdata : ∀ e ∈ es, Serializable e) :
    ∀ e ∈ (Feed.reach id res es).sent.reduceOption, e.2.Canonical := fun e he =>
  sent_serializable id res hdata (some e) (List.reduceOption_mem_iff.mp he) e rfl

/-- The events in what is written to the client. -/
theorem events_written {id : String} {res : Nat} {es : List HubEvent} (hown : ∀ e ∈ es, e.Own id res)
    (hdata : ∀ e ∈ es, Serializable e) : events ((SseHub.reach es).written res) =
      (Feed.reach id res es).sent.reduceOption.map fun e => (ascii e.1.text, Utf8.encode e.2.text) := by
  have hserial := sent_serializable id res hdata
  rw [(Api.hub_client hown).written, EventStream.events_stream
    (List.forall_mem_map.mpr fun what hwhat => sentItem_inline (hserial what hwhat)), events_sent]

/-- **The dashboard shows what the hub has sent.** In every run in which clients come and go, writes to any of them
throw, and heartbeats are sent in between: when the event source of a client has read some of the bytes written to
its response, the dashboard shows the first of the events sent to this client, and all of them when it has read all
bytes; and the hub still has the client if none of its own writes has thrown, it has not been removed, and the hub
has not been shut down. -/
theorem dashboard_shows {id : String} {res : Nat} {es : List HubEvent} (hown : ∀ e ∈ es, e.Own id res)
    (hdata : ∀ e ∈ es, Serializable e) (n : Nat) :
    let bytes := (SseHub.reach es).written res
    let feed := Feed.reach id res es
    (∃ k, (dashboard (bytes.take n)).Shows (feed.sent.reduceOption.take k) ∧
      (bytes.length ≤ n → feed.sent.reduceOption.length ≤ k)) ∧
    ((SseHub.reach es).clients.has id = feed.connected) := by
  intro bytes feed
  have hevents : events bytes = feed.sent.reduceOption.map fun e => (ascii e.1.text, Utf8.encode e.2.text) :=
    events_written hown hdata
  refine ⟨?_, ?_⟩
  · have hprefix : events (bytes.take n) <+: events bytes := by
      have hread := EventStream.events_prefix (bytes.take n) (bytes.drop n)
      rwa [List.take_append_drop] at hread
    have hsome : events (bytes.take n) = (feed.sent.reduceOption.take (events (bytes.take n)).length).map
        fun e => (ascii e.1.text, Utf8.encode e.2.text) := by
      rw [List.map_take, ← hevents]
      exact List.prefix_iff_eq_take.mp hprefix
    refine ⟨(events (bytes.take n)).length, ?_, fun hn => ?_⟩
    · rw [dashboard]
      nth_rewrite 1 [hsome]
      exact shows_events fun e he => canonical_sent hdata e (List.mem_of_mem_take he)
    · rw [List.take_of_length_le hn, hevents, List.length_map]
  · rw [JsMap.has, (Api.hub_client hown).clients]
    show (if feed.connected = true then some res else none).isSome = feed.connected
    cases feed.connected <;> rfl

/-- Two clients, the first of which cannot be written to any more when the status is sent. -/
def twoClients : List HubEvent :=
  [.startHeartbeat, .addClient "a" 0, .addClient "b" 1, .heartbeat (fun _ => false),
   .broadcast .serverStatus (.obj [("state", .str "running")]) (fun res => res = 0),
   .sendToClient "b" .serverClients (.arr []) false]

theorem dashboard_shows_second : (∀ e ∈ twoClients, e.Own "b" 1) ∧ (∀ e ∈ twoClients, Serializable e) ∧
    ∃ k, (dashboard ((SseHub.reach twoClients).written 1)).Shows
        ([(.serverStatus, .obj [("state", .str "running")]), (.serverClients, .arr [])].take k) ∧
      2 ≤ k ∧ (SseHub.reach twoClients).clients.has "b" = true := by
  have hown : ∀ e ∈ twoClients, e.Own "b" 1 := by
    simp +decide [twoClients, HubEvent.Own]
  have hdata : ∀ e ∈ twoClients, Serializable e := by
    simp +decide [twoClients, Serializable, Json.Canonical, Json.CanonicalFields, Json.CanonicalItems]
  obtain ⟨⟨k, hshows, hall⟩, hhas⟩ :=
    dashboard_shows hown hdata ((SseHub.reach twoClients).written 1).length
  rw [List.take_length] at hshows
  exact ⟨hown, hdata, k, hshows, hall (Nat.le_refl _), hhas⟩

end OpcuaLight.Web
