import OpcuaLight.Lib.EventStream
import OpcuaLight.Lib.JsonPretty
import OpcuaLight.Lib.MapLoop

/-!
# The SSE hub

`SseHub` with the bytes that are written to each response, where writing to any of them may throw at any time. What
one client has been written is what a hub would write that had this client alone (`hub_client`).
-/

namespace OpcuaLight.Api

open EventStream (ascii Item stream)

inductive SseEventType where
  | serverStatus
  | serverClients
  | logEntry
  | connectorStatus
  | connectorValues
  deriving DecidableEq

def SseEventType.text : SseEventType → String
  | .serverStatus => "server:status"
  | .serverClients => "server:clients"
  | .logEntry => "log:entry"
  | .connectorStatus => "connector:status"
  | .connectorValues => "connector:values"

def formatEvent (eventType : SseEventType) (data : Json) : List UInt8 :=
  ascii ("event: " ++ eventType.text ++ "\ndata: " ++ data.stringify ++ "\n\n")

def heartbeatComment : List UInt8 := ascii ":heartbeat\n\n"

/-- The responses are numbered. -/
structure SseHub where
  clients : JsMap String Nat
  heartbeatInterval : Bool
  written : Nat → List UInt8
  ended : Nat → Bool

namespace SseHub

def initial : SseHub := ⟨∅, false, fun _ => [], fun _ => false⟩

def addClient (h : SseHub) (id : String) (res : Nat) : SseHub := { h with clients := h.clients.set id res }

def removeClient (h : SseHub) (id : String) : SseHub :=
  if h.clients.has id then { h with clients := h.clients.delete id } else h

/-- A write, after which the client is removed if it throws. -/
def write (payload : List UInt8) (h : SseHub) (id : String) (res : Nat) (throws : Bool) : SseHub :=
  if throws then h.removeClient id
  else { h with written := Function.update h.written res (h.written res ++ payload) }

/-- The loop of `broadcast` and of `sendHeartbeat`; `throws` are the responses that it cannot be written to. -/
def writeAll (payload : List UInt8) (throws : Nat → Bool) (h : SseHub) : SseHub :=
  JsMap.forOf SseHub.clients (fun h id res => h.write payload id res (throws res)) h

def broadcast (h : SseHub) (eventType : SseEventType) (data : Json) (throws : Nat → Bool) : SseHub :=
  h.writeAll (formatEvent eventType data) throws

def sendToClient (h : SseHub) (id : String) (eventType : SseEventType) (data : Json) (throws : Bool) : SseHub :=
  match h.clients.get? id with
  | none => h
  | some res => h.write (formatEvent eventType data) id res throws

def startHeartbeat (h : SseHub) : SseHub := { h with heartbeatInterval := true }

def sendHeartbeat (h : SseHub) (throws : Nat → Bool) : SseHub := h.writeAll heartbeatComment throws

/-- The response is ended, and the client deleted even if that throws. -/
def endClient (h : SseHub) (id : String) (res : Nat) (throws : Bool) : SseHub :=
  { h with
    ended := if throws then h.ended else Function.update h.ended res true
    clients := h.clients.delete id }

def shutdown (h : SseHub) (throws : Nat → Bool) : SseHub :=
  JsMap.forOf SseHub.clients (fun h id res => h.endClient id res (throws res)) { h with heartbeatInterval := false }

end SseHub

inductive HubEvent where
  | addClient (id : String) (res : Nat)
  | removeClient (id : String)
  | broadcast (eventType : SseEventType) (data : Json) (throws : Nat → Bool)
  | sendToClient (id : String) (eventType : SseEventType) (data : Json) (throws : Bool)
  | startHeartbeat
  /-- The interval runs out. -/
  | heartbeat (throws : Nat → Bool)
  | shutdown (throws : Nat → Bool)

def SseHub.step (h : SseHub) : HubEvent → SseHub
  | .addClient id res => h.addClient id res
  | .removeClient id => h.removeClient id
  | .broadcast eventType data throws => h.broadcast eventType data throws
  | .sendToClient id eventType data throws => h.sendToClient id eventType data throws
  | .startHeartbeat => h.startHeartbeat
  | .heartbeat throws => if h.heartbeatInterval then h.sendHeartbeat throws else h
  | .shutdown throws => h.shutdown throws

/-! ## One client -/

/-- What one client gets: events with their data, and heartbeats. -/
structure Feed where
  connected : Bool
  heartbeat : Bool
  sent : List (Option (SseEventType × Json))
  ended : Bool

namespace Feed

def initial : Feed := ⟨false, false, [], false⟩

/-- Sent, if the client is connected; a write that throws disconnects it. -/
def send (f : Feed) (what : Option (SseEventType × Json)) (throws : Bool) : Feed :=
  if f.connected then if throws then { f with connected := false } else { f with sent := f.sent ++ [what] }
  else f

/-- What happens to the client with this id and this response. -/
def step (id : String) (res : Nat) (f : Feed) : HubEvent → Feed
  | .addClient id' _ => if id' = id then { f with connected := true } else f
  | .removeClient id' => if id' = id then { f with connected := false } else f
  | .broadcast eventType data throws => f.send (some (eventType, data)) (throws res)
  | .sendToClient id' eventType data throws => if id' = id then f.send (some (eventType, data)) throws else f
  | .startHeartbeat => { f with heartbeat := true }
  | .heartbeat throws => if f.heartbeat then f.send none (throws res) else f
  | .shutdown throws =>
      { f with heartbeat := false, connected := false, ended := f.ended || (f.connected && !throws res) }

end Feed

/-- The item of the stream. -/
def sentItem : Option (SseEventType × Json) → Item
  | some (eventType, data) => .event (ascii eventType.text) (Utf8.encode data.text)
  | none => .comment (ascii "heartbeat")

theorem formatEvent_eq (eventType : SseEventType) (data : Json) :
    formatEvent eventType data = (sentItem (some (eventType, data))).bytes := by
  have hline : "\ndata: ".toList = "\n".toList ++ "data: ".toList := rfl
  have hend : "\n\n".toList = "\n".toList ++ "\n".toList := rfl
  have hlf : Utf8.encode "\n".toList = [EventStream.lf] := by decide
  simp only [formatEvent, sentItem, Item.bytes, ascii, Json.stringify, String.toList_append, String.toList_ofList,
    Utf8.encode_append, hline, hend, hlf, List.append_assoc]

theorem heartbeatComment_eq : heartbeatComment = (sentItem none).bytes := by decide

/-- The hub has the client with this id and this response as the feed has it. -/
structure Feeds (id : String) (res : Nat) (h : SseHub) (f : Feed) : Prop where
  clients : h.clients.get? id = if f.connected then some res else none
  others : ∀ id' res', h.clients.get? id' = some res' → id' ≠ id → res' ≠ res
  heartbeat : h.heartbeatInterval = f.heartbeat
  written : h.written res = stream (f.sent.map sentItem)
  ended : h.ended res = f.ended

section Client
variable {id : String} {res : Nat} {h : SseHub} {f : Feed}

theorem Feeds.delete (hf : Feeds id res h f) (id' : String) :
    Feeds id res { h with clients := h.clients.delete id' }
      (if id' = id then { f with connected := false } else f) where
  clients := by
    show (h.clients.delete id').get? id = _
    by_cases hid : id' = id
    · rw [if_pos hid, hid, JsMap.get?_delete_self]
      rfl
    · rw [if_neg hid, JsMap.get?_delete_of_ne _ (Ne.symm hid), hf.clients]
  others id'' res'' hget := by
    rw [JsMap.get?_delete] at hget
    split_ifs at hget
    exact hf.others id'' res'' hget
  heartbeat := by split_ifs <;> exact hf.heartbeat
  written := by split_ifs <;> exact hf.written
  ended := by split_ifs <;> exact hf.ended

theorem Feeds.removeClient (hf : Feeds id res h f) (id' : String) :
    Feeds id res (h.removeClient id') (if id' = id then { f with connected := false } else f) := by
  rw [SseHub.removeClient]
  split_ifs with hhas hid hid
  · have hdone := hf.delete id'
    rwa [if_pos hid] at hdone
  · have hdone := hf.delete id'
    rwa [if_neg hid] at hdone
  · -- it was not connected
    have hnone : f.connected = false := by
      by_contra hconnected
      rw [Bool.not_eq_false] at hconnected
      have hget := hf.clients
      rw [hconnected, if_pos rfl, ← hid] at hget
      exact hhas (JsMap.has_eq_true_iff.mpr ⟨res, hget⟩)
    have hsame : { f with connected := false } = f := by rw [← hnone]
    rw [hsame]
    exact hf
  · exact hf

theorem Feeds.write_self (hf : Feeds id res h f) (hconnected : f.connected = true) {payload : List UInt8}
    {what : Option (SseEventType × Json)} (hpayload : payload = (sentItem what).bytes) (throws : Bool) :
    Feeds id res (h.write payload id res throws) (f.send what throws) := by
  rw [SseHub.write, Feed.send, if_pos hconnected]
  cases throws with
  | true =>
      have hdone := hf.removeClient id
      rwa [if_pos rfl] at hdone
  | false =>
      refine ⟨hf.clients, hf.others, hf.heartbeat, ?_, hf.ended⟩
      show Function.update h.written res (h.written res ++ payload) res = stream ((f.sent ++ [what]).map sentItem)
      rw [Function.update_self, hf.written, hpayload, List.map_append, stream, stream, List.flatMap_append,
        List.map_singleton, List.flatMap_singleton]

theorem Feeds.write_other (hf : Feeds id res h f) {id' : String} {res' : Nat} (hid : id' ≠ id) (hres : res' ≠ res)
    (payload : List UInt8) (throws : Bool) : Feeds id res (h.write payload id' res' throws) f := by
  rw [SseHub.write]
  cases throws with
  | true =>
      have hdone := hf.removeClient id'
      rwa [if_neg hid] at hdone
  | false =>
      refine ⟨hf.clients, hf.others, hf.heartbeat, ?_, hf.ended⟩
      show Function.update h.written res' _ res = _
      rw [Function.update_of_ne (Ne.symm hres), hf.written]

/-- A loop over clients does to this one what it does to its entry. -/
theorem Feeds.foldl {body : SseHub → String → Nat → SseHub} {after : Feed → Feed}
    (hself : ∀ h f, Feeds id res h f → f.connected = true → Feeds id res (body h id res) (after f))
    (hother : ∀ h f id' res', Feeds id res h f → id' ≠ id → res' ≠ res → Feeds id res (body h id' res') f)
    {l : List (String × Nat)} (hl : (l.map Prod.fst).Nodup) (hres : ∀ e ∈ l, e.1 = id ↔ e.2 = res) :
    ∀ {h : SseHub} {f : Feed}, Feeds id res h f → (id ∈ l.map Prod.fst → f.connected = true) →
      Feeds id res (l.foldl (fun h e => body h e.1 e.2) h) (if id ∈ l.map Prod.fst then after f else f) := by
  induction l with
  | nil => exact fun hf _ => hf
  | cons e l ih =>
      intro h f hf hconnected
      obtain ⟨hnew, hrest⟩ := List.nodup_cons.mp (List.map_cons ▸ hl)
      obtain ⟨he, hres⟩ := List.forall_mem_cons.mp hres
      rw [List.foldl_cons]
      by_cases hid : e.1 = id
      · have hlast : id ∉ l.map Prod.fst := hid ▸ hnew
        have hin : id ∈ (e :: l).map Prod.fst := by
          rw [List.map_cons, hid]
          exact List.mem_cons_self
        rw [if_pos hin, hid, he.mp hid]
        have hdone := ih hrest hres (hself h f hf (hconnected hin)) (fun hmem => absurd hmem hlast)
        rw [if_neg hlast] at hdone
        exact hdone
      · have hin : id ∈ (e :: l).map Prod.fst ↔ id ∈ l.map Prod.fst := by
          rw [List.map_cons, List.mem_cons]
          exact or_iff_right (Ne.symm hid)
        simp only [hin] at hconnected ⊢
        exact ih hrest hres (hother h f e.1 e.2 hf hid (fun h => hid (he.mpr h))) hconnected

theorem Feeds.forOf {B : SseHub → String → Nat → SseHub} {A : Feed → Feed}
    (hself : ∀ h f, Feeds id res h f → f.connected = true → Feeds id res (B h id res) (A f))
    (hother : ∀ h f id' res', Feeds id res h f → id' ≠ id → res' ≠ res → Feeds id res (B h id' res') f)
    (hbody : ∀ h id res, (B h id res).clients = h.clients ∨ (B h id res).clients = h.clients.delete id)
    (hf : Feeds id res h f) :
    Feeds id res (JsMap.forOf SseHub.clients B h) (if f.connected then A f else f) := by
  rw [JsMap.forOf_eq_foldl hbody]
  have hnodup : (h.clients.entries.map Prod.fst).Nodup := by
    rw [JsMap.entries, List.map_map]
    exact h.clients.nodup
  have hentry : ∀ e ∈ h.clients.entries, e.1 = id ↔ e.2 = res := by
    intro e he
    have hget := JsMap.get?_eq_some_iff.mpr he
    constructor
    · intro hid
      rw [hid, hf.clients] at hget
      split_ifs at hget
      exact (Option.some.inj hget).symm
    · exact fun hres => by_contra fun hid => hf.others e.1 e.2 hget hid hres
  have hconnected : id ∈ h.clients.entries.map Prod.fst ↔ f.connected = true := by
    have hkeys : id ∈ h.clients.entries.map Prod.fst ↔ ∃ v, h.clients.get? id = some v := by
      rw [List.mem_map]
      constructor
      · rintro ⟨e, he, rfl⟩
        exact ⟨e.2, JsMap.get?_eq_some_iff.mpr he⟩
      · rintro ⟨v, hv⟩
        exact ⟨(id, v), JsMap.get?_eq_some_iff.mp hv, rfl⟩
    rw [hkeys, hf.clients]
    cases f.connected <;> simp
  have hdone := Feeds.foldl hself hother hnodup hentry hf hconnected.mp
  simp only [hconnected] at hdone
  exact hdone

theorem write_clients (payload : List UInt8) (h : SseHub) (id : String) (res : Nat) (throws : Bool) :
    (h.write payload id res throws).clients = h.clients ∨
      (h.write payload id res throws).clients = h.clients.delete id := by
  rw [SseHub.write, SseHub.removeClient]
  split_ifs
  · exact Or.inr rfl
  · exact Or.inl rfl
  · exact Or.inl rfl

theorem Feeds.writeAll (hf : Feeds id res h f) {payload : List UInt8} {what : Option (SseEventType × Json)}
    (hpayload : payload = (sentItem what).bytes) (throws : Nat → Bool) :
    Feeds id res (h.writeAll payload throws) (f.send what (throws res)) := by
  have hdone : Feeds id res (h.writeAll payload throws) (if f.connected then f.send what (throws res) else f) :=
    hf.forOf (A := fun f => f.send what (throws res))
      (fun h f hf hconnected => hf.write_self hconnected hpayload (throws res))
      (fun h f id' res' hf hid hres => hf.write_other hid hres payload (throws res'))
      (fun h id res => write_clients payload h id res (throws res))
  have hsend : (if f.connected then f.send what (throws res) else f) = f.send what (throws res) := by
    rw [Feed.send]
    split_ifs <;> rfl
  rw [hsend] at hdone
  exact hdone

theorem Feeds.shutdown (hf : Feeds id res h f) (throws : Nat → Bool) :
    Feeds id res (h.shutdown throws)
      { f with heartbeat := false, connected := false, ended := f.ended || (f.connected && !throws res) } := by
  have hstart : Feeds id res { h with heartbeatInterval := false } { f with heartbeat := false } :=
    ⟨hf.clients, hf.others, rfl, hf.written, hf.ended⟩
  have hdone := hstart.forOf (A := fun f => { f with connected := false, ended := f.ended || !throws res })
    (B := fun h id res => h.endClient id res (throws res))
    (fun h f hf _ => by
      obtain ⟨hclients, hothers, hheartbeat, hwritten, -⟩ := if_pos rfl ▸ hf.delete id
      refine ⟨hclients, hothers, hheartbeat, hwritten, ?_⟩
      show (if throws res = true then h.ended else Function.update h.ended res true) res = (f.ended || !throws res)
      cases throws res with
      | true => simpa using hf.ended
      | false => simp)
    (fun h f id' res' hf hid hres => by
      have hdelete := hf.delete id'
      rw [if_neg hid] at hdelete
      refine ⟨hdelete.clients, hdelete.others, hdelete.heartbeat, hdelete.written, ?_⟩
      show (if throws res' = true then h.ended else Function.update h.ended res' true) res = f.ended
      rw [← hf.ended]
      split_ifs
      · rfl
      · exact Function.update_of_ne (Ne.symm hres) _ _)
    (fun _ _ _ => Or.inr rfl)
  have hresult : (if f.connected then { f with heartbeat := false, connected := false, ended := f.ended || !throws res }
      else { f with heartbeat := false }) =
        { f with heartbeat := false, connected := false, ended := f.ended || (f.connected && !throws res) } := by
    cases f.connected <;> simp
  rw [← hresult]
  exact hdone

/-- The id and the response belong together: the id is a random UUID, and the response that of one request. -/
def HubEvent.Own (id : String) (res : Nat) : HubEvent → Prop
  | .addClient id' res' => id' = id ↔ res' = res
  | _ => True

theorem Feeds.step (hf : Feeds id res h f) {e : HubEvent} (he : e.Own id res) :
    Feeds id res (h.step e) (f.step id res e) := by
  cases e with
  | addClient id' res' =>
      rw [SseHub.step, Feed.step]
      have hothers : ∀ id'' res'', (h.addClient id' res').clients.get? id'' = some res'' → id'' ≠ id → res'' ≠ res := by
        intro id'' res'' hget hid
        rw [SseHub.addClient, JsMap.get?_set] at hget
        split_ifs at hget with hsame
        · rw [← Option.some.inj hget]
          exact fun hres => hid (hsame.trans (he.mpr hres))
        · exact hf.others id'' res'' hget hid
      by_cases hid : id' = id
      · rw [if_pos hid]
        refine ⟨?_, hothers, hf.heartbeat, hf.written, hf.ended⟩
        rw [SseHub.addClient, hid, he.mp hid]
        exact JsMap.get?_set_self _ _ _
      · rw [if_neg hid]
        refine ⟨?_, hothers, hf.heartbeat, hf.written, hf.ended⟩
        rw [SseHub.addClient, ← hf.clients]
        exact JsMap.get?_set_of_ne _ _ (Ne.symm hid)
  | removeClient id' => exact hf.removeClient id'
  | broadcast eventType data throws => exact hf.writeAll (formatEvent_eq eventType data) throws
  | sendToClient id' eventType data throws =>
      rw [SseHub.step, SseHub.sendToClient, Feed.step]
      by_cases hid : id' = id
      · rw [if_pos hid, hid, hf.clients]
        cases hc : f.connected with
        | true => exact hf.write_self hc (formatEvent_eq eventType data) throws
        | false =>
            rw [Feed.send, hc]
            exact hf
      · rw [if_neg hid]
        split
        · exact hf
        · rename_i res' hget
          exact hf.write_other hid (hf.others id' res' hget hid) _ throws
  | startHeartbeat => exact ⟨hf.clients, hf.others, rfl, hf.written, hf.ended⟩
  | heartbeat throws =>
      rw [SseHub.step, Feed.step, hf.heartbeat]
      split_ifs
      · exact hf.writeAll heartbeatComment_eq throws
      · exact hf
  | shutdown throws => exact hf.shutdown throws

end Client

/-- The state after a list of events. -/
def SseHub.reach (es : List HubEvent) : SseHub := Machine.run SseHub.step .initial es

/-- What the client has got after a list of events. -/
def Feed.reach (id : String) (res : Nat) (es : List HubEvent) : Feed := Machine.run (Feed.step id res) .initial es

theorem hub_client {id : String} {res : Nat} {es : List HubEvent} (hes : ∀ e ∈ es, e.Own id res) :
    Feeds id res (SseHub.reach es) (Feed.reach id res es) := by
  suffices h : ∀ {h : SseHub} {f : Feed}, Feeds id res h f →
      Feeds id res (Machine.run SseHub.step h es) (Machine.run (Feed.step id res) f es) from
    h ⟨rfl, fun _ _ hget => absurd hget.symm (Option.some_ne_none _), rfl, rfl, rfl⟩
  induction es with
  | nil => exact fun hf => hf
  | cons e es ih =>
      intro h f hf
      obtain ⟨he, hrest⟩ := List.forall_mem_cons.mp hes
      exact ih hrest (hf.step he)

end OpcuaLight.Api
