import OpcuaLight.Lib.Js

/-!
# Connector types

The protocol-agnostic records of `connectors/core/types.ts`, and the four built-in protocols.
-/

namespace OpcuaLight.Connector

/-- The built-in connectors, by the directory that holds them. -/
inductive Protocol where
  | s7
  | modbusTcp
  | ethernetIp
  | pccc
  deriving DecidableEq, Repr

/-- `getType()`. -/
def Protocol.type : Protocol → String
  | .s7 => "s7"
  | .modbusTcp => "modbus-tcp"
  | .ethernetIp => "ethernet-ip"
  | .pccc => "pccc"

structure ConnectionConfig where
  id : String
  type : String
  name : String
  params : Json
  pollingIntervalMs : Int
  reconnectIntervalMs : Int
  enabled : Bool
  createdAt : String
  deriving DecidableEq, Inhabited

structure Mapping where
  id : String
  connectionId : String
  nodeId : Option String
  deviceAddress : String
  description : Option String
  createdAt : String
  deriving DecidableEq, Inhabited

inductive Quality where
  | good
  | bad
  deriving DecidableEq, Repr, Inhabited

/-- A value update, with `none` for an `undefined` value. -/
structure ValueUpdate where
  nodeId : String
  value : Option Json
  quality : Quality
  timestamp : Nat
  deriving DecidableEq, Inhabited

structure CurrentValue where
  nodeId : Option String
  deviceAddress : String
  connectionId : String
  value : Option Json
  quality : Quality
  timestamp : Nat
  deriving DecidableEq, Inhabited

inductive ConnectionState where
  | connected
  | disconnected
  | error
  deriving DecidableEq, Repr, Inhabited

/-- `ConnectionStatus`; a field that the object does not have is `none`. -/
structure ConnectionStatus where
  connectionId : String
  state : ConnectionState
  lastPollAt : Option Nat
  errorMessage : Option String
  deriving DecidableEq, Inhabited

/-- A thrown or rejected value: a string, or an error with its class as the `ethernet-ip` library
distinguishes them and its message (empty when it has none). -/
inductive ErrorClass where
  | connection
  | session
  | timeout
  | cip
  | other
  deriving DecidableEq, Repr

inductive JsError where
  | text (s : String)
  | error (cls : ErrorClass) (message : String)
  deriving DecidableEq, Repr

/-- `(err as Error)?.message`, empty when there is none. -/
def JsError.message : JsError → String
  | .text _ => ""
  | .error _ m => m

/-- `if (err)`. -/
def JsError.truthy : JsError → Bool
  | .text s => s ≠ ""
  | .error _ _ => true

end OpcuaLight.Connector
