import OpcuaLight.Connector.IpcBridge
import OpcuaLight.Lib.Rows
import OpcuaLight.Runtime.Reload

/-!
# Value updates in the runtime

`apply_value_update` and `server_iteration_callback`. A line on stdin is the message that the bridge has
written. Of the library, the status that a write without a value leaves is taken as the code has it
(`Server.write`); the value that such a node shows is left as it was.

Nodes and namespaces stay, and a node shows what the updates that name it have made of its value
(`applyUpdates`).
-/

namespace OpcuaLight.Runtime

open Binary (binary64)
open Connector (Entry)
open Db (OpcUaDataType)
open Forest (addAll keys mapKey)

/-! ## `ipc_processor.c` -/

/-- What is written to the value attribute: a status without a value, or a value with status Good. -/
inductive WriteValue where
  | badNotConnected
  | good (value : Variant)
  deriving DecidableEq

/-- The data type of the variable node with the id. -/
def Server.dataType (S : Server) (id : NodeId) : Option OpcUaDataType :=
  (S.nodes.find? (fun x => x.key = id)).bind (fun x =>
    match x.data with
    | .object => none
    | .variable dataType => some dataType)

/-- What the node shows after the write. -/
def written (ua : Ua) (dataType : OpcUaDataType) (shown : DataValue) : WriteValue → DataValue
  | .badNotConnected => { shown with status := .badNotConnected }
  | .good value => if ua.writeAccepts dataType value then ⟨value, .good⟩ else shown

/-- `UA_Server_write` of the value attribute; it fails unless the node is a variable node. -/
def Server.write (ua : Ua) (S : Server) (id : NodeId) (wv : WriteValue) : Server :=
  match S.dataType id with
  | none => S
  | some dataType =>
      { S with values := Function.update S.values id (written ua dataType (S.values id) wv) }

/-- The variant for a JSON value; `none` if the update is skipped. -/
def updateVariant : Json → Option Variant
  | .bool b => some (.boolean b)
  -- Double for all numbers
  | .num q => some (.double (binary64.ofRat q))
  | .str s => some (.string (cString s))
  | _ => none

/-- What an update writes, if anything. -/
def updateValue (e : Entry) : Option WriteValue :=
  match e.update.quality with
  | .bad => some .badNotConnected
  | .good => (e.update.value.bind updateVariant).map .good

/-- The node id that an update names. -/
def updateNodeId (e : Entry) : Option NodeId := (e.nodeId.map cString).bind parseNodeIdString

/-- The body of the loop of `apply_value_update`. -/
def applyUpdate (ua : Ua) (S : Server) (e : Entry) : Server :=
  match updateNodeId e, updateValue e with
  | some id, some wv => S.write ua id wv
  | _, _ => S

def applyValueUpdate (ua : Ua) (S : Server) (line : List Entry) : Server :=
  line.foldl (applyUpdate ua) S

/-! ## `server.c` -/

/-- The runtime with what reaches it: the flag of the reload signal, the configuration file and the lines
on stdin that it has not read. -/
structure RuntimeContext where
  server : Server
  reloadRequested : Bool
  configFile : List NamespaceJson
  stdin : List (List Entry)

inductive RuntimeEvent where
  /-- A message of the bridge. -/
  | line (message : List Entry)
  | writeConfig (config : List NamespaceJson)
  | reloadSignal
  /-- An iteration that reads the given number of lines. -/
  | iteration (lines : Nat)

/-- The server after the reload of an iteration, if one is requested. -/
def reloaded (ua : Ua) (ctx : RuntimeContext) : Server :=
  if ctx.reloadRequested then handleReload ua ctx.server ctx.configFile else ctx.server

/-- `server_iteration_callback` and what the API does to the runtime. -/
def RuntimeContext.step (ua : Ua) (ctx : RuntimeContext) : RuntimeEvent → RuntimeContext
  | .line message => { ctx with stdin := ctx.stdin ++ [message] }
  | .writeConfig config => { ctx with configFile := config }
  | .reloadSignal => { ctx with reloadRequested := true }
  | .iteration lines =>
      { ctx with
        server := (ctx.stdin.take lines).foldl (applyValueUpdate ua) (reloaded ua ctx)
        reloadRequested := false
        stdin := ctx.stdin.drop lines }

/-- The runtime that has started with the configuration. -/
def RuntimeContext.start (ua : Ua) (applicationUri : String) (config : List NamespaceJson) :
    RuntimeContext :=
  ⟨serverCreate ua applicationUri config, false, config, []⟩

/-! ## What an update does to a node -/

/-- What the node shows after the update, if it is a variable node of the data type. -/
def shownAfter (ua : Ua) (id : NodeId) (dataType : OpcUaDataType) (shown : DataValue) (e : Entry) :
    DataValue :=
  if updateNodeId e = some id then (updateValue e).elim shown (written ua dataType shown) else shown

/-- The node is a variable node of the data type. -/
def Server.HasVariable (S : Server) (id : NodeId) (dataType : OpcUaDataType) : Prop :=
  ∃ x ∈ S.nodes, x.key = id ∧ x.data = .variable dataType

theorem dataType_eq_some {S : Server} (h : Forest.WF S.nodes) {id : NodeId} {dataType : OpcUaDataType}
    (hx : S.HasVariable id dataType) : S.dataType id = some dataType := by
  obtain ⟨x, hx, rfl, hdata⟩ := hx
  have hfind := (Rows.find?_eq_some (fun x : Item NodeId NodeClass => x.key) h.nodup).mpr ⟨hx, rfl⟩
  rw [Server.dataType, hfind, Option.bind_some, hdata]

@[simp] theorem write_nodes (ua : Ua) (S : Server) (id : NodeId) (wv : WriteValue) :
    (S.write ua id wv).nodes = S.nodes := by
  unfold Server.write
  split <;> rfl

@[simp] theorem write_namespaces (ua : Ua) (S : Server) (id : NodeId) (wv : WriteValue) :
    (S.write ua id wv).namespaces = S.namespaces := by
  unfold Server.write
  split <;> rfl

theorem write_values_of_ne (ua : Ua) (S : Server) {id k : NodeId} (hk : k ≠ id) (wv : WriteValue) :
    (S.write ua id wv).values k = S.values k := by
  unfold Server.write
  split
  · rfl
  · exact Function.update_of_ne hk _ _

theorem applyUpdate_nodes (ua : Ua) (S : Server) (e : Entry) :
    (applyUpdate ua S e).nodes = S.nodes ∧ (applyUpdate ua S e).namespaces = S.namespaces := by
  unfold applyUpdate
  split
  · exact ⟨write_nodes .., write_namespaces ..⟩
  · exact ⟨rfl, rfl⟩

/-- An update is seen at the node that it names and at no other. -/
theorem applyUpdate_values (ua : Ua) {S : Server} (h : Forest.WF S.nodes) {id : NodeId}
    {dataType : OpcUaDataType} (hx : S.HasVariable id dataType) (e : Entry) :
    (applyUpdate ua S e).values id = shownAfter ua id dataType (S.values id) e := by
  unfold applyUpdate shownAfter
  cases hid : updateNodeId e with
  | none => rfl
  | some k =>
      cases hv : updateValue e with
      | none =>
          split_ifs <;> rfl
      | some wv =>
          simp only [Option.some_inj, Option.elim_some]
          split_ifs with hk
          · rw [hk, Server.write, dataType_eq_some h hx]
            exact Function.update_self _ _ _
          · exact write_values_of_ne ua S (Ne.symm hk) wv

/-- A run of updates, in any number of lines. -/
theorem applyUpdates (ua : Ua) {S : Server} (h : Forest.WF S.nodes) (es : List Entry) :
    (es.foldl (applyUpdate ua) S).nodes = S.nodes ∧
      (es.foldl (applyUpdate ua) S).namespaces = S.namespaces ∧
      ∀ id dataType, S.HasVariable id dataType → (es.foldl (applyUpdate ua) S).values id =
        es.foldl (shownAfter ua id dataType) (S.values id) := by
  induction es generalizing S with
  | nil => exact ⟨rfl, rfl, fun _ _ _ => rfl⟩
  | cons e es ih =>
      obtain ⟨hnodes, hnamespaces⟩ := applyUpdate_nodes ua S e
      obtain ⟨hn, hns, hvalues⟩ := ih (S := applyUpdate ua S e) (by rw [hnodes]; exact h)
      refine ⟨hn.trans hnodes, hns.trans hnamespaces, fun id dataType hx => ?_⟩
      have hx' : (applyUpdate ua S e).HasVariable id dataType := by
        rw [Server.HasVariable, hnodes]
        exact hx
      show (es.foldl _ (applyUpdate ua S e)).values id = es.foldl _ (shownAfter ua id dataType _ e)
      rw [hvalues id dataType hx', applyUpdate_values ua h hx]

theorem foldl_applyValueUpdate (ua : Ua) (S : Server) (lines : List (List Entry)) :
    lines.foldl (applyValueUpdate ua) S = lines.flatten.foldl (applyUpdate ua) S := by
  rw [List.foldl_flatten]
  rfl

end OpcuaLight.Runtime
