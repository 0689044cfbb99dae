import OpcuaLight.Db.Schema
import OpcuaLight.Lib.Binary
import OpcuaLight.Lib.Forest
import OpcuaLight.Runtime.NodeId

/-!
# The server of the runtime

What the runtime uses of open62541: the namespace table, the nodes with string ids below the Objects
folder, and the value of each variable node. An index of the table is a natural number here, and names
and descriptions of nodes are left out. What the library accepts as a value of a data type is a
parameter (`Ua`).
-/

namespace OpcuaLight.Runtime

open Binary (Datum binary64 truncate)
open Db

/-! ## Values -/

/-- A scalar with its type. An integer is `none` where C leaves the conversion of the number undefined,
and a `float` is the number before it is rounded to single precision. -/
inductive Variant where
  | boolean (b : Bool)
  | string (s : String)
  | integer (type : OpcUaDataType) (n : Option Int)
  | float (x : Datum)
  | double (x : Datum)
  deriving DecidableEq

inductive StatusCode where
  | good
  | badNotConnected
  deriving DecidableEq, Repr, Inhabited

structure DataValue where
  value : Variant
  status : StatusCode
  deriving DecidableEq

/-- What open62541 lets pass: a value in a new variable node, and in a write to one. -/
structure Ua where
  addAccepts : OpcUaDataType → Variant → Bool
  writeAccepts : OpcUaDataType → Variant → Bool

/-! ## The address space -/

inductive NodeClass where
  | object
  | variable (dataType : OpcUaDataType)
  deriving DecidableEq, Repr

/-- A node without a parent of its own is below the Objects folder. -/
structure Server where
  namespaces : List String
  nodes : List (Item NodeId NodeClass)
  values : NodeId → DataValue

namespace Server

/-- `UA_Server_new`, with the namespaces of OPC UA and of the application. -/
def new (applicationUri : String) : Server where
  namespaces := ["http://opcfoundation.org/UA/", applicationUri]
  nodes := []
  values := fun _ => ⟨.double (.finite 0), .good⟩

/-- `UA_Server_addNamespace`: the index of a known URI, otherwise the next index. -/
def addNamespace (S : Server) (uri : String) : Server × Nat :=
  if uri ∈ S.namespaces then (S, S.namespaces.idxOf uri)
  else ({ S with namespaces := S.namespaces ++ [uri] }, S.namespaces.length)

/-- `UA_Server_getNamespaceByName`. -/
def getNamespaceByName (S : Server) (uri : String) : Option Nat :=
  if uri ∈ S.namespaces then some (S.namespaces.idxOf uri) else none

def addObjectNode (S : Server) (id : NodeId) (parent : Option NodeId) : Server :=
  { S with nodes := Forest.add S.nodes ⟨id, parent, .object⟩ }

/-- `UA_Server_addVariableNode`: the node gets its value if it is added. -/
def addVariableNode (ua : Ua) (S : Server) (id : NodeId) (parent : Option NodeId)
    (dataType : OpcUaDataType) (value : Variant) : Server :=
  if ua.addAccepts dataType value then
    let nodes := Forest.add S.nodes ⟨id, parent, .variable dataType⟩
    { S with
      nodes := nodes
      values := if id ∉ Forest.keys S.nodes ∧ id ∈ Forest.keys nodes then
        Function.update S.values id ⟨value, .good⟩ else S.values }
  else S

/-- `UA_Server_deleteNode`, with what is below the node. -/
def deleteNode (S : Server) (id : NodeId) : Server := { S with nodes := Forest.delete S.nodes id }

@[simp] theorem addNamespace_nodes (S : Server) (uri : String) : (S.addNamespace uri).1.nodes = S.nodes := by
  unfold addNamespace
  split <;> rfl

@[simp] theorem addNamespace_values (S : Server) (uri : String) :
    (S.addNamespace uri).1.values = S.values := by
  unfold addNamespace
  split <;> rfl

@[simp] theorem addObjectNode_namespaces (S : Server) (id : NodeId) (parent : Option NodeId) :
    (S.addObjectNode id parent).namespaces = S.namespaces := rfl

@[simp] theorem addVariableNode_namespaces (ua : Ua) (S : Server) (id : NodeId) (parent : Option NodeId)
    (dataType : OpcUaDataType) (value : Variant) :
    (S.addVariableNode ua id parent dataType value).namespaces = S.namespaces := by
  unfold addVariableNode
  split <;> rfl

@[simp] theorem deleteNode_namespaces (S : Server) (id : NodeId) :
    (S.deleteNode id).namespaces = S.namespaces := rfl

end Server

/-! ## Data types and initial values -/

/-- `DATA_TYPE_TABLE`: the type ids of a row are those of the data type of its name. -/
def dataTypeTable : List OpcUaDataType :=
  [.boolean, .int16, .int32, .int64, .uint16, .uint32, .uint64, .float, .double, .string, .dateTime,
    .byteString]

/-- `get_data_type_id`; unknown types count as `Double`. -/
def getDataTypeId (typeStr : String) : OpcUaDataType :=
  (dataTypeTable.find? (fun d => d.name = typeStr)).getD .double

/-- The range of an integer type. -/
def integerRange : OpcUaDataType → Option (Int × Int)
  | .int16 => some (-2 ^ 15, 2 ^ 15 - 1)
  | .int32 => some (-2 ^ 31, 2 ^ 31 - 1)
  | .int64 => some (-2 ^ 63, 2 ^ 63 - 1)
  | .uint16 => some (0, 2 ^ 16 - 1)
  | .uint32 => some (0, 2 ^ 32 - 1)
  | .uint64 => some (0, 2 ^ 64 - 1)
  | _ => none

/-- The conversion of a `double` to an integer: the fraction is dropped, and what does not fit is
undefined. -/
def castInteger (range : Int × Int) : Datum → Option Int
  | .finite x => if range.1 ≤ truncate x ∧ truncate x ≤ range.2 then some (truncate x) else none
  | _ => none

/-- `cJSON_GetNumberValue`: the `double` that a literal is read as, or the NaN of a value that is no
number. -/
def getNumberValue : Json → Datum
  | .num q => binary64.ofRat q
  | _ => .nan

/-- `cJSON_GetStringValue`. -/
def getStringValue : Json → Option String
  | .str s => some (cString s)
  | _ => none

/-- The value that stands for none. -/
def defaultValue (dataType : String) : Variant :=
  let type := getDataTypeId dataType
  if dataType = "Boolean" then .boolean false
  else if dataType = "String" then .string ""
  else if (integerRange type).isSome then .integer type (some 0)
  else if type = .float then .float (.finite 0)
  else .double (.finite 0)

/-- `create_initial_value`. -/
def createInitialValue (dataType : String) (valueJson : Option Json) : Variant :=
  match valueJson with
  | none | some .null => defaultValue dataType
  | some v =>
      let type := getDataTypeId dataType
      if dataType = "Boolean" then .boolean (decide (v = .bool true))
      else if dataType = "String" then .string ((getStringValue v).getD "")
      else if type = .float then .float (getNumberValue v)
      else match integerRange type with
        | some range => .integer type (castInteger range (getNumberValue v))
        -- DateTime and ByteString are numbers here too
        | none => .double (getNumberValue v)

end OpcuaLight.Runtime
