import OpcuaLight.Config.Generator
import OpcuaLight.Runtime.Server

/-!
# Building and clearing the address space

`address_space_build`, `address_space_clear` and the reload, on the configuration as cJSON reads it: a
field that is missing, or no string, is `none`. `parse` reads what the generator writes.

The nodes that building adds are listed by `namespaceItems`, over the identifiers that an index makes
node ids of, and `build_nodes` says that building adds them in their order.
-/

namespace OpcuaLight.Runtime

open Config (NamespaceConfig ObjectNodeConfig NodeConfig)

/-! ## The configuration as it is read -/

structure VariableJson where
  name : Option String
  nodeId : Option String
  dataType : Option String
  parentPath : Option String
  initialValue : Option Json

inductive ObjectJson where
  | mk (name path : Option String) (children : List ObjectJson)

structure NamespaceJson where
  name : Option String
  uri : Option String
  objectNodes : List ObjectJson
  nodes : List VariableJson

def parseNode (node : NodeConfig) : VariableJson where
  name := some (cString node.name)
  nodeId := some (cString node.nodeId)
  dataType := some (cString node.dataType.name)
  parentPath := some (cString node.parentPath)
  initialValue := node.initialValue

mutual
def parseObjectNode : ObjectNodeConfig → ObjectJson
  | .mk name path children => .mk (some (cString name)) (some (cString path)) (parseObjectNodes children)

def parseObjectNodes : List ObjectNodeConfig → List ObjectJson
  | [] => []
  | o :: os => parseObjectNode o :: parseObjectNodes os
end

def parseNamespace (ns : NamespaceConfig) : NamespaceJson where
  name := some (cString ns.name)
  uri := some (cString ns.uri)
  objectNodes := parseObjectNodes ns.objectNodes
  nodes := ns.nodes.map parseNode

/-- The generator's configuration, written to the file and parsed again. -/
def parse (config : List NamespaceConfig) : List NamespaceJson := config.map parseNamespace

/-! ## `address_space_builder.c` -/

/-- A text that is neither missing nor empty. -/
def nonEmpty (s : Option String) : Option String := s.filter (fun s => s ≠ "")

mutual
/-- The body of the loop of `create_object_nodes_recursive`. -/
def createObjectNode (nsIndex : Nat) (parent : Option NodeId) (S : Server) : ObjectJson → Server
  | .mk none _ _ => S
  | .mk (some name) path children =>
      -- the path is the node id if available, otherwise the name
      let id := ⟨nsIndex, path.getD name⟩
      createObjectNodesRecursive nsIndex (some id) (S.addObjectNode id parent) children

def createObjectNodesRecursive (nsIndex : Nat) (parent : Option NodeId) (S : Server) :
    List ObjectJson → Server
  | [] => S
  | o :: os => createObjectNodesRecursive nsIndex parent (createObjectNode nsIndex parent S o) os
end

/-- The string identifier of a variable node: what follows `;s=` in a valid id, otherwise the id as it
is, and the name if there is none. -/
def variableIdentifier (nodeId : Option String) (name : String) : String :=
  match nonEmpty nodeId with
  | none => name
  | some s =>
      if (parseNodeIdString s).isSome then String.ofList ((strstr ";s=".toList s.toList).getD [])
      else s

/-- The id that a variable node is created under: the index is the registered one. -/
def variableNodeId (nsIndex : Nat) (nodeId : Option String) (name : String) : NodeId :=
  ⟨nsIndex, variableIdentifier nodeId name⟩

def createVariableNode (ua : Ua) (nsIndex : Nat) (S : Server) (node : VariableJson) : Server :=
  match node.name, node.dataType with
  | some name, some dataType =>
      S.addVariableNode ua (variableNodeId nsIndex node.nodeId name)
        ((nonEmpty node.parentPath).map (NodeId.mk nsIndex)) (getDataTypeId dataType)
        (createInitialValue dataType node.initialValue)
  | _, _ => S

/-- The root object node of a namespace, if it has a name. -/
def createNamespaceRoot (nsIndex : Nat) (S : Server) (name : Option String) : Server :=
  match name with
  | none => S
  | some name => S.addObjectNode ⟨nsIndex, name⟩ none

/-- The body of the loop of `address_space_build`. -/
def buildNamespace (ua : Ua) (S : Server) (ns : NamespaceJson) : Server :=
  match ns.uri with
  | none => S
  | some uri =>
      let (S, nsIndex) := S.addNamespace uri
      let S := createNamespaceRoot nsIndex S ns.name
      let S := createObjectNodesRecursive nsIndex (ns.name.map (NodeId.mk nsIndex)) S ns.objectNodes
      ns.nodes.foldl (createVariableNode ua nsIndex) S

def addressSpaceBuild (ua : Ua) (S : Server) (config : List NamespaceJson) : Server :=
  config.foldl (buildNamespace ua) S

/-! ## `address_space_clearer.c` -/

mutual
/-- The body of the loop of `delete_object_nodes_recursive`: what is below goes first. -/
def deleteObjectNode (nsIndex : Nat) (S : Server) : ObjectJson → Server
  | .mk _ path children =>
      let S := deleteObjectNodesRecursive nsIndex S children
      match path with
      | none => S
      | some path => S.deleteNode ⟨nsIndex, path⟩

def deleteObjectNodesRecursive (nsIndex : Nat) (S : Server) : List ObjectJson → Server
  | [] => S
  | o :: os => deleteObjectNodesRecursive nsIndex (deleteObjectNode nsIndex S o) os
end

/-- The id is the one in the configuration, with the index that stands there. -/
def deleteVariableNode (S : Server) (node : VariableJson) : Server :=
  match node.nodeId.bind parseNodeIdString with
  | none => S
  | some id => S.deleteNode id

def clearNamespace (S : Server) (ns : NamespaceJson) : Server :=
  match ns.uri.bind S.getNamespaceByName with
  | none => S
  | some nsIndex =>
      let S := ns.nodes.foldl deleteVariableNode S
      let S := deleteObjectNodesRecursive nsIndex S ns.objectNodes
      match ns.name with
      | none => S
      | some name => S.deleteNode ⟨nsIndex, name⟩

def addressSpaceClear (S : Server) (config : List NamespaceJson) : Server :=
  config.foldl clearNamespace S

/-! ## `server.c` -/

/-- `handle_reload`, with the configuration of a file that it accepts. -/
def handleReload (ua : Ua) (S : Server) (config : List NamespaceJson) : Server :=
  addressSpaceBuild ua (addressSpaceClear S config) config

/-- The address space of `server_create`. -/
def serverCreate (ua : Ua) (applicationUri : String) (config : List NamespaceJson) : Server :=
  addressSpaceBuild ua (Server.new applicationUri) config

/-- The server that has started with the first configuration and reloaded each later one, all of them accepted. -/
def serve (ua : Ua) (applicationUri : String) (first : List NamespaceJson)
    (later : List (List NamespaceJson)) : Server :=
  later.foldl (handleReload ua) (serverCreate ua applicationUri first)

end OpcuaLight.Runtime
