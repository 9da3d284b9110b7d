import ShaderGraph.Files
import ShaderGraph.Library

/-!
# Node instances

A graph file lists node instances. Each names its type and the inputs of other
nodes that its outputs are copied to. A node of the external type has no
library type; its binding names the shader variable that it brings in.
-/

namespace ShaderGraph

open ShaderGraph.Json ShaderGraph.Template

/-- The edge target that stands for no consumer. -/
def sinkMarker : String := "_"

/-- The shader variable of an external node. -/
structure Binding where
  /-- The storage qualifier, such as `uniform`. -/
  qualifier : String
  dataType : String
  name : String
deriving DecidableEq, Repr

/-- Where an edge leads. -/
inductive Target where
  | node (id : String)
  /-- The value is discarded. -/
  | sink
deriving DecidableEq, Repr

/-- The target that a text names. -/
def Target.ofText (s : String) : Target := if s = sinkMarker then .sink else .node s

/-- The text that names a target. -/
def Target.text : Target → String
  | .node id => id
  | .sink => sinkMarker

/-- An outgoing connection of a node. -/
structure Edge where
  target : Target
  /-- The input of the target; a sink has none. -/
  input : String
  /-- The output or expression that is copied. Without one it is the only output
  of the node's type. -/
  output : Option String
deriving DecidableEq, Repr

/-- The id of the target, unless it is the sink. -/
def Edge.target? (e : Edge) : Option String :=
  match e.target with
  | .node id => some id
  | .sink => none

/-- A node instance. -/
structure Node where
  id : String
  /-- The tag of the node's type. -/
  tag : String
  /-- Defines of this node, over those of its type. -/
  defines : Defines
  binding : Option Binding
  edges : List Edge
deriving DecidableEq

namespace Node

/-- A node of the given type without edges and defines. -/
def ofType (id tag : String) : Node := ⟨id, tag, .empty, none, []⟩

/-- An external node that brings in a shader variable. -/
def ofBinding (id : String) (binding : Binding) : Node :=
  { ofType id externalTag with binding := some binding }

/-- Add an edge. -/
def addEdge (n : Node) (target input : String) (output : Option String) : Node :=
  { n with edges := n.edges ++ [⟨.ofText target, input, output⟩] }

/-- Add a define. -/
def define (n : Node) (name : String) (value : Value) : Node :=
  { n with defines := n.defines.insert name value }

/-- Whether the node is of the external type. -/
def isExternal (n : Node) : Bool := n.tag == externalTag

/-- The ids of the nodes that this node feeds. -/
def successors (n : Node) : List String := n.edges.filterMap Edge.target?

end Node

/-! ## Reading -/

/-- The shape of a binding in a file. -/
def Binding.schema : Schema Binding where
  title := "struct ExternalBinding"
  blank := ⟨"", "", ""⟩
  fields := [
    .of "inputType" true string (fun b v => { b with qualifier := v }),
    .of "dataType" true string (fun b v => { b with dataType := v }),
    .of "name" true string (fun b v => { b with name := v })]

/-- The shape of an edge in a file. -/
def Edge.schema : Schema Edge where
  title := "struct OutputEdge"
  blank := ⟨.sink, "", none⟩
  fields := [
    .of "to" true string (fun e v => { e with target := .ofText v }),
    .of "input" false string (fun e v => { e with input := v }),
    .of "output" false (optional string) (fun e v => { e with output := v })]

/-- The shape of a node in a file. -/
def Node.schema : Schema Node where
  title := "struct NodeInstance"
  blank := .ofType "" ""
  fields := [
    .of "id" true string (fun n v => { n with id := v }),
    .of "type" true string (fun n v => { n with tag := v }),
    .of "defines" false (dict readValue) (fun n v => { n with defines := v }),
    .of "external" false (optional (record Binding.schema)) (fun n v => { n with binding := v }),
    .of "outputsTo" false (list (record Edge.schema)) (fun n v => { n with edges := v })]

/-- The node that a text spells. -/
def Node.parse (text : String) : Except ReadError Node := readDocument (record Node.schema) text

/-- The nodes in the text of a graph file. -/
def parseNodes (text : String) : Except ReadError (List Node) :=
  readDocument (list (record Node.schema)) text

/-- The nodes in a graph text from the given file. -/
def loadNodes (text origin : String) : Except SourceError (List Node) :=
  match parseNodes text with
  | .error e => .error (.malformed origin e)
  | .ok nodes => .ok nodes

/-- The nodes of a graph file whose content has been looked up. -/
def loadNodesContent (path : String) (content : Except FileFault String) :
    Except SourceError (List Node) :=
  match content with
  | .error fault => .error (.unreadable path fault)
  | .ok text => loadNodes text path

/-! ## Writing -/

/-- The written form of a binding. -/
def Binding.chars (b : Binding) : List Char :=
  objectChars [("inputType", stringChars b.qualifier), ("dataType", stringChars b.dataType),
    ("name", stringChars b.name)]

/-- The written form of an edge. -/
def Edge.chars (e : Edge) : List Char :=
  objectChars ([("to", stringChars e.target.text), ("input", stringChars e.input)]
    ++ match e.output with
      | some output => [("output", stringChars output)]
      | none => [])

/-- The written form of a node. -/
def Node.chars (n : Node) : List Char :=
  objectChars ([("id", stringChars n.id), ("type", stringChars n.tag)]
    ++ (if n.defines.isEmpty then [] else [("defines", (Value.object n.defines.entries).chars)])
    ++ (match n.binding with
      | some binding => [("external", binding.chars)]
      | none => [])
    ++ [("outputsTo", arrayChars (n.edges.map Edge.chars))])

/-- The text of a node. -/
def Node.text (n : Node) : String := String.ofList n.chars

/-- The text of a graph file with the given nodes. -/
def nodesText (nodes : List Node) : String := String.ofList (arrayChars (nodes.map Node.chars))

end ShaderGraph
