import ShaderGraph.Template.Render

/-!
# Node types

What a library says about a kind of node: its typed inputs and outputs, the
template of its body and the defines that the template starts from.
-/

namespace ShaderGraph

open ShaderGraph.Json ShaderGraph.Template

/-- A named input or output with its shading-language type. -/
structure Socket where
  name : String
  type : String
deriving DecidableEq, Repr, Inhabited

/-- A kind of node. -/
structure NodeType where
  inputs : List Socket
  outputs : List Socket
  body : String
  defines : Defines
deriving DecidableEq

namespace NodeType

/-- The type without sockets, body and defines. -/
def blank : NodeType := ⟨[], [], "", .empty⟩

/-- The input of the given name. -/
def input? (t : NodeType) (name : String) : Option Socket := t.inputs.find? (·.name == name)

/-- The only output, if there is exactly one. -/
def soleOutput? (t : NodeType) : Option Socket :=
  match t.outputs with
  | [only] => some only
  | _ => none

/-- Inputs and outputs, which share one name space inside the body. -/
def sockets (t : NodeType) : List Socket := t.inputs ++ t.outputs

end NodeType

/-! ## Reading -/

/-- The shape of a socket in a file. -/
def Socket.schema : Schema Socket where
  title := "struct Port"
  blank := ⟨"", ""⟩
  fields := [
    .of "name" true string (fun p v => { p with name := v }),
    .of "type" true string (fun p v => { p with type := v })]

/-- The shape of a node type in a file. -/
def NodeType.schema : Schema NodeType where
  title := "struct NodeTypeDef"
  blank := .blank
  fields := [
    .of "inputs" false (list (record Socket.schema)) (fun t v => { t with inputs := v }),
    .of "outputs" false (list (record Socket.schema)) (fun t v => { t with outputs := v }),
    .of "body" false string (fun t v => { t with body := v }),
    .of "defines" false (dict readValue) (fun t v => { t with defines := v })]

/-- The node type that a text spells. -/
def NodeType.parse (text : String) : Except ReadError NodeType :=
  readDocument (record NodeType.schema) text

/-! ## Writing -/

/-- A socket as a value. -/
def Socket.toValue (s : Socket) : Value :=
  .object [("name", .string s.name), ("type", .string s.type)]

/-- A node type as a value, with its members in order. -/
def NodeType.toValue (t : NodeType) : Value :=
  .object (("body", .string t.body)
    :: (if t.defines.isEmpty then [] else [("defines", .object t.defines.entries)])
    ++ [("inputs", .array (t.inputs.map Socket.toValue)),
        ("outputs", .array (t.outputs.map Socket.toValue))])

/-- The text of a node type, with its fields as they are declared. -/
def NodeType.text (t : NodeType) : String :=
  String.ofList (objectChars
    ([("inputs", (Value.array (t.inputs.map Socket.toValue)).chars),
      ("outputs", (Value.array (t.outputs.map Socket.toValue)).chars),
      ("body", (Value.string t.body).chars)]
    ++ if t.defines.isEmpty then [] else [("defines", (Value.object t.defines.entries).chars)]))

end ShaderGraph
