import ShaderGraph.Graph
import ShaderGraph.Program.StorageName
import ShaderGraph.Program.Words
import ShaderGraph.Text

/-!
# Code of nodes

What a node adds to a program: declarations of its outputs, its body, and
copies of its outputs into the inputs it feeds. The body is the rendered
template with the names of the inputs replaced by their storage variables. An
external node only copies its shader variable.
-/

namespace ShaderGraph

open ShaderGraph.Template ShaderGraph.Text

/-- The assignment of an expression to the storage variable of an input. -/
structure Copy where
  storage : String
  value : String
deriving DecidableEq, Repr

/-- The statement of a copy. -/
def Copy.text (c : Copy) : String := c.storage ++ " = " ++ c.value ++ ";\n"

/-- The code of a node. -/
structure NodeCode where
  /-- The outputs that are declared. -/
  outputs : List Socket
  /-- The body, with storage variables for inputs. -/
  body : String
  copies : List Copy
deriving DecidableEq, Repr

/-- The declaration of an output. -/
def Socket.declaration (s : Socket) : String := s.type ++ " " ++ s.name ++ ";\n"

/-- A body without the empty lines around it, and ending its last line. -/
def bodyText (body : String) : String :=
  let trimmed := String.ofList (trimNewlines body.toList)
  if trimmed = "" then "" else trimmed ++ "\n"

/-- The text of a node's code. -/
def NodeCode.text (c : NodeCode) : String :=
  String.join (c.outputs.map Socket.declaration) ++ bodyText c.body
    ++ String.join (c.copies.map Copy.text)

/-! ## External nodes -/

/-- The code of an external node. -/
def externalCode (n : Node) : Except BuildError NodeCode :=
  match n.binding with
  | none => .error (.missingBinding n.id)
  | some b =>
    .ok ⟨[], "", n.edges.filterMap fun e =>
      e.target?.map fun target => ⟨storageName target e.input, b.name⟩⟩

/-! ## Library nodes -/

/-- The defines of a node: its own over those of its type. -/
def mergedDefines (n : Node) (t : NodeType) : Defines := t.defines.insertMany n.defines.entries

/-- The rendered body of a node. -/
def renderedBody (compiler : BodyCompiler) (n : Node) (t : NodeType) : Except BuildError String :=
  match compiler.compile n.tag t.body with
  | .error e => .error (.body n.id n.tag e)
  | .ok body =>
    match body (mergedDefines n t) with
    | .error e => .error (.body n.id n.tag e)
    | .ok text => .ok text

/-- A body with storage variables for the inputs of a node, and the names of the
inputs that occurred in it. -/
def substituteInputs (body id : String) (t : NodeType) : String × List String :=
  let names := t.inputs.map (·.name.toList)
  let storage := fun name => (storageName id (String.ofList name)).toList
  let (text, used) := Program.replaceWords isWordChar names storage body.toList
  (String.ofList text, used.map String.ofList)

/-- The warning about an input that the body does not mention. -/
def unusedInput (n : Node) (input : String) : Diagnostic where
  code := some "W0101"
  level := .warning
  message := "input '" ++ input ++ "' of node '" ++ n.id ++ "' (type '" ++ n.tag
    ++ "') is never used by its body"
  hint := none
  node := some n.id

/-- The expression that an edge copies: what the edge says, or else the only
output of the node's type. -/
def edgeValue? (t : NodeType) (e : Edge) : Option String :=
  match e.output with
  | some output => some output
  | none => t.soleOutput?.map (·.name)

/-- The copies of edges of a node. -/
def edgeCopies (n : Node) (t : NodeType) : List Edge → Except BuildError (List Copy)
  | [] => .ok []
  | e :: rest =>
    match e.target? with
    | none => edgeCopies n t rest
    | some target =>
      match edgeValue? t e with
      | none => .error (.missingOutput n.id target e.input)
      | some value =>
        match edgeCopies n t rest with
        | .error err => .error err
        | .ok copies => .ok (⟨storageName target e.input, value⟩ :: copies)

/-- The code of a node of a library type, and warnings. A body that has been
rendered gives its warnings even if there is no code after all. -/
def libraryCode (compiler : BodyCompiler) (n : Node) (t : NodeType) :
    List Diagnostic × Except BuildError NodeCode :=
  match renderedBody compiler n t with
  | .error e => ([], .error e)
  | .ok rendered =>
    let (body, used) := substituteInputs rendered n.id t
    let unused := t.inputs.filter (fun p => !used.contains p.name)
    let warnings := unused.map (fun p => unusedInput n p.name)
    match edgeCopies n t n.edges with
    | .error e => (warnings, .error e)
    | .ok copies => (warnings, .ok ⟨t.outputs, body, copies⟩)

end ShaderGraph
