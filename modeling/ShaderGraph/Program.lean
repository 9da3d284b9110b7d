import ShaderGraph.Program.Code
import ShaderGraph.Text

/-!
# Programs

A program declares the shader variables of its external nodes and has one entry
point. That declares a storage variable for every input of every library node,
and then has a block of code for each node. `assemble` makes a program of nodes
in a given order; how it is laid out is only decided when it is written.
-/

namespace ShaderGraph

open ShaderGraph.Template ShaderGraph.Text

/-- A storage variable of the entry point. -/
structure Storage where
  type : String
  name : String
deriving DecidableEq, Repr

/-- The storage variables for the inputs of a node. -/
structure InputGroup where
  id : String
  tag : String
  inputs : List Storage
deriving DecidableEq, Repr

/-- The block of a node. -/
structure Block where
  id : String
  tag : String
  code : NodeCode
deriving DecidableEq, Repr

/-- A shader program. -/
structure Program where
  externals : List Binding
  groups : List InputGroup
  blocks : List Block
deriving DecidableEq, Repr

/-! ## Assembly -/

/-- The shader variables of the external nodes. -/
def externalBindings : List Node → Except BuildError (List Binding)
  | [] => .ok []
  | n :: rest =>
    if n.isExternal then
      match n.binding with
      | none => .error (.missingBinding n.id)
      | some b =>
        match externalBindings rest with
        | .error e => .error e
        | .ok bindings => .ok (b :: bindings)
    else externalBindings rest

/-- The type of a node. -/
def typeOf (lib : Library) (n : Node) : Except BuildError NodeType :=
  match lib.lookup? n.tag with
  | none => .error (.unknownType n.id n.tag)
  | some t => .ok t

/-- Give storage variables to inputs of the node with the given id. -/
def declareInputs (id : String) (names : StorageNames) :
    List Socket → Except BuildError (StorageNames × List Storage)
  | [] => .ok (names, [])
  | p :: rest =>
    match names.register id p.name with
    | .error e => .error e
    | .ok (names, name) =>
      match declareInputs id names rest with
      | .error e => .error e
      | .ok (names, more) => .ok (names, ⟨p.type, name⟩ :: more)

/-- The storage variables of nodes. A type without inputs makes no group. -/
def inputGroups (lib : Library) (names : StorageNames) :
    List Node → Except BuildError (List InputGroup)
  | [] => .ok []
  | n :: rest =>
    if n.isExternal then inputGroups lib names rest
    else
      match typeOf lib n with
      | .error e => .error e
      | .ok t =>
        if t.inputs.isEmpty then inputGroups lib names rest
        else
          match declareInputs n.id names t.inputs with
          | .error e => .error e
          | .ok (names, inputs) =>
            match inputGroups lib names rest with
            | .error e => .error e
            | .ok groups => .ok (⟨n.id, n.tag, inputs⟩ :: groups)

/-- The inputs that an edge of the nodes leads to. -/
def writtenInputs (nodes : List Node) : List InputRef :=
  nodes.flatMap fun n => n.edges.filterMap fun e => e.target?.map (·, e.input)

/-- The warning about an input that no edge leads to. -/
def unconnectedInput (n : Node) (input : String) : Diagnostic where
  code := some "W0102"
  level := .warning
  message := "input '" ++ input ++ "' of node '" ++ n.id
    ++ "' is not connected; it is read uninitialized"
  hint := none
  node := some n.id

/-- The warnings about the inputs of a node that no edge leads to. -/
def nodeUnconnected (lib : Library) (written : List InputRef) (n : Node) : List Diagnostic :=
  if n.isExternal then [] else
  match lib.lookup? n.tag with
  | none => []
  | some t =>
    (t.inputs.filter fun p => !written.contains (n.id, p.name)).map fun p =>
      unconnectedInput n p.name

/-- The code of a node and its warnings. -/
def nodeCode (lib : Library) (compiler : BodyCompiler) (n : Node) :
    Except BuildError (NodeCode × List Diagnostic) :=
  if n.isExternal then
    match externalCode n with
    | .error e => .error e
    | .ok code => .ok (code, [])
  else
    match typeOf lib n with
    | .error e => .error e
    | .ok t =>
      match libraryCode compiler n t with
      | (_, .error e) => .error e
      | (warnings, .ok code) => .ok (code, warnings)

/-- The blocks of nodes and their warnings. -/
def nodeBlocks (lib : Library) (compiler : BodyCompiler) :
    List Node → Except BuildError (List Block × List Diagnostic)
  | [] => .ok ([], [])
  | n :: rest =>
    match nodeCode lib compiler n with
    | .error e => .error e
    | .ok (code, warnings) =>
      match nodeBlocks lib compiler rest with
      | .error e => .error e
      | .ok (blocks, more) => .ok (⟨n.id, n.tag, code⟩ :: blocks, warnings ++ more)

/-- The program of nodes in the given order, and warnings. -/
def assemble (lib : Library) (compiler : BodyCompiler) (nodes : List Node) :
    Except BuildError (Program × List Diagnostic) :=
  match externalBindings nodes with
  | .error e => .error e
  | .ok externals =>
    match inputGroups lib .empty nodes with
    | .error e => .error e
    | .ok groups =>
      match nodeBlocks lib compiler nodes with
      | .error e => .error e
      | .ok (blocks, warnings) =>
        let unconnected := nodes.flatMap (nodeUnconnected lib (writtenInputs nodes))
        .ok (⟨externals, groups, blocks⟩, unconnected ++ warnings)

/-! ## Layout -/

/-- How a program is laid out. -/
structure Layout where
  /-- The signature of the entry point. -/
  entry : String
  /-- One level of indentation. -/
  indent : String
  /-- Whether comments name the nodes. -/
  comments : Bool
deriving DecidableEq, Repr

/-- The layout that is used unless another is asked for. -/
def Layout.standard : Layout := ⟨"void main(void)", "    ", true⟩

/-- The comment that names a node. -/
def Layout.comment (l : Layout) (id tag : String) : String :=
  if l.comments then l.indent ++ "// node " ++ id ++ ", " ++ tag ++ "\n" else ""

/-- The declaration of a shader variable. -/
def Binding.declaration (b : Binding) : String :=
  b.qualifier ++ " " ++ b.dataType ++ " " ++ b.name ++ ";\n"

/-- The declaration of a storage variable. -/
def Storage.text (l : Layout) (s : Storage) : String :=
  l.indent ++ s.type ++ " " ++ s.name ++ ";\n"

/-- The declarations for the inputs of a node. -/
def InputGroup.text (l : Layout) (g : InputGroup) : String :=
  l.comment g.id g.tag ++ String.join (g.inputs.map (Storage.text l))

/-- A line of a block. Blank lines are not indented. -/
def Layout.line (l : Layout) (line : List Char) : String :=
  if allBlank line then "\n" else l.indent ++ l.indent ++ String.ofList line ++ "\n"

/-- The block of a node. -/
def Block.text (l : Layout) (b : Block) : String :=
  l.comment b.id b.tag ++ l.indent ++ "\x7b\n"
    ++ String.join ((lines b.code.text.toList).map l.line)
    ++ l.indent ++ "\x7d\n"

/-- A section of declarations, set off by an empty line if there are any. -/
def declarationSection (declarations : List String) : String :=
  if declarations.isEmpty then "" else String.join declarations ++ "\n"

/-- The text of a program. -/
def Program.text (l : Layout) (p : Program) : String :=
  declarationSection (p.externals.map Binding.declaration)
    ++ l.entry ++ " \x7b\n"
    ++ declarationSection (p.groups.map (InputGroup.text l))
    ++ String.join (p.blocks.map (Block.text l))
    ++ "\x7d\n"

/-- The text of the program of nodes in the given order, and warnings. -/
def assembleText (lib : Library) (compiler : BodyCompiler) (l : Layout) (nodes : List Node) :
    Except BuildError (String × List Diagnostic) :=
  match assemble lib compiler nodes with
  | .error e => .error e
  | .ok (program, warnings) => .ok (program.text l, warnings)

end ShaderGraph
