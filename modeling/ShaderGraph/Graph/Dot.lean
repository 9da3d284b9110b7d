import ShaderGraph.Graph

/-!
# Drawings of graphs

A graph in the DOT language. Library nodes are boxes, external nodes ellipses,
and all sink edges lead to one point. Node ids are marked as such, so none is
taken for the sink's.
-/

namespace ShaderGraph.Graph

/-- A text with each place of a character taken by others. -/
def replaceChar (c : Char) (new : List Char) (text : List Char) : List Char :=
  text.flatMap fun d => if d = c then new else [d]

/-- A text as it is written inside a quoted name. The backslashes of the text are
doubled before the quotes get theirs, which stay single. -/
def dotEscaped (s : String) : String :=
  String.ofList (replaceChar '"' ['\\', '"'] (replaceChar '\\' ['\\', '\\'] s.toList))

/-- The name of a node. -/
def dotName (id : String) : String := "\"node:" ++ dotEscaped id ++ "\""

/-- The name of the sink. -/
def dotSink : String := "\"sink:_\""

/-- The attributes of a node. -/
def dotAttributes (n : Node) : String :=
  let box := "label=\"" ++ dotEscaped n.id ++ ": " ++ dotEscaped n.tag ++ "\", shape=box"
  match n.binding with
  | some b =>
    if n.isExternal then
      "label=\"" ++ dotEscaped n.id ++ ": " ++ dotEscaped b.qualifier ++ " "
        ++ dotEscaped b.dataType ++ " " ++ dotEscaped b.name ++ "\", shape=ellipse"
    else box
  | none => box

/-- The output that an edge shows: the variable of a node with a binding, else
the output that the edge names. -/
def shownOutput (n : Node) (e : Edge) : String :=
  match n.binding with
  | some b => b.name
  | none => e.output.getD ""

/-- The label of an edge. -/
def dotLabel (n : Node) (e : Edge) : String :=
  let output := shownOutput n e
  match e.target with
  | .sink => output
  | .node _ => if output = "" then e.input else output ++ " → " ++ e.input

/-- The name of an edge's target. -/
def dotTarget : Target → String
  | .node id => dotName id
  | .sink => dotSink

/-- The line of a node. -/
def dotNodeLine (n : Node) : String := "    " ++ dotName n.id ++ " [" ++ dotAttributes n ++ "];\n"

/-- The line of an edge. -/
def dotEdgeLine (n : Node) (e : Edge) : String :=
  "    " ++ dotName n.id ++ " -> " ++ dotTarget e.target
    ++ " [label=\"" ++ dotEscaped (dotLabel n e) ++ "\"];\n"

/-- The lines that every drawing starts with. -/
def dotHeader : String :=
  "digraph shader \x7b\n    rankdir=LR;\n    node [fontname=\"Helvetica\", fontsize=10];\n"
    ++ "    edge [fontname=\"Helvetica\", fontsize=9];\n\n"

/-- The line of the sink. -/
def dotSinkLine : String :=
  "    " ++ dotSink ++ " [label=\"" ++ sinkMarker ++ "\", shape=point, width=0.15];\n"

/-- The drawing of a graph. -/
def dot (g : Graph) : String :=
  dotHeader
    ++ String.join (g.nodes.toList.map dotNodeLine)
    ++ (if g.edges.any (·.2.target == .sink) then dotSinkLine else "")
    ++ (if 0 < g.edgeCount then "\n" else "")
    ++ String.join (g.edges.map fun e => dotEdgeLine e.1 e.2)
    ++ "\x7d\n"

end ShaderGraph.Graph
