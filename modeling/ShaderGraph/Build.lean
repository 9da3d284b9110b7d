import ShaderGraph.Graph.Order
import ShaderGraph.Program

/-!
# Builds

From node instances to the text of a program: the nodes are made a graph, the
graph is checked against the library, its nodes are put in order and the
program is assembled. The first failure ends the build.
-/

namespace ShaderGraph

open ShaderGraph.Template

/-- The stages of a build. -/
inductive Pass where
  | buildGraph
  | verifyEdges
  | sort
  | codegen
deriving DecidableEq, Repr

/-- The name of a stage. -/
def Pass.name : Pass → String
  | .buildGraph => "build_graph"
  | .verifyEdges => "verify_edges"
  | .sort => "sort"
  | .codegen => "codegen"

/-- The stages in the order they run. -/
def Pass.all : List Pass := [.buildGraph, .verifyEdges, .sort, .codegen]

/-- The outcome of a build. -/
structure Shader where
  /-- The program text. -/
  source : String
  /-- The ids of the nodes in the order of their blocks. -/
  order : List String
  warnings : List Diagnostic
deriving DecidableEq, Repr

/-- The graph of nodes that passes the check against a library. -/
def checkedGraph (lib : Library) (nodes : List Node) : Except BuildError Graph :=
  match Graph.ofNodes nodes with
  | .error e => .error e
  | .ok g =>
    match g.check lib with
    | .error e => .error e
    | .ok () => .ok g

/-- The nodes of a checked graph, producers first. -/
def checkedOrder (lib : Library) (nodes : List Node) : Except BuildError (List Node) :=
  match checkedGraph lib nodes with
  | .error e => .error e
  | .ok g => g.order

/-- Build the program of a list of nodes. -/
def build (lib : Library) (compiler : BodyCompiler) (layout : Layout) (nodes : List Node) :
    Except BuildError Shader :=
  match checkedOrder lib nodes with
  | .error e => .error e
  | .ok order =>
    match assemble lib compiler order with
    | .error e => .error e
    | .ok (program, warnings) => .ok ⟨program.text layout, order.map (·.id), warnings⟩

end ShaderGraph
