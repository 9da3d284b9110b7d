import ShaderGraph.Diagnostic
import ShaderGraph.Template.Render

/-!
# Build errors

Why a graph cannot be built into a program. Each cause has a stable code, a
message and the node it is about; some have a hint.
-/

namespace ShaderGraph

open ShaderGraph.Template

/-- An input of a node, by node id and input name. -/
abbrev InputRef := String × String

/-- Why a build fails. -/
inductive BuildError where
  /-- Two nodes have one id. -/
  | duplicateId (id : String)
  /-- The type of a node is not in the library. -/
  | unknownType (node tag : String)
  /-- An edge leads to no node. -/
  | unknownTarget (node target : String)
  /-- An edge leads to an input that the type of its target, `tag`, does not
  declare. -/
  | unknownInput (node target input tag : String)
  /-- An external node has no binding. -/
  | missingBinding (node : String)
  /-- A node has the id that stands for the sink. -/
  | reservedId (id : String)
  /-- The nodes feed each other in a circle. -/
  | cyclic (cycle : List String)
  /-- An edge names no output, and the type of its node leaves it open. -/
  | missingOutput (node target input : String)
  /-- Two inputs have one storage name. -/
  | nameCollision (name : String) (first second : InputRef)
  /-- The body of a node gives no text. -/
  | body (node tag : String) (error : BodyError)
deriving DecidableEq, Repr

namespace BuildError

/-- The stable code of an error. -/
def code : BuildError → String
  | .duplicateId .. => "E0001"
  | .unknownType .. => "E0002"
  | .unknownTarget .. => "E0003"
  | .unknownInput .. => "E0004"
  | .missingBinding .. => "E0005"
  | .reservedId .. => "E0006"
  | .cyclic .. => "E0100"
  | .missingOutput .. => "E0200"
  | .nameCollision .. => "E0201"
  | .body .. => "E0300"

/-- A cycle with its first node written again at its end. -/
def closedCycle : List String → List String
  | [] => []
  | first :: rest => first :: rest ++ [first]

/-- The wording of an error. -/
def message : BuildError → String
  | .duplicateId id => "duplicate node id '" ++ id ++ "'"
  | .unknownType node tag => "node '" ++ node ++ "' has unknown type '" ++ tag ++ "'"
  | .unknownTarget node target =>
    "node '" ++ node ++ "' outputs to unknown node '" ++ target ++ "'"
  | .unknownInput node target input tag =>
    "node '" ++ node ++ "' outputs to '" ++ target ++ "." ++ input ++ "', but type '" ++ tag
      ++ "' declares no input '" ++ input ++ "'"
  | .missingBinding node => "external node '" ++ node ++ "' has no `external` descriptor"
  | .reservedId id => "node id '" ++ id ++ "' is reserved for the sink marker"
  | .cyclic cycle => "graph contains a cycle: " ++ " -> ".intercalate (closedCycle cycle)
  | .missingOutput node target input =>
    "edge from node '" ++ node ++ "' to '" ++ target ++ "." ++ input
      ++ "' does not name an output, and the node's type does not have exactly one"
  | .nameCollision name first second =>
    "storage name '" ++ name ++ "' is shared by '" ++ first.1 ++ "." ++ first.2
      ++ "' and '" ++ second.1 ++ "." ++ second.2 ++ "'"
  | .body node tag error =>
    "body of node '" ++ node ++ "' (type '" ++ tag ++ "') failed to compile: " ++ error.message

/-- What could be done about an error. -/
def hint? : BuildError → Option String
  | .cyclic .. => some "route one of the edges on the cycle to the sink marker `_`"
  | .missingOutput .. => some "set `output` on the edge to one of the type's declared outputs"
  | .nameCollision .. => some "rename one of the nodes or inputs so the joined names differ"
  | _ => none

/-- The node that an error is about. -/
def node? : BuildError → Option String
  | .duplicateId id | .reservedId id => some id
  | .unknownType node _ | .unknownTarget node _ | .unknownInput node .. | .missingBinding node
  | .missingOutput node .. | .body node .. => some node
  | .cyclic cycle => cycle.head?
  | .nameCollision .. => none

/-- The fault behind an error, if it has one. -/
def cause? : BuildError → Option String
  | .body _ _ error => some error.message
  | _ => none

/-- An error as a diagnostic. -/
def diagnostic (e : BuildError) : Diagnostic := ⟨some e.code, .error, e.message, e.hint?, e.node?⟩

end BuildError

end ShaderGraph
