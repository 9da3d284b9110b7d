import ShaderGraph.Graph

/-!
# Order certificates

A list of ids is an order of a graph if it has the id of every node exactly
once and every edge leads from an earlier to a later id. `certify` checks both,
independently of how the list was found.
-/

namespace ShaderGraph.Graph

/-- What holds of a list of ids. -/
structure Certificate where
  /-- Every node is listed exactly once. -/
  complete : Bool
  /-- Every edge leads forward. -/
  ordered : Bool
deriving DecidableEq, Repr

namespace Certificate

/-- Whether both obligations hold. -/
def passes (c : Certificate) : Bool := c.complete && c.ordered

/-- The obligations by name. -/
def obligations (c : Certificate) : List (String × Bool) :=
  [("S1_complete", c.complete), ("S2_ordered", c.ordered)]

/-- A certificate as it is shown. -/
def text (c : Certificate) : String :=
  let failed := (c.obligations.filter (!·.2)).map (·.1)
  if failed.isEmpty then "all obligations hold" else "failed: " ++ ", ".intercalate failed

end Certificate

/-- Whether a list repeats nothing. -/
def noRepeats : List String → Bool
  | [] => true
  | x :: rest => !rest.contains x && noRepeats rest

/-- The last place of an id in a list. -/
def rank? (id : String) : List String → Option Nat
  | [] => none
  | x :: rest =>
    match rank? id rest with
    | some k => some (k + 1)
    | none => if x = id then some 0 else none

/-- Whether a list has every id of the graph exactly once. -/
def isComplete (g : Graph) (order : List String) : Bool :=
  order.length == g.size && order.all g.contains && noRepeats order

/-- Whether an edge leads forward in a list. -/
def leadsForward (order : List String) (n : Node) (e : Edge) : Bool :=
  match e.target? with
  | none => true
  | some target =>
    match rank? n.id order, rank? target order with
    | some a, some b => a < b
    | _, _ => false

/-- Whether every edge of the graph leads forward in a list. -/
def isOrdered (g : Graph) (order : List String) : Bool :=
  g.edges.all (fun e => leadsForward order e.1 e.2)

/-- Check a list of ids against a graph. -/
def certify (g : Graph) (order : List String) : Certificate :=
  ⟨g.isComplete order, g.isOrdered order⟩

end ShaderGraph.Graph
