import ShaderGraph.BuildError
import ShaderGraph.Node

/-!
# Graphs

A graph is a list of node instances with distinct ids. Edges name their targets
by id, so a graph may well have edges that lead nowhere, or in circles;
`check` compares it with a library, and the order of its nodes is the matter of
its own module.
-/

namespace ShaderGraph

/-- Node instances with distinct ids. -/
structure Graph where
  nodes : Array Node
  distinct : (nodes.toList.map (·.id)).Nodup

namespace Graph

/-! ## Construction -/

/-- The first id that a list of nodes repeats; `seen` holds the ids before
them. -/
def firstRepeat? : (seen : List String) → List Node → Option String
  | _, [] => none
  | seen, n :: rest => if seen.contains n.id then some n.id else firstRepeat? (n.id :: seen) rest

private theorem nodup_of_firstRepeat? {seen : List String} {nodes : List Node}
    (h : firstRepeat? seen nodes = none) :
    (nodes.map (·.id)).Nodup ∧ ∀ n ∈ nodes, n.id ∉ seen := by
  induction nodes generalizing seen with
  | nil => simp
  | cons n rest ih =>
    unfold firstRepeat? at h
    split at h
    · cases h
    · next hn =>
      obtain ⟨hrest, hseen⟩ := ih h
      refine ⟨?_, fun m hm => ?_⟩
      · rw [List.map_cons, List.nodup_cons]
        refine ⟨fun hmem => ?_, hrest⟩
        obtain ⟨m, hm, hid⟩ := List.mem_map.mp hmem
        exact hseen m hm (hid ▸ List.mem_cons_self)
      · rcases List.mem_cons.mp hm with rfl | hm
        · simpa using hn
        · exact fun hs => hseen m hm (List.mem_cons_of_mem _ hs)

/-- The graph of a list of nodes, unless an id is repeated. -/
def ofNodes (nodes : List Node) : Except BuildError Graph :=
  match h : firstRepeat? [] nodes with
  | some id => .error (.duplicateId id)
  | none => .ok ⟨nodes.toArray, by simpa using (nodup_of_firstRepeat? h).1⟩

/-! ## Access -/

/-- The number of nodes. -/
abbrev size (g : Graph) : Nat := g.nodes.size

/-- The node at a position. -/
def node (g : Graph) (i : Fin g.size) : Node := g.nodes[i]

/-- The position of the node with the given id. -/
def position? (g : Graph) (id : String) : Option (Fin g.size) :=
  g.nodes.findFinIdx? (·.id == id)

/-- The node with the given id. -/
def find? (g : Graph) (id : String) : Option Node := (g.position? id).map g.node

/-- Whether a node has the given id. -/
def contains (g : Graph) (id : String) : Bool := (g.position? id).isSome

/-- The ids in order. -/
def ids (g : Graph) : List String := g.nodes.toList.map (·.id)

/-- Every edge with the node it leaves. -/
def edges (g : Graph) : List (Node × Edge) :=
  g.nodes.toList.flatMap fun n => n.edges.map (n, ·)

/-- The number of edges, those to the sink included. -/
def edgeCount (g : Graph) : Nat := g.edges.length

/-! ## Comparison with a library -/

/-- Check that a node can have its id and its type. -/
def checkNode (lib : Library) (n : Node) : Except BuildError Unit :=
  if n.id = sinkMarker then .error (.reservedId n.id)
  else if n.isExternal then
    match n.binding with
    | none => .error (.missingBinding n.id)
    | some _ => .ok ()
  else
    match lib.lookup? n.tag with
    | none => .error (.unknownType n.id n.tag)
    | some _ => .ok ()

/-- Check that an edge of the node `n` to the node `target` leads to a declared
input. External nodes have none. -/
def checkTarget (lib : Library) (n target : Node) (input : String) : Except BuildError Unit :=
  let undeclared := BuildError.unknownInput n.id target.id input target.tag
  if target.isExternal then .error undeclared
  else
    match lib.lookup? target.tag with
    | none => .error (.unknownType target.id target.tag)
    | some type => if (type.input? input).isSome then .ok () else .error undeclared

/-- Check an edge of the node `n`. -/
def checkEdge (g : Graph) (lib : Library) (n : Node) (e : Edge) : Except BuildError Unit :=
  match e.target with
  | .sink => .ok ()
  | .node id =>
    match g.find? id with
    | none => .error (.unknownTarget n.id id)
    | some target => checkTarget lib n target e.input

/-- Check edges of the node `n` in order. -/
def checkEdges (g : Graph) (lib : Library) (n : Node) : List Edge → Except BuildError Unit
  | [] => .ok ()
  | e :: rest =>
    match g.checkEdge lib n e with
    | .error err => .error err
    | .ok () => g.checkEdges lib n rest

/-- Check nodes in order, each before its edges. -/
def checkNodes (g : Graph) (lib : Library) : List Node → Except BuildError Unit
  | [] => .ok ()
  | n :: rest =>
    match checkNode lib n with
    | .error err => .error err
    | .ok () =>
      match g.checkEdges lib n n.edges with
      | .error err => .error err
      | .ok () => g.checkNodes lib rest

/-- Check that every node has a type and every edge leads to a declared input. -/
def check (g : Graph) (lib : Library) : Except BuildError Unit := g.checkNodes lib g.nodes.toList

end Graph

end ShaderGraph
