import Mathlib.Logic.Relation
import ShaderGraph.Proofs.Core
import ShaderGraph.Proofs.Declarations

/-!
# Parts of a graph that carry no data

Edges to the sink, outputs and defines of external nodes and bindings of other nodes
can be changed at will. Such changes keep the cores of the nodes
(`Node.Edit.core_eq`), and each stage of a build gives for the cores what it gives for
the nodes:

* **check** — the nodes have the same first fault (`Graph.check_core`);
* **order** — they are found in the same order (`Graph.order_core`);
* **assembly** — they have the same code and warnings (`assemble_core`).

`build_edited` says that builds do not see the changes.
-/

namespace ShaderGraph

open ShaderGraph.Template

/-! ## Check -/

namespace Graph

variable {g : Graph} {lib : Library}

theorem firstRepeat?_core (seen : List String) (nodes : List Node) :
    firstRepeat? seen (nodes.map Node.core) = firstRepeat? seen nodes := by
  induction nodes generalizing seen with
  | nil => rfl
  | cons n rest ih =>
    rw [List.map_cons, firstRepeat?, firstRepeat?, ih]
    rfl

theorem ofNodes_core (nodes : List Node) :
    ofNodes (nodes.map Node.core) = (ofNodes nodes).map Graph.core := by
  have hrepeat := firstRepeat?_core [] nodes
  unfold ofNodes
  split
  · next id hcore =>
    split
    · next id' hnodes =>
      rw [hcore, hnodes] at hrepeat
      cases hrepeat
      rfl
    · next hnodes =>
      rw [hcore, hnodes] at hrepeat
      cases hrepeat
  · next hcore =>
    split
    · next id' hnodes =>
      rw [hcore, hnodes] at hrepeat
      cases hrepeat
    · simp [Except.map, Graph.core]

theorem checkEdge_core (n : Node) (external : Bool) (e : Edge) :
    g.core.checkEdge lib n.core (e.core external) = g.checkEdge lib n e := by
  obtain ⟨target, input, output⟩ := e
  cases target with
  | sink => rfl
  | node id =>
    simp only [checkEdge, Edge.core, find?_core]
    cases g.find? id with
    | none => rfl
    | some target => rfl

theorem checkEdges_core (n : Node) (external : Bool) (edges : List Edge) :
    g.core.checkEdges lib n.core ((edges.filter Edge.leads).map (Edge.core external)) =
      g.checkEdges lib n edges := by
  induction edges with
  | nil => rfl
  | cons e rest ih =>
    rw [checkEdges]
    cases htarget : e.target with
    | sink =>
      have hpasses : g.checkEdge lib n e = .ok () := by rw [checkEdge, htarget]
      have hskipped : ¬ e.leads = true := by simp [Edge.not_leads_of_sink htarget]
      rw [List.filter_cons_of_neg hskipped, ih, hpasses]
    | node id =>
      rw [List.filter_cons_of_pos (Edge.leads_of_node htarget), List.map_cons, checkEdges,
        checkEdge_core, ih]

theorem checkNode_core (n : Node) : checkNode lib n.core = checkNode lib n := by
  by_cases hext : n.isExternal = true
  · have hbinding : n.core.binding = n.binding := if_pos hext
    unfold checkNode
    rw [hbinding]
    rfl
  · have hcore : ¬ n.core.isExternal = true := hext
    unfold checkNode
    rw [if_neg hext, if_neg hcore]
    rfl

theorem checkNodes_core (nodes : List Node) :
    g.core.checkNodes lib (nodes.map Node.core) = g.checkNodes lib nodes := by
  induction nodes with
  | nil => rfl
  | cons n rest ih =>
    have hedges : g.core.checkEdges lib n.core n.core.edges = g.checkEdges lib n n.edges :=
      checkEdges_core n n.isExternal n.edges
    rw [List.map_cons, checkNodes, checkNodes, checkNode_core, hedges, ih]

theorem check_core (g : Graph) (lib : Library) : g.core.check lib = g.check lib := by
  rw [check, check, core, Array.toList_map]
  exact checkNodes_core g.nodes.toList

end Graph

/-! ## Assembly -/

theorem filterMap_core {α : Type} {f : Edge → Option α} {external : Bool} (edges : List Edge)
    (hsink : ∀ e : Edge, e.target = .sink → f e = none)
    (hcore : ∀ e : Edge, f (e.core external) = f e) :
    ((edges.filter Edge.leads).map (Edge.core external)).filterMap f = edges.filterMap f := by
  rw [List.filterMap_map, List.filterMap_filter]
  congr 1
  funext e
  by_cases hleads : e.leads = true
  · rw [if_pos hleads]
    exact hcore e
  · rw [if_neg hleads]
    rw [Edge.leads_iff, not_not] at hleads
    exact (hsink e hleads).symm

theorem writtenInputs_core (nodes : List Node) :
    writtenInputs (nodes.map Node.core) = writtenInputs nodes := by
  unfold writtenInputs
  rw [List.flatMap_map]
  congr 1
  funext n
  refine filterMap_core n.edges ?_ ?_
  · intro e hsink
    rw [Edge.target?_of_sink hsink]
    rfl
  · intro e
    rfl

theorem externalBindings_core (nodes : List Node) :
    externalBindings (nodes.map Node.core) = externalBindings nodes := by
  induction nodes with
  | nil => rfl
  | cons n rest ih =>
    by_cases hext : n.isExternal = true
    · have hcore : n.core.isExternal = true := hext
      have hbinding : n.core.binding = n.binding := if_pos hext
      rw [List.map_cons, externalBindings, externalBindings, if_pos hext, if_pos hcore, hbinding,
        ih]
      rfl
    · have hcore : ¬ n.core.isExternal = true := hext
      rw [List.map_cons, externalBindings, externalBindings, if_neg hext, if_neg hcore, ih]

theorem inputGroups_core (lib : Library) (names : StorageNames) (nodes : List Node) :
    inputGroups lib names (nodes.map Node.core) = inputGroups lib names nodes := by
  induction nodes generalizing names with
  | nil => rfl
  | cons n rest ih =>
    rw [List.map_cons, inputGroups, inputGroups]
    simp only [ih]
    rfl

theorem externalCode_core {n : Node} (hext : n.isExternal = true) :
    externalCode n.core = externalCode n := by
  have hbinding : n.core.binding = n.binding := if_pos hext
  unfold externalCode
  rw [hbinding]
  cases n.binding with
  | none => rfl
  | some b =>
    simp only [Except.ok.injEq, NodeCode.mk.injEq, true_and]
    refine filterMap_core n.edges ?_ ?_
    · intro e hsink
      rw [Edge.target?_of_sink hsink]
      rfl
    · intro e
      rfl

theorem edgeCopies_core (n : Node) (t : NodeType) (edges : List Edge) :
    edgeCopies n.core t ((edges.filter Edge.leads).map (Edge.core false)) =
      edgeCopies n t edges := by
  induction edges with
  | nil => rfl
  | cons e rest ih =>
    rw [edgeCopies]
    cases htarget : e.target with
    | sink =>
      have hskipped : ¬ e.leads = true := by simp [Edge.not_leads_of_sink htarget]
      rw [List.filter_cons_of_neg hskipped, ih, Edge.target?_of_sink htarget]
    | node id =>
      rw [List.filter_cons_of_pos (Edge.leads_of_node htarget), List.map_cons, edgeCopies, ih]
      rfl

theorem libraryCode_core (compiler : BodyCompiler) {n : Node} (t : NodeType)
    (hext : n.isExternal = false) : libraryCode compiler n.core t = libraryCode compiler n t := by
  have hdefines : n.core.defines = n.defines := by simp [Node.core, hext]
  have hbody : renderedBody compiler n.core t = renderedBody compiler n t := by
    unfold renderedBody mergedDefines
    rw [hdefines]
    rfl
  have hcopies : edgeCopies n.core t n.core.edges = edgeCopies n t n.edges := by
    rw [← edgeCopies_core n t n.edges, Node.core, hext]
  unfold libraryCode
  rw [hbody, hcopies]
  rfl

theorem nodeCode_core (lib : Library) (compiler : BodyCompiler) (n : Node) :
    nodeCode lib compiler n.core = nodeCode lib compiler n := by
  by_cases hext : n.isExternal = true
  · have hcore : n.core.isExternal = true := hext
    rw [nodeCode, nodeCode, if_pos hext, if_pos hcore, externalCode_core hext]
  · have hcore : ¬ n.core.isExternal = true := hext
    have hcode := fun t => libraryCode_core compiler t (eq_false_of_ne_true hext)
    rw [nodeCode, nodeCode, if_neg hext, if_neg hcore]
    simp only [hcode]
    rfl

theorem nodeBlocks_core (lib : Library) (compiler : BodyCompiler) (nodes : List Node) :
    nodeBlocks lib compiler (nodes.map Node.core) = nodeBlocks lib compiler nodes := by
  induction nodes with
  | nil => rfl
  | cons n rest ih =>
    rw [List.map_cons, nodeBlocks, nodeBlocks, nodeCode_core, ih]
    rfl

theorem assemble_core (lib : Library) (compiler : BodyCompiler) (nodes : List Node) :
    assemble lib compiler (nodes.map Node.core) = assemble lib compiler nodes := by
  unfold assemble
  rw [externalBindings_core, inputGroups_core, nodeBlocks_core, writtenInputs_core,
    List.flatMap_map]
  rfl

/-! ## Builds -/

/-- A build of the cores is a build of the nodes. -/
theorem build_core (lib : Library) (compiler : BodyCompiler) (layout : Layout)
    (nodes : List Node) :
    build lib compiler layout (nodes.map Node.core) = build lib compiler layout nodes := by
  unfold build checkedOrder checkedGraph
  rw [Graph.ofNodes_core]
  cases Graph.ofNodes nodes with
  | error err => rfl
  | ok g =>
    simp only [Except.map, g.check_core lib]
    cases g.check lib with
    | error err => rfl
    | ok =>
      simp only [g.order_core]
      cases g.order with
      | error err => rfl
      | ok order =>
        have hids : (order.map Node.core).map (·.id) = order.map (·.id) := by
          rw [List.map_map]
          rfl
        simp only [Except.map, assemble_core, hids]

/-! ## Changes -/

/-- The changes of a node that leave its program as it is. -/
inductive Node.Edit : Node → Node → Prop
  /-- Put in an edge to the sink. -/
  | insertSink {n : Node} {before after : List Edge} (e : Edge) :
      n.edges = before ++ after → e.target = .sink →
      Edit n { n with edges := before ++ e :: after }
  /-- Take an edge to the sink out. -/
  | removeSink {n : Node} {before after : List Edge} {e : Edge} :
      n.edges = before ++ e :: after → e.target = .sink →
      Edit n { n with edges := before ++ after }
  /-- Change the input and the output of an edge to the sink. -/
  | sink {n : Node} {before after : List Edge} {e : Edge} (input : String)
      (output : Option String) :
      n.edges = before ++ e :: after → e.target = .sink →
      Edit n { n with edges := before ++ ⟨.sink, input, output⟩ :: after }
  /-- Change the output of an edge that leaves an external node. -/
  | output {n : Node} {before after : List Edge} {e : Edge} (output : Option String) :
      n.tag = externalTag → n.edges = before ++ e :: after →
      Edit n { n with edges := before ++ { e with output := output } :: after }
  /-- Change the defines of an external node. -/
  | defines {n : Node} (defines : Defines) :
      n.tag = externalTag → Edit n { n with defines := defines }
  /-- Give another binding, or none, to a node that is not external. -/
  | binding {n : Node} (binding : Option Binding) :
      n.tag ≠ externalTag → Edit n { n with binding := binding }

theorem Node.Edit.core_eq {n n' : Node} (h : n.Edit n') : n'.core = n.core := by
  cases h with
  | insertSink e hedges hsink =>
    simp [Node.core, Node.isExternal, hedges, Edge.not_leads_of_sink hsink]
  | removeSink hedges hsink =>
    simp [Node.core, Node.isExternal, hedges, Edge.not_leads_of_sink hsink]
  | sink input output hedges hsink =>
    have hnew : (Edge.mk .sink input output).leads = false := rfl
    simp [Node.core, Node.isExternal, hedges, Edge.not_leads_of_sink hsink, hnew]
  | @output before after e output htag hedges =>
    have hleads : { e with output := output }.leads = e.leads := rfl
    have hcore : { e with output := output }.core true = e.core true := rfl
    by_cases he : e.leads = true
    · simp [Node.core, Node.isExternal, htag, hedges, hleads, he, hcore]
    · simp [Node.core, Node.isExternal, htag, hedges, hleads, he]
  | defines defines htag => simp [Node.core, Node.isExternal, htag]
  | binding binding htag => simp [Node.core, Node.isExternal, htag]

/-- A change at one place in a list of nodes. -/
inductive Edited : List Node → List Node → Prop
  | node {n n' : Node} (before after : List Node) :
      n.Edit n' → Edited (before ++ n :: after) (before ++ n' :: after)

theorem Edited.map_core_eq {nodes nodes' : List Node} (h : Edited nodes nodes') :
    nodes'.map Node.core = nodes.map Node.core := by
  cases h with
  | node before after hedit =>
    rw [List.map_append, List.map_append, List.map_cons, List.map_cons, hedit.core_eq]

/-- However often the nodes are changed in parts that carry no data, they are built to
the same program with the same warnings, or fail with the same error. -/
theorem build_edited (lib : Library) (compiler : BodyCompiler) (layout : Layout)
    (nodes nodes' : List Node) (h : Relation.ReflTransGen Edited nodes nodes') :
    build lib compiler layout nodes' = build lib compiler layout nodes := by
  have hcore : nodes'.map Node.core = nodes.map Node.core := by
    induction h with
    | refl => rfl
    | tail _ hedit ih => rw [hedit.map_core_eq, ih]
  rw [← build_core lib compiler layout nodes', hcore, build_core]

/-- A node that discards its output. -/
def discarding : Node := (Node.ofType "out" "mix").addEdge sinkMarker "" (some "y")

/-- A tint with a binding, which it has no use for. -/
def boundTint : Node :=
  { (Node.ofType "warm" "tint").addEdge "out" "a" none with
    binding := some ⟨"uniform", "float", "u_time"⟩ }

/-- The color with a define, and with an output on the edge to the tint. -/
def definedColor (output : Option String) : Node :=
  (((Node.ofBinding "color" ⟨"uniform", "vec4", "u_color"⟩).addEdge "warm" "x" output).addEdge
    "out" "b" none).define "SHADE" .null

/-- Four changes in a row at three nodes of the sample leave its program as it is. -/
theorem build_edited_sample :
    Relation.ReflTransGen Edited sampleNodes [discarding, boundTint, definedColor (some "rgb")] ∧
    ∃ shader, build sampleLibrary .template .standard sampleNodes = .ok shader ∧
      build sampleLibrary .template .standard [discarding, boundTint, definedColor (some "rgb")] =
        .ok shader := by
  have hedited : Relation.ReflTransGen Edited sampleNodes
      [discarding, boundTint, definedColor (some "rgb")] := by
    have hsink : Edited sampleNodes (discarding :: sampleNodes.tail) :=
      .node [] _ (@Node.Edit.insertSink _ [] [] ⟨.sink, "", some "y"⟩ rfl rfl)
    have hbinding : Edited (discarding :: sampleNodes.tail)
        [discarding, boundTint, sampleNodes[2]] :=
      .node [discarding] _ (.binding _ (by decide))
    have hdefines : Edited [discarding, boundTint, sampleNodes[2]]
        [discarding, boundTint, definedColor none] :=
      .node [discarding, boundTint] [] (.defines _ rfl)
    have houtput : Edited [discarding, boundTint, definedColor none]
        [discarding, boundTint, definedColor (some "rgb")] :=
      .node [discarding, boundTint] [] (@Node.Edit.output (definedColor none) []
        [⟨.node "out", "b", none⟩] ⟨.node "warm", "x", none⟩ (some "rgb") rfl rfl)
    exact (((Relation.ReflTransGen.single hsink).tail hbinding).tail hdefines).tail houtput
  obtain ⟨shader, hbuild⟩ := sampleNodes_builds
  exact ⟨hedited, shader, hbuild, (build_edited _ _ _ _ _ hedited).trans hbuild⟩

end ShaderGraph
