import ShaderGraph.Proofs.Declarations
import ShaderGraph.Proofs.Outcome
import ShaderGraph.Proofs.Runs

/-!
# What a build warns about

There are two warnings about an input of a library node: that no edge leads to
it, and that the body of the node does not mention it. They are found in
different passes, from the edges of all nodes and from the search for whole words
in one body. `build_warnings` says that a build which succeeds gives each of them
exactly where it is due, once, and in order:

* **unconnected** — `nodeUnconnected` looks for the input among all that edges
  lead to (`mem_writtenInputs`);
* **unused** — the names that have been replaced in a body are the inputs among
  its words (`emitted_warnings`).
-/

namespace ShaderGraph

open ShaderGraph.Template ShaderGraph.Text

/-! ## When warnings are due -/

/-- The declared inputs of nodes, each with its node. -/
def declaredSockets (lib : Library) (order : List Node) : List (Node × Socket) :=
  order.flatMap fun n => (lib.inputsOf n.tag).map (n, ·)

/-- An edge of the nodes leads to the input of the node with the given id. -/
def Connected (nodes : List Node) (id input : String) : Prop :=
  ∃ n ∈ nodes, ∃ e ∈ n.edges, e.target = .node id ∧ e.input = input

instance (nodes : List Node) (id input : String) : Decidable (Connected nodes id input) :=
  inferInstanceAs (Decidable (∃ n ∈ nodes, ∃ e ∈ n.edges, e.target = .node id ∧ e.input = input))

/-- The words of the body that a node renders to. -/
def Node.bodyWords (lib : Library) (compiler : BodyCompiler) (n : Node) : List String :=
  match lib.lookup? n.tag with
  | none => []
  | some t =>
    match renderedBody compiler n t with
    | .error _ => []
    | .ok text => textWords isWordChar text

/-- The declared inputs that no edge leads to. -/
def unconnectedInputs (lib : Library) (nodes order : List Node) : List (Node × Socket) :=
  (declaredSockets lib order).filter fun s => ¬ Connected nodes s.1.id s.2.name

/-- The declared inputs that are not among the words of the body. -/
def unusedInputs (lib : Library) (compiler : BodyCompiler) (order : List Node) :
    List (Node × Socket) :=
  (declaredSockets lib order).filter fun s => s.2.name ∉ s.1.bodyWords lib compiler

/-! ## Nodes -/

section Nodes

variable {lib : Library} {compiler : BodyCompiler} {n : Node} {nodes order : List Node}

theorem mem_writtenInputs {id input : String} :
    (id, input) ∈ writtenInputs nodes ↔ Connected nodes id input := by
  simp only [writtenInputs, Connected, List.mem_flatMap, List.mem_filterMap]
  refine exists_congr fun n => and_congr_right fun _ => exists_congr fun e =>
    and_congr_right fun _ => ?_
  simp [Edge.target?_eq_some]

theorem Connected.perm {id input : String} (h : Connected nodes id input)
    (hperm : nodes.Perm order) : Connected order id input := by
  obtain ⟨n, hn, hedge⟩ := h
  exact ⟨n, hperm.mem_iff.mp hn, hedge⟩

theorem nodeUnconnected_eq (lib : Library) (written : List InputRef) (n : Node) :
    nodeUnconnected lib written n
      = ((lib.inputsOf n.tag).filter fun p => (n.id, p.name) ∉ written).map fun p =>
        unconnectedInput n p.name := by
  unfold nodeUnconnected Library.inputsOf
  by_cases hext : n.tag = externalTag
  · rw [if_pos (Node.isExternal_iff.mpr hext), if_pos hext]
    rfl
  · rw [if_neg (fun heq => hext (Node.isExternal_iff.mp heq)), if_neg hext]
    cases lib.lookup? n.tag with
    | none => rfl
    | some t => simp

theorem bodyWords_eq {t : NodeType} {text : String} (ht : lib.lookup? n.tag = some t)
    (htext : renderedBody compiler n t = .ok text) :
    n.bodyWords lib compiler = textWords isWordChar text := by
  simp only [Node.bodyWords, ht, htext]

/-- A node with code warns about the declared inputs that are not among the words
of its body. -/
theorem emitted_warnings (hlib : lib.Sound) (htyped : Graph.TypedNode lib n)
    (hcode : n.HasCode lib compiler) :
    (n.emitted lib compiler).2
      = ((lib.inputsOf n.tag).filter fun p => p.name ∉ n.bodyWords lib compiler).map fun p =>
        unusedInput n p.name := by
  have hok : nodeCode lib compiler n = .ok (_, (n.emitted lib compiler).2) := hcode.eq
  by_cases hext : n.tag = externalTag
  · rw [(nodeCode_external hext hok).2, Library.inputsOf, if_pos hext]
    rfl
  · obtain ⟨t, ht⟩ := htyped.type (fun heq => hext (Node.isExternal_iff.mp heq))
    obtain ⟨text, htext, _, _, _, hwarnings⟩ := nodeCode_library hext ht hok
    have hrewrites := substituteInputs_rewrites (hlib n.tag t ht).inputsNamed text n.id
    rw [hwarnings, Library.inputsOf_eq hext ht, bodyWords_eq ht htext]
    congr 1
    refine List.filter_congr fun p hp => ?_
    have hused : p.name ∈ (substituteInputs text n.id t).2 ↔
        p.name ∈ textWords isWordChar text := by
      rw [hrewrites.used p.name, and_iff_right (List.mem_map_of_mem hp)]
    simp only [hused]

end Nodes

/-! ## Builds -/

section Builds

variable {lib : Library} {compiler : BodyCompiler} {nodes order : List Node}

theorem map_declaredSockets (lib : Library) (order : List Node) :
    (declaredSockets lib order).map (fun s => (s.1.id, s.2.name)) = declaredInputs lib order := by
  simp [declaredSockets, declaredInputs, List.map_flatMap, Library.inputNames_eq_map,
    Function.comp_def]

/-- Warnings that are given node by node, about the inputs with a property, are
given input by input. -/
theorem flatMap_warnings (due : Node → Socket → Bool) (warning : Node → String → Diagnostic) :
    (order.flatMap fun n => ((lib.inputsOf n.tag).filter (due n)).map fun p => warning n p.name)
      = ((declaredSockets lib order).filter fun s => due s.1 s.2).map fun s =>
        warning s.1 s.2.name := by
  simp [declaredSockets, List.filter_flatMap, List.map_flatMap, List.filter_map, Function.comp_def]

theorem unconnected_warnings (hperm : order.Perm nodes) :
    order.flatMap (nodeUnconnected lib (writtenInputs order))
      = (unconnectedInputs lib nodes order).map fun s => unconnectedInput s.1 s.2.name := by
  have hconnected : ∀ id input, (id, input) ∉ writtenInputs order ↔ ¬ Connected nodes id input := by
    intro id input
    rw [mem_writtenInputs, not_iff_not]
    exact ⟨fun h => h.perm hperm, fun h => h.perm hperm.symm⟩
  refine Eq.trans (List.flatMap_congr fun n _ => ?_)
    (flatMap_warnings (fun n p => ¬ Connected nodes n.id p.name) unconnectedInput)
  simp only [nodeUnconnected_eq, hconnected]

theorem unused_warnings (hlib : lib.Sound)
    (h : ∀ n ∈ order, Graph.TypedNode lib n ∧ n.HasCode lib compiler) :
    (order.flatMap fun n => (n.emitted lib compiler).2)
      = (unusedInputs lib compiler order).map fun s => unusedInput s.1 s.2.name := by
  refine Eq.trans (List.flatMap_congr fun n hn => ?_)
    (flatMap_warnings (fun n p => p.name ∉ n.bodyWords lib compiler) unusedInput)
  exact emitted_warnings hlib (h n hn).1 (h n hn).2

end Builds

/-- The warnings of a shader are those that are due, first about inputs that no
edge leads to and then about inputs that are not used, both in the order of the
nodes and of their inputs. -/
structure Shader.WarnsExactly (lib : Library) (compiler : BodyCompiler) (nodes order : List Node)
    (shader : Shader) : Prop where
  /-- No input is declared twice, so none is warned about twice. -/
  once : ((declaredSockets lib order).map fun s => (s.1.id, s.2.name)).Nodup
  /-- Every library node has a body to look at. -/
  rendered : ∀ n ∈ order, n.tag ≠ externalTag → ∃ t text, lib.lookup? n.tag = some t ∧
    renderedBody compiler n t = .ok text ∧ n.bodyWords lib compiler = textWords isWordChar text
  warnings : shader.warnings
    = (unconnectedInputs lib nodes order).map (fun s => unconnectedInput s.1 s.2.name)
      ++ (unusedInputs lib compiler order).map (fun s => unusedInput s.1 s.2.name)
  headings : shader.warnings.map (fun d => (d.level, d.code, d.node))
    = (unconnectedInputs lib nodes order).map (fun s => (.warning, some "W0102", some s.1.id))
      ++ (unusedInputs lib compiler order).map (fun s => (.warning, some "W0101", some s.1.id))

/-- A build that succeeds warns about the declared inputs that no edge leads to,
then about those that are not among the words of the body of their node, and
about nothing else. -/
theorem build_warnings (lib : Library) (hlib : lib.Reached) (compiler : BodyCompiler)
    (layout : Layout) (nodes : List Node) (shader : Shader)
    (hbuild : build lib compiler layout nodes = .ok shader) :
    ∃ (order : List Node) (program : Program),
      shader.MadeOf lib compiler layout nodes order program ∧
      shader.WarnsExactly lib compiler nodes order := by
  obtain ⟨g, order, _, hw, hcode, hmade, hassembled⟩ := build_madeOf hbuild
  have hwarnings : shader.warnings
      = (unconnectedInputs lib nodes order).map (fun s => unconnectedInput s.1 s.2.name)
        ++ (unusedInputs lib compiler order).map (fun s => unusedInput s.1 s.2.name) := by
    rw [hassembled, ← unconnected_warnings hmade.perm, ← unused_warnings hlib.sound hcode]
    rfl
  refine ⟨order, _, hmade, ?_, ?_, hwarnings, ?_⟩
  · rw [map_declaredSockets]
    exact declaredInputs_nodup hlib.sound hw.isOrder.nodup
  · intro n hn hext
    obtain ⟨t, ht⟩ := (hcode n hn).1.type (fun heq => hext (Node.isExternal_iff.mp heq))
    obtain ⟨text, htext, _⟩ := nodeCode_library hext ht (hcode n hn).2.eq
    exact ⟨t, text, ht, htext, bodyWords_eq ht htext⟩
  · rw [hwarnings, List.map_append, List.map_map, List.map_map]
    rfl

/-- A type whose body mentions the first of its inputs and part of a longer
word. -/
def fadeLibrary : Library :=
  Library.empty.add "fade"
    ⟨[⟨"a", "float"⟩, ⟨"b", "float"⟩], [⟨"o", "float"⟩], "o = a + bb;", .empty⟩ "sample"

/-- Two nodes, the first of which feeds an input of the second that is not
used. -/
def fadeNodes : List Node := [
  .ofType "q" "fade",
  (Node.ofType "p" "fade").addEdge "q" "b" none]

theorem build_warnings_fade :
    fadeLibrary.Reached ∧
      ∃ shader, build fadeLibrary .template .standard fadeNodes = .ok shader ∧
        shader.warnings.map (fun d => (d.code, d.node))
          = [(some "W0102", some "p"), (some "W0102", some "p"), (some "W0102", some "q"),
            (some "W0101", some "p"), (some "W0101", some "q")] ∧
        ∃ (order : List Node) (program : Program),
          shader.MadeOf fadeLibrary .template .standard fadeNodes order program ∧
          shader.WarnsExactly fadeLibrary .template fadeNodes order := by
  have hreached : fadeLibrary.Reached := .add .empty (by decide +kernel)
  have hwarnings : (build fadeLibrary .template .standard fadeNodes).map
      (fun shader => shader.warnings.map fun d => (d.code, d.node))
      = .ok [(some "W0102", some "p"), (some "W0102", some "p"), (some "W0102", some "q"),
        (some "W0101", some "p"), (some "W0101", some "q")] := by
    decide +kernel
  obtain ⟨shader, hbuild, hshader⟩ := map_eq_ok.mp hwarnings
  exact ⟨hreached, shader, hbuild, hshader, build_warnings _ hreached _ _ _ _ hbuild⟩

end ShaderGraph
