import ShaderGraph.Proofs.Feeds

/-!
# What the check of a graph checks

`Graph.check` goes through the nodes and their edges in order and stops at the
first fault. `check_ok_iff` says what is left when it finds none: every node is
typed (`TypedNode`), and every edge that is not to the sink leads to a declared
input of a library node (`TypedEdge`).
-/

namespace ShaderGraph

/-- The names of the inputs that a type declares; the external type has none. -/
def Library.inputNames (lib : Library) (tag : String) : List String :=
  if tag = externalTag then []
  else match lib.lookup? tag with
    | none => []
    | some t => t.inputs.map (·.name)

theorem Library.inputNames_eq {lib : Library} {tag : String} {t : NodeType}
    (hext : tag ≠ externalTag) (ht : lib.lookup? tag = some t) :
    lib.inputNames tag = t.inputs.map (·.name) := by
  rw [Library.inputNames, if_neg hext, ht]

/-- An input is declared if the type is a library type that has it. -/
theorem Library.mem_inputNames {lib : Library} {tag input : String} :
    input ∈ lib.inputNames tag ↔
      tag ≠ externalTag ∧ ∃ t, lib.lookup? tag = some t ∧ input ∈ t.inputs.map (·.name) := by
  unfold Library.inputNames
  split
  · next hext => simp [hext]
  · next hext =>
    cases lib.lookup? tag with
    | none => simp
    | some t => simp [hext]

theorem Node.isExternal_iff {n : Node} : n.isExternal = true ↔ n.tag = externalTag := beq_iff_eq

/-- An input is found by its name if it is declared. -/
theorem NodeType.isSome_input? {t : NodeType} {name : String} :
    (t.input? name).isSome = true ↔ name ∈ t.inputs.map (·.name) := by
  rw [NodeType.input?, List.find?_isSome, List.mem_map]
  simp

namespace Graph

variable {g : Graph} {lib : Library}

/-- A node whose id is not the sink's, with a binding if it is external and a
type if it is not. -/
structure TypedNode (lib : Library) (n : Node) : Prop where
  id_ne : n.id ≠ sinkMarker
  typed : if n.isExternal then n.binding.isSome = true else (lib.lookup? n.tag).isSome = true

/-- An edge that leads to the sink or to a declared input of a node. -/
def TypedEdge (g : Graph) (lib : Library) (e : Edge) : Prop :=
  ∀ id, e.target? = some id →
    ∃ n ∈ g.nodes.toList, n.id = id ∧ e.input ∈ lib.inputNames n.tag

theorem checkNode_ok_iff {n : Node} : checkNode lib n = .ok () ↔ TypedNode lib n := by
  unfold checkNode
  by_cases hid : n.id = sinkMarker
  · rw [if_pos hid]
    exact ⟨nofun, fun h => absurd hid h.id_ne⟩
  · rw [if_neg hid]
    suffices hcases : _ ↔ if n.isExternal then n.binding.isSome = true
        else (lib.lookup? n.tag).isSome = true from
      hcases.trans ⟨fun h => ⟨hid, h⟩, fun h => h.typed⟩
    split
    · cases n.binding with
      | none => simp
      | some b => simp
    · cases lib.lookup? n.tag with
      | none => simp
      | some t => simp

theorem checkTarget_ok_iff {n target : Node} {input : String} :
    checkTarget lib n target input = .ok () ↔ input ∈ lib.inputNames target.tag := by
  unfold checkTarget Library.inputNames
  by_cases hext : target.tag = externalTag
  · simp [Node.isExternal_iff.mpr hext, hext]
  · have hext' : target.isExternal = false := by
      rw [← Bool.not_eq_true, Node.isExternal_iff]
      exact hext
    rw [hext', if_neg (by simp), if_neg hext]
    cases lib.lookup? target.tag with
    | none => simp
    | some t =>
      simp only
      rw [← NodeType.isSome_input?]
      split
      · next h => simp [h]
      · next h => simp [h]

theorem checkEdge_ok_iff {n : Node} {e : Edge} :
    g.checkEdge lib n e = .ok () ↔ g.TypedEdge lib e := by
  unfold checkEdge TypedEdge
  cases htarget : e.target with
  | sink => simp [Edge.target?_of_sink htarget]
  | node id =>
    simp only
    rw [Edge.target?_of_node htarget]
    cases hfind : g.find? id with
    | none =>
      refine ⟨nofun, fun h => ?_⟩
      obtain ⟨m, hm, hid, _⟩ := h id rfl
      rw [find?_eq_some.mpr ⟨hm, hid⟩] at hfind
      cases hfind
    | some target =>
      obtain ⟨hmem, hid⟩ := find?_eq_some.mp hfind
      simp only
      rw [checkTarget_ok_iff]
      constructor
      · intro hinput id' hid'
        cases hid'
        exact ⟨target, hmem, hid, hinput⟩
      · intro h
        obtain ⟨m, hm, hid', hinput⟩ := h id rfl
        rwa [← eq_of_id_eq hm hmem (hid'.trans hid.symm)]

theorem checkEdges_ok_iff {n : Node} {edges : List Edge} :
    g.checkEdges lib n edges = .ok () ↔ ∀ e ∈ edges, g.TypedEdge lib e := by
  induction edges with
  | nil => simp [checkEdges]
  | cons e rest ih =>
    rw [List.forall_mem_cons, ← checkEdge_ok_iff (n := n), ← ih, checkEdges]
    cases g.checkEdge lib n e with
    | error err => simp
    | ok u => simp

theorem checkNodes_ok_iff {nodes : List Node} :
    g.checkNodes lib nodes = .ok () ↔
      ∀ n ∈ nodes, TypedNode lib n ∧ ∀ e ∈ n.edges, g.TypedEdge lib e := by
  induction nodes with
  | nil => simp [checkNodes]
  | cons n rest ih =>
    rw [List.forall_mem_cons, ← checkNode_ok_iff, ← checkEdges_ok_iff (n := n), ← ih, checkNodes]
    cases checkNode lib n with
    | error err => simp
    | ok u =>
      cases g.checkEdges lib n n.edges with
      | error err => simp
      | ok u => simp

/-- A graph passes the check exactly if its nodes and edges are typed. -/
theorem check_ok_iff :
    g.check lib = .ok () ↔
      ∀ n ∈ g.nodes.toList, TypedNode lib n ∧ ∀ e ∈ n.edges, g.TypedEdge lib e :=
  checkNodes_ok_iff

/-- The graph of a list of nodes has these nodes. -/
theorem nodes_of_ofNodes {nodes : List Node} (h : ofNodes nodes = .ok g) :
    g.nodes.toList = nodes := by
  unfold ofNodes at h
  split at h
  · cases h
  · cases h
    rfl

end Graph

end ShaderGraph
