import ShaderGraph.Proofs.Copies
import ShaderGraph.Proofs.Order

/-!
# What a build has established

A build that succeeds has passed all of its stages, and each stage leaves
something that the code of the program relies on. `Wired` collects it: the nodes
are in order, edges lead to declared inputs, declared inputs have storage
variables of their own, and edges have something to copy.
-/

namespace ShaderGraph

open ShaderGraph.Template

/-- Nodes of a graph from which a program can be made. -/
structure Wired (g : Graph) (lib : Library) (order : List Node) : Prop where
  perm : order.Perm g.nodes.toList
  isOrder : g.IsOrder (order.map (·.id))
  typed : ∀ n ∈ g.nodes.toList, ∀ e ∈ n.edges, g.TypedEdge lib e
  unshared : ∀ a ∈ declaredInputs lib order, ∀ b ∈ declaredInputs lib order,
    storageName a.1 a.2 = storageName b.1 b.2 → a = b
  values : ∀ n ∈ order, n.HasValues lib

theorem build_ok {lib : Library} {compiler : BodyCompiler} {layout : Layout} {nodes : List Node}
    {shader : Shader} (h : build lib compiler layout nodes = .ok shader) :
    ∃ g order program warnings, Graph.ofNodes nodes = .ok g ∧ g.check lib = .ok () ∧
      g.order = .ok order ∧ assemble lib compiler order = .ok (program, warnings) ∧
      shader = ⟨program.text layout, order.map (·.id), warnings⟩ := by
  unfold build checkedOrder checkedGraph at h
  cases hgraph : Graph.ofNodes nodes with
  | error e =>
    rw [hgraph] at h
    cases h
  | ok g =>
    simp only [hgraph] at h
    cases hcheck : g.check lib with
    | error e =>
      rw [hcheck] at h
      cases h
    | ok u =>
      simp only [hcheck] at h
      cases horder : g.order with
      | error e =>
        rw [horder] at h
        cases h
      | ok order =>
        simp only [horder] at h
        cases hassemble : assemble lib compiler order with
        | error e =>
          rw [hassemble] at h
          cases h
        | ok result =>
          simp only [hassemble] at h
          cases h
          exact ⟨g, order, result.1, result.2, rfl, hcheck, horder, hassemble, rfl⟩

theorem assemble_ok {lib : Library} {compiler : BodyCompiler} {nodes : List Node}
    {program : Program} {warnings : List Diagnostic}
    (h : assemble lib compiler nodes = .ok (program, warnings)) :
    inputGroups lib .empty nodes = .ok program.groups ∧
      ∃ more, nodeBlocks lib compiler nodes = .ok (program.blocks, more) := by
  unfold assemble at h
  split at h
  · cases h
  · split at h
    · cases h
    · next hgroups =>
      split at h
      · cases h
      · next blocks more hblocks =>
        cases h
        exact ⟨hgroups, more, hblocks⟩

/-- What the stages of a build establish together. -/
theorem wired_of_stages {g : Graph} {lib : Library} {compiler : BodyCompiler} {order : List Node}
    {program : Program} {warnings : List Diagnostic} (hcheck : g.check lib = .ok ())
    (horder : g.order = .ok order)
    (hassemble : assemble lib compiler order = .ok (program, warnings)) :
    Wired g lib order := by
  obtain ⟨hgroups, more, hblocks⟩ := assemble_ok hassemble
  exact {
    perm := Graph.order_perm horder
    isOrder := Graph.isOrder_of_order horder
    typed := fun n hn => (Graph.check_ok_iff.mp hcheck n hn).2
    unshared := fun a ha b hb => storageName_injOn hgroups ha hb
    values := (nodeBlocks_ok hblocks).2 }

variable {g : Graph} {lib : Library} {order : List Node}

theorem Wired.mem {n : Node} (h : Wired g lib order) : n ∈ order ↔ n ∈ g.nodes.toList :=
  h.perm.mem_iff

/-- Every edge leads to a declared input. -/
theorem Wired.target_declared (h : Wired g lib order) {n : Node} (hn : n ∈ order) {e : Edge}
    (he : e ∈ n.edges) {id : String} (htarget : e.target? = some id) :
    (id, e.input) ∈ declaredInputs lib order := by
  obtain ⟨m, hm, hid, hinput⟩ := h.typed n (h.mem.mp hn) e he id htarget
  exact mem_declaredInputs.mpr ⟨m, h.mem.mpr hm, hid, hinput⟩

/-- Whoever feeds a node stands before it. -/
theorem Wired.source_before {done rest : List Node} {n u : Node}
    (h : Wired g lib (done ++ n :: rest)) (hu : u ∈ g.nodes.toList)
    (hfeeds : g.Feeds u.id n.id) : u ∈ done := by
  have hlt := (h.isOrder.forward u.id n.id hfeeds).2
  have hnodup := h.isOrder.nodup
  rw [List.map_append, List.map_cons] at hlt hnodup
  have hn : n.id ∉ done.map (·.id) := by
    intro hmem
    exact (List.nodup_append.mp hnodup).2.2 _ hmem _ List.mem_cons_self rfl
  have hmem : u.id ∈ done.map (·.id) := by
    -- a node that is not among the first ones stands at `n` or after it
    by_contra hu'
    rw [List.idxOf_append_of_notMem hn, List.idxOf_append_of_notMem hu',
      List.idxOf_cons_self] at hlt
    omega
  obtain ⟨v, hv, hid⟩ := List.mem_map.mp hmem
  have hv' : v ∈ g.nodes.toList := h.mem.mp (List.mem_append_left _ hv)
  rwa [← Graph.eq_of_id_eq hv' hu hid]

end ShaderGraph
