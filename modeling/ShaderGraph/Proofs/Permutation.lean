import ShaderGraph.Proofs.Declarations
import ShaderGraph.Proofs.Verdict

/-!
# Builds do not depend on how nodes are listed

The order in which nodes are listed decides where the search for an order
begins, which fault is found first and in which order parts are written. It does
not decide what is built:

* **success** — whether a graph passes the check, is acyclic, has inputs that
  share a storage name or has faulty nodes is a matter of which nodes it has
  (`build_succeeds_of_perm`);
* **parts** — a node brings the same shader variable, storage variables, block
  and warnings into every program (`assembled_rearranged`, `warnings_perm`).

`build_perm` puts the two together.
-/

namespace ShaderGraph

open ShaderGraph.Template

/-! ## Success -/

namespace Graph

variable {g g' : Graph} {lib : Library}

theorem Feeds.perm {u v : String} (h : g.Feeds u v)
    (hperm : g.nodes.toList.Perm g'.nodes.toList) : g'.Feeds u v := by
  obtain ⟨n, hn, hid, hv⟩ := h
  exact ⟨n, hperm.mem_iff.mp hn, hid, hv⟩

theorem Acyclic.perm (h : g.Acyclic) (hperm : g.nodes.toList.Perm g'.nodes.toList) :
    g'.Acyclic := by
  have hfeeds : ∀ u v, g'.Feeds u v → g.Feeds u v := fun u v huv => huv.perm hperm.symm
  intro id hcycle
  exact h id (Relation.TransGen.mono hfeeds id id hcycle)

theorem check_perm (h : g.check lib = .ok ()) (hperm : g.nodes.toList.Perm g'.nodes.toList) :
    g'.check lib = .ok () := by
  rw [check_ok_iff] at h ⊢
  intro n hn
  obtain ⟨hnode, hedges⟩ := h n (hperm.mem_iff.mpr hn)
  refine ⟨hnode, ?_⟩
  intro e he id htarget
  obtain ⟨m, hm, hid, hinput⟩ := hedges e he id htarget
  exact ⟨m, hperm.mem_iff.mp hm, hid, hinput⟩

/-- Nothing stands in the way of a build. -/
structure Buildable (lib : Library) (compiler : BodyCompiler) (g : Graph) : Prop where
  checked : g.check lib = .ok ()
  acyclic : g.Acyclic
  unshared : ¬ Clash lib g.nodes.toList
  sound : ∀ n ∈ g.nodes.toList, ¬ n.Faulty lib compiler

theorem Buildable.perm {compiler : BodyCompiler} (h : g.Buildable lib compiler)
    (hperm : g.nodes.toList.Perm g'.nodes.toList) : g'.Buildable lib compiler where
  checked := check_perm h.checked hperm
  acyclic := h.acyclic.perm hperm
  unshared := fun hclash => h.unshared (hclash.perm hperm.symm)
  sound := fun n hn => h.sound n (hperm.mem_iff.mpr hn)

end Graph

section Success

variable {lib : Library} {compiler : BodyCompiler} {layout : Layout} {nodes nodes' : List Node}

theorem build_succeeds_iff {g : Graph} (hgraph : Graph.ofNodes nodes = .ok g) :
    (∃ shader, build lib compiler layout nodes = .ok shader) ↔ g.Buildable lib compiler := by
  have hverdict := build_verdict lib compiler layout hgraph
  constructor
  · rintro ⟨shader, hbuild⟩
    rw [hbuild] at hverdict
    cases hverdict with
    | built hcheck hacyclic hclash horder hsound =>
      refine ⟨hcheck, hacyclic, hclash, ?_⟩
      intro n hn
      exact hsound n ((Graph.order_perm horder).mem_iff.mpr hn)
  · intro h
    exact (hverdict.decides.built h.checked h.acyclic h.unshared).mpr h.sound

/-- A build of nodes that are listed in another way succeeds as well. -/
theorem build_succeeds_of_perm (hperm : nodes.Perm nodes')
    (h : ∃ shader, build lib compiler layout nodes = .ok shader) :
    ∃ shader', build lib compiler layout nodes' = .ok shader' := by
  obtain ⟨shader, hbuild⟩ := h
  obtain ⟨g, _, _, _, hgraph, _⟩ := build_ok hbuild
  cases hgraph' : Graph.ofNodes nodes' with
  | error err =>
    have hnodup := (hperm.map (·.id)).nodup_iff.mp (Graph.nodup_of_ofNodes hgraph)
    exact absurd hnodup (Graph.repeat_of_ofNodes hgraph').2
  | ok g' =>
    have hnodes : g.nodes.toList.Perm g'.nodes.toList := by
      rw [Graph.nodes_of_ofNodes hgraph, Graph.nodes_of_ofNodes hgraph']
      exact hperm
    rw [build_succeeds_iff hgraph']
    exact ((build_succeeds_iff hgraph).mp ⟨shader, hbuild⟩).perm hnodes

end Success

/-! ## Parts -/

/-- Programs that have the same parts, each in an order of its own. -/
structure Program.Rearranged (p p' : Program) : Prop where
  externals : p.externals.Perm p'.externals
  groups : p.groups.Perm p'.groups
  blocks : p.blocks.Perm p'.blocks

section Parts

variable {lib : Library} {compiler : BodyCompiler} {nodes nodes' : List Node} {p p' : Program}

theorem Program.Rearranged.storage (h : p.Rearranged p') : p.storage.Perm p'.storage :=
  h.groups.flatMap_right _

/-- In programs with the same parts, blocks of one id are equal. -/
theorem Program.Rearranged.block_eq (h : p.Rearranged p') (hids : (p.blocks.map (·.id)).Nodup)
    {b b' : Block} (hb : b ∈ p.blocks) (hb' : b' ∈ p'.blocks) (hid : b.id = b'.id) : b = b' :=
  List.inj_on_of_nodup_map hids hb (h.blocks.mem_iff.mpr hb') hid

theorem assembled_rearranged (hperm : nodes.Perm nodes') :
    (assembled lib compiler nodes).1.Rearranged (assembled lib compiler nodes').1 where
  externals := hperm.filterMap _
  groups := hperm.filterMap _
  blocks := hperm.map _

/-- Which inputs are warned about depends on which of them are written. -/
theorem nodeUnconnected_congr {written written' : List InputRef}
    (h : ∀ ref, ref ∈ written ↔ ref ∈ written') :
    nodeUnconnected lib written = nodeUnconnected lib written' := by
  have hcontains : ∀ ref, written.contains ref = written'.contains ref := by
    intro ref
    rw [Bool.eq_iff_iff, List.contains_iff_mem, List.contains_iff_mem, h ref]
  funext n
  unfold nodeUnconnected
  simp only [hcontains]

theorem warnings_perm (hperm : nodes.Perm nodes') :
    (assembled lib compiler nodes).2.Perm (assembled lib compiler nodes').2 := by
  have hwritten : ∀ ref, ref ∈ writtenInputs nodes ↔ ref ∈ writtenInputs nodes' :=
    fun ref => (hperm.flatMap_right _).mem_iff
  show List.Perm (_ ++ _) (_ ++ _)
  rw [nodeUnconnected_congr hwritten]
  exact (hperm.flatMap_right _).append (hperm.flatMap_right _)

end Parts

/-! ## Builds -/

/-- Every edge of the nodes leads to an id that comes later. -/
def EdgesForward (nodes : List Node) (order : List String) : Prop :=
  ∀ n ∈ nodes, ∀ v ∈ n.successors, v ∈ order ∧ order.idxOf n.id < order.idxOf v

theorem Wired.edgesForward {g : Graph} {lib : Library} {order : List Node}
    (h : Wired g lib order) : EdgesForward g.nodes.toList (order.map (·.id)) := by
  intro n hn v hv
  exact h.isOrder.forward n.id v ⟨n, hn, rfl, hv⟩

/-- If a list of nodes can be built, then so can all of its permutations. The
two programs have the same parts, with the same text for the block of each node,
and both are in an order that has producers before their consumers. -/
theorem build_perm (lib : Library) (compiler : BodyCompiler) (layout : Layout)
    (nodes nodes' : List Node) (hperm : nodes.Perm nodes') :
    ((∃ shader, build lib compiler layout nodes = .ok shader) ↔
        ∃ shader', build lib compiler layout nodes' = .ok shader') ∧
      ∀ shader shader', build lib compiler layout nodes = .ok shader →
        build lib compiler layout nodes' = .ok shader' →
        ∃ (order order' : List Node) (program program' : Program),
          shader.MadeOf lib compiler layout nodes order program ∧
          shader'.MadeOf lib compiler layout nodes' order' program' ∧
          program.Rearranged program' ∧
          (∀ b ∈ program.blocks, ∀ b' ∈ program'.blocks, b.id = b'.id →
            b.text layout = b'.text layout) ∧
          (program.externals.map Binding.declaration).Perm
            (program'.externals.map Binding.declaration) ∧
          (program.storage.map (Storage.text layout)).Perm
            (program'.storage.map (Storage.text layout)) ∧
          shader.warnings.Perm shader'.warnings ∧
          shader.order.Perm shader'.order ∧
          EdgesForward nodes shader.order ∧ EdgesForward nodes' shader'.order := by
  refine ⟨⟨build_succeeds_of_perm hperm, build_succeeds_of_perm hperm.symm⟩, ?_⟩
  intro shader shader' hbuild hbuild'
  obtain ⟨g, order, hnodes, hw, _, hmade, hwarnings⟩ := build_madeOf hbuild
  obtain ⟨g', order', hnodes', hw', _, hmade', hwarnings'⟩ := build_madeOf hbuild'
  have horders : order.Perm order' := (hmade.perm.trans hperm).trans hmade'.perm.symm
  have hparts : (assembled lib compiler order).1.Rearranged (assembled lib compiler order').1 :=
    assembled_rearranged horders
  have hids : ((assembled lib compiler order).1.blocks.map (·.id)).Nodup := by
    rw [assembled_ids]
    exact hw.isOrder.nodup
  refine ⟨order, order', _, _, hmade, hmade', hparts, ?_, hparts.externals.map _,
    hparts.storage.map _, ?_, ?_, ?_, ?_⟩
  · intro b hb b' hb' hid
    rw [hparts.block_eq hids hb hb' hid]
  · rw [hwarnings, hwarnings']
    exact warnings_perm horders
  · rw [hmade.ids_eq, hmade'.ids_eq]
    exact horders.map _
  · rw [hmade.ids_eq, ← hnodes]
    exact hw.edgesForward
  · rw [hmade'.ids_eq, ← hnodes']
    exact hw'.edgesForward

/-- The sample can be built from its first node on as well as from its last. -/
theorem build_perm_sample :
    sampleNodes.Perm sampleNodes.reverse ∧
      ∃ shader shader', build sampleLibrary .template .standard sampleNodes = .ok shader ∧
        build sampleLibrary .template .standard sampleNodes.reverse = .ok shader' ∧
        shader.warnings.Perm shader'.warnings ∧ shader.order.Perm shader'.order ∧
        EdgesForward sampleNodes shader.order ∧
        EdgesForward sampleNodes.reverse shader'.order := by
  have hperm : sampleNodes.Perm sampleNodes.reverse := (List.reverse_perm _).symm
  obtain ⟨hiff, hboth⟩ := build_perm sampleLibrary .template .standard _ _ hperm
  obtain ⟨shader, hbuild⟩ := sampleNodes_builds
  obtain ⟨shader', hbuild'⟩ := hiff.mp ⟨shader, hbuild⟩
  obtain ⟨_, _, _, _, _, _, _, _, _, _, hwarnings, horders, hforward, hforward'⟩ :=
    hboth shader shader' hbuild hbuild'
  exact ⟨hperm, shader, shader', hbuild, hbuild', hwarnings, horders, hforward, hforward'⟩

end ShaderGraph
