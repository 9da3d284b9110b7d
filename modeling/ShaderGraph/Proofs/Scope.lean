import ShaderGraph.Proofs.Declarations
import ShaderGraph.Proofs.Outcome

/-!
# Which variable a storage name stands for

A storage name occurs in blocks, and a block is a scope inside the entry point,
which is a scope inside the program. The outputs that a block declares hide
storage variables of the same name, and storage variables hide shader variables.
The table of storage names keeps storage variables apart from each other only,
so nothing keeps an output or a shader variable from having the name of one.

* **resolution** — a storage name in a block stands for a storage variable,
  unless the node of the block has an output of that name; it never stands for a
  shader variable (`Program.Orderly.resolves`);
* **what is missing** — storage variables are not captured if and only if no
  output and no shader variable has the name of one (`uncaptured_iff`), and that
  a build does not look for (`build_captures`);
* **what suffices** — to leave names that begin as storage names do to storage
  variables (`build_uncaptured_iff`).
-/

namespace ShaderGraph

open ShaderGraph.Template

/-! ## Scopes -/

/-- Where a name that occurs in a block is declared. -/
inductive Scope where
  /-- Among the outputs of the block. -/
  | block
  /-- Among the storage variables of the entry point. -/
  | entry
  /-- Among the shader variables of the program. -/
  | program
deriving DecidableEq, Repr

/-- The innermost scope that declares a name in a block. Bodies are texts, and
what they declare on their own is not looked at. -/
def Program.scope? (p : Program) (b : Block) (name : String) : Option Scope :=
  if name ∈ b.code.outputs.map (·.name) then some .block
  else if name ∈ p.storage.map (·.name) then some .entry
  else if name ∈ p.externals.map (·.name) then some .program
  else none

/-- The storage names in the block of a node: those that copies assign to, and
those that stand for inputs in the body. -/
def Block.storageNames (lib : Library) (compiler : BodyCompiler) (n : Node) (b : Block) :
    List String :=
  b.code.copies.map (·.storage) ++ (n.mentioned lib compiler).map (storageName n.id)

/-- Storage variables share no name with outputs and shader variables, and every
storage name in a block stands for a storage variable. -/
structure Program.Uncaptured (lib : Library) (compiler : BodyCompiler) (order : List Node)
    (p : Program) : Prop where
  outputs : ∀ b ∈ p.blocks, ∀ s ∈ b.code.outputs, s.name ∉ p.storage.map (·.name)
  externals : ∀ e ∈ p.externals, e.name ∉ p.storage.map (·.name)
  resolves : List.Forall₂ (fun n b => ∀ name ∈ b.storageNames lib compiler n,
    p.scope? b name = some .entry) order p.blocks

/-- The outputs that a type declares; the external type has none. -/
def Library.outputsOf (lib : Library) (tag : String) : List Socket :=
  if tag = externalTag then []
  else match lib.lookup? tag with
    | none => []
    | some t => t.outputs

/-- No output and no shader variable of nodes has the name of a storage
variable. -/
structure Unshadowed (lib : Library) (nodes : List Node) : Prop where
  outputs : ∀ n ∈ nodes, ∀ s ∈ lib.outputsOf n.tag, ∀ ref ∈ declaredInputs lib nodes,
    s.name ≠ storageName ref.1 ref.2
  externals : ∀ b ∈ nodes.filterMap Node.bridge?, ∀ ref ∈ declaredInputs lib nodes,
    b.name ≠ storageName ref.1 ref.2

/-- A name that begins as storage names do. -/
def HasStoragePrefix (name : String) : Prop := "inp_".toList <+: name.toList

instance : DecidablePred HasStoragePrefix := fun name =>
  inferInstanceAs (Decidable ("inp_".toList <+: name.toList))

/-- Nodes that leave names with the prefix of storage names to storage
variables. -/
structure ReservesPrefix (lib : Library) (nodes : List Node) : Prop where
  outputs : ∀ n ∈ nodes, ∀ s ∈ lib.outputsOf n.tag, ¬ HasStoragePrefix s.name
  externals : ∀ b ∈ nodes.filterMap Node.bridge?, ¬ HasStoragePrefix b.name

section Names

variable {lib : Library} {nodes nodes' : List Node}

theorem storageName_hasStoragePrefix (id input : String) :
    HasStoragePrefix (storageName id input) := by
  unfold HasStoragePrefix storageName
  rw [String.toList_append, String.toList_append, String.toList_append, List.append_assoc,
    List.append_assoc]
  exact List.prefix_append _ _

theorem ReservesPrefix.unshadowed (h : ReservesPrefix lib nodes) : Unshadowed lib nodes where
  outputs := by
    intro n hn s hs ref _ heq
    exact h.outputs n hn s hs (heq ▸ storageName_hasStoragePrefix ref.1 ref.2)
  externals := by
    intro b hb ref _ heq
    exact h.externals b hb (heq ▸ storageName_hasStoragePrefix ref.1 ref.2)

theorem Unshadowed.perm (h : Unshadowed lib nodes) (hperm : nodes.Perm nodes') :
    Unshadowed lib nodes' := by
  have hinputs := declaredInputs_perm lib hperm
  have hexternals := hperm.filterMap Node.bridge?
  constructor
  · intro n hn s hs ref href
    exact h.outputs n (hperm.mem_iff.mpr hn) s hs ref (hinputs.mem_iff.mpr href)
  · intro b hb ref href
    exact h.externals b (hexternals.mem_iff.mpr hb) ref (hinputs.mem_iff.mpr href)

end Names

/-! ## Orderly programs -/

section Orderly

variable {lib : Library} {compiler : BodyCompiler} {order : List Node} {p : Program}

theorem Block.Realizes.outputs_eq {n : Node} {b : Block} (h : b.Realizes lib compiler n) :
    b.code.outputs = lib.outputsOf n.tag := by
  unfold Library.outputsOf
  by_cases hext : n.tag = externalTag
  · rw [if_pos hext, (h.external hext).1]
  · obtain ⟨t, _, ht, _, houtputs, _⟩ := h.library hext
    rw [if_neg hext, houtputs, ht]

theorem Program.Orderly.mem_names (h : p.Orderly lib compiler order) {name : String} :
    name ∈ p.storage.map (·.name) ↔
      ∃ ref ∈ declaredInputs lib order, storageName ref.1 ref.2 = name := by
  rw [h.names, List.mem_map]

theorem Program.Orderly.storageNames_mem (h : p.Orderly lib compiler order) {n : Node} {b : Block}
    (hn : n ∈ order) (hb : b ∈ p.blocks) :
    ∀ name ∈ b.storageNames lib compiler n, name ∈ p.storage.map (·.name) := by
  intro name hname
  rcases List.mem_append.mp hname with hcopy | hread
  · obtain ⟨c, hc, rfl⟩ := List.mem_map.mp hcopy
    exact h.assigned b hb c hc
  · obtain ⟨i, hi, rfl⟩ := List.mem_map.mp hread
    exact (h.substituted n hn i hi).2

/-- What holds of every block beside the node it realizes. -/
theorem Program.Orderly.forall_blocks (h : p.Orderly lib compiler order)
    {R : Node → Block → Prop}
    (hR : ∀ n ∈ order, ∀ b ∈ p.blocks, b.Realizes lib compiler n → R n b) :
    List.Forall₂ R order p.blocks := by
  rw [List.forall₂_iff_get]
  refine ⟨h.blocks.length_eq, ?_⟩
  intro i hi hi'
  exact hR _ (List.get_mem order ⟨i, hi⟩) _ (List.get_mem p.blocks ⟨i, hi'⟩) (h.blocks.get hi hi')

/-- A storage name in the block of a node is that of a storage variable, unless
the node has an output of that name. -/
theorem Program.Orderly.resolves (h : p.Orderly lib compiler order) :
    List.Forall₂ (fun n b => ∀ name ∈ b.storageNames lib compiler n, p.scope? b name =
      some (if name ∈ (lib.outputsOf n.tag).map (·.name) then .block else .entry))
      order p.blocks := by
  refine h.forall_blocks ?_
  intro n hn b hb hrealizes name hname
  unfold Program.scope?
  rw [hrealizes.outputs_eq, if_pos (h.storageNames_mem hn hb name hname)]
  split
  · rfl
  · rfl

theorem forall_outputs_iff {blocks : List Block} {P : Socket → Prop}
    (h : List.Forall₂ (Block.Realizes lib compiler) order blocks) :
    (∀ b ∈ blocks, ∀ s ∈ b.code.outputs, P s) ↔ ∀ n ∈ order, ∀ s ∈ lib.outputsOf n.tag, P s := by
  induction h with
  | nil => simp
  | cons hb _ ih => rw [List.forall_mem_cons, List.forall_mem_cons, hb.outputs_eq, ih]

/-- Storage variables of an orderly program are not captured if and only if no
output and no shader variable has the name of one. -/
theorem uncaptured_iff (h : p.Orderly lib compiler order) :
    p.Uncaptured lib compiler order ↔ Unshadowed lib order := by
  have hnames : ∀ name, name ∉ p.storage.map (·.name) ↔
      ∀ ref ∈ declaredInputs lib order, name ≠ storageName ref.1 ref.2 := by
    intro name
    rw [h.mem_names]
    constructor
    · rintro hno ref href rfl
      exact hno ⟨ref, href, rfl⟩
    · rintro hne ⟨ref, href, rfl⟩
      exact hne ref href rfl
  have houtputs : (∀ b ∈ p.blocks, ∀ s ∈ b.code.outputs, s.name ∉ p.storage.map (·.name)) ↔
      ∀ n ∈ order, ∀ s ∈ lib.outputsOf n.tag, ∀ ref ∈ declaredInputs lib order,
        s.name ≠ storageName ref.1 ref.2 := by
    simp only [hnames]
    exact forall_outputs_iff h.blocks
  have hexternals : (∀ e ∈ p.externals, e.name ∉ p.storage.map (·.name)) ↔
      ∀ b ∈ order.filterMap Node.bridge?, ∀ ref ∈ declaredInputs lib order,
        b.name ≠ storageName ref.1 ref.2 := by
    simp only [hnames, h.externals]
  constructor
  · intro huncaptured
    exact ⟨houtputs.mp huncaptured.outputs, hexternals.mp huncaptured.externals⟩
  · intro hunshadowed
    refine ⟨houtputs.mpr hunshadowed.outputs, hexternals.mpr hunshadowed.externals, ?_⟩
    refine h.forall_blocks ?_
    intro n hn b hb hrealizes name hname
    have hdeclared := h.storageNames_mem hn hb name hname
    -- no output of the node can hide the storage variable
    have hno : name ∉ b.code.outputs.map (·.name) := by
      intro houtput
      rw [hrealizes.outputs_eq] at houtput
      obtain ⟨s, hs, rfl⟩ := List.mem_map.mp houtput
      exact (hnames s.name).mpr (hunshadowed.outputs n hn s hs) hdeclared
    rw [Program.scope?, if_neg hno, if_pos hdeclared]

end Orderly

/-! ## Builds -/

/-- A storage name in the block of a node stands for a storage variable of the
entry point, unless the node has an output of that name. Storage variables of a
build are not captured if and only if no output and no shader variable has the
name of one, so it is enough if none has the prefix of storage names. -/
theorem build_uncaptured_iff (lib : Library) (hlib : lib.Reached) (compiler : BodyCompiler)
    (layout : Layout) (nodes : List Node) (shader : Shader)
    (hbuild : build lib compiler layout nodes = .ok shader) :
    ∃ (order : List Node) (program : Program),
      shader.MadeOf lib compiler layout nodes order program ∧
      List.Forall₂ (fun n b => ∀ name ∈ b.storageNames lib compiler n, program.scope? b name =
        some (if name ∈ (lib.outputsOf n.tag).map (·.name) then .block else .entry))
        order program.blocks ∧
      (program.Uncaptured lib compiler order ↔ Unshadowed lib nodes) ∧
      (ReservesPrefix lib nodes → program.Uncaptured lib compiler order) := by
  obtain ⟨g, order, _, hw, hcode, hmade, _⟩ := build_madeOf hbuild
  have horderly := assembled_orderly hlib.sound hw hcode
  have hiff : (assembled lib compiler order).1.Uncaptured lib compiler order ↔
      Unshadowed lib nodes := by
    rw [uncaptured_iff horderly]
    exact ⟨fun h => h.perm hmade.perm, fun h => h.perm hmade.perm.symm⟩
  exact ⟨order, _, hmade, horderly.resolves, hiff, fun h => hiff.mpr h.unshadowed⟩

/-- The sample leaves the prefix of storage names to storage variables. -/
theorem build_uncaptured_iff_sample :
    sampleLibrary.Reached ∧ ReservesPrefix sampleLibrary sampleNodes ∧
      ∃ shader, build sampleLibrary .template .standard sampleNodes = .ok shader ∧
        ∃ (order : List Node) (program : Program),
          shader.MadeOf sampleLibrary .template .standard sampleNodes order program ∧
          program.Uncaptured sampleLibrary .template order := by
  have hreserves : ReservesPrefix sampleLibrary sampleNodes :=
    ⟨by decide +kernel, by decide +kernel⟩
  obtain ⟨shader, hbuild⟩ := sampleNodes_builds
  obtain ⟨order, program, hmade, _, _, huncaptured⟩ :=
    build_uncaptured_iff _ sampleLibrary_reached _ _ _ _ hbuild
  exact ⟨sampleLibrary_reached, hreserves, shader, hbuild, order, program, hmade,
    huncaptured hreserves⟩

/-- Types for a sum of constants, the first of which has an output with the name
of a storage variable. -/
def capturingLibrary : Library :=
  (Library.empty.add "one" ⟨[], [⟨"inp_b_v", "float"⟩], "inp_b_v = 1.0;", .empty⟩ "sample").add
    "sum" ⟨[⟨"v", "float"⟩, ⟨"w", "float"⟩], [⟨"o", "float"⟩], "o = v + w;", .empty⟩ "sample"

/-- A sum of two values, neither of which reaches it: the output of `a` hides the
storage variable for `v`, and that for `w` hides the shader variable of `u`. -/
def capturingNodes : List Node := [
  (Node.ofType "a" "one").addEdge "b" "v" none,
  (Node.ofBinding "u" ⟨"uniform", "float", "inp_b_w"⟩).addEdge "b" "w" none,
  .ofType "b" "sum"]

/-- The order in which the nodes are built. -/
def capturingOrder : List Node := [
  (Node.ofBinding "u" ⟨"uniform", "float", "inp_b_w"⟩).addEdge "b" "w" none,
  (Node.ofType "a" "one").addEdge "b" "v" none,
  .ofType "b" "sum"]

def capturingProgram : Program := (assembled capturingLibrary .template capturingOrder).1

/-- A build can succeed although a copy assigns to an output of its own block
instead of a storage variable, and a shader variable has the name of another. -/
theorem build_captures :
    capturingLibrary.Reached ∧
      ∃ shader, build capturingLibrary .template .standard capturingNodes = .ok shader ∧
        shader.MadeOf capturingLibrary .template .standard capturingNodes capturingOrder
          capturingProgram ∧
        (∃ b ∈ capturingProgram.blocks, ∃ c ∈ b.code.copies, c.storage = storageName "b" "v" ∧
          capturingProgram.scope? b c.storage = some .block) ∧
        (∃ e ∈ capturingProgram.externals, e.name = storageName "b" "w" ∧
          e.name ∈ capturingProgram.storage.map (·.name)) ∧
        ¬ capturingProgram.Uncaptured capturingLibrary .template capturingOrder := by
  have hreached : capturingLibrary.Reached :=
    .add (.add .empty (by decide +kernel)) (by decide +kernel)
  have hbuild : build capturingLibrary .template .standard capturingNodes
      = .ok ⟨capturingProgram.text .standard, capturingOrder.map (·.id), []⟩ := by
    decide +kernel
  have hassemble : assemble capturingLibrary .template capturingOrder
      = .ok (capturingProgram, []) := by
    decide +kernel
  have hexternal : ∃ e ∈ capturingProgram.externals, e.name = storageName "b" "w" ∧
      e.name ∈ capturingProgram.storage.map (·.name) := by
    decide +kernel
  refine ⟨hreached, _, hbuild, ⟨by decide +kernel, rfl, hassemble, rfl⟩, by decide +kernel,
    hexternal, ?_⟩
  intro huncaptured
  obtain ⟨e, he, _, hmem⟩ := hexternal
  exact huncaptured.externals e he hmem

end ShaderGraph
