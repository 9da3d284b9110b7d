import ShaderGraph.Proofs.Scope

/-!
# Which storage names are identifiers

A storage name is put together from the id of a node and the name of an input, and it is an
identifier if both are made of the characters that identifiers go on with
(`storageName_isName_iff`). A library sees to that for the names of inputs
(`Library.Sound.isName`); ids are taken from the graph file as they are.

So the storage names of a program are identifiers — where they are declared, where copies assign
to them and where they stand for inputs in bodies — if and only if the ids of the nodes that have
inputs are made of such characters (`build_identifiers_iff`). That a build does not look at
(`build_malformed_names`).
-/

namespace ShaderGraph

open ShaderGraph.Template

/-- A text that can be part of an identifier: it is made of the characters that identifiers go
on with. -/
def IsNamePart (cs : List Char) : Prop := ∀ c ∈ cs, IsLetter c ∨ IsDigit c ∨ c = '_'

instance (cs : List Char) : Decidable (IsNamePart cs) :=
  decidable_of_iff (cs.all isNameChar = true) (by
    simp only [IsNamePart, List.all_eq_true, isNameChar_iff])

theorem IsName.isNamePart {cs : List Char} (h : IsName cs) : IsNamePart cs := by
  cases cs with
  | nil => cases h
  | cons c rest =>
    refine List.forall_mem_cons.mpr ⟨?_, h.2⟩
    exact h.1.imp_right .inr

theorem isNamePart_append (cs ds : List Char) :
    IsNamePart (cs ++ ds) ↔ IsNamePart cs ∧ IsNamePart ds := List.forall_mem_append

/-- A storage name is an identifier if both parts of it can be part of one. -/
theorem storageName_isName_iff (id input : String) :
    IsName (storageName id input).toList ↔ IsNamePart id.toList ∧ IsNamePart input.toList := by
  have hchars : (storageName id input).toList
      = 'i' :: (['n', 'p', '_'] ++ id.toList ++ ['_'] ++ input.toList) := by
    simp [storageName]
  have hfirst : IsLetter 'i' ∨ 'i' = '_' := (isNameStart_iff 'i').mp (by decide)
  have hbetween : IsNamePart ['n', 'p', '_'] ∧ IsNamePart ['_'] := by decide
  rw [hchars]
  show (IsLetter 'i' ∨ 'i' = '_') ∧
    IsNamePart (['n', 'p', '_'] ++ id.toList ++ ['_'] ++ input.toList) ↔ _
  simp only [isNamePart_append, hfirst, hbetween, true_and, and_true]

/-- The names of inputs are identifiers in a sound library. -/
theorem Library.Sound.isName {lib : Library} (h : lib.Sound) {tag input : String}
    (hinput : input ∈ lib.inputNames tag) : IsName input.toList := by
  obtain ⟨_, t, ht, hmem⟩ := Library.mem_inputNames.mp hinput
  obtain ⟨p, hp, rfl⟩ := List.mem_map.mp hmem
  rw [← isNameList_iff]
  exact (h tag t ht).identifiers p (List.mem_append_left _ hp)

/-- The storage names of a program are identifiers. -/
structure Program.NamesIdentifiers (lib : Library) (compiler : BodyCompiler) (order : List Node)
    (p : Program) : Prop where
  declared : ∀ s ∈ p.storage, IsName s.name.toList
  assigned : ∀ b ∈ p.blocks, ∀ c ∈ b.code.copies, IsName c.storage.toList
  substituted : ∀ n ∈ order, ∀ i ∈ n.mentioned lib compiler, IsName (storageName n.id i).toList

/-- The ids of nodes that have inputs can be part of identifiers. -/
def IdsArePlain (lib : Library) (nodes : List Node) : Prop :=
  ∀ n ∈ nodes, lib.inputNames n.tag ≠ [] → IsNamePart n.id.toList

instance (lib : Library) (nodes : List Node) : Decidable (IdsArePlain lib nodes) :=
  inferInstanceAs (Decidable (∀ n ∈ nodes, lib.inputNames n.tag ≠ [] → IsNamePart n.id.toList))

section Programs

variable {lib : Library} {compiler : BodyCompiler} {order : List Node} {p : Program}

/-- Whatever is named has been declared, so only the declarations count. -/
theorem namesIdentifiers_iff_declared (h : p.Orderly lib compiler order) :
    p.NamesIdentifiers lib compiler order ↔
      ∀ ref ∈ declaredInputs lib order, IsName (storageName ref.1 ref.2).toList := by
  constructor
  · intro hnames ref href
    obtain ⟨s, hs, heq⟩ := List.mem_map.mp (h.mem_names.mpr ⟨ref, href, rfl⟩)
    exact heq ▸ hnames.declared s hs
  · intro hall
    have hname : ∀ name ∈ p.storage.map (·.name), IsName name.toList := by
      intro name hmem
      obtain ⟨ref, href, rfl⟩ := h.mem_names.mp hmem
      exact hall ref href
    exact {
      declared := fun s hs => hname _ (List.mem_map_of_mem hs)
      assigned := fun b hb c hc => hname _ (h.assigned b hb c hc)
      substituted := fun n hn i hi => hname _ (h.substituted n hn i hi).2 }

/-- The storage name of a declared input is an identifier just if the id of the node can be part
of one. -/
theorem isName_iff_isNamePart (hlib : lib.Sound) {n : Node} {i : String}
    (hi : i ∈ lib.inputNames n.tag) :
    IsName (storageName n.id i).toList ↔ IsNamePart n.id.toList := by
  rw [storageName_isName_iff]
  exact and_iff_left (hlib.isName hi).isNamePart

theorem declared_iff_idsArePlain (hlib : lib.Sound) :
    (∀ ref ∈ declaredInputs lib order, IsName (storageName ref.1 ref.2).toList) ↔
      IdsArePlain lib order := by
  constructor
  · intro hall n hn hinputs
    obtain ⟨i, hi⟩ := List.exists_mem_of_ne_nil _ hinputs
    exact (isName_iff_isNamePart hlib hi).mp
      (hall (n.id, i) (mem_declaredInputs.mpr ⟨n, hn, rfl, hi⟩))
  · rintro hplain ⟨id, i⟩ href
    obtain ⟨n, hn, rfl, hi⟩ := mem_declaredInputs.mp href
    exact (isName_iff_isNamePart hlib hi).mpr (hplain n hn (List.ne_nil_of_mem hi))

theorem IdsArePlain.perm {nodes : List Node} (h : IdsArePlain lib nodes)
    (hperm : nodes.Perm order) : IdsArePlain lib order := by
  intro n hn
  exact h n (hperm.mem_iff.mpr hn)

end Programs

/-! ## Builds -/

/-- Every input of a node has a storage variable, whose name is an identifier just if the id of
the node can be part of one. So the storage names of a build are identifiers, wherever they
occur, if and only if that holds of the id of every node that has inputs. -/
theorem build_identifiers_iff (lib : Library) (hlib : lib.Reached) (compiler : BodyCompiler)
    (layout : Layout) (nodes : List Node) (shader : Shader)
    (hbuild : build lib compiler layout nodes = .ok shader) :
    ∃ (order : List Node) (program : Program),
      shader.MadeOf lib compiler layout nodes order program ∧
      (∀ n ∈ nodes, ∀ i ∈ lib.inputNames n.tag,
        storageName n.id i ∈ program.storage.map (·.name) ∧
        (IsName (storageName n.id i).toList ↔ IsNamePart n.id.toList)) ∧
      (program.NamesIdentifiers lib compiler order ↔ IdsArePlain lib nodes) := by
  obtain ⟨g, order, _, hw, hcode, hmade, _⟩ := build_madeOf hbuild
  have horderly := assembled_orderly hlib.sound hw hcode
  refine ⟨order, _, hmade, ?_, ?_⟩
  · intro n hn i hi
    have hdeclared : (n.id, i) ∈ declaredInputs lib order :=
      mem_declaredInputs.mpr ⟨n, hmade.perm.mem_iff.mpr hn, rfl, hi⟩
    exact ⟨horderly.mem_names.mpr ⟨_, hdeclared, rfl⟩, isName_iff_isNamePart hlib.sound hi⟩
  · rw [namesIdentifiers_iff_declared horderly, declared_iff_idsArePlain hlib.sound]
    exact ⟨fun h => h.perm hmade.perm, fun h => h.perm hmade.perm.symm⟩

/-- The ids of the sample can be part of identifiers. -/
theorem build_identifiers_iff_sample :
    sampleLibrary.Reached ∧ IdsArePlain sampleLibrary sampleNodes ∧
      ∃ shader, build sampleLibrary .template .standard sampleNodes = .ok shader ∧
        ∃ (order : List Node) (program : Program),
          shader.MadeOf sampleLibrary .template .standard sampleNodes order program ∧
          program.NamesIdentifiers sampleLibrary .template order := by
  have hplain : IdsArePlain sampleLibrary sampleNodes := by decide +kernel
  obtain ⟨shader, hbuild⟩ := sampleNodes_builds
  obtain ⟨order, program, hmade, _, hiff⟩ :=
    build_identifiers_iff _ sampleLibrary_reached _ _ _ _ hbuild
  exact ⟨sampleLibrary_reached, hplain, shader, hbuild, order, program, hmade, hiff.mpr hplain⟩

/-- A graph file with a dash in an id. -/
def dashedFile : String :=
  "[\x7b\"id\":\"u\",\"type\":\"external\",\"external\":\x7b\"inputType\":\"uniform\","
    ++ "\"dataType\":\"vec4\",\"name\":\"color\"\x7d,\"outputsTo\":"
    ++ "[\x7b\"to\":\"a-b\",\"input\":\"x\"\x7d]\x7d,\x7b\"id\":\"a-b\",\"type\":\"tint\"\x7d]"

/-- The nodes of the file. -/
def dashedNodes : List Node := [
  (Node.ofBinding "u" ⟨"uniform", "vec4", "color"⟩).addEdge "a-b" "x" none,
  .ofType "a-b" "tint"]

def dashedProgram : Program := (assembled sampleLibrary .template dashedNodes).1

/-- A graph can be built although the storage name that its program declares, assigns to and reads
is no identifier. -/
theorem build_malformed_names :
    sampleLibrary.Reached ∧ loadNodes dashedFile "graph.json" = .ok dashedNodes ∧
      ∃ shader, build sampleLibrary .template .standard dashedNodes = .ok shader ∧
        shader.MadeOf sampleLibrary .template .standard dashedNodes dashedNodes dashedProgram ∧
        (∃ s ∈ dashedProgram.storage, s.name = "inp_a-b_x") ∧
        (∃ b ∈ dashedProgram.blocks, ∃ c ∈ b.code.copies, c.storage = "inp_a-b_x") ∧
        (∃ n ∈ dashedNodes, ∃ i ∈ n.mentioned sampleLibrary .template,
          storageName n.id i = "inp_a-b_x") ∧
        ¬ IsName "inp_a-b_x".toList ∧
        ¬ dashedProgram.NamesIdentifiers sampleLibrary .template dashedNodes := by
  have hbuild : build sampleLibrary .template .standard dashedNodes
      = .ok ⟨dashedProgram.text .standard, dashedNodes.map (·.id), []⟩ := by
    decide +kernel
  have hassemble : assemble sampleLibrary .template dashedNodes = .ok (dashedProgram, []) := by
    decide +kernel
  have hdeclared : ∃ s ∈ dashedProgram.storage, s.name = "inp_a-b_x" := by decide +kernel
  have hname : ¬ IsName "inp_a-b_x".toList := by decide
  refine ⟨sampleLibrary_reached, by decide +kernel, _, hbuild, ⟨.refl _, rfl, hassemble, rfl⟩,
    hdeclared, by decide +kernel, by decide +kernel, hname, ?_⟩
  intro hnames
  obtain ⟨s, hs, heq⟩ := hdeclared
  exact hname (heq ▸ hnames.declared s hs)

end ShaderGraph
