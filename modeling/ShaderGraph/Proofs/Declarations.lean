import ShaderGraph.Proofs.Assembly
import ShaderGraph.Proofs.Dataflow
import ShaderGraph.Proofs.Library
import ShaderGraph.Proofs.Words

/-!
# Storage variables are declared and assigned before they are read

Names of storage variables are made in three places: in the declarations of the
entry point, in bodies where inputs are read, and in copies where they are
assigned. `Program.Orderly` says that the three agree:

* **declarations** — one for every declared input of every library node, under
  names of their own;
* **reads** — a body is the rendered template of its node in which some inputs
  of that node have become their storage variables (`Block.Realizes`);
* **assignments** — one copy for every edge that is not to the sink, in order,
  to a storage variable that has been declared, and in a block before that of
  the node whose input it is.

`build_orderly` says that every program that is built is orderly.
-/

namespace ShaderGraph

open ShaderGraph.Template ShaderGraph.Text

/-! ## Blocks -/

/-- The edges of a node that are not to the sink. -/
def Node.wires (n : Node) : List Edge := n.edges.filter (·.target?.isSome)

/-- A copy that carries out an edge of a node. -/
structure Copy.Carries (lib : Library) (n : Node) (e : Edge) (c : Copy) : Prop where
  storage : ∃ target, e.target? = some target ∧ c.storage = storageName target e.input
  value : n.value? lib e = some c.value

/-- The names of a node's inputs that occur in its body, place by place. -/
def Node.mentioned (lib : Library) (compiler : BodyCompiler) (n : Node) : List String :=
  if n.isExternal then []
  else match lib.lookup? n.tag with
    | none => []
    | some t =>
      match renderedBody compiler n t with
      | .error _ => []
      | .ok text => (substituteInputs text n.id t).2

/-- The block of a node: its edges as copies, the outputs of its type, and its
body with storage variables for inputs of the node. -/
structure Block.Realizes (lib : Library) (compiler : BodyCompiler) (n : Node) (b : Block) :
    Prop where
  id_eq : b.id = n.id
  tag_eq : b.tag = n.tag
  copies : List.Forall₂ (Copy.Carries lib n) n.wires b.code.copies
  external : n.tag = externalTag → b.code.outputs = [] ∧ b.code.body = ""
  library : n.tag ≠ externalTag → ∃ t text, lib.lookup? n.tag = some t ∧
    renderedBody compiler n t = .ok text ∧ b.code.outputs = t.outputs ∧
    Program.Replaced (t.inputs.map (·.name.toList))
      (fun name => (storageName n.id (String.ofList name)).toList) text.toList
      b.code.body.toList ((n.mentioned lib compiler).map String.toList)

section Blocks

variable {lib : Library} {compiler : BodyCompiler} {n : Node}

theorem carries_of_values {edges : List Edge} (h : ∀ e ∈ edges, ∀ target,
    e.target? = some target → ∃ value, n.value? lib e = some value) :
    List.Forall₂ (Copy.Carries lib n) (edges.filter (·.target?.isSome))
      (edges.filterMap fun e => e.target?.bind fun target =>
        (n.value? lib e).map fun value => ⟨storageName target e.input, value⟩) := by
  induction edges with
  | nil => exact .nil
  | cons e rest ih =>
    rw [List.forall_mem_cons] at h
    cases htarget : e.target? with
    | none => simpa [htarget] using ih h.2
    | some target =>
      obtain ⟨value, hvalue⟩ := h.1 target htarget
      have hfirst : Copy.Carries lib n e ⟨storageName target e.input, value⟩ :=
        ⟨⟨target, htarget, rfl⟩, hvalue⟩
      simpa [htarget, hvalue] using And.intro hfirst (ih h.2)

theorem nodeCode_external {code : NodeCode} {warnings : List Diagnostic}
    (hext : n.tag = externalTag) (h : nodeCode lib compiler n = .ok (code, warnings)) :
    (code.outputs = [] ∧ code.body = "") ∧ warnings = [] := by
  unfold nodeCode externalCode at h
  rw [if_pos (Node.isExternal_iff.mpr hext)] at h
  cases hb : n.binding with
  | none => simp [hb] at h
  | some b =>
    simp only [hb] at h
    cases h
    exact ⟨⟨rfl, rfl⟩, rfl⟩

theorem nodeCode_library {code : NodeCode} {warnings : List Diagnostic} {t : NodeType}
    (hext : n.tag ≠ externalTag) (ht : lib.lookup? n.tag = some t)
    (h : nodeCode lib compiler n = .ok (code, warnings)) :
    ∃ text, renderedBody compiler n t = .ok text ∧ code.outputs = t.outputs ∧
      code.body = (substituteInputs text n.id t).1 ∧
      n.mentioned lib compiler = (substituteInputs text n.id t).2 ∧
      warnings = (t.inputs.filter fun p => p.name ∉ (substituteInputs text n.id t).2).map fun p =>
        unusedInput n p.name := by
  have hext' : ¬ n.isExternal = true := fun heq => hext (Node.isExternal_iff.mp heq)
  unfold nodeCode libraryCode at h
  rw [if_neg hext', typeOf_ok_iff.mpr ht] at h
  cases hbody : renderedBody compiler n t with
  | error e => simp [hbody] at h
  | ok text =>
    have hmentioned : n.mentioned lib compiler = (substituteInputs text n.id t).2 := by
      simp [Node.mentioned, hext', ht, hbody]
    cases hcopies : edgeCopies n t n.edges with
    | error e => simp [hbody, hcopies] at h
    | ok copies =>
      simp only [hbody, hcopies] at h
      cases h
      exact ⟨text, rfl, rfl, rfl, hmentioned, by simp⟩

/-- Substituting inputs replaces some of their names by storage names and keeps
the rest of the body. -/
theorem substituteInputs_replaced {t : NodeType} (h : t.WellNamed) (text id : String) :
    Program.Replaced (t.inputs.map (·.name.toList))
      (fun name => (storageName id (String.ofList name)).toList) text.toList
      (substituteInputs text id t).1.toList
      ((substituteInputs text id t).2.map String.toList) := by
  have hnames : ∀ name ∈ t.inputs.map (·.name.toList), name ≠ [] := by
    intro name hname hnil
    obtain ⟨p, hp, rfl⟩ := List.mem_map.mp hname
    have hidentifier := h.identifiers p (List.mem_append_left _ hp)
    rw [isIdentifier, hnil] at hidentifier
    cases hidentifier
  have hreplaced := Program.replaceWords_replaced isWordChar
    (fun name => (storageName id (String.ofList name)).toList) hnames text.toList
  simpa [substituteInputs, Function.comp_def] using hreplaced

theorem block_realizes (hlib : lib.Sound) (htyped : Graph.TypedNode lib n)
    (hcode : n.HasCode lib compiler) : (n.block lib compiler).Realizes lib compiler n := by
  have hok : nodeCode lib compiler n = .ok ((n.emitted lib compiler).1, _) := hcode.eq
  obtain ⟨hcopies, hvalues⟩ := nodeCode_ok hok
  refine ⟨rfl, rfl, ?_, fun hext => (nodeCode_external hext hok).1, ?_⟩
  · show List.Forall₂ _ n.wires (n.emitted lib compiler).1.copies
    rw [hcopies]
    exact carries_of_values hvalues
  · intro hext
    obtain ⟨t, ht⟩ := htyped.type (fun heq => hext (Node.isExternal_iff.mp heq))
    obtain ⟨text, hbody, houtputs, hsubst, hmentioned, _⟩ := nodeCode_library hext ht hok
    refine ⟨t, text, ht, hbody, houtputs, ?_⟩
    show Program.Replaced _ _ _ (n.emitted lib compiler).1.body.toList _
    rw [hsubst, hmentioned]
    exact substituteInputs_replaced (hlib n.tag t ht) text n.id

theorem mentioned_mem (hlib : lib.Sound) {i : String} (hi : i ∈ n.mentioned lib compiler) :
    i ∈ lib.inputNames n.tag := by
  unfold Node.mentioned at hi
  split at hi
  · cases hi
  · next hext =>
    split at hi
    · cases hi
    · next t ht =>
      split at hi
      · cases hi
      · next text _ =>
        have hused := (substituteInputs_replaced (hlib n.tag t ht) text n.id).used_mem i.toList
          (List.mem_map_of_mem hi)
        obtain ⟨p, hp, hname⟩ := List.mem_map.mp hused
        rw [Library.inputNames_eq (fun heq => hext (Node.isExternal_iff.mpr heq)) ht,
          ← String.toList_injective hname]
        exact List.mem_map_of_mem hp

end Blocks

/-! ## Programs -/

/-- The storage variables that a program declares. -/
def Program.storage (p : Program) : List Storage := p.groups.flatMap (·.inputs)

/-- A program of nodes in the given order that declares every storage variable
once and assigns to it before it is read. -/
structure Program.Orderly (lib : Library) (compiler : BodyCompiler) (order : List Node)
    (p : Program) : Prop where
  externals : p.externals = order.filterMap Node.bridge?
  storage : p.storage = order.flatMap (Node.storage lib)
  names : p.storage.map (·.name)
    = (declaredInputs lib order).map fun ref => storageName ref.1 ref.2
  inputs_nodup : (declaredInputs lib order).Nodup
  names_nodup : (p.storage.map (·.name)).Nodup
  blocks : List.Forall₂ (Block.Realizes lib compiler) order p.blocks
  /-- All copies of the program beside all edges of the nodes. -/
  copies : List.Forall₂ (fun wire c => Copy.Carries lib wire.1 wire.2 c)
    (order.flatMap fun n => n.wires.map (n, ·)) (p.blocks.flatMap (·.code.copies))
  assigned : ∀ b ∈ p.blocks, ∀ c ∈ b.code.copies, c.storage ∈ p.storage.map (·.name)
  substituted : ∀ n ∈ order, ∀ i ∈ n.mentioned lib compiler,
    i ∈ lib.inputNames n.tag ∧ storageName n.id i ∈ p.storage.map (·.name)
  earlier : ∀ b ∈ p.blocks, ∀ c ∈ b.code.copies, ∀ v ∈ order, ∀ i ∈ lib.inputNames v.tag,
    c.storage = storageName v.id i →
      (order.map (·.id)).idxOf b.id < (order.map (·.id)).idxOf v.id

section Programs

variable {g : Graph} {lib : Library} {compiler : BodyCompiler} {order : List Node}

theorem storage_assembled :
    (assembled lib compiler order).1.storage = order.flatMap (Node.storage lib) := by
  show (order.filterMap (Node.group? lib)).flatMap (·.inputs) = _
  induction order with
  | nil => rfl
  | cons n rest ih =>
    rw [List.flatMap_cons, ← ih, List.filterMap_cons]
    by_cases hempty : (lib.inputsOf n.tag).isEmpty = true
    · have hnone : n.storage lib = [] := by
        rw [Node.storage, List.isEmpty_iff.mp hempty]
        rfl
      simp [Node.group?, hempty, hnone]
    · simp [Node.group?, hempty]

theorem storage_names :
    (order.flatMap (Node.storage lib)).map (·.name)
      = (declaredInputs lib order).map fun ref => storageName ref.1 ref.2 := by
  rw [declaredInputs, List.map_flatMap, List.map_flatMap]
  congr 1
  funext n
  rw [Library.inputNames_eq_map, Node.storage, Node.storageOf]
  simp

/-- No input is declared twice: ids are distinct, and so are the inputs of a
type. -/
theorem declaredInputs_nodup (hlib : lib.Sound) (hids : (order.map (·.id)).Nodup) :
    (declaredInputs lib order).Nodup := by
  refine List.nodup_flatMap.mpr ⟨?_, ?_⟩
  · intro n _
    refine List.Nodup.map (fun i j heq => (Prod.ext_iff.mp heq).2) ?_
    unfold Library.inputNames
    split
    · exact List.nodup_nil
    · split
      · exact List.nodup_nil
      · next t ht => exact (hlib n.tag t ht).inputs_nodup
  · refine (List.pairwise_map.mp hids).imp ?_
    intro m n hne ref hm hn
    obtain ⟨i, _, rfl⟩ := List.mem_map.mp hm
    obtain ⟨j, _, heq⟩ := List.mem_map.mp hn
    exact hne (Prod.ext_iff.mp heq).1.symm

theorem copies_carry {blocks : List Block}
    (h : List.Forall₂ (Block.Realizes lib compiler) order blocks) :
    List.Forall₂ (fun wire c => Copy.Carries lib wire.1 wire.2 c)
      (order.flatMap fun n => n.wires.map (n, ·)) (blocks.flatMap (·.code.copies)) := by
  induction h with
  | nil => exact .nil
  | @cons n b _ _ hb _ ih =>
    have hfirst : List.Forall₂ (fun wire c => Copy.Carries lib wire.1 wire.2 c)
        (n.wires.map (n, ·)) b.code.copies := List.forall₂_map_left_iff.mpr hb.copies
    rw [List.flatMap_cons, List.flatMap_cons]
    exact List.rel_append hfirst ih

/-- A copy of a wired node assigns to a declared input of a node that comes
later. -/
theorem Wired.copy_target (hw : Wired g lib order) {n : Node} (hn : n ∈ order) {e : Edge}
    (he : e ∈ n.wires) {c : Copy} (hc : Copy.Carries lib n e c) :
    ∃ v ∈ order, e.input ∈ lib.inputNames v.tag ∧ c.storage = storageName v.id e.input ∧
      (order.map (·.id)).idxOf n.id < (order.map (·.id)).idxOf v.id := by
  obtain ⟨target, htarget, hstorage⟩ := hc.storage
  have hedge := (List.mem_filter.mp he).1
  obtain ⟨v, hv, rfl, hinput⟩ := hw.typed n (hw.mem.mp hn) e hedge target htarget
  have hfeeds : g.Feeds n.id v.id :=
    ⟨n, hw.mem.mp hn, rfl, Node.mem_successors.mpr ⟨e, hedge, htarget⟩⟩
  exact ⟨v, hw.mem.mpr hv, hinput, hstorage, (hw.isOrder.forward n.id v.id hfeeds).2⟩

theorem exists_wire {n : Node} {b : Block} (hb : b.Realizes lib compiler n) {c : Copy}
    (hc : c ∈ b.code.copies) : ∃ e ∈ n.wires, Copy.Carries lib n e c := by
  obtain ⟨i, hi, rfl⟩ := List.getElem_of_mem hc
  have hlength := hb.copies.length_eq
  exact ⟨n.wires[i], List.getElem_mem _, hb.copies.get (by omega) hi⟩

theorem assembled_orderly (hlib : lib.Sound) (hw : Wired g lib order)
    (hcode : ∀ n ∈ order, Graph.TypedNode lib n ∧ n.HasCode lib compiler) :
    (assembled lib compiler order).1.Orderly lib compiler order := by
  have hnames : (assembled lib compiler order).1.storage.map (·.name)
      = (declaredInputs lib order).map fun ref => storageName ref.1 ref.2 := by
    rw [storage_assembled, storage_names]
  have hdeclared : ∀ ref ∈ declaredInputs lib order,
      storageName ref.1 ref.2 ∈ (assembled lib compiler order).1.storage.map (·.name) := by
    intro ref href
    rw [hnames]
    exact List.mem_map_of_mem href
  have hblocks : List.Forall₂ (Block.Realizes lib compiler) order
      (order.map (Node.block lib compiler)) := by
    rw [List.forall₂_map_right_iff, List.forall₂_same]
    intro n hn
    exact block_realizes hlib (hcode n hn).1 (hcode n hn).2
  have hnodup := declaredInputs_nodup hlib hw.isOrder.nodup
  have htarget : ∀ b ∈ order.map (Node.block lib compiler), ∀ c ∈ b.code.copies,
      ∃ v ∈ order, ∃ i ∈ lib.inputNames v.tag, c.storage = storageName v.id i ∧
        (order.map (·.id)).idxOf b.id < (order.map (·.id)).idxOf v.id := by
    intro b hb c hc
    obtain ⟨n, hn, rfl⟩ := List.mem_map.mp hb
    obtain ⟨e, he, hcarries⟩ := exists_wire (block_realizes hlib (hcode n hn).1 (hcode n hn).2) hc
    obtain ⟨v, hv, hinput, hstorage, hlt⟩ := hw.copy_target hn he hcarries
    exact ⟨v, hv, e.input, hinput, hstorage, hlt⟩
  refine ⟨rfl, storage_assembled, hnames, hnodup, ?_, hblocks, copies_carry hblocks, ?_, ?_, ?_⟩
  · rw [hnames]
    refine hnodup.map_on ?_
    intro a ha b hb hname
    exact hw.unshared a ha b hb hname
  · intro b hb c hc
    obtain ⟨v, hv, i, hi, hstorage, _⟩ := htarget b hb c hc
    rw [hstorage]
    exact hdeclared (v.id, i) (mem_declaredInputs.mpr ⟨v, hv, rfl, hi⟩)
  · intro n hn i hi
    have hinput := mentioned_mem hlib hi
    exact ⟨hinput, hdeclared (n.id, i) (mem_declaredInputs.mpr ⟨n, hn, rfl, hinput⟩)⟩
  · intro b hb c hc w hw' j hj hname
    obtain ⟨v, hv, i, hi, hstorage, hlt⟩ := htarget b hb c hc
    -- storage names are not shared, so the copy is into this very input
    have heq : (v.id, i) = (w.id, j) := hw.unshared _ (mem_declaredInputs.mpr ⟨v, hv, rfl, hi⟩) _
      (mem_declaredInputs.mpr ⟨w, hw', rfl, hj⟩) (hstorage.symm.trans hname)
    have hid : v.id = w.id := (Prod.ext_iff.mp heq).1
    rwa [hid] at hlt

end Programs

/-- The source of a build is made of the declarations of shader variables, the
line of the entry point, the declarations of storage variables, the blocks of
the nodes in order and the closing line, each row written out from the program,
and the program is orderly. -/
theorem build_orderly (lib : Library) (hlib : lib.Reached) (compiler : BodyCompiler)
    (layout : Layout) (nodes : List Node) (shader : Shader)
    (hbuild : build lib compiler layout nodes = .ok shader) :
    ∃ (order : List Node) (program : Program),
      shader.MadeOf lib compiler layout nodes order program ∧
      shader.source = declarationSection (program.externals.map Binding.declaration)
        ++ layout.entry ++ " \x7b\n"
        ++ declarationSection (program.groups.map (InputGroup.text layout))
        ++ String.join (program.blocks.map (Block.text layout)) ++ "\x7d\n" ∧
      program.HasSource layout shader.source ∧
      program.blocks.map (·.id) = shader.order ∧
      program.Orderly lib compiler order := by
  obtain ⟨g, order, _, hw, hcode, hmade, _⟩ := build_madeOf hbuild
  have horderly := assembled_orderly hlib.sound hw hcode
  refine ⟨order, _, hmade, hmade.source_eq, ?_, ?_, horderly⟩
  · rw [hmade.source_eq]
    exact hasSource_text layout _
  · rw [hmade.ids_eq, assembled_ids]

theorem sampleLibrary_reached : sampleLibrary.Reached :=
  .add (.add .empty (by decide +kernel)) (by decide +kernel)

/-- The sample is built from a library that can be reached, so its program is
orderly. -/
theorem build_orderly_sample :
    sampleLibrary.Reached ∧
      ∃ shader, build sampleLibrary .template .standard sampleNodes = .ok shader ∧
        ∃ (order : List Node) (program : Program),
          shader.MadeOf sampleLibrary .template .standard sampleNodes order program ∧
          program.HasSource .standard shader.source ∧
          program.blocks.map (·.id) = shader.order ∧
          program.Orderly sampleLibrary .template order := by
  obtain ⟨shader, hbuild⟩ := sampleNodes_builds
  obtain ⟨order, program, hmade, _, hsource, hids, horderly⟩ :=
    build_orderly _ sampleLibrary_reached _ _ _ _ hbuild
  exact ⟨sampleLibrary_reached, shader, hbuild, order, program, hmade, hsource, hids,
    horderly⟩

end ShaderGraph
