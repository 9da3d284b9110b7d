import ShaderGraph.Proofs.Build

/-!
# What assembly makes of nodes

A program is put together node by node: every external node brings in a shader
variable, every library node a group of storage variables, and every node a
block. `assembled` says so without the passes of `assemble`, and
`assemble_cases` says when that is what comes out of them. Over nodes that have
passed the check there are two ways to fail:

* two inputs share a storage name (`Clash`), which is found before any block is
  made, whichever nodes they belong to;
* a node has no code, and then the first one in order is to blame.
-/

namespace ShaderGraph

open ShaderGraph.Template

/-! ## The parts of a program, node by node -/

/-- The inputs that a type declares; the external type has none. -/
def Library.inputsOf (lib : Library) (tag : String) : List Socket :=
  if tag = externalTag then []
  else match lib.lookup? tag with
    | none => []
    | some t => t.inputs

theorem Library.inputNames_eq_map (lib : Library) (tag : String) :
    lib.inputNames tag = (lib.inputsOf tag).map (·.name) := by
  unfold Library.inputNames Library.inputsOf
  split
  · rfl
  · cases lib.lookup? tag with
    | none => rfl
    | some t => rfl

theorem Library.inputsOf_eq {lib : Library} {tag : String} {t : NodeType}
    (hext : tag ≠ externalTag) (ht : lib.lookup? tag = some t) : lib.inputsOf tag = t.inputs := by
  rw [Library.inputsOf, if_neg hext, ht]

namespace Node

/-- The shader variable that a node brings in. -/
def bridge? (n : Node) : Option Binding := if n.isExternal then n.binding else none

/-- The storage variables for inputs of the node with the given id. -/
def storageOf (id : String) (inputs : List Socket) : List Storage :=
  inputs.map fun p => ⟨p.type, storageName id p.name⟩

/-- The storage variables for the inputs of a node. -/
def storage (lib : Library) (n : Node) : List Storage := storageOf n.id (lib.inputsOf n.tag)

/-- The group of a node's storage variables, if there are any. -/
def group? (lib : Library) (n : Node) : Option InputGroup :=
  if (lib.inputsOf n.tag).isEmpty then none else some ⟨n.id, n.tag, n.storage lib⟩

/-- The code of a node with its warnings; nothing for a node without code. -/
def emitted (lib : Library) (compiler : BodyCompiler) (n : Node) : NodeCode × List Diagnostic :=
  match nodeCode lib compiler n with
  | .ok result => result
  | .error _ => (⟨[], "", []⟩, [])

/-- The block of a node. -/
def block (lib : Library) (compiler : BodyCompiler) (n : Node) : Block :=
  ⟨n.id, n.tag, (n.emitted lib compiler).1⟩

/-- A node whose code can be made. -/
def HasCode (lib : Library) (compiler : BodyCompiler) (n : Node) : Prop :=
  ∃ result, nodeCode lib compiler n = .ok result

theorem HasCode.eq {lib : Library} {compiler : BodyCompiler} {n : Node}
    (h : n.HasCode lib compiler) : nodeCode lib compiler n = .ok (n.emitted lib compiler) := by
  obtain ⟨result, hresult⟩ := h
  rw [emitted, hresult]

end Node

/-- The program of nodes in the given order and its warnings, each part put
together from what the nodes bring. -/
def assembled (lib : Library) (compiler : BodyCompiler) (nodes : List Node) :
    Program × List Diagnostic :=
  (⟨nodes.filterMap Node.bridge?, nodes.filterMap (Node.group? lib),
      nodes.map (Node.block lib compiler)⟩,
    nodes.flatMap (nodeUnconnected lib (writtenInputs nodes))
      ++ nodes.flatMap fun n => (n.emitted lib compiler).2)

theorem assembled_ids (lib : Library) (compiler : BodyCompiler) (nodes : List Node) :
    (assembled lib compiler nodes).1.blocks.map (·.id) = nodes.map (·.id) := by
  show (nodes.map (Node.block lib compiler)).map (·.id) = _
  rw [List.map_map]
  rfl

section Typed

variable {lib : Library} {compiler : BodyCompiler} {n : Node} {nodes : List Node}

theorem Graph.TypedNode.binding (h : Graph.TypedNode lib n) (hext : n.isExternal = true) :
    ∃ b, n.binding = some b := by
  have htyped := h.typed
  rw [if_pos hext] at htyped
  exact Option.isSome_iff_exists.mp htyped

theorem Graph.TypedNode.type (h : Graph.TypedNode lib n) (hext : n.isExternal ≠ true) :
    ∃ t, lib.lookup? n.tag = some t := by
  have htyped := h.typed
  rw [if_neg hext] at htyped
  exact Option.isSome_iff_exists.mp htyped

/-! ## Shader variables -/

theorem externalBindings_eq (h : ∀ n ∈ nodes, Graph.TypedNode lib n) :
    externalBindings nodes = .ok (nodes.filterMap Node.bridge?) := by
  induction nodes with
  | nil => rfl
  | cons n rest ih =>
    rw [List.forall_mem_cons] at h
    unfold externalBindings
    split
    · next hext =>
      obtain ⟨b, hb⟩ := h.1.binding hext
      simp [hb, ih h.2, Node.bridge?, hext]
    · next hext =>
      rw [ih h.2]
      simp [Node.bridge?, hext]

/-! ## Storage variables -/

open StorageNames

/-- Two different inputs with one storage name. -/
structure Collide (a b : InputRef) : Prop where
  ne : a ≠ b
  same : storageName a.1 a.2 = storageName b.1 b.2

/-- Some of the declared inputs of nodes share a storage name. -/
def Clash (lib : Library) (nodes : List Node) : Prop :=
  ∃ a ∈ declaredInputs lib nodes, ∃ b ∈ declaredInputs lib nodes, Collide a b

theorem declaredInputs_perm (lib : Library) {nodes nodes' : List Node} (h : nodes.Perm nodes') :
    (declaredInputs lib nodes).Perm (declaredInputs lib nodes') :=
  h.flatMap_right _

theorem Clash.perm {nodes' : List Node} (h : Clash lib nodes) (hperm : nodes.Perm nodes') :
    Clash lib nodes' := by
  have hinputs := declaredInputs_perm lib hperm
  obtain ⟨a, ha, b, hb, hcollide⟩ := h
  exact ⟨a, hinputs.mem_iff.mp ha, b, hinputs.mem_iff.mp hb, hcollide⟩

/-- All names of a table have been made for the given inputs. -/
def StorageNames.OwnedBy (names : StorageNames) (refs : List InputRef) : Prop :=
  ∀ name owner, names.owner? name = some owner → owner ∈ refs ∧ name = storageName owner.1 owner.2

/-- The error names two of the given inputs that share a storage name. -/
def ReportsClash (refs : List InputRef) (err : BuildError) : Prop :=
  ∃ a ∈ refs, ∃ b ∈ refs, Collide a b ∧ err = .nameCollision (storageName a.1 a.2) a b

theorem ReportsClash.mono {refs more : List InputRef} {err : BuildError}
    (h : ReportsClash refs err) (hsub : refs ⊆ more) : ReportsClash more err := by
  obtain ⟨a, ha, b, hb, hclash⟩ := h
  exact ⟨a, hsub ha, b, hsub hb, hclash⟩

/-- What registering an input does to a table that belongs to others. -/
theorem StorageNames.OwnedBy.register {names : StorageNames} {refs : List InputRef}
    (h : names.OwnedBy refs) (node input : String) :
    (∃ names', names.register node input = .ok (names', storageName node input) ∧
        names'.OwnedBy (refs ++ [(node, input)])) ∨
      ∃ err, names.register node input = .error err ∧
        ReportsClash (refs ++ [(node, input)]) err := by
  unfold StorageNames.register
  simp only
  split
  · refine .inl ⟨_, rfl, ?_⟩
    intro name owner howner
    have howner : (names.owners.insert _ _).find? name = some owner := howner
    rw [Dict.find?_insert] at howner
    split at howner
    · next hname =>
      cases howner
      exact ⟨by simp, hname.symm⟩
    · obtain ⟨hmem, hname⟩ := h name owner howner
      exact ⟨List.mem_append_left _ hmem, hname⟩
  · next owner howner =>
    obtain ⟨hmem, hname⟩ := h _ owner howner
    split
    · refine .inl ⟨names, rfl, ?_⟩
      intro name owner' howner'
      obtain ⟨hmem', hname'⟩ := h name owner' howner'
      exact ⟨List.mem_append_left _ hmem', hname'⟩
    · next hne =>
      refine .inr ⟨_, rfl, owner, List.mem_append_left _ hmem, (node, input), by simp,
        ⟨hne, hname.symm⟩, ?_⟩
      rw [hname]

/-- Declaring the inputs of a node gives each of them its storage variable, or
shows two inputs that share one. -/
theorem declareInputs_cases (id : String) (inputs : List Socket) :
    ∀ {names : StorageNames} {refs : List InputRef}, names.OwnedBy refs →
      (∃ names', declareInputs id names inputs = .ok (names', Node.storageOf id inputs) ∧
          names'.OwnedBy (refs ++ inputs.map (id, ·.name))) ∨
        ∃ err, declareInputs id names inputs = .error err ∧
          ReportsClash (refs ++ inputs.map (id, ·.name)) err := by
  induction inputs with
  | nil =>
    intro names refs h
    exact .inl ⟨names, rfl, by simpa using h⟩
  | cons p rest ih =>
    intro names refs h
    rw [List.map_cons, List.append_cons]
    unfold declareInputs
    rcases h.register id p.name with ⟨names1, hregister, howned⟩ | ⟨err, hregister, hclash⟩
    · rw [hregister]
      rcases ih howned with ⟨names2, hrest, howned2⟩ | ⟨err, hrest, hclash⟩
      · exact .inl ⟨names2, by simp [hrest, Node.storageOf], howned2⟩
      · exact .inr ⟨err, by simp [hrest], hclash⟩
    · rw [hregister]
      exact .inr ⟨err, rfl, hclash.mono (List.subset_append_left _ _)⟩

/-- Nodes are declared one after the other; one that has no inputs leaves the
table as it is and makes no group. -/
theorem inputGroups_cons {names : StorageNames} (h : Graph.TypedNode lib n) :
    inputGroups lib names (n :: nodes) =
      match declareInputs n.id names (lib.inputsOf n.tag) with
      | .error e => .error e
      | .ok (names', storage) =>
        match inputGroups lib names' nodes with
        | .error e => .error e
        | .ok groups =>
          .ok ((if (lib.inputsOf n.tag).isEmpty then none
            else some ⟨n.id, n.tag, storage⟩).toList ++ groups) := by
  conv_lhs => unfold inputGroups
  split
  · next hext =>
    rw [Library.inputsOf, if_pos (Node.isExternal_iff.mp hext)]
    cases hrest : inputGroups lib names nodes with
    | error e => simp [declareInputs, hrest]
    | ok groups => simp [declareInputs, hrest]
  · next hext =>
    obtain ⟨t, ht⟩ := h.type hext
    have hinputs := Library.inputsOf_eq (fun heq => hext (Node.isExternal_iff.mpr heq)) ht
    rw [typeOf_ok_iff.mpr ht, hinputs]
    simp only
    split
    · next hempty =>
      rw [List.isEmpty_iff.mp hempty]
      cases hrest : inputGroups lib names nodes with
      | error e => simp [declareInputs, hrest]
      | ok groups => simp [declareInputs, hrest]
    · cases hdeclare : declareInputs n.id names t.inputs with
      | error e => rfl
      | ok declared =>
        cases hrest : inputGroups lib declared.1 nodes with
        | error e => simp [hrest]
        | ok groups => simp [hrest]

/-- Declaring the inputs of nodes gives their groups, or shows two inputs that
share a storage name. -/
theorem inputGroups_cases (h : ∀ n ∈ nodes, Graph.TypedNode lib n) :
    ∀ {names : StorageNames} {refs : List InputRef}, names.OwnedBy refs →
      inputGroups lib names nodes = .ok (nodes.filterMap (Node.group? lib)) ∨
        ∃ err, inputGroups lib names nodes = .error err ∧
          ReportsClash (refs ++ declaredInputs lib nodes) err := by
  induction nodes with
  | nil =>
    intro names refs _
    exact .inl rfl
  | cons n rest ih =>
    intro names refs howned
    rw [List.forall_mem_cons] at h
    have hdeclared : declaredInputs lib (n :: rest)
        = (lib.inputsOf n.tag).map (n.id, ·.name) ++ declaredInputs lib rest := by
      rw [declaredInputs, List.flatMap_cons, Library.inputNames_eq_map, List.map_map]
      rfl
    rw [inputGroups_cons h.1, hdeclared, ← List.append_assoc]
    rcases declareInputs_cases n.id (lib.inputsOf n.tag) howned with
      ⟨names1, hdeclare, howned1⟩ | ⟨err, hdeclare, hclash⟩
    · rw [hdeclare]
      rcases ih h.2 howned1 with hrest | ⟨err, hrest, hclash⟩
      · refine .inl ?_
        simp only [hrest, List.filterMap_cons, Node.group?, Node.storage]
        split
        · rfl
        · rfl
      · exact .inr ⟨err, by simp [hrest], hclash⟩
    · rw [hdeclare]
      exact .inr ⟨err, rfl, hclash.mono (List.subset_append_left _ _)⟩

/-! ## Blocks -/

theorem nodeBlocks_eq (h : ∀ n ∈ nodes, n.HasCode lib compiler) :
    nodeBlocks lib compiler nodes = .ok (nodes.map (Node.block lib compiler),
      nodes.flatMap fun n => (n.emitted lib compiler).2) := by
  induction nodes with
  | nil => rfl
  | cons n rest ih =>
    rw [List.forall_mem_cons] at h
    simp [nodeBlocks, h.1.eq, ih h.2, Node.block]

theorem nodeBlocks_of_error {before after : List Node} {err : BuildError}
    (hbefore : ∀ m ∈ before, m.HasCode lib compiler) (hn : nodeCode lib compiler n = .error err) :
    nodeBlocks lib compiler (before ++ n :: after) = .error err := by
  induction before with
  | nil => simp [nodeBlocks, hn]
  | cons m rest ih =>
    rw [List.forall_mem_cons] at hbefore
    simp [nodeBlocks, hbefore.1.eq, ih hbefore.2]

theorem hasCode_cases (lib : Library) (compiler : BodyCompiler) (nodes : List Node) :
    (∀ n ∈ nodes, n.HasCode lib compiler) ∨
      ∃ before n after err, nodes = before ++ n :: after ∧
        (∀ m ∈ before, m.HasCode lib compiler) ∧ nodeCode lib compiler n = .error err := by
  induction nodes with
  | nil => exact .inl (by simp)
  | cons n rest ih =>
    cases hn : nodeCode lib compiler n with
    | error err => exact .inr ⟨[], n, rest, err, rfl, by simp, hn⟩
    | ok result =>
      have hcode : n.HasCode lib compiler := ⟨result, hn⟩
      rcases ih with hall | ⟨before, m, after, err, rfl, hbefore, hm⟩
      · exact .inl (List.forall_mem_cons.mpr ⟨hcode, hall⟩)
      · exact .inr ⟨n :: before, m, after, err, rfl,
          List.forall_mem_cons.mpr ⟨hcode, hbefore⟩, hm⟩

/-! ## Programs -/

/-- The three outcomes of assembling nodes that have passed the check. -/
theorem assemble_cases (compiler : BodyCompiler) (h : ∀ n ∈ nodes, Graph.TypedNode lib n) :
    (∃ err, assemble lib compiler nodes = .error err ∧
        ReportsClash (declaredInputs lib nodes) err) ∨
      ¬ Clash lib nodes ∧
        ((∃ before n after err, nodes = before ++ n :: after ∧
            (∀ m ∈ before, m.HasCode lib compiler) ∧ nodeCode lib compiler n = .error err ∧
            assemble lib compiler nodes = .error err) ∨
          (∀ n ∈ nodes, n.HasCode lib compiler) ∧
            assemble lib compiler nodes = .ok (assembled lib compiler nodes)) := by
  have hempty : StorageNames.empty.OwnedBy [] := by
    intro name owner howner
    cases howner
  unfold assemble
  rw [externalBindings_eq h]
  rcases inputGroups_cases h hempty with hgroups | ⟨err, hgroups, hclash⟩
  · refine .inr ⟨?_, ?_⟩
    · rintro ⟨a, ha, b, hb, hcollide⟩
      exact hcollide.ne (storageName_injOn hgroups ha hb hcollide.same)
    · rw [hgroups]
      rcases hasCode_cases lib compiler nodes with hall | ⟨before, n, after, err, rfl, hbefore, hn⟩
      · refine .inr ⟨hall, ?_⟩
        rw [nodeBlocks_eq hall]
        rfl
      · refine .inl ⟨before, n, after, err, rfl, hbefore, hn, ?_⟩
        rw [nodeBlocks_of_error hbefore hn]
  · rw [hgroups]
    exact .inl ⟨err, rfl, by simpa using hclash⟩

theorem assemble_eq_assembled {result : Program × List Diagnostic}
    (h : ∀ n ∈ nodes, Graph.TypedNode lib n)
    (hassemble : assemble lib compiler nodes = .ok result) :
    ¬ Clash lib nodes ∧ (∀ n ∈ nodes, n.HasCode lib compiler) ∧
      result = assembled lib compiler nodes := by
  rcases assemble_cases compiler h with
    ⟨err, herror, _⟩ | ⟨hclash, ⟨_, _, _, err, _, _, _, herror⟩ | ⟨hall, heq⟩⟩
  · rw [herror] at hassemble
    cases hassemble
  · rw [herror] at hassemble
    cases hassemble
  · rw [heq] at hassemble
    exact ⟨hclash, hall, (Except.ok.inj hassemble).symm⟩

end Typed

/-! ## Builds -/

/-- The order and the program that a shader has been made of. -/
structure Shader.MadeOf (lib : Library) (compiler : BodyCompiler) (layout : Layout)
    (nodes order : List Node) (program : Program) (shader : Shader) : Prop where
  perm : order.Perm nodes
  ids_eq : shader.order = order.map (·.id)
  assembled : assemble lib compiler order = .ok (program, shader.warnings)
  source_eq : shader.source = program.text layout

/-- A build that succeeds puts a program together from nodes in order, all of
which have passed the check and have code. -/
theorem build_madeOf {lib : Library} {compiler : BodyCompiler} {layout : Layout}
    {nodes : List Node} {shader : Shader} (h : build lib compiler layout nodes = .ok shader) :
    ∃ g order, g.nodes.toList = nodes ∧ Wired g lib order ∧
      (∀ n ∈ order, Graph.TypedNode lib n ∧ n.HasCode lib compiler) ∧
      shader.MadeOf lib compiler layout nodes order (assembled lib compiler order).1 ∧
      shader.warnings = (assembled lib compiler order).2 := by
  obtain ⟨g, order, program, warnings, hgraph, hcheck, horder, hassemble, rfl⟩ := build_ok h
  have hw := wired_of_stages hcheck horder hassemble
  have hnodes := Graph.nodes_of_ofNodes hgraph
  have htyped : ∀ n ∈ order, Graph.TypedNode lib n := by
    intro n hn
    exact (Graph.check_ok_iff.mp hcheck n (hw.mem.mp hn)).1
  obtain ⟨_, hcode, hresult⟩ := assemble_eq_assembled htyped hassemble
  obtain ⟨rfl, rfl⟩ := Prod.ext_iff.mp hresult
  exact ⟨g, order, hnodes, hw, fun n hn => ⟨htyped n hn, hcode n hn⟩,
    ⟨hnodes ▸ hw.perm, rfl, hassemble, rfl⟩, rfl⟩

end ShaderGraph
