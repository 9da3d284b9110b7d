import ShaderGraph.Proofs.Build
import ShaderGraph.Proofs.Source

/-!
# Programs compute what their graphs say

A program runs its blocks in order over a store of values, one for each storage
variable. The block of a library node reads the storage variables of its inputs
and then assigns to those of the inputs that it feeds; the block of an external
node only assigns. What bodies and shader variables compute is left open
(`Meaning`), so a run is determined by how values are passed on.

A graph says the same without a program (`Graph.denote`): the value of an input
is that of the edge that leads to it, computed from the values of the inputs of
the node it comes from. `build_preserves_dataflow` says that every block of a
program that has been built reads these values. The blocks that run, with their
copies, are those that the source is written from.
-/

namespace ShaderGraph

open ShaderGraph.Template

/-! ## Running a program -/

/-- What the texts in a program compute. -/
structure Meaning (α : Type u) where
  /-- The value of the shader variable of an external node. -/
  bridge : (node name : String) → α
  /-- The value of an expression in the block of a node, from those of its
  inputs; an input that has not been assigned has none. -/
  output : (node : String) → (inputs : List (Option α)) → (expression : String) → α

variable {α : Type u}

/-- The value of an expression in the block of a node of the given type. -/
def Meaning.value (m : Meaning α) (id tag : String) (inputs : List (Option α))
    (expression : String) : α :=
  if tag = externalTag then m.bridge id expression else m.output id inputs expression

/-- The values of the storage variables that have been assigned. -/
abbrev Store (α : Type u) := String → Option α

/-- Carry out copies in order. -/
def assign (value : String → α) : List Copy → Store α → Store α
  | [], store => store
  | c :: rest, store =>
    assign value rest (Function.update store c.storage (some (value c.value)))

namespace Block

/-- The values of the inputs that the type of the block's node declares. -/
def reads (lib : Library) (store : Store α) (b : Block) : List (Option α) :=
  (lib.inputNames b.tag).map fun input => store (storageName b.id input)

/-- Run a block: its reads come before all of its assignments. -/
def run (m : Meaning α) (lib : Library) (store : Store α) (b : Block) : Store α :=
  assign (m.value b.id b.tag (b.reads lib store)) b.code.copies store

end Block

/-- What each of several blocks reads, with the id of its node, when they run in
order. -/
def readings (m : Meaning α) (lib : Library) : Store α → List Block →
    List (String × List (Option α))
  | _, [] => []
  | store, b :: rest => (b.id, b.reads lib store) :: readings m lib (b.run m lib store) rest

/-- What each block of a program reads when it runs from an empty store. -/
def Program.readings (m : Meaning α) (lib : Library) (p : Program) :
    List (String × List (Option α)) :=
  ShaderGraph.readings m lib (fun _ => none) p.blocks

/-! ## Values in a graph -/

namespace Graph

variable {g : Graph}

/-- The edge that leads to an input, with the node it leaves. -/
def incoming? (g : Graph) (id input : String) : Option (Node × Edge) :=
  g.edges.find? fun e => e.2.target? == some id && e.2.input == input

theorem incoming?_eq_some {id input : String} {u : Node} {e : Edge}
    (h : g.incoming? id input = some (u, e)) :
    u ∈ g.nodes.toList ∧ e ∈ u.edges ∧ e.target? = some id ∧ e.input = input := by
  obtain ⟨hu, he⟩ := mem_edges.mp (List.mem_of_find?_eq_some h)
  have hp := List.find?_some h
  simp only [Bool.and_eq_true, beq_iff_eq] at hp
  exact ⟨hu, he, hp.1, hp.2⟩

theorem feeds_of_incoming? {id input : String} {u : Node} {e : Edge}
    (h : g.incoming? id input = some (u, e)) : g.Feeds u.id id := by
  obtain ⟨hu, he, htarget, _⟩ := incoming?_eq_some h
  exact ⟨u, hu, rfl, Node.mem_successors.mpr ⟨e, he, htarget⟩⟩

/-- The value of an input: the expression of the edge that leads to it, in the
node the edge leaves, from the values of that node's own inputs. An input that
no edge leads to has no value. -/
def denote (g : Graph) (lib : Library) (m : Meaning α) (wf : WellFounded g.Feeds)
    (id input : String) : Option α :=
  match _h : g.incoming? id input with
  | none => none
  | some (u, e) =>
    (u.value? lib e).map
      (m.value u.id u.tag ((lib.inputNames u.tag).map fun i => g.denote lib m wf u.id i))
termination_by wf.wrap id
decreasing_by exact feeds_of_incoming? _h

theorem denote_of_incoming? {lib : Library} {m : Meaning α} {wf : WellFounded g.Feeds}
    {id input : String} {u : Node} {e : Edge} (h : g.incoming? id input = some (u, e)) :
    g.denote lib m wf id input = (u.value? lib e).map
      (m.value u.id u.tag ((lib.inputNames u.tag).map fun i => g.denote lib m wf u.id i)) := by
  rw [denote]
  split
  · next hnone =>
    rw [h] at hnone
    cases hnone
  · next hsome =>
    rw [h] at hsome
    cases hsome
    rfl

theorem denote_of_none {lib : Library} {m : Meaning α} {wf : WellFounded g.Feeds}
    {id input : String} (h : g.incoming? id input = none) : g.denote lib m wf id input = none := by
  rw [denote]
  split
  · rfl
  · next hsome =>
    rw [h] at hsome
    cases hsome

/-- Items of a list with one image are one item, if images are not repeated. -/
private theorem eq_of_nodup_filterMap {β γ : Type} {f : β → Option γ} {l : List β}
    (hnodup : (l.filterMap f).Nodup) {a b : β} {c : γ} (ha : a ∈ l) (hb : b ∈ l)
    (hfa : f a = some c) (hfb : f b = some c) : a = b := by
  induction l with
  | nil => cases ha
  | cons x rest ih =>
    by_cases hx : f x = some c
    · rw [List.filterMap_cons, hx, List.nodup_cons] at hnodup
      -- an image of the rest would repeat that of the first item
      have hrest : ∀ y ∈ rest, f y ≠ some c := by
        intro y hy hfy
        exact hnodup.1 (List.mem_filterMap.mpr ⟨y, hy, hfy⟩)
      have hfirst : ∀ y ∈ x :: rest, f y = some c → y = x := by
        intro y hy hfy
        exact (List.mem_cons.mp hy).resolve_right (fun hy' => hrest y hy' hfy)
      rw [hfirst a ha hfa, hfirst b hb hfb]
    · have hne : ∀ y ∈ x :: rest, f y = some c → y ∈ rest := by
        rintro y hy hfy
        refine (List.mem_cons.mp hy).resolve_left ?_
        rintro rfl
        exact hx hfy
      refine ih ?_ (hne a ha hfa) (hne b hb hfb)
      rw [List.filterMap_cons] at hnodup
      split at hnodup
      · exact hnodup
      · exact (List.nodup_cons.mp hnodup).2

/-- The inputs that edges lead to, as a list over all edges. -/
theorem writtenInputs_eq (g : Graph) :
    writtenInputs g.nodes.toList
      = g.edges.filterMap fun e => e.2.target?.map (·, e.2.input) := by
  rw [edges, List.filterMap_flatMap]
  simp only [List.filterMap_map]
  rfl

/-- Where no input has two edges, the edge that leads to it is the one found. -/
theorem incoming?_of_mem (hsingle : (writtenInputs g.nodes.toList).Nodup) {n : Node} {e : Edge}
    (hn : n ∈ g.nodes.toList) (he : e ∈ n.edges) {id : String} (htarget : e.target? = some id) :
    g.incoming? id e.input = some (n, e) := by
  have hmem : (n, e) ∈ g.edges := mem_edges.mpr ⟨hn, he⟩
  cases h : g.incoming? id e.input with
  | none =>
    have hnone := List.find?_eq_none.mp h (n, e) hmem
    simp [htarget] at hnone
  | some found =>
    obtain ⟨u, e'⟩ := found
    obtain ⟨hu, he', htarget', hinput⟩ := incoming?_eq_some h
    rw [writtenInputs_eq] at hsingle
    rw [eq_of_nodup_filterMap hsingle (mem_edges.mpr ⟨hu, he'⟩) hmem
      (c := (id, e.input)) (by simp [htarget', hinput]) (by simp [htarget])]

end Graph

/-! ## Assignments -/

theorem assign_of_not_mem {value : String → α} {copies : List Copy} {name : String}
    (h : name ∉ copies.map (·.storage)) :
    ∀ store : Store α, assign value copies store name = store name := by
  induction copies with
  | nil =>
    intro store
    rfl
  | cons c rest ih =>
    intro store
    rw [List.map_cons, List.mem_cons, not_or] at h
    rw [assign, ih h.2, Function.update_of_ne h.1]

theorem assign_of_mem {value : String → α} {copies : List Copy}
    (hnodup : (copies.map (·.storage)).Nodup) {c : Copy} (h : c ∈ copies) :
    ∀ store : Store α, assign value copies store c.storage = some (value c.value) := by
  induction copies with
  | nil => cases h
  | cons c' rest ih =>
    intro store
    rw [List.map_cons, List.nodup_cons] at hnodup
    rw [assign]
    rcases List.mem_cons.mp h with rfl | h
    · rw [assign_of_not_mem hnodup.1, Function.update_self]
    · exact ih hnodup.2 h _

/-- The inputs that a node's own edges lead to. -/
def Node.written (n : Node) : List InputRef :=
  n.edges.filterMap fun e => e.target?.map (·, e.input)

theorem Node.mem_written {n : Node} {ref : InputRef} :
    ref ∈ n.written ↔ ∃ e ∈ n.edges, e.target? = some ref.1 ∧ e.input = ref.2 := by
  obtain ⟨id, input⟩ := ref
  rw [Node.written, List.mem_filterMap]
  simp [Option.map_eq_some_iff]

/-- A node assigns to the storage variables of the inputs it feeds. -/
theorem Node.storage_copies {lib : Library} {n : Node} (h : n.HasValues lib) :
    (n.copies lib).map (·.storage) = n.written.map fun ref => storageName ref.1 ref.2 := by
  rw [Node.copies, Node.written, List.map_filterMap, List.map_filterMap]
  apply List.filterMap_congr
  intro e he
  cases htarget : e.target? with
  | none => rfl
  | some target =>
    obtain ⟨value, hvalue⟩ := h e he target htarget
    simp [hvalue]

/-! ## Running the blocks of a wired graph -/

section Running

variable {g : Graph} {lib : Library} {order : List Node} {m : Meaning α}

theorem Wired.written_declared (hw : Wired g lib order) {n : Node} (hn : n ∈ order)
    {ref : InputRef} (href : ref ∈ n.written) : ref ∈ declaredInputs lib order := by
  obtain ⟨e, he, htarget, hinput⟩ := Node.mem_written.mp href
  have hdeclared := hw.target_declared hn he htarget
  rwa [hinput] at hdeclared

/-- A block assigns at most once to each storage variable. -/
theorem Wired.storage_nodup (hw : Wired g lib order)
    (hsingle : (writtenInputs g.nodes.toList).Nodup) {n : Node} (hn : n ∈ order) :
    ((n.copies lib).map (·.storage)).Nodup := by
  rw [Node.storage_copies (hw.values n hn)]
  refine List.Nodup.map_on ?_ ((List.nodup_flatMap.mp hsingle).1 n (hw.mem.mp hn))
  intro a ha b hb hname
  exact hw.unshared a (hw.written_declared hn ha) b (hw.written_declared hn hb) hname

/-- The block of a node gives the inputs it feeds their values. -/
theorem Wired.run_feeds (hw : Wired g lib order)
    (hsingle : (writtenInputs g.nodes.toList).Nodup) {n : Node} (hn : n ∈ order) {b : Block}
    (hb : b.IsOf lib n) {e : Edge} (he : e ∈ n.edges) {id expression : String}
    (htarget : e.target? = some id) (hvalue : n.value? lib e = some expression)
    (store : Store α) :
    b.run m lib store (storageName id e.input)
      = some (m.value n.id n.tag (b.reads lib store) expression) := by
  have hcopy : Copy.mk (storageName id e.input) expression ∈ n.copies lib := by
    refine List.mem_filterMap.mpr ⟨e, he, ?_⟩
    rw [htarget, hvalue]
    rfl
  rw [Block.run, hb.copies_eq, hb.id_eq, hb.tag_eq]
  exact assign_of_mem (hw.storage_nodup hsingle hn) hcopy store

/-- It leaves all other inputs alone. -/
theorem Wired.run_other (hw : Wired g lib order) {n : Node} (hn : n ∈ order) {b : Block}
    (hb : b.IsOf lib n) {ref : InputRef} (href : ref ∈ declaredInputs lib order)
    (hnot : ref ∉ n.written) (store : Store α) :
    b.run m lib store (storageName ref.1 ref.2) = store (storageName ref.1 ref.2) := by
  rw [Block.run, hb.copies_eq]
  apply assign_of_not_mem
  rw [Node.storage_copies (hw.values n hn)]
  -- an assignment to the same storage variable would be one to the same input
  intro hmem
  obtain ⟨other, hother, hname⟩ := List.mem_map.mp hmem
  have heq := hw.unshared other (hw.written_declared hn hother) ref href hname
  exact hnot (heq ▸ hother)

/-- The invariant of a run: after the blocks of the nodes in `done`, every input
that one of them feeds has the value that the graph gives it. -/
def Settled (g : Graph) (lib : Library) (m : Meaning α) (wf : WellFounded g.Feeds)
    (order done : List Node) (store : Store α) : Prop :=
  ∀ ref ∈ declaredInputs lib order,
    (∀ u e, g.incoming? ref.1 ref.2 = some (u, e) → u ∈ done) →
      store (storageName ref.1 ref.2) = g.denote lib m wf ref.1 ref.2

/-- A block whose turn has come reads what the graph says. -/
theorem Settled.reads {wf : WellFounded g.Feeds} {done rest : List Node} {n : Node} {b : Block}
    {store : Store α} (hs : Settled g lib m wf (done ++ n :: rest) done store)
    (hw : Wired g lib (done ++ n :: rest)) (hb : b.IsOf lib n) :
    b.reads lib store = (lib.inputNames n.tag).map fun i => g.denote lib m wf n.id i := by
  rw [Block.reads, hb.id_eq, hb.tag_eq]
  apply List.map_congr_left
  intro i hi
  have hdeclared : (n.id, i) ∈ declaredInputs lib (done ++ n :: rest) :=
    mem_declaredInputs.mpr ⟨n, by simp, rfl, hi⟩
  refine hs (n.id, i) hdeclared ?_
  intro u e hincoming
  exact hw.source_before (Graph.incoming?_eq_some hincoming).1
    (Graph.feeds_of_incoming? hincoming)

/-- Running a block keeps the invariant. -/
theorem Settled.run {wf : WellFounded g.Feeds} {done rest : List Node} {n : Node} {b : Block}
    {store : Store α} (hs : Settled g lib m wf (done ++ n :: rest) done store)
    (hw : Wired g lib (done ++ n :: rest)) (hsingle : (writtenInputs g.nodes.toList).Nodup)
    (hb : b.IsOf lib n) :
    Settled g lib m wf (done ++ n :: rest) (done ++ [n]) (b.run m lib store) := by
  have hn : n ∈ done ++ n :: rest := by simp
  have hng := hw.mem.mp hn
  intro ref href hsources
  by_cases hmem : ref ∈ n.written
  · -- the edge is one of `n`'s, so it is the only one that leads here
    obtain ⟨e, he, htarget, hinput⟩ := Node.mem_written.mp hmem
    obtain ⟨expression, hvalue⟩ := hw.values n hn e he _ htarget
    rw [← hinput, hw.run_feeds hsingle hn hb he htarget hvalue, hs.reads hw hb,
      Graph.denote_of_incoming? (Graph.incoming?_of_mem hsingle hng he htarget), hvalue]
    rfl
  · rw [hw.run_other hn hb href hmem]
    refine hs ref href ?_
    intro u e hincoming
    rcases List.mem_append.mp (hsources u e hincoming) with hu | hu
    · exact hu
    · rw [List.mem_singleton] at hu
      subst hu
      obtain ⟨_, he, htarget, hinput⟩ := Graph.incoming?_eq_some hincoming
      exact absurd (Node.mem_written.mpr ⟨e, he, htarget, hinput⟩) hmem

/-- Blocks that run after those of `done` read what the graph says. -/
theorem Settled.readings {wf : WellFounded g.Feeds}
    (hsingle : (writtenInputs g.nodes.toList).Nodup) {rest : List Node} {blocks : List Block}
    (hblocks : List.Forall₂ (Block.IsOf lib) rest blocks) :
    ∀ {done : List Node} {store : Store α}, Settled g lib m wf (done ++ rest) done store →
      Wired g lib (done ++ rest) →
      ShaderGraph.readings m lib store blocks
        = rest.map fun n =>
          (n.id, (lib.inputNames n.tag).map fun i => g.denote lib m wf n.id i) := by
  induction hblocks with
  | nil =>
    intro done store _ _
    rfl
  | @cons n b rest blocks hb _ ih =>
    intro done store hs hw
    -- the block runs, and its node joins those whose blocks have run
    have hstep := hs.run hw hsingle hb
    rw [ShaderGraph.readings, List.map_cons, hs.reads hw hb, hb.id_eq]
    rw [List.append_cons] at hstep hw
    rw [ih hstep hw]

end Running

/-- A build passes values on as the graph says. Whatever bodies and shader
variables compute, if no input has more than one edge that leads to it, every
block of the program reads, for each declared input of its node, the value that
the input has in the graph. The source has the blocks of the program in order,
and each ends in its copies. -/
theorem build_preserves_dataflow (lib : Library) (compiler : BodyCompiler) (layout : Layout)
    (nodes : List Node) (shader : Shader) (hbuild : build lib compiler layout nodes = .ok shader)
    (hsingle : (writtenInputs nodes).Nodup) (m : Meaning α) :
    ∃ (g : Graph) (wf : WellFounded g.Feeds) (order : List Node) (program : Program),
      Graph.ofNodes nodes = .ok g ∧ order.Perm nodes ∧
      (∃ warnings, assemble lib compiler order = .ok (program, warnings)) ∧
      shader.source = program.text layout ∧ program.HasSource layout shader.source ∧
      shader.order = order.map (·.id) ∧
      program.readings m lib = order.map fun n =>
        (n.id, (lib.inputNames n.tag).map fun i => g.denote lib m wf n.id i) := by
  obtain ⟨g, order, program, warnings, hgraph, hcheck, horder, hassemble, rfl⟩ := build_ok hbuild
  have hw := wired_of_stages hcheck horder hassemble
  have hnodes := Graph.nodes_of_ofNodes hgraph
  obtain ⟨_, _, hblocks⟩ := assemble_ok hassemble
  have wf : WellFounded g.Feeds := hw.isOrder.wellFounded
  refine ⟨g, wf, order, program, hgraph, hnodes ▸ hw.perm, ⟨warnings, hassemble⟩, rfl,
    hasSource_text layout program, rfl, ?_⟩
  -- before the first block, an input whose producers have all run has none
  have hstart : Settled g lib m wf ([] ++ order) [] (fun _ => none) := by
    intro ref _ hsources
    cases hincoming : g.incoming? ref.1 ref.2 with
    | none => rw [Graph.denote_of_none hincoming]
    | some found => cases hsources found.1 found.2 hincoming
  exact Settled.readings (hnodes ▸ hsingle) (nodeBlocks_ok hblocks).1 hstart hw

/-- Types for a small program: a tint and a mix of two colors. -/
def sampleLibrary : Library :=
  (Library.empty.add "tint" ⟨[⟨"x", "vec4"⟩], [⟨"y", "vec4"⟩], "y = x;", .empty⟩ "sample").add
    "mix" ⟨[⟨"a", "vec4"⟩, ⟨"b", "vec4"⟩], [⟨"y", "vec4"⟩], "y = a + b;", .empty⟩ "sample"

/-- A color that is mixed with a tint of itself, listed from the end. -/
def sampleNodes : List Node := [
  .ofType "out" "mix",
  (Node.ofType "warm" "tint").addEdge "out" "a" none,
  ((Node.ofBinding "color" ⟨"uniform", "vec4", "u_color"⟩).addEdge "warm" "x" none).addEdge
    "out" "b" none]

/-- Values as the texts that compute them. -/
def sampleMeaning : Meaning String where
  bridge _ name := name
  output node inputs expression :=
    node ++ "." ++ expression ++ "(" ++ ", ".intercalate (inputs.map (·.getD "?")) ++ ")"

theorem sampleNodes_builds :
    ∃ shader, build sampleLibrary .template .standard sampleNodes = .ok shader := by
  have hok : (build sampleLibrary .template .standard sampleNodes).isOk = true := by
    decide +kernel
  cases hbuild : build sampleLibrary .template .standard sampleNodes with
  | error err =>
    rw [hbuild] at hok
    cases hok
  | ok shader => exact ⟨shader, rfl⟩

/-- The sample is built, and its blocks read what its graph says. -/
theorem build_preserves_dataflow_sample :
    ∃ shader, build sampleLibrary .template .standard sampleNodes = .ok shader ∧
      (writtenInputs sampleNodes).Nodup ∧
      ∃ (g : Graph) (wf : WellFounded g.Feeds) (order : List Node) (program : Program),
        Graph.ofNodes sampleNodes = .ok g ∧ shader.source = program.text .standard ∧
        program.HasSource .standard shader.source ∧
        program.readings sampleMeaning sampleLibrary = order.map fun n =>
          (n.id, (sampleLibrary.inputNames n.tag).map fun i =>
            g.denote sampleLibrary sampleMeaning wf n.id i) := by
  obtain ⟨shader, hbuild⟩ := sampleNodes_builds
  have hsingle : (writtenInputs sampleNodes).Nodup := by decide +kernel
  obtain ⟨g, wf, order, program, hgraph, _, _, hsource, hrows, _, hreadings⟩ :=
    build_preserves_dataflow _ _ _ _ _ hbuild hsingle sampleMeaning
  exact ⟨shader, hbuild, hsingle, g, wf, order, program, hgraph, hsource, hrows, hreadings⟩

end ShaderGraph
