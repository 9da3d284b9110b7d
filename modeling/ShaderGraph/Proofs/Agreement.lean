import ShaderGraph.Build
import ShaderGraph.Provenance

/-!
# What a library is seen through

Beside the types a library keeps the files that they came from, for its own error
messages. Nothing else depends on these files. Libraries that give the same type
for every tag agree, and so do

* **listings** — the types in order, their number and the text that is hashed
  (`Agree.definitions_eq`, `Agree.canonicalText_eq`);
* **builds** — every stage asks for types by their tags only (`Agree.build_eq`).
-/

namespace ShaderGraph

open ShaderGraph.Template

/-! ## Listings -/

namespace Library

/-- The types by tag, without the files that they came from. -/
def definitions (lib : Library) : Dict NodeType := lib.types.map (·.type)

/-- The libraries give the same type for every tag. -/
def Agree (lib lib' : Library) : Prop := ∀ tag, lib.lookup? tag = lib'.lookup? tag

variable {lib lib' : Library}

theorem find?_definitions (lib : Library) (tag : String) :
    lib.definitions.find? tag = lib.lookup? tag := Dict.find?_map ..

theorem size_definitions (lib : Library) : lib.definitions.size = lib.size := List.length_map ..

theorem keys_definitions (lib : Library) : lib.definitions.keys = lib.tags := by
  simp [definitions, Dict.keys, tags]

theorem canonicalText_eq (lib : Library) :
    lib.canonicalText = (Json.Value.object [("types",
      .object (lib.definitions.entries.map fun e => (e.1, e.2.toValue)))]).text := by
  rw [definitions, Dict.entries_map, List.map_map]
  rfl

theorem Agree.definitions_eq (h : lib.Agree lib') : lib.definitions = lib'.definitions := by
  apply Dict.ext_find?
  intro tag
  rw [find?_definitions, find?_definitions, h tag]

theorem Agree.size_eq (h : lib.Agree lib') : lib.size = lib'.size := by
  rw [← size_definitions, h.definitions_eq, size_definitions]

theorem Agree.tags_eq (h : lib.Agree lib') : lib.tags = lib'.tags := by
  rw [← keys_definitions, h.definitions_eq, keys_definitions]

theorem Agree.canonicalText_eq (h : lib.Agree lib') : lib.canonicalText = lib'.canonicalText := by
  rw [Library.canonicalText_eq, h.definitions_eq, ← Library.canonicalText_eq]

theorem Agree.fingerprint_eq (h : lib.Agree lib') (text : String) :
    (provenance text lib).libraryFingerprint = (provenance text lib').libraryFingerprint := by
  unfold provenance
  rw [h.canonicalText_eq]

/-! ## Builds -/

theorem Agree.checkNode_eq (h : lib.Agree lib') (n : Node) :
    Graph.checkNode lib n = Graph.checkNode lib' n := by
  unfold Graph.checkNode
  rw [h n.tag]

theorem Agree.checkEdge_eq (h : lib.Agree lib') (g : Graph) (n : Node) (e : Edge) :
    g.checkEdge lib n e = g.checkEdge lib' n e := by
  have htarget : ∀ target, Graph.checkTarget lib n target e.input =
      Graph.checkTarget lib' n target e.input := by
    intro target
    unfold Graph.checkTarget
    rw [h target.tag]
  unfold Graph.checkEdge
  simp only [htarget]

theorem Agree.checkEdges_eq (h : lib.Agree lib') (g : Graph) (n : Node) (edges : List Edge) :
    g.checkEdges lib n edges = g.checkEdges lib' n edges := by
  induction edges with
  | nil => rfl
  | cons e rest ih => rw [Graph.checkEdges, Graph.checkEdges, h.checkEdge_eq, ih]

theorem Agree.checkNodes_eq (h : lib.Agree lib') (g : Graph) (nodes : List Node) :
    g.checkNodes lib nodes = g.checkNodes lib' nodes := by
  induction nodes with
  | nil => rfl
  | cons n rest ih =>
    rw [Graph.checkNodes, Graph.checkNodes, h.checkNode_eq, h.checkEdges_eq, ih]

theorem Agree.typeOf_eq (h : lib.Agree lib') (n : Node) : typeOf lib n = typeOf lib' n := by
  unfold typeOf
  rw [h n.tag]

theorem Agree.inputGroups_eq (h : lib.Agree lib') (names : StorageNames) (nodes : List Node) :
    inputGroups lib names nodes = inputGroups lib' names nodes := by
  induction nodes generalizing names with
  | nil => rfl
  | cons n rest ih =>
    rw [inputGroups, inputGroups, h.typeOf_eq]
    simp only [ih]

theorem Agree.nodeUnconnected_eq (h : lib.Agree lib') (written : List InputRef) :
    nodeUnconnected lib written = nodeUnconnected lib' written := by
  funext n
  unfold nodeUnconnected
  rw [h n.tag]

theorem Agree.nodeCode_eq (h : lib.Agree lib') (compiler : BodyCompiler) (n : Node) :
    nodeCode lib compiler n = nodeCode lib' compiler n := by
  unfold nodeCode
  rw [h.typeOf_eq]

theorem Agree.nodeBlocks_eq (h : lib.Agree lib') (compiler : BodyCompiler) (nodes : List Node) :
    nodeBlocks lib compiler nodes = nodeBlocks lib' compiler nodes := by
  induction nodes with
  | nil => rfl
  | cons n rest ih => rw [nodeBlocks, nodeBlocks, h.nodeCode_eq, ih]

theorem Agree.assemble_eq (h : lib.Agree lib') (compiler : BodyCompiler) (nodes : List Node) :
    assemble lib compiler nodes = assemble lib' compiler nodes := by
  unfold assemble
  rw [h.inputGroups_eq, h.nodeBlocks_eq, h.nodeUnconnected_eq]

/-- A build asks for types by their tags only. -/
theorem Agree.build_eq (h : lib.Agree lib') (compiler : BodyCompiler) (layout : Layout)
    (nodes : List Node) : build lib compiler layout nodes = build lib' compiler layout nodes := by
  unfold build checkedOrder checkedGraph Graph.check
  simp only [h.checkNodes_eq, h.assemble_eq]

end Library

end ShaderGraph
