import ShaderGraph.Proofs.Storage

/-!
# The copies in a program

Every edge of a node that is not to the sink becomes one copy in the block of
the node, in the order of the edges (`Node.copies`). That holds of external and
of library nodes alike; they differ in the expression that is copied
(`Node.value?`).
-/

namespace ShaderGraph

open ShaderGraph.Template

/-- The expression that an edge of a node copies: the shader variable of an
external node, and otherwise what the edge or else the node's type says. -/
def Node.value? (lib : Library) (n : Node) (e : Edge) : Option String :=
  if n.tag = externalTag then n.binding.map (·.name)
  else (lib.lookup? n.tag).bind (edgeValue? · e)

/-- The copies that the edges of a node call for. -/
def Node.copies (lib : Library) (n : Node) : List Copy :=
  n.edges.filterMap fun e => e.target?.bind fun target =>
    (n.value? lib e).map fun value => ⟨storageName target e.input, value⟩

/-- Every edge of a node that is not to the sink has something to copy. -/
def Node.HasValues (lib : Library) (n : Node) : Prop :=
  ∀ e ∈ n.edges, ∀ target, e.target? = some target → ∃ value, n.value? lib e = some value

theorem edgeCopies_ok {n : Node} {t : NodeType} {edges : List Edge} {copies : List Copy}
    (h : edgeCopies n t edges = .ok copies) :
    copies = (edges.filterMap fun e => e.target?.bind fun target =>
        (edgeValue? t e).map fun value => ⟨storageName target e.input, value⟩) ∧
      ∀ e ∈ edges, ∀ target, e.target? = some target → ∃ value, edgeValue? t e = some value := by
  induction edges generalizing copies with
  | nil =>
    cases h
    exact ⟨rfl, by simp⟩
  | cons e rest ih =>
    unfold edgeCopies at h
    split at h
    · next hsink =>
      obtain ⟨hcopies, hvalues⟩ := ih h
      refine ⟨by rw [hcopies, List.filterMap_cons, hsink]; rfl, ?_⟩
      intro e' he' target htarget
      rcases List.mem_cons.mp he' with rfl | he'
      · rw [hsink] at htarget
        cases htarget
      · exact hvalues e' he' target htarget
    · next target htarget =>
      split at h
      · cases h
      · next value hvalue =>
        split at h
        · cases h
        · next more hrest =>
          cases h
          obtain ⟨hcopies, hvalues⟩ := ih hrest
          refine ⟨by rw [hcopies, List.filterMap_cons, htarget, hvalue]; rfl, ?_⟩
          intro e' he' target' htarget'
          rcases List.mem_cons.mp he' with rfl | he'
          · exact ⟨value, hvalue⟩
          · exact hvalues e' he' target' htarget'

theorem externalCode_ok {lib : Library} {n : Node} {code : NodeCode}
    (hext : n.tag = externalTag) (h : externalCode n = .ok code) :
    code.copies = n.copies lib ∧ n.HasValues lib := by
  unfold externalCode at h
  split at h
  · cases h
  · next b hbinding =>
    cases h
    have hvalue : ∀ e, n.value? lib e = some b.name := by
      intro e
      rw [Node.value?, if_pos hext, hbinding]
      rfl
    refine ⟨?_, fun e _ _ _ => ⟨b.name, hvalue e⟩⟩
    show n.edges.filterMap _ = n.edges.filterMap _
    congr 1
    funext e
    rw [hvalue e]
    cases e.target? with
    | none => rfl
    | some target => rfl

theorem libraryCode_ok {lib : Library} {compiler : BodyCompiler} {n : Node} {t : NodeType}
    {warnings : List Diagnostic} {code : NodeCode} (hext : n.tag ≠ externalTag)
    (ht : lib.lookup? n.tag = some t) (h : libraryCode compiler n t = (warnings, .ok code)) :
    code.copies = n.copies lib ∧ n.HasValues lib := by
  have hvalue : ∀ e, n.value? lib e = edgeValue? t e := by
    intro e
    rw [Node.value?, if_neg hext, ht]
    rfl
  unfold libraryCode at h
  split at h
  · cases h
  · simp only at h
    split at h
    · cases h
    · next copies hcopies =>
      cases h
      obtain ⟨heq, hvalues⟩ := edgeCopies_ok hcopies
      unfold Node.copies Node.HasValues
      simp only [hvalue]
      exact ⟨heq, hvalues⟩

theorem nodeCode_ok {lib : Library} {compiler : BodyCompiler} {n : Node} {code : NodeCode}
    {warnings : List Diagnostic} (h : nodeCode lib compiler n = .ok (code, warnings)) :
    code.copies = n.copies lib ∧ n.HasValues lib := by
  unfold nodeCode at h
  split at h
  · next hext =>
    split at h
    · cases h
    · next hcode =>
      cases h
      exact externalCode_ok (Node.isExternal_iff.mp hext) hcode
  · next hext =>
    rw [Node.isExternal_iff] at hext
    split at h
    · cases h
    · next t htype =>
      split at h
      · cases h
      · next hcode =>
        cases h
        exact libraryCode_ok hext (typeOf_ok_iff.mp htype) hcode

/-- The block of a node as far as its data goes. -/
structure Block.IsOf (lib : Library) (n : Node) (b : Block) : Prop where
  id_eq : b.id = n.id
  tag_eq : b.tag = n.tag
  copies_eq : b.code.copies = n.copies lib

/-- A program has one block for each node, in the same order. -/
theorem nodeBlocks_ok {lib : Library} {compiler : BodyCompiler} {nodes : List Node} :
    ∀ {blocks : List Block} {warnings : List Diagnostic},
      nodeBlocks lib compiler nodes = .ok (blocks, warnings) →
      List.Forall₂ (Block.IsOf lib) nodes blocks ∧ ∀ n ∈ nodes, n.HasValues lib := by
  induction nodes with
  | nil =>
    intro blocks warnings h
    cases h
    exact ⟨.nil, by simp⟩
  | cons n rest ih =>
    intro blocks warnings h
    unfold nodeBlocks at h
    split at h
    · cases h
    · next code warnings1 hcode =>
      split at h
      · cases h
      · next blocks1 more hrest =>
        cases h
        obtain ⟨hcopies, hvalues⟩ := nodeCode_ok hcode
        obtain ⟨hblocks, hall⟩ := ih hrest
        exact ⟨.cons ⟨rfl, rfl, hcopies⟩ hblocks, List.forall_mem_cons.mpr ⟨hvalues, hall⟩⟩

end ShaderGraph
