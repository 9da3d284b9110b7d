import ShaderGraph.Proofs.Declarations
import ShaderGraph.Proofs.Drawing

/-!
# What the labels of a drawing say about the program

A drawing labels an edge with the output that it carries, and the program of the graph has a
copy for the edge. Which expression that is, the two decide on their own:

* **the program** goes by the type of the node — an external node copies its shader variable,
  a library node what the edge says or else its only output;
* **the drawing** goes by the binding — a node that has one shows its shader variable, whatever
  its type.

They agree on external nodes and on nodes without a binding (`value_eq_of_shownOutput`). The check
of a graph lets library nodes with a binding pass, and their edges are labelled with the variable
of the binding, whatever is copied (`dot_labels_exact`, `dot_mislabels`).
-/

namespace ShaderGraph

open ShaderGraph.Template

/-- The code of a node has the copy for one of its edges: of the edges that are not to the sink
and of the copies, they stand at the same place. -/
def Node.EmitsCopy (lib : Library) (compiler : BodyCompiler) (n : Node) (e : Edge) (c : Copy) :
    Prop :=
  ∃ code warnings, nodeCode lib compiler n = .ok (code, warnings) ∧
    (e, c) ∈ n.wires.zip code.copies

theorem Node.EmitsCopy.carries {lib : Library} {compiler : BodyCompiler} {n : Node} {e : Edge}
    {c : Copy} (h : n.EmitsCopy lib compiler e c) : Copy.Carries lib n e c := by
  obtain ⟨code, warnings, hcode, hmem⟩ := h
  obtain ⟨hcopies, hvalues⟩ := nodeCode_ok hcode
  have hall : List.Forall₂ (Copy.Carries lib n) n.wires code.copies := by
    rw [hcopies]
    exact carries_of_values hvalues
  exact (List.forall₂_iff_zip.mp hall).2 hmem

namespace Graph

variable {lib : Library} {n : Node} {e : Edge} {c : Copy} {output : String}

/-- A label names an output: it is the output, an arrow and the input that the edge leads
to. -/
structure NamesOutput (e : Edge) (label output : String) : Prop where
  nonempty : output ≠ ""
  label_eq : label = output ++ " → " ++ e.input

/-- The output that a label names is the one that the edge shows. -/
theorem NamesOutput.shownOutput_eq (h : NamesOutput e (dotLabel n e) output) {target : String}
    (htarget : e.target = .node target) : shownOutput n e = output := by
  have hlabel := h.label_eq
  simp only [dotLabel, htarget] at hlabel
  split at hlabel
  · -- without an output the label is the input alone, which leaves no room for an arrow
    have hlength := congrArg String.length hlabel
    have harrow : " → ".length = 3 := by decide
    simp only [String.length_append, harrow] at hlength
    omega
  · exact (String.append_left_inj _).mp ((String.append_left_inj _).mp hlabel)

/-- What an edge shows is what its copy assigns, unless a library node has a binding. -/
theorem value_eq_of_shownOutput (hc : Copy.Carries lib n e c)
    (hbinding : n.isExternal = true ∨ n.binding = none) (hshown : shownOutput n e ≠ "") :
    shownOutput n e = c.value := by
  have hvalue := hc.value
  unfold Node.value? at hvalue
  split at hvalue
  · -- an external node copies the variable of its binding
    obtain ⟨b, hb, hname⟩ := Option.map_eq_some_iff.mp hvalue
    rw [shownOutput, hb]
    exact hname
  · next hext =>
    have hnone : n.binding = none :=
      hbinding.resolve_left fun heq => hext (Node.isExternal_iff.mp heq)
    obtain ⟨t, _, hedge⟩ := Option.bind_eq_some_iff.mp hvalue
    rw [shownOutput, hnone] at hshown ⊢
    -- an edge without an output of its own shows none
    cases houtput : e.output with
    | none => simp [houtput] at hshown
    | some expression => simpa [edgeValue?, houtput] using hedge

/-- What a drawn edge says about the copy that the program has for it. -/
structure DrawnEdge.Accounts (lib : Library) (compiler : BodyCompiler) (n : Node) (e : Edge)
    (drawn : DrawnEdge) : Prop where
  source : drawn.source = n.id
  target : drawn.target = e.target
  /-- An output in the label is the expression that is copied to the input. -/
  truthful : n.isExternal = true ∨ n.binding = none → ∀ target c output,
    e.target = .node target → n.EmitsCopy lib compiler e c → NamesOutput e drawn.label output →
      c.storage = storageName target e.input ∧ output = c.value
  /-- An output in the label is the variable of the binding. -/
  bound : ∀ b target output, n.isExternal = false → n.binding = some b →
    e.target = .node target → NamesOutput e drawn.label output → output = b.name

theorem drawnEdge_accounts (lib : Library) (compiler : BodyCompiler) (n : Node) (e : Edge) :
    (drawnEdge n e).Accounts lib compiler n e where
  source := rfl
  target := rfl
  truthful := by
    intro hbinding target c output htarget hemits hnames
    have hcarries := hemits.carries
    have hshown : shownOutput n e = output := hnames.shownOutput_eq htarget
    obtain ⟨target', htarget', hstorage⟩ := hcarries.storage
    rw [Edge.target?_of_node htarget] at htarget'
    cases htarget'
    refine ⟨hstorage, ?_⟩
    rw [← hshown]
    exact value_eq_of_shownOutput hcarries hbinding (hshown ▸ hnames.nonempty)
  bound := by
    intro b target output _ hb htarget hnames
    have hshown : shownOutput n e = output := hnames.shownOutput_eq htarget
    rw [← hshown, shownOutput, hb]

/-- **Labels and copies.** The edges of a drawing are those of the graph, in order. Where a
label names an output, this is the expression that the program copies, if the edge leaves an
external node or a node without a binding; on a library node that has a binding it is the
variable of the binding. -/
theorem dot_labels_exact (g : Graph) (lib : Library) (compiler : BodyCompiler) :
    ∃ drawing, readDrawing g.dot = some drawing ∧
      List.Forall₂ (fun source drawn => drawn.Accounts lib compiler source.1 source.2)
        g.edges drawing.edges := by
  refine ⟨g.drawing, readDrawing_dot g, ?_⟩
  show List.Forall₂ _ g.edges (g.edges.map fun e => drawnEdge e.1 e.2)
  rw [List.forall₂_map_right_iff, List.forall₂_same]
  intro source _
  exact drawnEdge_accounts lib compiler source.1 source.2

/-- An edge of the color in the sample is labelled with its variable, and that is what its copy
assigns. -/
theorem dot_labels_exact_sample :
    ∃ g drawing, ofNodes sampleNodes = .ok g ∧ g.check sampleLibrary = .ok () ∧
      readDrawing g.dot = some drawing ∧
      ∃ n e drawn c, ((n, e), drawn) ∈ g.edges.zip drawing.edges ∧ n.id = "color" ∧
        n.EmitsCopy sampleLibrary .template e c ∧ NamesOutput e drawn.label "u_color" ∧
        c.storage = storageName "warm" "x" ∧ "u_color" = c.value := by
  let g : Graph := ⟨sampleNodes.toArray, by decide⟩
  let e : Edge := ⟨.node "warm", "x", none⟩
  let drawn : DrawnEdge := ⟨"color", .node "warm", "u_color → x"⟩
  obtain ⟨drawing, hread, hedges⟩ := dot_labels_exact g sampleLibrary .template
  obtain rfl : drawing = g.drawing := Option.some.inj (hread.symm.trans (readDrawing_dot g))
  have hmem : ((sampleNodes[2], e), drawn) ∈ g.edges.zip g.drawing.edges := by decide +kernel
  have hemits : sampleNodes[2].EmitsCopy sampleLibrary .template e ⟨"inp_warm_x", "u_color"⟩ :=
    ⟨⟨[], "", [⟨"inp_warm_x", "u_color"⟩, ⟨"inp_out_b", "u_color"⟩]⟩, [], by decide +kernel,
      by decide +kernel⟩
  have hnames : NamesOutput e drawn.label "u_color" := ⟨by decide, by decide⟩
  have haccounts := (List.forall₂_iff_zip.mp hedges).2 hmem
  exact ⟨g, _, rfl, by decide +kernel, hread, sampleNodes[2], e, drawn, _, hmem, rfl, hemits,
    hnames, haccounts.truthful (.inl rfl) "warm" _ _ rfl hemits hnames⟩

/-- The tint of the sample with a binding that it has no use for. -/
def boundTints : List Node := [
  .ofType "out" "mix",
  { (Node.ofType "warm" "tint").addEdge "out" "a" (some "y") with
    binding := some ⟨"uniform", "float", "u_time"⟩ }]

/-- A graph can pass the check although the label of an edge names another expression than the
one that the program copies. -/
theorem dot_mislabels :
    sampleLibrary.Reached ∧ ∃ g drawing, ofNodes boundTints = .ok g ∧
      g.check sampleLibrary = .ok () ∧ readDrawing g.dot = some drawing ∧
      ∃ n e drawn c output, ((n, e), drawn) ∈ g.edges.zip drawing.edges ∧
        n.EmitsCopy sampleLibrary .template e c ∧ c.storage = storageName "out" "a" ∧
        NamesOutput e drawn.label output ∧ output ≠ c.value := by
  have hemits : boundTints[1].EmitsCopy sampleLibrary .template ⟨.node "out", "a", some "y"⟩
      ⟨"inp_out_a", "y"⟩ :=
    ⟨⟨[⟨"y", "vec4"⟩], "y = inp_warm_x;", [⟨"inp_out_a", "y"⟩]⟩, [], by decide +kernel,
      by decide +kernel⟩
  exact ⟨sampleLibrary_reached, _, _, rfl, by decide +kernel, readDrawing_dot _, boundTints[1], _,
    ⟨"warm", .node "out", "u_time → a"⟩, _, "u_time", by decide +kernel, hemits, by decide,
    ⟨by decide, by decide⟩, by decide⟩

end Graph

end ShaderGraph
