import ShaderGraph.Command.Run
import ShaderGraph.Proofs.Assembly
import ShaderGraph.Proofs.Dataflow
import ShaderGraph.Proofs.Outcome

/-!
# What the stages of the command have in common

The command can stop a build early: the drawing of a graph needs it checked, and
the list of its nodes needs them in order. Every stage runs the first few passes
of a build (`Stage.passes`), and it fails exactly if one of these fails, with the
error of that pass (`emit_error_iff`). So what a stage complains about, stages
that go further complain about as well, and the list of nodes is that of the
blocks in the program (`emit_stages_agree`).
-/

namespace ShaderGraph

open ShaderGraph.Template

/-! ## Passes -/

/-- A pass of a build fails with the error, after those before it have
succeeded. -/
def Pass.Fails (lib : Library) (compiler : BodyCompiler) (nodes : List Node) (err : BuildError) :
    Pass → Prop
  | .buildGraph => Graph.ofNodes nodes = .error err
  | .verifyEdges => ∃ g, Graph.ofNodes nodes = .ok g ∧ g.check lib = .error err
  | .sort => ∃ g, Graph.ofNodes nodes = .ok g ∧ g.check lib = .ok () ∧ g.order = .error err
  | .codegen => ∃ g order, Graph.ofNodes nodes = .ok g ∧ g.check lib = .ok () ∧
      g.order = .ok order ∧ assemble lib compiler order = .error err

section Passes

variable {lib : Library} {nodes : List Node} {err : BuildError}

theorem checkedGraph_eq :
    checkedGraph lib nodes = Graph.ofNodes nodes >>= fun g => g.check lib >>= fun _ => .ok g := by
  unfold checkedGraph
  cases Graph.ofNodes nodes with
  | error e => rfl
  | ok g =>
    cases hcheck : g.check lib with
    | error e => simp [hcheck, bind, Except.bind]
    | ok u => simp [hcheck, bind, Except.bind]

theorem checkedGraph_ok_iff {g : Graph} :
    checkedGraph lib nodes = .ok g ↔ Graph.ofNodes nodes = .ok g ∧ g.check lib = .ok () := by
  simp only [checkedGraph_eq, bind_eq_ok, Except.ok.injEq]
  constructor
  · rintro ⟨g', hgraph, _, hcheck, rfl⟩
    exact ⟨hgraph, hcheck⟩
  · rintro ⟨hgraph, hcheck⟩
    exact ⟨g, hgraph, (), hcheck, rfl⟩

theorem checkedGraph_error_iff :
    checkedGraph lib nodes = .error err ↔ Graph.ofNodes nodes = .error err ∨
      ∃ g, Graph.ofNodes nodes = .ok g ∧ g.check lib = .error err := by
  simp [checkedGraph_eq, bind_eq_error]

theorem checkedOrder_eq : checkedOrder lib nodes = checkedGraph lib nodes >>= Graph.order := by
  unfold checkedOrder
  cases checkedGraph lib nodes with
  | error e => rfl
  | ok g => rfl

theorem checkedOrder_ok_iff {order : List Node} :
    checkedOrder lib nodes = .ok order ↔
      ∃ g, Graph.ofNodes nodes = .ok g ∧ g.check lib = .ok () ∧ g.order = .ok order := by
  simp only [checkedOrder_eq, bind_eq_ok, checkedGraph_ok_iff, and_assoc]

theorem checkedOrder_error_iff :
    checkedOrder lib nodes = .error err ↔ checkedGraph lib nodes = .error err ∨
      ∃ g, Graph.ofNodes nodes = .ok g ∧ g.check lib = .ok () ∧ g.order = .error err := by
  simp only [checkedOrder_eq, bind_eq_error, checkedGraph_ok_iff, and_assoc]

theorem build_eq (compiler : BodyCompiler) (layout : Layout) :
    build lib compiler layout nodes = checkedOrder lib nodes >>= fun order =>
      (assemble lib compiler order).map fun made =>
        ⟨made.1.text layout, order.map (·.id), made.2⟩ := by
  unfold build
  cases checkedOrder lib nodes with
  | error e => rfl
  | ok order =>
    cases hassemble : assemble lib compiler order with
    | error e => simp [hassemble, bind, Except.bind, Except.map]
    | ok made => simp [hassemble, bind, Except.bind, Except.map]

theorem build_error_iff {compiler : BodyCompiler} {layout : Layout} :
    build lib compiler layout nodes = .error err ↔ checkedOrder lib nodes = .error err ∨
      ∃ g order, Graph.ofNodes nodes = .ok g ∧ g.check lib = .ok () ∧ g.order = .ok order ∧
        assemble lib compiler order = .error err := by
  simp only [build_eq, bind_eq_error, map_eq_error, checkedOrder_ok_iff]
  refine or_congr_right ⟨?_, ?_⟩
  · rintro ⟨order, ⟨g, hgraph, hcheck, horder⟩, hassemble⟩
    exact ⟨g, order, hgraph, hcheck, horder, hassemble⟩
  · rintro ⟨g, order, hgraph, hcheck, horder, hassemble⟩
    exact ⟨order, ⟨g, hgraph, hcheck, horder⟩, hassemble⟩

end Passes

/-! ## Stages -/

namespace Command

/-- The passes of a build that a stage runs. -/
def Stage.passes : Stage → List Pass
  | .shader => [.buildGraph, .verifyEdges, .sort, .codegen]
  | .order => [.buildGraph, .verifyEdges, .sort]
  | .dot => [.buildGraph, .verifyEdges]
  | .buildInfo => []

/-- Options for another stage. -/
def Options.atStage (o : Options) (stage : Stage) : Options := { o with stage := stage }

/-- A stage fails exactly if one of its passes does, and with its error. -/
theorem emit_error_iff (o : Options) (lib : Library) (graphText : String) (nodes : List Node)
    (err : BuildError) :
    o.emit lib graphText nodes = .error err ↔
      ∃ pass ∈ o.stage.passes, pass.Fails lib .template nodes err := by
  unfold Options.emit
  cases o.stage with
  | shader =>
    simp [map_eq_error, build_error_iff, checkedOrder_error_iff, checkedGraph_error_iff,
      Stage.passes, Pass.Fails, or_assoc]
  | order =>
    simp [map_eq_error, checkedOrder_error_iff, checkedGraph_error_iff, Stage.passes, Pass.Fails,
      or_assoc]
  | dot => simp [map_eq_error, checkedGraph_error_iff, Stage.passes, Pass.Fails]
  | buildInfo => simp [Stage.passes]

/-- What goes wrong at a stage goes wrong at every stage that runs its passes. -/
theorem emit_error_mono {o o' : Options} {lib : Library} {graphText : String} {nodes : List Node}
    {err : BuildError} (hpasses : o.stage.passes ⊆ o'.stage.passes)
    (h : o.emit lib graphText nodes = .error err) : o'.emit lib graphText nodes = .error err := by
  rw [emit_error_iff] at h ⊢
  obtain ⟨pass, hpass, hfails⟩ := h
  exact ⟨pass, hpasses hpass, hfails⟩

/-- The stages agree with each other and with builds: an error of the drawing is
an error of the list of nodes, and that is one of the program, unless its
indentation is wider than any text can be. Of nodes that can be built, by
whatever compiler and in whatever layout, the list has the ids of the order of the
build, each on a line, and this is the order of the blocks in the source. -/
theorem emit_stages_agree (o o' : Options) (lib : Library) (graphText : String)
    (nodes : List Node) :
    (∀ err, (o.atStage .dot).emit lib graphText nodes = .error err →
        (o'.atStage .order).emit lib graphText nodes = .error err ∧
          ((o'.atStage .shader).overflows = false →
            (o'.atStage .shader).emit lib graphText nodes = .error err)) ∧
      (∀ err, (o.atStage .order).emit lib graphText nodes = .error err →
        (o'.atStage .shader).overflows = false →
          (o'.atStage .shader).emit lib graphText nodes = .error err) ∧
      (∀ compiler layout shader, build lib compiler layout nodes = .ok shader →
        (o.atStage .order).emit lib graphText nodes
          = .ok (String.join (shader.order.map (· ++ "\n")), []) ∧
        ∃ (order : List Node) (program : Program),
          shader.MadeOf lib compiler layout nodes order program ∧
          shader.source = declarationSection (program.externals.map Binding.declaration)
            ++ layout.entry ++ " \x7b\n"
            ++ declarationSection (program.groups.map (InputGroup.text layout))
            ++ String.join (program.blocks.map (Block.text layout)) ++ "\x7d\n" ∧
          program.HasSource layout shader.source ∧
          program.blocks.map (·.id) = shader.order) ∧
      ((o.atStage .shader).overflows = false → ∀ text warnings,
        (o.atStage .shader).emit lib graphText nodes = .ok (text, warnings) ↔
          ∃ shader, build lib .template o.layout nodes = .ok shader ∧ shader.source = text ∧
            shader.warnings = warnings) := by
  refine ⟨?_, ?_, ?_, ?_⟩
  · intro err h
    have horder : Stage.dot.passes ⊆ Stage.order.passes := by decide
    have hshader : Stage.dot.passes ⊆ Stage.shader.passes := by decide
    exact ⟨emit_error_mono horder h, fun _ => emit_error_mono hshader h⟩
  · intro err h _
    have hshader : Stage.order.passes ⊆ Stage.shader.passes := by decide
    exact emit_error_mono hshader h
  · intro compiler layout shader hbuild
    obtain ⟨g, order, program, warnings, hgraph, hcheck, horder, _, rfl⟩ := build_ok hbuild
    have hchecked : checkedOrder lib nodes = .ok order :=
      checkedOrder_ok_iff.mpr ⟨g, hgraph, hcheck, horder⟩
    refine ⟨?_, ?_⟩
    · show (checkedOrder lib nodes).map _ = _
      simp [hchecked, Except.map, Function.comp_def]
    · obtain ⟨_, order', _, _, _, hmade, _⟩ := build_madeOf hbuild
      refine ⟨order', _, hmade, hmade.source_eq, ?_, ?_⟩
      · rw [hmade.source_eq]
        exact hasSource_text layout _
      · rw [assembled_ids, hmade.ids_eq]
  · intro _ text warnings
    show (build lib .template o.layout nodes).map _ = _ ↔ _
    simp [map_eq_ok]

/-- What is asked for when no option is given. -/
def plainOptions : Options :=
  ⟨"graph.json", [], none, .shader, "void main(void)", 4, true, false⟩

/-- A node of a type that the library does not have, with an edge to itself. -/
def untypedNodes : List Node := [(Node.ofType "a" "glow").addEdge "a" "x" none]

/-- Nodes that fail in the check, before their cycle is found, and nodes that are
built. -/
theorem emit_stages_agree_samples :
    (plainOptions.atStage .shader).overflows = false ∧
      (∃ err, (plainOptions.atStage .dot).emit sampleLibrary "" untypedNodes = .error err ∧
        (plainOptions.atStage .order).emit sampleLibrary "" untypedNodes = .error err ∧
        (plainOptions.atStage .shader).emit sampleLibrary "" untypedNodes = .error err) ∧
      ∃ shader, build sampleLibrary .template .standard sampleNodes = .ok shader ∧
        (plainOptions.atStage .order).emit sampleLibrary "" sampleNodes
          = .ok (String.join (shader.order.map (· ++ "\n")), []) ∧
        (plainOptions.atStage .shader).emit sampleLibrary "" sampleNodes
          = .ok (shader.source, shader.warnings) ∧
        ∃ (order : List Node) (program : Program),
          shader.MadeOf sampleLibrary .template .standard sampleNodes order program ∧
          program.HasSource .standard shader.source ∧
          program.blocks.map (·.id) = shader.order := by
  have hwidth : (plainOptions.atStage .shader).overflows = false := by decide +kernel
  have hlayout : plainOptions.layout = .standard := by decide +kernel
  refine ⟨hwidth, ?_, ?_⟩
  · obtain ⟨hdot, -, -, -⟩ :=
      emit_stages_agree plainOptions plainOptions sampleLibrary "" untypedNodes
    have hfails : (plainOptions.atStage .dot).emit sampleLibrary "" untypedNodes
        = .error (.unknownType "a" "glow") := by decide +kernel
    obtain ⟨horder, hshader⟩ := hdot _ hfails
    exact ⟨_, hfails, horder, hshader hwidth⟩
  · obtain ⟨-, -, hbuilt, hemitted⟩ :=
      emit_stages_agree plainOptions plainOptions sampleLibrary "" sampleNodes
    obtain ⟨shader, hbuild⟩ := sampleNodes_builds
    obtain ⟨hlist, order, program, hmade, -, hsource, hids⟩ := hbuilt _ _ _ hbuild
    have hshader := (hemitted hwidth shader.source shader.warnings).mpr
      ⟨shader, hlayout ▸ hbuild, rfl, rfl⟩
    exact ⟨shader, hbuild, hlist, hshader, order, program, hmade, hsource, hids⟩

end Command

end ShaderGraph
