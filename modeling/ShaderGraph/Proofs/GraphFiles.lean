import ShaderGraph.Node
import ShaderGraph.Proofs.Json.Record

/-!
# Graph files come back from their written form

The nodes of a graph file are written as records: edges name their targets, a sink
by its marker, and fields that have their default are left out. What was read from
a file can be read again from what is written:

* **shape** — the defines of a node that was read are not nested too deep, and no
  edge leads to a node that is named like the sink (`Node.Legible`);
* **records** — nodes of that shape are read back, field by field (`Node.reads`).

`loadNodes_nodesText` is the round trip of whole files.
-/

namespace ShaderGraph

open ShaderGraph.Json ShaderGraph.Template

/-! ## Reading what was written -/

theorem Target.ofText_text {t : Target} (h : t ≠ .node sinkMarker) : Target.ofText t.text = t := by
  cases t with
  | sink => rfl
  | node id =>
    have hid : id ≠ sinkMarker := by
      rintro rfl
      exact h rfl
    show (if id = sinkMarker then Target.sink else .node id) = .node id
    rw [if_neg hid]

theorem Target.text_eq_marker {t : Target} (h : t ≠ .node sinkMarker) :
    t.text = sinkMarker ↔ t = .sink := by
  cases t with
  | sink => simp [Target.text]
  | node id =>
    refine ⟨?_, nofun⟩
    rintro rfl
    exact absurd rfl h

theorem Binding.reads (b : Binding) : Reads (record Binding.schema) 1 b b.chars := by
  apply reads_record
  refine .next rfl (by simp) ((reads_string b.qualifier).field _ _ _ _) ?_
  refine .next rfl (by simp) ((reads_string b.dataType).field _ _ _ _) ?_
  refine .next rfl (by simp) ((reads_string b.name).field _ _ _ _) ?_
  exact .done (by simp [Binding.schema, Field.of])

theorem Edge.reads {e : Edge} (h : e.target ≠ .node sinkMarker) :
    Reads (record Edge.schema) 1 e e.chars := by
  obtain ⟨target, input, output⟩ := e
  apply reads_record
  refine .next rfl (by simp) ((reads_string target.text).field _ _ _ _) ?_
  refine .next rfl (by simp) ((reads_string input).field _ _ _ _) ?_
  rw [Target.ofText_text h]
  cases output with
  | none => exact .done (by simp [Edge.schema, Field.of])
  | some output =>
    have hnull : (stringChars output).head? ≠ some 'n' := by simp [stringChars]
    refine .next rfl (by simp) (((reads_string output).optional hnull).field _ _ _ _) ?_
    exact .done (by simp [Edge.schema, Field.of])

/-- The defines of a node are nested to at most `depth`, and its edges that are
named like the sink lead there. -/
structure Node.Legible (depth : Nat) (n : Node) : Prop where
  defines : ∀ e ∈ n.defines.entries, e.2.Fits depth
  targets : ∀ e ∈ n.edges, e.target ≠ .node sinkMarker

theorem Node.reads {n : Node} {depth : Nat} (hdepth : 1 ≤ depth) (h : n.Legible depth)
    (hint : ∀ e ∈ n.defines.entries, e.2.Integral) :
    Reads (record Node.schema) (depth + 2) n n.chars := by
  obtain ⟨id, tag, defines, binding, edges⟩ := n
  have hdefines := reads_defines h.defines hint
  have hbinding : ∀ b : Binding,
      Reads (optional (record Binding.schema)) (depth + 1) (some b) b.chars :=
    fun b => (b.reads.optional (by simp [Binding.chars, objectChars])).mono (by omega)
  have hedges : Reads (list (record Edge.schema)) (depth + 1) edges
      (arrayChars (edges.map Edge.chars)) := by
    refine (reads_list ?_).mono (show 2 ≤ depth + 1 by omega)
    rw [List.forall₂_map_right_iff, List.forall₂_same]
    exact fun e he => Edge.reads (h.targets e he)
  unfold Node.chars
  rw [List.append_assoc, List.append_assoc, List.cons_append, List.cons_append, List.nil_append]
  apply reads_record
  refine .next rfl (by simp) (((reads_string id).mono (by omega)).field _ _ _ _) ?_
  refine .next rfl (by simp) (((reads_string tag).mono (by omega)).field _ _ _ _) ?_
  refine .part "defines" ⟨id, tag, defines, none, []⟩ rfl (by simp)
    (by simp [Node.schema, Field.of]) ?_ ?_
  · by_cases hempty : defines.isEmpty = true
    · refine .inl ⟨if_pos hempty, ?_⟩
      rw [Dict.eq_empty_of_isEmpty hempty]
      rfl
    · exact .inr ⟨_, if_neg hempty, hdefines.field _ _ _ _⟩
  refine .part "external" ⟨id, tag, defines, binding, []⟩ rfl (by simp)
    (by simp [Node.schema, Field.of]) ?_ ?_
  · cases binding with
    | none => exact .inl ⟨rfl, rfl⟩
    | some b => exact .inr ⟨_, rfl, (hbinding b).field _ _ _ _⟩
  refine .next rfl (by simp) (hedges.field _ _ _ _) ?_
  exact .done (by simp [Node.schema, Field.of])

theorem parseNodes_nodesText {nodes : List Node} (h : ∀ n ∈ nodes, n.Legible (depthLimit - 3))
    (hint : ∀ n ∈ nodes, ∀ e ∈ n.defines.entries, e.2.Integral) :
    parseNodes (nodesText nodes) = .ok nodes := by
  apply readDocument_of_reads
  show Reads _ (depthLimit - 1 + 1) _ _
  apply reads_list
  rw [List.forall₂_map_right_iff, List.forall₂_same]
  exact fun n hn => Node.reads (by decide) (h n hn) (hint n hn)

/-! ## Nodes that were read -/

theorem Target.ofText_ne (s : String) : Target.ofText s ≠ .node sinkMarker := by
  unfold Target.ofText
  split_ifs with h
  · exact nofun
  · intro heq
    injection heq with heq
    exact h heq

theorem Edge.target_of_record {budget depth : Nat} {cs rest : List Char} {e : Edge}
    (h : record Edge.schema budget (depth + 1) cs = .ok (e, rest)) :
    e.target ≠ .node sinkMarker := by
  have hblank : Edge.schema.blank.target ≠ .node sinkMarker := nofun
  refine record_forall (P := fun e => e.target ≠ .node sinkMarker) hblank ?_ h
  refine .field (fun _ v _ _ _ _ => Target.ofText_ne v) ?_
  refine .field (fun _ _ _ _ he _ => he) ?_
  exact .field (fun _ _ _ _ he _ => he) .nil

/-- A node that was read is legible, whether it was given as an object or as a
list. -/
theorem Node.legible_of_record {budget depth : Nat} {cs rest : List Char} {n : Node}
    (h : record Node.schema budget (depth + 3) cs = .ok (n, rest)) : n.Legible (depth + 1) := by
  have hblank : Node.schema.blank.Legible (depth + 1) :=
    ⟨List.forall_mem_nil _, List.forall_mem_nil _⟩
  refine record_forall hblank ?_ h
  refine .field (fun _ _ _ _ hn _ => ⟨hn.defines, hn.targets⟩) ?_
  refine .field (fun _ _ _ _ hn _ => ⟨hn.defines, hn.targets⟩) ?_
  refine .field (fun _ _ _ _ hn hdict =>
    ⟨forall_of_dict (fun _ _ _ => fits_of_readValue) hdict, hn.targets⟩) ?_
  refine .field (fun _ _ _ _ hn _ => ⟨hn.defines, hn.targets⟩) ?_
  exact .field (fun _ _ _ _ hn hlist =>
    ⟨hn.defines, forall_of_list (fun _ _ _ => Edge.target_of_record) hlist⟩) .nil

theorem legible_of_parseNodes {text : String} {nodes : List Node}
    (h : parseNodes text = .ok nodes) : ∀ n ∈ nodes, n.Legible (depthLimit - 3) := by
  obtain ⟨_, _, hread⟩ := readDocument_ok h
  exact forall_of_list (fun _ _ _ => Node.legible_of_record) hread

/-! ## Whole files -/

theorem loadNodes_ok {text origin : String} {nodes : List Node} :
    loadNodes text origin = .ok nodes ↔ parseNodes text = .ok nodes := by
  unfold loadNodes
  cases parseNodes text with
  | error e => simp
  | ok nodes' => simp

/-- No edge that is read leads to a node named like the sink: what is written as the
sink is the sink. Nodes that are read, with whole numbers only in their defines, are
read again from the file that is written of them. -/
theorem loadNodes_nodesText (text origin : String) (nodes : List Node)
    (hload : loadNodes text origin = .ok nodes) :
    (∀ n ∈ nodes, ∀ e ∈ n.edges,
      e.target ≠ .node sinkMarker ∧ (e.target.text = sinkMarker ↔ e.target = .sink)) ∧
    ((∀ n ∈ nodes, ∀ name v, n.defines.find? name = some v → v.Integral) →
      ∀ origin', loadNodes (nodesText nodes) origin' = .ok nodes) := by
  have hlegible := legible_of_parseNodes (loadNodes_ok.mp hload)
  constructor
  · intro n hn e he
    have htarget := (hlegible n hn).targets e he
    exact ⟨htarget, Target.text_eq_marker htarget⟩
  · intro hint origin'
    rw [loadNodes_ok]
    refine parseNodes_nodesText hlegible ?_
    intro n hn e he
    exact hint n hn e.1 e.2 (Dict.mem_entries.mp he)

/-- A file with a node given as an object and one given as a list, which has an edge
to the sink. -/
def listedFile : String :=
  "[\x7b\"type\":\"external\",\"id\":\"u\",\"outputsTo\":[\x7b\"to\":\"n\",\"input\":\"t\"\x7d],"
    ++ "\"external\":[\"uniform\",\"float\",\"time\"]\x7d, "
    ++ "[\"n\",\"double\",\x7b\"GAIN\":[-2,\"\\u0001\"]\x7d,null,"
    ++ "[\x7b\"output\":\"o\",\"to\":\"_\"\x7d]]]"

/-- The nodes of the file. -/
def listedNodes : List Node :=
  [⟨"u", externalTag, .empty, some ⟨"uniform", "float", "time"⟩, [⟨.node "n", "t", none⟩]⟩,
    ⟨"n", "double",
      .ofList [("GAIN", .array [.number (.integer (-2) (by decide)), .string "\x01"])],
      none, [⟨.sink, "", some "o"⟩]⟩]

theorem loadNodes_nodesText_listed :
    loadNodes listedFile "a.json" = .ok listedNodes ∧
    (∀ n ∈ listedNodes, ∀ name v, n.defines.find? name = some v → v.Integral) ∧
    loadNodes (nodesText listedNodes) "b.json" = .ok listedNodes := by
  have hload : loadNodes listedFile "a.json" = .ok listedNodes := by decide +kernel
  have hint : ∀ n ∈ listedNodes, ∀ name v, n.defines.find? name = some v → v.Integral := by
    intro n hn name v hv
    simp only [listedNodes, List.mem_cons, List.not_mem_nil, or_false] at hn
    rcases hn with rfl | rfl
    · cases hv
    · have hmem : (name, v) ∈ [("GAIN", _)] := Dict.mem_entries.mpr hv
      cases List.mem_singleton.mp hmem
      refine .array ?_
      simp only [List.forall_mem_cons]
      exact ⟨.integer _ _, .string _, by simp⟩
  exact ⟨hload, hint, (loadNodes_nodesText listedFile "a.json" listedNodes hload).2 hint "b.json"⟩

end ShaderGraph
