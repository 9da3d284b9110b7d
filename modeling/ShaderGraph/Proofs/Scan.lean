import ShaderGraph.Proofs.Check

/-!
# Which fault the check of a graph reports

The check visits places of a graph (`Site`) in a fixed order: nodes as they are
listed, for each node its id, then its type or binding, then its edges, and for
each edge whether its target exists, then the type of the target, then the input.
At each of them one thing can be wrong, and `Breach` says what, and which error
tells it, without running the check.

* **sites** — `Site.fault?` looks at one place (`Site.fault?_eq_some`);
* **the scan** — the check gives the first fault of all places in order
  (`check_eq_scan`).

`check_exact` puts this beside what a graph without faults is like (`Fits`).
-/

namespace ShaderGraph

namespace Graph

/-- A place that the check looks at. -/
inductive Site where
  /-- The id of a node. -/
  | nodeId (n : Node)
  /-- The type or the binding of a node. -/
  | nodeType (n : Node)
  /-- The target of an edge of a node. -/
  | target (n : Node) (e : Edge)
  /-- The type of the node that an edge leads to. -/
  | targetType (n : Node) (e : Edge)
  /-- The input that an edge leads to. -/
  | targetInput (n : Node) (e : Edge)
deriving DecidableEq

/-- The places of an edge. -/
def edgeSites (n : Node) (e : Edge) : List Site :=
  [.target n e, .targetType n e, .targetInput n e]

/-- The places of a node and its edges. -/
def nodeSites (n : Node) : List Site := [.nodeId n, .nodeType n] ++ n.edges.flatMap (edgeSites n)

/-- All places, as the check goes through them. -/
def sites (g : Graph) : List Site := g.nodes.toList.flatMap nodeSites

/-- What is wrong at a place, and the error that says so. -/
inductive Breach (g : Graph) (lib : Library) : Site → BuildError → Prop
  | reserved {n : Node} : n.id = sinkMarker → Breach g lib (.nodeId n) (.reservedId n.id)
  | unbound {n : Node} : n.tag = externalTag → n.binding = none →
      Breach g lib (.nodeType n) (.missingBinding n.id)
  | untyped {n : Node} : n.tag ≠ externalTag → lib.lookup? n.tag = none →
      Breach g lib (.nodeType n) (.unknownType n.id n.tag)
  | dangling {n : Node} {e : Edge} {id : String} : e.target = .node id →
      (∀ m ∈ g.nodes.toList, m.id ≠ id) → Breach g lib (.target n e) (.unknownTarget n.id id)
  | untypedTarget {n m : Node} {e : Edge} : m ∈ g.nodes.toList → e.target = .node m.id →
      m.tag ≠ externalTag → lib.lookup? m.tag = none →
      Breach g lib (.targetType n e) (.unknownType m.id m.tag)
  | externalTarget {n m : Node} {e : Edge} : m ∈ g.nodes.toList → e.target = .node m.id →
      m.tag = externalTag →
      Breach g lib (.targetInput n e) (.unknownInput n.id m.id e.input m.tag)
  | undeclared {n m : Node} {e : Edge} {t : NodeType} : m ∈ g.nodes.toList →
      e.target = .node m.id → m.tag ≠ externalTag → lib.lookup? m.tag = some t →
      e.input ∉ t.inputs.map (·.name) →
      Breach g lib (.targetInput n e) (.unknownInput n.id m.id e.input m.tag)

/-- A node with an id and a type of its own, all of whose edges lead to declared
inputs. -/
structure Fits (g : Graph) (lib : Library) (n : Node) : Prop where
  id_ne : n.id ≠ sinkMarker
  typed : n.tag = externalTag ∧ n.binding.isSome = true ∨
    n.tag ≠ externalTag ∧ (lib.lookup? n.tag).isSome = true
  edges : ∀ e ∈ n.edges, ∀ id, e.target = .node id →
    ∃ m ∈ g.nodes.toList, m.id = id ∧ m.tag ≠ externalTag ∧
      ∃ t, lib.lookup? m.tag = some t ∧ e.input ∈ t.inputs.map (·.name)

variable {g : Graph} {lib : Library}

/-! ## Places -/

/-- The node that an edge leads to. -/
def targetOf? (g : Graph) (e : Edge) : Option Node := e.target?.bind g.find?

theorem targetOf?_eq_some {e : Edge} {m : Node} :
    g.targetOf? e = some m ↔ m ∈ g.nodes.toList ∧ e.target = .node m.id := by
  unfold targetOf?
  cases htarget : e.target with
  | sink => simp [Edge.target?_of_sink htarget]
  | node id =>
    rw [Edge.target?_of_node htarget, Option.bind_some, find?_eq_some, Target.node.injEq, eq_comm]

/-- The fault at a place. -/
def Site.fault? (g : Graph) (lib : Library) : Site → Option BuildError
  | .nodeId n => if n.id = sinkMarker then some (.reservedId n.id) else none
  | .nodeType n =>
    if n.tag = externalTag then
      if n.binding = none then some (.missingBinding n.id) else none
    else if lib.lookup? n.tag = none then some (.unknownType n.id n.tag) else none
  | .target n e =>
    match e.target with
    | .sink => none
    | .node id => if g.find? id = none then some (.unknownTarget n.id id) else none
  | .targetType _ e => (g.targetOf? e).bind fun m =>
    if m.tag ≠ externalTag ∧ lib.lookup? m.tag = none then some (.unknownType m.id m.tag) else none
  | .targetInput n e => (g.targetOf? e).bind fun m =>
    let undeclared := BuildError.unknownInput n.id m.id e.input m.tag
    if m.tag = externalTag then some undeclared
    else (lib.lookup? m.tag).bind fun t =>
      if e.input ∈ t.inputs.map (·.name) then none else some undeclared

theorem find?_eq_none {id : String} : g.find? id = none ↔ ∀ m ∈ g.nodes.toList, m.id ≠ id := by
  rw [Option.eq_none_iff_forall_ne_some]
  constructor
  · intro hno m hm hid
    exact hno m (find?_eq_some.mpr ⟨hm, hid⟩)
  · intro hno m hfind
    obtain ⟨hm, hid⟩ := find?_eq_some.mp hfind
    exact hno m hm hid

/-- A place has a fault exactly if something is wrong there. -/
theorem Site.fault?_eq_some {site : Site} {err : BuildError} :
    site.fault? g lib = some err ↔ Breach g lib site err := by
  constructor
  · intro h
    cases site with
    | nodeId n =>
      simp only [fault?, Option.ite_none_right_eq_some, Option.some.injEq] at h
      obtain ⟨hid, rfl⟩ := h
      exact .reserved hid
    | nodeType n =>
      simp only [fault?] at h
      split at h
      · next hext =>
        simp only [Option.ite_none_right_eq_some, Option.some.injEq] at h
        obtain ⟨hbinding, rfl⟩ := h
        exact .unbound hext hbinding
      · next hext =>
        simp only [Option.ite_none_right_eq_some, Option.some.injEq] at h
        obtain ⟨hlookup, rfl⟩ := h
        exact .untyped hext hlookup
    | target n e =>
      simp only [fault?] at h
      split at h
      · cases h
      · next id htarget =>
        simp only [Option.ite_none_right_eq_some, Option.some.injEq] at h
        obtain ⟨hfind, rfl⟩ := h
        exact .dangling htarget (find?_eq_none.mp hfind)
    | targetType n e =>
      simp only [fault?, Option.bind_eq_some_iff, Option.ite_none_right_eq_some,
        Option.some.injEq] at h
      obtain ⟨m, hm, ⟨hext, hlookup⟩, rfl⟩ := h
      obtain ⟨hmem, htarget⟩ := targetOf?_eq_some.mp hm
      exact .untypedTarget hmem htarget hext hlookup
    | targetInput n e =>
      simp only [fault?, Option.bind_eq_some_iff] at h
      obtain ⟨m, hm, h⟩ := h
      obtain ⟨hmem, htarget⟩ := targetOf?_eq_some.mp hm
      split at h
      · next hext =>
        cases h
        exact .externalTarget hmem htarget hext
      · next hext =>
        simp only [Option.bind_eq_some_iff, Option.ite_none_left_eq_some, Option.some.injEq] at h
        obtain ⟨t, hlookup, hinput, rfl⟩ := h
        exact .undeclared hmem htarget hext hlookup hinput
  · intro h
    cases h with
    | reserved hid => simp [fault?, hid]
    | unbound hext hbinding => simp [fault?, hext, hbinding]
    | untyped hext hlookup => simp [fault?, hext, hlookup]
    | dangling htarget hno => simp [fault?, htarget, find?_eq_none.mpr hno]
    | untypedTarget hmem htarget hext hlookup =>
      simp [fault?, targetOf?_eq_some.mpr ⟨hmem, htarget⟩, hext, hlookup]
    | externalTarget hmem htarget hext =>
      simp [fault?, targetOf?_eq_some.mpr ⟨hmem, htarget⟩, hext]
    | undeclared hmem htarget hext hlookup hinput =>
      simp only [fault?, targetOf?_eq_some.mpr ⟨hmem, htarget⟩, Option.bind_some, if_neg hext,
        hlookup, if_neg hinput]

theorem Site.fault?_eq_none {site : Site} :
    site.fault? g lib = none ↔ ∀ err, ¬ Breach g lib site err := by
  simp only [Option.eq_none_iff_forall_ne_some, ne_eq, Site.fault?_eq_some]

/-! ## The scan -/

/-- The first fault at places in order. -/
def firstFault? (g : Graph) (lib : Library) (places : List Site) : Option BuildError :=
  places.findSome? (Site.fault? g lib)

/-- The result of a check that has come upon a fault, or upon none. -/
def verdictOf : Option BuildError → Except BuildError Unit
  | none => .ok ()
  | some err => .error err

theorem verdictOf_eq_error {fault : Option BuildError} {err : BuildError} :
    verdictOf fault = .error err ↔ fault = some err := by
  cases fault with
  | none => simp [verdictOf]
  | some err' => simp [verdictOf]

/-- Places are gone through one after the other until there is a fault. -/
theorem verdictOf_append (places more : List Site) :
    verdictOf (g.firstFault? lib (places ++ more))
      = verdictOf (g.firstFault? lib places) >>= fun _ => verdictOf (g.firstFault? lib more) := by
  unfold firstFault?
  rw [List.findSome?_append]
  cases places.findSome? (Site.fault? g lib) with
  | none => rfl
  | some err => rfl

theorem checkNode_eq (n : Node) :
    checkNode lib n = verdictOf (g.firstFault? lib [.nodeId n, .nodeType n]) := by
  unfold checkNode
  by_cases hid : n.id = sinkMarker
  · simp [firstFault?, Site.fault?, hid, verdictOf]
  · by_cases hext : n.tag = externalTag
    · rw [if_neg hid, if_pos (Node.isExternal_iff.mpr hext)]
      cases hbinding : n.binding with
      | none => simp [firstFault?, Site.fault?, hid, hext, hbinding, verdictOf]
      | some b => simp [firstFault?, Site.fault?, hid, hext, hbinding, verdictOf]
    · rw [if_neg hid, if_neg (fun heq => hext (Node.isExternal_iff.mp heq))]
      cases hlookup : lib.lookup? n.tag with
      | none => simp [firstFault?, Site.fault?, hid, hext, hlookup, verdictOf]
      | some t => simp [firstFault?, Site.fault?, hid, hext, hlookup, verdictOf]

theorem checkTarget_eq {n m : Node} {e : Edge} (hm : g.targetOf? e = some m) :
    checkTarget lib n m e.input
      = verdictOf (g.firstFault? lib [.targetType n e, .targetInput n e]) := by
  unfold checkTarget
  by_cases hext : m.tag = externalTag
  · rw [if_pos (Node.isExternal_iff.mpr hext)]
    simp [firstFault?, Site.fault?, hm, hext, verdictOf]
  · rw [if_neg (fun heq => hext (Node.isExternal_iff.mp heq))]
    cases hlookup : lib.lookup? m.tag with
    | none => simp [firstFault?, Site.fault?, hm, hext, hlookup, verdictOf]
    | some t =>
      have htype : Site.fault? g lib (.targetType n e) = none := by
        simp [Site.fault?, hm, hlookup]
      have hinput : Site.fault? g lib (.targetInput n e)
          = if e.input ∈ t.inputs.map (·.name) then none
            else some (.unknownInput n.id m.id e.input m.tag) := by
        simp only [Site.fault?, hm, hlookup, Option.bind_some, if_neg hext]
      simp only [NodeType.isSome_input?, firstFault?, List.findSome?_cons, htype, hinput]
      split
      · rfl
      · rfl

theorem checkEdge_eq (n : Node) (e : Edge) :
    g.checkEdge lib n e = verdictOf (g.firstFault? lib (edgeSites n e)) := by
  unfold checkEdge edgeSites
  cases htarget : e.target with
  | sink =>
    simp [firstFault?, Site.fault?, targetOf?, htarget, Edge.target?_of_sink htarget, verdictOf]
  | node id =>
    cases hfind : g.find? id with
    | none => simp [firstFault?, Site.fault?, htarget, hfind, verdictOf]
    | some m =>
      have hm : g.targetOf? e = some m := by
        rw [targetOf?, Edge.target?_of_node htarget, Option.bind_some, hfind]
      have hhere : Site.fault? g lib (.target n e) = none := by
        simp [Site.fault?, htarget, hfind]
      have hskip : g.firstFault? lib [.target n e, .targetType n e, .targetInput n e]
          = g.firstFault? lib [.targetType n e, .targetInput n e] := by
        simp only [firstFault?, List.findSome?_cons, hhere]
      simp only [hfind, hskip]
      exact checkTarget_eq hm

theorem checkEdges_cons (n : Node) (e : Edge) (rest : List Edge) :
    g.checkEdges lib n (e :: rest) = g.checkEdge lib n e >>= fun _ => g.checkEdges lib n rest := by
  rw [checkEdges]
  cases g.checkEdge lib n e with
  | error err => rfl
  | ok u => rfl

theorem checkEdges_eq (n : Node) (edges : List Edge) :
    g.checkEdges lib n edges = verdictOf (g.firstFault? lib (edges.flatMap (edgeSites n))) := by
  induction edges with
  | nil => rfl
  | cons e rest ih =>
    rw [checkEdges_cons, List.flatMap_cons, verdictOf_append, checkEdge_eq, ih]

theorem checkNodes_cons (n : Node) (rest : List Node) :
    g.checkNodes lib (n :: rest) = checkNode lib n >>= fun _ =>
      g.checkEdges lib n n.edges >>= fun _ => g.checkNodes lib rest := by
  rw [checkNodes]
  cases checkNode lib n with
  | error err => rfl
  | ok u =>
    cases g.checkEdges lib n n.edges with
    | error err => rfl
    | ok u => rfl

theorem checkNodes_eq (nodes : List Node) :
    g.checkNodes lib nodes = verdictOf (g.firstFault? lib (nodes.flatMap nodeSites)) := by
  induction nodes with
  | nil => rfl
  | cons n rest ih =>
    rw [checkNodes_cons, List.flatMap_cons, nodeSites, List.append_assoc, verdictOf_append,
      verdictOf_append, checkNode_eq, checkEdges_eq, ih]

/-- The check gives the first fault of a graph. -/
theorem check_eq_scan (g : Graph) (lib : Library) :
    g.check lib = verdictOf (g.firstFault? lib g.sites) :=
  checkNodes_eq g.nodes.toList

/-! ## Exactness -/

theorem typedEdge_iff {e : Edge} :
    g.TypedEdge lib e ↔ ∀ id, e.target = .node id →
      ∃ m ∈ g.nodes.toList, m.id = id ∧ m.tag ≠ externalTag ∧
        ∃ t, lib.lookup? m.tag = some t ∧ e.input ∈ t.inputs.map (·.name) := by
  unfold TypedEdge
  refine forall_congr' fun id => ?_
  rw [Edge.target?_eq_some]
  refine imp_congr_right fun _ => exists_congr fun m => and_congr_right fun _ =>
    and_congr_right fun _ => ?_
  exact Library.mem_inputNames

theorem fits_iff {n : Node} :
    g.Fits lib n ↔ TypedNode lib n ∧ ∀ e ∈ n.edges, g.TypedEdge lib e := by
  simp only [typedEdge_iff]
  constructor
  · intro h
    refine ⟨⟨h.id_ne, ?_⟩, h.edges⟩
    rcases h.typed with ⟨hext, hbinding⟩ | ⟨hext, htype⟩
    · rwa [if_pos (Node.isExternal_iff.mpr hext)]
    · rwa [if_neg (fun heq => hext (Node.isExternal_iff.mp heq))]
  · rintro ⟨⟨hid, htyped⟩, hedges⟩
    refine ⟨hid, ?_, hedges⟩
    split at htyped
    · next hext => exact .inl ⟨Node.isExternal_iff.mp hext, htyped⟩
    · next hext => exact .inr ⟨fun heq => hext (Node.isExternal_iff.mpr heq), htyped⟩

/-- The check of a graph succeeds exactly if all of its nodes fit. If it fails,
then with the error about the first place where something is wrong. -/
theorem check_exact (g : Graph) (lib : Library) :
    (g.check lib = .ok () ↔ ∀ n ∈ g.nodes.toList, g.Fits lib n) ∧
      ∀ err, g.check lib = .error err ↔
        ∃ before site after, g.sites = before ++ site :: after ∧
          (∀ s ∈ before, ∀ e, ¬ Breach g lib s e) ∧ Breach g lib site err := by
  constructor
  · rw [check_ok_iff]
    simp only [fits_iff]
  · intro err
    rw [check_eq_scan, verdictOf_eq_error, firstFault?, List.findSome?_eq_some_iff]
    simp only [Site.fault?_eq_some, Site.fault?_eq_none]
    refine exists_congr fun before => exists_congr fun site => exists_congr fun after =>
      and_congr_right fun _ => and_comm

end Graph

end ShaderGraph
