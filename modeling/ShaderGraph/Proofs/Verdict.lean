import ShaderGraph.Proofs.Faults

/-!
# How a build is decided

The passes of a build check each other's conditions again, so it is not plain
from them which errors can come out and which of several wins. The answer is a
list of questions, asked in this order until one is answered with yes:

* do two nodes share an id?
* does the check of the graph fail?
* do the nodes feed each other in a circle?
* do two declared inputs share a storage name?
* does a node have no code?

`Graph.Decides` spells the list out from the second question on, with the error
that each answer leads to. `build_decided` says that builds follow it, and that
the conditions which later passes ask for again hold by then.
-/

namespace ShaderGraph

open ShaderGraph.Template

/-- The errors that the check of a graph can end with. -/
def BuildError.IsCheckFault : BuildError → Prop
  | .unknownType .. | .unknownTarget .. | .unknownInput .. | .missingBinding .. | .reservedId .. =>
    True
  | _ => False

/-! ## Graphs -/

namespace Graph

variable {g : Graph} {lib : Library} {nodes : List Node} {err : BuildError}

theorem not_nodup_of_firstRepeat? {id : String} :
    ∀ {seen : List String}, firstRepeat? seen nodes = some id →
      ¬ ((nodes.map (·.id)).Nodup ∧ ∀ n ∈ nodes, n.id ∉ seen) := by
  induction nodes with
  | nil =>
    intro seen h
    cases h
  | cons n rest ih =>
    intro seen h ⟨hnodup, hseen⟩
    rw [List.map_cons, List.nodup_cons] at hnodup
    rw [List.forall_mem_cons] at hseen
    unfold firstRepeat? at h
    split at h
    · next hmem => exact hseen.1 (by simpa using hmem)
    · refine ih h ⟨hnodup.2, ?_⟩
      intro m hm hmem
      rcases List.mem_cons.mp hmem with heq | hmem
      · exact hnodup.1 (heq ▸ List.mem_map_of_mem hm)
      · exact hseen.2 m hm hmem

theorem nodup_of_ofNodes (h : ofNodes nodes = .ok g) : (nodes.map (·.id)).Nodup := by
  have hdistinct := g.distinct
  rwa [nodes_of_ofNodes h] at hdistinct

theorem repeat_of_ofNodes (h : ofNodes nodes = .error err) :
    (∃ id, err = .duplicateId id) ∧ ¬ (nodes.map (·.id)).Nodup := by
  unfold ofNodes at h
  split at h
  · next id hrepeat =>
    cases h
    refine ⟨⟨id, rfl⟩, ?_⟩
    intro hnodup
    exact not_nodup_of_firstRepeat? hrepeat ⟨hnodup, by simp⟩
  · cases h

theorem checkNode_fault {n : Node} (h : checkNode lib n = .error err) : err.IsCheckFault := by
  unfold checkNode at h
  split at h
  · cases h
    trivial
  · split at h
    · split at h
      · cases h
        trivial
      · cases h
    · split at h
      · cases h
        trivial
      · cases h

theorem checkEdge_fault {n : Node} {e : Edge} (h : g.checkEdge lib n e = .error err) :
    err.IsCheckFault := by
  unfold checkEdge at h
  split at h
  · cases h
  · split at h
    · cases h
      trivial
    · unfold checkTarget at h
      simp only at h
      split at h
      · cases h
        trivial
      · split at h
        · cases h
          trivial
        · split at h
          · cases h
          · cases h
            trivial

theorem checkEdges_fault {n : Node} {edges : List Edge}
    (h : g.checkEdges lib n edges = .error err) : err.IsCheckFault := by
  induction edges with
  | nil => cases h
  | cons e rest ih =>
    unfold checkEdges at h
    split at h
    · next hedge =>
      cases h
      exact checkEdge_fault hedge
    · exact ih h

theorem checkNodes_fault (h : g.checkNodes lib nodes = .error err) : err.IsCheckFault := by
  induction nodes with
  | nil => cases h
  | cons n rest ih =>
    unfold checkNodes at h
    split at h
    · next hnode =>
      cases h
      exact checkNode_fault hnode
    · split at h
      · next hedges =>
        cases h
        exact checkEdges_fault hedges
      · exact ih h

theorem check_ne_error (h : g.check lib = .ok ()) : g.check lib ≠ .error err := by
  rw [h]
  exact nofun

theorem closed_of_check (h : g.check lib = .ok ()) : g.Closed := by
  rintro u v ⟨n, hn, rfl, hv⟩
  obtain ⟨e, he, htarget⟩ := Node.mem_successors.mp hv
  obtain ⟨m, hm, hid, _⟩ := (check_ok_iff.mp h n hn).2 e he v htarget
  exact hid ▸ List.mem_map_of_mem hm

/-- All that can be wrong with the order of a checked graph is a cycle. -/
theorem order_cases (h : g.check lib = .ok ()) :
    (∃ cycle, g.order = .error (.cyclic cycle)) ∧ ¬ g.Acyclic ∨
      (∃ order, g.order = .ok order) ∧ g.Acyclic := by
  cases horder : g.order with
  | ok order => exact .inr ⟨⟨order, rfl⟩, (isOrder_of_order horder).acyclic⟩
  | error err =>
    rcases exists_fault_of_order horder with ⟨cycle, rfl, hcycle⟩ | ⟨node, target, _, hfeeds, hno⟩
    · exact .inl ⟨⟨cycle, rfl⟩, hcycle.not_acyclic⟩
    · exact absurd (closed_of_check h node target hfeeds) hno

end Graph

/-! ## Decisions -/

/-- What becomes of a graph: the first of its troubles, with the error that
reports it, or a shader. -/
inductive Verdict (lib : Library) (compiler : BodyCompiler) (g : Graph) :
    Except BuildError Shader → Prop
  | unchecked {err : BuildError} : g.check lib = .error err → err.IsCheckFault →
      Verdict lib compiler g (.error err)
  | cyclic {cycle : List String} : g.check lib = .ok () → ¬ g.Acyclic →
      Verdict lib compiler g (.error (.cyclic cycle))
  | clash {name : String} {a b : InputRef} : g.check lib = .ok () → g.Acyclic →
      Clash lib g.nodes.toList → Verdict lib compiler g (.error (.nameCollision name a b))
  | faulty {before after : List Node} {n : Node} {err : BuildError} : g.check lib = .ok () →
      g.Acyclic → ¬ Clash lib g.nodes.toList → g.order = .ok (before ++ n :: after) →
      (∀ m ∈ before, ¬ m.Faulty lib compiler) → n.FailsWith lib compiler err →
      Verdict lib compiler g (.error err)
  | built {order : List Node} {shader : Shader} : g.check lib = .ok () → g.Acyclic →
      ¬ Clash lib g.nodes.toList → g.order = .ok order →
      (∀ n ∈ order, ¬ n.Faulty lib compiler) → Verdict lib compiler g (.ok shader)

theorem build_verdict {g : Graph} {nodes : List Node} (lib : Library) (compiler : BodyCompiler)
    (layout : Layout) (hgraph : Graph.ofNodes nodes = .ok g) :
    Verdict lib compiler g (build lib compiler layout nodes) := by
  unfold build checkedOrder checkedGraph
  simp only [hgraph]
  cases hcheck : g.check lib with
  | error err => exact .unchecked hcheck (Graph.checkNodes_fault hcheck)
  | ok u =>
    simp only
    rcases Graph.order_cases hcheck with ⟨⟨cycle, horder⟩, hcyclic⟩ | ⟨⟨order, horder⟩, hacyclic⟩
    · rw [horder]
      exact .cyclic hcheck hcyclic
    · have hperm := Graph.order_perm horder
      have htyped : ∀ n ∈ order, Graph.TypedNode lib n := by
        intro n hn
        exact (Graph.check_ok_iff.mp hcheck n (hperm.mem_iff.mp hn)).1
      rw [horder]
      simp only
      rcases assemble_cases compiler htyped with
        ⟨err, hassemble, a, ha, b, hb, hcollide, rfl⟩ | ⟨hclash, hcode⟩
      · rw [hassemble]
        exact .clash hcheck hacyclic (Clash.perm ⟨a, ha, b, hb, hcollide⟩ hperm)
      · have hclash' : ¬ Clash lib g.nodes.toList := fun h => hclash (h.perm hperm.symm)
        rcases hcode with ⟨before, n, after, err, rfl, hbefore, hn, hassemble⟩ | ⟨hall, hassemble⟩
        · rw [hassemble]
          refine .faulty hcheck hacyclic hclash' horder ?_
            ((nodeCode_error_iff (htyped n (by simp))).mp hn)
          intro m hm
          exact (hasCode_iff (htyped m (by simp [hm]))).mp (hbefore m hm)
        · rw [hassemble]
          refine .built hcheck hacyclic hclash' horder ?_
          intro n hn
          exact (hasCode_iff (htyped n hn)).mp (hall n hn)

/-- The outcome of a build of the graph, question by question. -/
structure Graph.Decides (lib : Library) (compiler : BodyCompiler) (g : Graph)
    (outcome : Except BuildError Shader) : Prop where
  unchecked : ∀ err, err.IsCheckFault ∧ outcome = .error err ↔ g.check lib = .error err
  cyclic : g.check lib = .ok () → ((∃ cycle, outcome = .error (.cyclic cycle)) ↔ ¬ g.Acyclic)
  clash : g.check lib = .ok () → g.Acyclic →
    ((∃ name a b, outcome = .error (.nameCollision name a b)) ↔ Clash lib g.nodes.toList)
  /-- The first faulty node in order is to blame. -/
  faulty : g.check lib = .ok () → g.Acyclic → ¬ Clash lib g.nodes.toList →
    ∃ order, g.order = .ok order ∧ ∀ err, outcome = .error err ↔
      ∃ before n after, order = before ++ n :: after ∧ (∀ m ∈ before, ¬ m.Faulty lib compiler) ∧
        n.FailsWith lib compiler err
  built : g.check lib = .ok () → g.Acyclic → ¬ Clash lib g.nodes.toList →
    ((∃ shader, outcome = .ok shader) ↔ ∀ n ∈ g.nodes.toList, ¬ n.Faulty lib compiler)

theorem Node.FailsWith.not_isCheckFault {lib : Library} {compiler : BodyCompiler} {n : Node}
    {err : BuildError} (h : n.FailsWith lib compiler err) : ¬ err.IsCheckFault := by
  cases h with
  | body => exact not_false
  | edge => exact not_false

theorem Node.FailsWith.unique {lib : Library} {compiler : BodyCompiler} {n : Node}
    {err err' : BuildError} (hn : Graph.TypedNode lib n) (h : n.FailsWith lib compiler err)
    (h' : n.FailsWith lib compiler err') : err = err' := by
  have herror := (nodeCode_error_iff hn).mpr h
  rw [(nodeCode_error_iff hn).mpr h'] at herror
  exact (Except.error.inj herror).symm

-- there is only one way to cut a list at its first item with a property
private theorem first_unique {α : Type} {p : α → Prop} {before before' after after' : List α}
    {a a' : α} (h : before ++ a :: after = before' ++ a' :: after') (hbefore : ∀ b ∈ before, ¬ p b)
    (hbefore' : ∀ b ∈ before', ¬ p b) (ha : p a) (ha' : p a') : a = a' := by
  induction before generalizing before' with
  | nil =>
    cases before' with
    | nil => exact (List.cons.inj h).1
    | cons b rest => exact absurd ((List.cons.inj h).1 ▸ ha) (hbefore' b (by simp))
  | cons b rest ih =>
    cases before' with
    | nil => exact absurd ((List.cons.inj h).1 ▸ ha') (hbefore b (by simp))
    | cons b' rest' =>
      rw [List.forall_mem_cons] at hbefore hbefore'
      exact ih (List.cons.inj h).2 hbefore.2 hbefore'.2

theorem Verdict.decides {lib : Library} {compiler : BodyCompiler} {g : Graph}
    {outcome : Except BuildError Shader} (h : Verdict lib compiler g outcome) :
    g.Decides lib compiler outcome where
  unchecked := by
    intro err
    -- an error of a later question is none of the check's
    have hlater : ∀ {err'}, g.check lib = .ok () → ¬ err'.IsCheckFault →
        (err.IsCheckFault ∧ (.error err' : Except BuildError Shader) = .error err ↔
          g.check lib = .error err) := by
      intro err' hcheck hno
      rw [hcheck]
      constructor
      · rintro ⟨hfault, heq⟩
        cases heq
        exact absurd hfault hno
      · exact nofun
    cases h with
    | unchecked hcheck hfault =>
      constructor
      · rintro ⟨_, heq⟩
        cases heq
        exact hcheck
      · intro herror
        rw [hcheck] at herror
        cases herror
        exact ⟨hfault, rfl⟩
    | cyclic hcheck _ => exact hlater hcheck not_false
    | clash hcheck _ _ => exact hlater hcheck not_false
    | faulty hcheck _ _ _ _ hfails => exact hlater hcheck hfails.not_isCheckFault
    | built hcheck _ _ _ _ => simp [hcheck]
  cyclic := by
    intro hok
    cases h with
    | unchecked hcheck _ => exact absurd hcheck (Graph.check_ne_error hok)
    | cyclic _ hcyclic => simp [hcyclic]
    | clash _ hacyclic _ => simp [hacyclic]
    | faulty _ hacyclic _ _ _ hfails =>
      cases hfails with
      | body => simp [hacyclic]
      | edge => simp [hacyclic]
    | built _ hacyclic _ _ _ => simp [hacyclic]
  clash := by
    intro hok hacyclic
    cases h with
    | unchecked hcheck _ => exact absurd hcheck (Graph.check_ne_error hok)
    | cyclic _ hcyclic => exact absurd hacyclic hcyclic
    | clash _ _ hclash => simp [hclash]
    | faulty _ _ hclash _ _ hfails =>
      cases hfails with
      | body => simp [hclash]
      | edge => simp [hclash]
    | built _ _ hclash _ _ => simp [hclash]
  faulty := by
    intro hok hacyclic hno
    cases h with
    | unchecked hcheck _ => exact absurd hcheck (Graph.check_ne_error hok)
    | cyclic _ hcyclic => exact absurd hacyclic hcyclic
    | clash _ _ hclash => exact absurd hclash hno
    | @faulty before after n err _ _ _ horder hbefore hfails =>
      refine ⟨_, horder, fun err' => ?_⟩
      constructor
      · intro heq
        cases heq
        exact ⟨before, n, after, rfl, hbefore, hfails⟩
      · rintro ⟨before', n', after', hsplit, hbefore', hfails'⟩
        have hn := first_unique hsplit hbefore hbefore' hfails.faulty hfails'.faulty
        subst hn
        have hmem : n ∈ g.nodes.toList := (Graph.order_perm horder).mem_iff.mp (by simp)
        rw [hfails.unique (Graph.check_ok_iff.mp hok n hmem).1 hfails']
    | built _ _ _ horder hsound =>
      refine ⟨_, horder, fun err => ⟨nofun, ?_⟩⟩
      rintro ⟨before, n, after, rfl, _, hfails⟩
      exact absurd hfails.faulty (hsound n (by simp))
  built := by
    intro hok hacyclic hno
    cases h with
    | unchecked hcheck _ => exact absurd hcheck (Graph.check_ne_error hok)
    | cyclic _ hcyclic => exact absurd hacyclic hcyclic
    | clash _ _ hclash => exact absurd hclash hno
    | @faulty before after n err _ _ _ horder _ hfails =>
      refine ⟨nofun, fun hsound => ?_⟩
      have hmem : n ∈ g.nodes.toList := (Graph.order_perm horder).mem_iff.mp (by simp)
      exact absurd hfails.faulty (hsound n hmem)
    | @built _ shader _ _ _ horder hsound =>
      refine ⟨fun _ n hn => ?_, fun _ => ⟨shader, rfl⟩⟩
      exact hsound n ((Graph.order_perm horder).mem_iff.mpr hn)

/-- Passes after the check do not find again what it has ruled out: ordering does
not come upon an edge that leads to no node, and assembly neither upon a node
without a type nor upon an external node without a binding. -/
theorem Graph.later_errors {lib : Library} {g : Graph} (compiler : BodyCompiler)
    (hcheck : g.check lib = .ok ()) :
    (∀ node target, g.order ≠ .error (.unknownTarget node target)) ∧
      ∀ order err, g.order = .ok order → assemble lib compiler order = .error err →
        (∃ name a b, err = .nameCollision name a b) ∨
          ∃ n ∈ order, n.FailsWith lib compiler err := by
  constructor
  · intro node target hno
    rcases Graph.order_cases hcheck with ⟨⟨cycle, horder⟩, _⟩ | ⟨⟨order, horder⟩, _⟩
    · rw [horder] at hno
      cases hno
    · rw [horder] at hno
      cases hno
  · intro order err horder herror
    have htyped : ∀ n ∈ order, Graph.TypedNode lib n := by
      intro n hn
      exact (Graph.check_ok_iff.mp hcheck n ((Graph.order_perm horder).mem_iff.mp hn)).1
    rcases assemble_cases compiler htyped with
      ⟨err', hassemble, a, _, b, _, _, rfl⟩ |
        ⟨_, ⟨_, n, _, err', rfl, _, hn, hassemble⟩ | ⟨_, hassemble⟩⟩
    · rw [hassemble] at herror
      cases herror
      exact .inl ⟨_, a, b, rfl⟩
    · rw [hassemble] at herror
      cases herror
      exact .inr ⟨n, by simp, (nodeCode_error_iff (htyped n (by simp))).mp hn⟩
    · rw [hassemble] at herror
      cases herror

/-- A build fails over a repeated id if and only if there is one. Otherwise the
nodes make a graph, and the further questions decide: the error of the check, a
cycle, a storage name that is shared, the first faulty node in order. Only if
all are answered with no does the build succeed. -/
theorem build_decided (lib : Library) (compiler : BodyCompiler) (layout : Layout)
    (nodes : List Node) :
    ((∃ id, build lib compiler layout nodes = .error (.duplicateId id)) ↔
        ¬ (nodes.map (·.id)).Nodup) ∧
      ((nodes.map (·.id)).Nodup → ∃ g, Graph.ofNodes nodes = .ok g ∧ g.nodes.toList = nodes ∧
        g.Decides lib compiler (build lib compiler layout nodes) ∧
        (g.check lib = .ok () →
          (∀ node target, g.order ≠ .error (.unknownTarget node target)) ∧
          ∀ order err, g.order = .ok order → assemble lib compiler order = .error err →
            (∃ name a b, err = .nameCollision name a b) ∨
              ∃ n ∈ order, n.FailsWith lib compiler err)) := by
  cases hgraph : Graph.ofNodes nodes with
  | error err =>
    obtain ⟨⟨id, rfl⟩, hrepeat⟩ := Graph.repeat_of_ofNodes hgraph
    have hbuild : build lib compiler layout nodes = .error (.duplicateId id) := by
      simp [build, checkedOrder, checkedGraph, hgraph]
    exact ⟨⟨fun _ => hrepeat, fun _ => ⟨id, hbuild⟩⟩, fun hnodup => absurd hnodup hrepeat⟩
  | ok g =>
    have hnodup := Graph.nodup_of_ofNodes hgraph
    have hverdict := build_verdict lib compiler layout hgraph
    refine ⟨⟨?_, fun hrepeat => absurd hnodup hrepeat⟩, fun _ =>
      ⟨g, rfl, Graph.nodes_of_ofNodes hgraph, hverdict.decides, Graph.later_errors compiler⟩⟩
    rintro ⟨id, hbuild⟩
    rw [hbuild] at hverdict
    cases hverdict with
    | unchecked _ hfault => exact absurd hfault not_false
    | faulty _ _ _ _ _ hfails => cases hfails

end ShaderGraph
