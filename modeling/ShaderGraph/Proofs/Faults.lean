import ShaderGraph.Proofs.Assembly

/-!
# Nodes without code

The code of a library node is missing for one of two reasons: its body gives no
text (`BodyFault`), or one of its edges leaves open what it copies
(`Edge.LeftOpen`). Both are said here without running the code generator.
`nodeCode_error_iff` says which error comes of them: a fault of the body wins,
and otherwise the first open edge is reported.
-/

namespace ShaderGraph

open ShaderGraph.Template

variable {lib : Library} {compiler : BodyCompiler} {n : Node} {t : NodeType} {err : BuildError}

/-- The body of a node gives no text: it does not compile, or it does not render
with the defines of the node. -/
def BodyFault (compiler : BodyCompiler) (n : Node) (t : NodeType) (fault : BodyError) : Prop :=
  compiler.compile n.tag t.body = .error fault ∨
    ∃ body, compiler.compile n.tag t.body = .ok body ∧ body (mergedDefines n t) = .error fault

/-- An edge that is not to the sink and names no output, of a node whose type
does not have exactly one. -/
structure Edge.LeftOpen (t : NodeType) (e : Edge) : Prop where
  target : e.target?.isSome = true
  output : e.output = none
  outputs : t.outputs.length ≠ 1

/-- A library node whose body gives no text or one of whose edges is left open. -/
def Node.Faulty (lib : Library) (compiler : BodyCompiler) (n : Node) : Prop :=
  n.tag ≠ externalTag ∧ ∃ t, lib.lookup? n.tag = some t ∧
    ((∃ fault, BodyFault compiler n t fault) ∨ ∃ e ∈ n.edges, e.LeftOpen t)

/-- The error that a faulty node is reported with. -/
inductive Node.FailsWith (lib : Library) (compiler : BodyCompiler) (n : Node) : BuildError → Prop
  | body {t : NodeType} {fault : BodyError} : n.tag ≠ externalTag → lib.lookup? n.tag = some t →
      BodyFault compiler n t fault → FailsWith lib compiler n (.body n.id n.tag fault)
  | edge {t : NodeType} {passed later : List Edge} {e : Edge} {target : String} :
      n.tag ≠ externalTag → lib.lookup? n.tag = some t →
      (∀ fault, ¬ BodyFault compiler n t fault) → n.edges = passed ++ e :: later →
      (∀ e' ∈ passed, ¬ e'.LeftOpen t) → e.LeftOpen t → e.target? = some target →
      FailsWith lib compiler n (.missingOutput n.id target e.input)

theorem Node.FailsWith.faulty (h : n.FailsWith lib compiler err) : n.Faulty lib compiler := by
  cases h with
  | body hext ht hfault => exact ⟨hext, _, ht, .inl ⟨_, hfault⟩⟩
  | edge hext ht _ hedges _ hopen _ => exact ⟨hext, _, ht, .inr ⟨_, by simp [hedges], hopen⟩⟩

/-! ## Bodies -/

theorem renderedBody_error_iff :
    renderedBody compiler n t = .error err ↔
      ∃ fault, BodyFault compiler n t fault ∧ err = .body n.id n.tag fault := by
  unfold renderedBody BodyFault
  cases hcompile : compiler.compile n.tag t.body with
  | error fault => simp [eq_comm]
  | ok body =>
    cases hrender : body (mergedDefines n t) with
    | error fault => simp [hrender, eq_comm]
    | ok text => simp [hrender]

theorem renderedBody_ok (h : ∀ fault, ¬ BodyFault compiler n t fault) :
    ∃ text, renderedBody compiler n t = .ok text := by
  cases hrender : renderedBody compiler n t with
  | error err =>
    obtain ⟨fault, hfault, _⟩ := renderedBody_error_iff.mp hrender
    exact absurd hfault (h fault)
  | ok text => exact ⟨text, rfl⟩

/-! ## Edges -/

theorem edgeValue?_eq_none {e : Edge} :
    edgeValue? t e = none ↔ e.output = none ∧ t.outputs.length ≠ 1 := by
  unfold edgeValue? NodeType.soleOutput?
  cases e.output with
  | some output => simp
  | none =>
    match t.outputs with
    | [] => simp
    | [only] => simp
    | _ :: _ :: _ => simp

/-- Copies of edges fail at the first one that is left open. -/
theorem edgeCopies_error_iff {edges : List Edge} :
    edgeCopies n t edges = .error err ↔
      ∃ passed e later target, edges = passed ++ e :: later ∧ (∀ e' ∈ passed, ¬ e'.LeftOpen t) ∧
        e.LeftOpen t ∧ e.target? = some target ∧ err = .missingOutput n.id target e.input := by
  constructor
  · intro h
    induction edges with
    | nil => cases h
    | cons e rest ih =>
      -- an edge that is not left open passes the failure of the rest on
      have hpass : ¬ e.LeftOpen t → edgeCopies n t rest = .error err →
          ∃ passed e' later target, e :: rest = passed ++ e' :: later ∧
            (∀ e' ∈ passed, ¬ e'.LeftOpen t) ∧ e'.LeftOpen t ∧ e'.target? = some target ∧
            err = .missingOutput n.id target e'.input := by
        intro hclosed hrest
        obtain ⟨passed, e', later, target, hedges, hpassed, hopen⟩ := ih hrest
        exact ⟨e :: passed, e', later, target, by rw [hedges]; rfl,
          List.forall_mem_cons.mpr ⟨hclosed, hpassed⟩, hopen⟩
      unfold edgeCopies at h
      split at h
      · next hsink => exact hpass (fun hopen => by simpa [hsink] using hopen.target) h
      · next target htarget =>
        split at h
        · next hvalue =>
          cases h
          obtain ⟨houtput, houtputs⟩ := edgeValue?_eq_none.mp hvalue
          exact ⟨[], e, rest, target, rfl, by simp, ⟨by simp [htarget], houtput, houtputs⟩,
            htarget, rfl⟩
        · next value hvalue =>
          split at h
          · next hrest =>
            cases h
            refine hpass (fun hopen => ?_) hrest
            rw [edgeValue?_eq_none.mpr ⟨hopen.output, hopen.outputs⟩] at hvalue
            cases hvalue
          · cases h
  · rintro ⟨passed, e, later, target, rfl, hpassed, hopen, htarget, rfl⟩
    induction passed with
    | nil =>
      rw [List.nil_append, edgeCopies, htarget]
      simp only
      rw [edgeValue?_eq_none.mpr ⟨hopen.output, hopen.outputs⟩]
    | cons e' rest ih =>
      rw [List.forall_mem_cons] at hpassed
      rw [List.cons_append, edgeCopies, ih hpassed.2]
      split
      · rfl
      · next target' htarget' =>
        split
        · next hvalue =>
          obtain ⟨houtput, houtputs⟩ := edgeValue?_eq_none.mp hvalue
          exact absurd ⟨by simp [htarget'], houtput, houtputs⟩ hpassed.1
        · rfl

/-! ## Nodes -/

theorem Node.Faulty.failsWith (h : n.Faulty lib compiler) :
    ∃ err, n.FailsWith lib compiler err := by
  obtain ⟨hext, t, ht, hfault⟩ := h
  by_cases hbody : ∃ fault, BodyFault compiler n t fault
  · obtain ⟨fault, hfault⟩ := hbody
    exact ⟨_, .body hext ht hfault⟩
  · obtain ⟨e, he, hopen⟩ := hfault.resolve_left hbody
    cases hcopies : edgeCopies n t n.edges with
    | error err =>
      obtain ⟨passed, e', later, target, hedges, hpassed, hopen', htarget, _⟩ :=
        edgeCopies_error_iff.mp hcopies
      exact ⟨_, .edge hext ht (not_exists.mp hbody) hedges hpassed hopen' htarget⟩
    | ok copies =>
      -- all edges would have something to copy
      obtain ⟨target, htarget⟩ := Option.isSome_iff_exists.mp hopen.target
      obtain ⟨value, hvalue⟩ := (edgeCopies_ok hcopies).2 e he target htarget
      rw [edgeValue?_eq_none.mpr ⟨hopen.output, hopen.outputs⟩] at hvalue
      cases hvalue

/-- The code of a library node is missing with the error of its body, or else
with that of its copies. -/
theorem nodeCode_error_of_library (hext : n.tag ≠ externalTag) (ht : lib.lookup? n.tag = some t) :
    nodeCode lib compiler n = .error err ↔
      renderedBody compiler n t = .error err ∨
        (∃ text, renderedBody compiler n t = .ok text) ∧ edgeCopies n t n.edges = .error err := by
  have hext' : ¬ n.isExternal = true := fun h => hext (Node.isExternal_iff.mp h)
  unfold nodeCode libraryCode
  rw [if_neg hext', typeOf_ok_iff.mpr ht]
  cases hbody : renderedBody compiler n t with
  | error e => simp [hbody]
  | ok text =>
    cases hcopies : edgeCopies n t n.edges with
    | error e => simp [hbody, hcopies]
    | ok copies => simp [hbody, hcopies]

/-- A node that has passed the check is without code exactly if it is faulty, and
this is the error. -/
theorem nodeCode_error_iff (h : Graph.TypedNode lib n) :
    nodeCode lib compiler n = .error err ↔ n.FailsWith lib compiler err := by
  by_cases hext : n.tag = externalTag
  · -- external nodes have their code from the binding that the check has seen
    obtain ⟨b, hb⟩ := h.binding (Node.isExternal_iff.mpr hext)
    constructor
    · intro herror
      simp [nodeCode, Node.isExternal_iff.mpr hext, externalCode, hb] at herror
    · intro hfails
      exact absurd hext hfails.faulty.1
  · obtain ⟨t, ht⟩ := h.type (fun heq => hext (Node.isExternal_iff.mp heq))
    rw [nodeCode_error_of_library hext ht, renderedBody_error_iff, edgeCopies_error_iff]
    constructor
    · rintro (⟨fault, hfault, rfl⟩ | ⟨⟨text, hbody⟩, passed, e, later, target, hedges, hpassed,
        hopen, htarget, rfl⟩)
      · exact .body hext ht hfault
      · refine .edge hext ht (fun fault hfault => ?_) hedges hpassed hopen htarget
        rw [renderedBody_error_iff.mpr ⟨fault, hfault, rfl⟩] at hbody
        cases hbody
    · intro hfails
      cases hfails with
      | body _ ht' hfault =>
        cases ht.symm.trans ht'
        exact .inl ⟨_, hfault, rfl⟩
      | edge _ ht' hbody hedges hpassed hopen htarget =>
        cases ht.symm.trans ht'
        exact .inr ⟨renderedBody_ok hbody, _, _, _, _, hedges, hpassed, hopen, htarget, rfl⟩

theorem hasCode_iff (h : Graph.TypedNode lib n) :
    n.HasCode lib compiler ↔ ¬ n.Faulty lib compiler := by
  constructor
  · rintro ⟨result, hresult⟩ hfaulty
    obtain ⟨err, hfails⟩ := hfaulty.failsWith
    rw [(nodeCode_error_iff h).mpr hfails] at hresult
    cases hresult
  · intro hsound
    cases hcode : nodeCode lib compiler n with
    | ok result => exact ⟨result, hcode⟩
    | error err => exact absurd ((nodeCode_error_iff h).mp hcode).faulty hsound

end ShaderGraph
