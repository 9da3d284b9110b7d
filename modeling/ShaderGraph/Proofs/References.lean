import ShaderGraph.Proofs.Grammar

/-!
# Which defines a rendering depends on

`referenced` collects the names in all branches of a template, and rendering looks
up names only along the branches that it takes. Two traversals, then, of which the
second stays inside the first:

* **agreement** — defines that agree on the names of a template render it alike
  (`renderAll_congr`);
* **failure** — rendering asks for the values of certain tags in order
  (`askedOf`, in the order of the text by `askedOf_sublist`), and fails exactly at
  the first of them whose define is absent (`renderAll_outcome`);
* **coverage** — each of these tags has a name of the template
  (`mem_namesOf_of_asked`), so nothing fails that has all its names defined.
-/

namespace ShaderGraph.Template

/-! ## Statements -/

mutual

/-- The tags whose values rendering a segment asks for, in order: only those of the
branches that are taken. The tag of a conditional asks for none, as its define may be
absent. -/
def Segment.asked (defines : Defines) : Segment → List Lexeme
  | .text _ => []
  | .interp name span => [(Token.interp name).over span]
  | .cond name _ thenPart elsePart =>
    if isTruthy (defines.find? name) then askedOf defines thenPart
    else askedOf defines elsePart

def askedOf (defines : Defines) : List Segment → List Lexeme
  | [] => []
  | s :: rest => s.asked defines ++ askedOf defines rest

end

/-- The tags whose values rendering a template asks for, in order. -/
def asked (t : Template) (defines : Defines) : List Lexeme := askedOf defines t.segments

/-- The define that a tag asks for, if it is absent. -/
def Lexeme.absent? (defines : Defines) (l : Lexeme) : Option String :=
  match l.token with
  | .interp name => if defines.contains name then none else some name
  | _ => none

/-- The define of the first tag that asks for an absent one. -/
def firstAbsent? (t : Template) (defines : Defines) : Option String :=
  (t.asked defines).findSome? (Lexeme.absent? defines)

/-! ## Names -/

theorem mem_referenced {t : Template} {name : String} :
    name ∈ t.referenced ↔ name ∈ namesOf t.segments := by
  rw [referenced, Dict.ofList, Dict.mem_keys_insertMany]
  simp [Dict.keys, Dict.empty]

section Agreement

variable {d d' : Defines}

mutual

theorem Segment.render_congr (s : Segment) (h : ∀ name ∈ s.names, d.find? name = d'.find? name) :
    s.render d = s.render d' := by
  cases s with
  | text content => rfl
  | interp name span =>
    have hname := h name List.mem_cons_self
    rw [Segment.render, Segment.render, hname]
  | cond name span thenPart elsePart =>
    rw [Segment.names, List.forall_mem_cons, List.forall_mem_append] at h
    obtain ⟨hname, hthen, helse⟩ := h
    rw [Segment.render, Segment.render, hname, renderAll_congr thenPart hthen,
      renderAll_congr elsePart helse]

/-- Defines that agree on the names in segments render them alike. -/
theorem renderAll_congr (segments : List Segment)
    (h : ∀ name ∈ namesOf segments, d.find? name = d'.find? name) :
    renderAll d segments = renderAll d' segments := by
  cases segments with
  | nil => rfl
  | cons s rest =>
    rw [namesOf, List.forall_mem_append] at h
    rw [renderAll, renderAll, s.render_congr h.1, renderAll_congr rest h.2]

end

end Agreement

/-! ## Tags that ask for values -/

section Asked

variable (defines : Defines)

mutual

theorem Derivation.asked_sublist (d : Derivation) :
    (d.segment.asked defines).Sublist d.lexemes := by
  cases d with
  | text content span => exact List.nil_sublist _
  | brace span => exact List.nil_sublist _
  | interp name span => exact List.Sublist.refl _
  | cond name opening thenPart closing =>
    have hthen := askedOf_sublist thenPart
    rw [Derivation.segment, Segment.asked, Derivation.lexemes]
    apply List.Sublist.cons
    split
    · exact hthen.trans (List.sublist_append_left _ _)
    · exact List.nil_sublist _
  | condElse name opening thenPart middle elsePart closing =>
    have hthen := askedOf_sublist thenPart
    have helse := askedOf_sublist elsePart
    rw [Derivation.segment, Segment.asked, Derivation.lexemes]
    apply List.Sublist.cons
    split
    · exact hthen.trans (List.sublist_append_left _ _)
    · refine List.Sublist.trans ?_ (List.sublist_append_right _ _)
      apply List.Sublist.cons
      exact helse.trans (List.sublist_append_left _ _)

/-- Tags are asked in the order in which they stand in the text. -/
theorem askedOf_sublist (ds : List Derivation) :
    (askedOf defines (segmentsOf ds)).Sublist (lexemesOf ds) := by
  cases ds with
  | nil => exact List.nil_sublist _
  | cons d ds =>
    rw [segmentsOf, askedOf, lexemesOf]
    exact (d.asked_sublist).append (askedOf_sublist ds)

end

mutual

theorem Segment.mem_names_of_asked (s : Segment) {name : String} {l : Lexeme}
    (hl : l ∈ s.asked defines) (hname : l.token = .interp name) : name ∈ s.names := by
  cases s with
  | text content => cases hl
  | interp other span =>
    cases List.mem_singleton.mp hl
    cases hname
    exact List.mem_cons_self
  | cond other span thenPart elsePart =>
    rw [Segment.asked] at hl
    rw [Segment.names]
    apply List.mem_cons_of_mem
    split at hl
    · exact List.mem_append_left _ (mem_namesOf_of_asked thenPart hl hname)
    · exact List.mem_append_right _ (mem_namesOf_of_asked elsePart hl hname)

/-- A tag that is asked for its value has a name of the template. -/
theorem mem_namesOf_of_asked (segments : List Segment) {name : String} {l : Lexeme}
    (hl : l ∈ askedOf defines segments) (hname : l.token = .interp name) :
    name ∈ namesOf segments := by
  cases segments with
  | nil => cases hl
  | cons s rest =>
    rw [askedOf] at hl
    rw [namesOf]
    rcases List.mem_append.mp hl with hl | hl
    · exact List.mem_append_left _ (s.mem_names_of_asked hl hname)
    · exact List.mem_append_right _ (mem_namesOf_of_asked rest hl hname)

end

/-! ## Failure -/

theorem Lexeme.absent?_eq_some {l : Lexeme} {name : String} :
    l.absent? defines = some name ↔ l.token = .interp name ∧ defines.find? name = none := by
  unfold Lexeme.absent?
  split
  · next other htoken =>
    rw [htoken]
    by_cases hother : defines.contains other = true
    · rw [if_pos hother]
      refine ⟨nofun, ?_⟩
      intro ⟨heq, hnone⟩
      cases heq
      rw [Dict.contains, hnone] at hother
      cases hother
    · rw [if_neg hother]
      constructor
      · intro heq
        cases heq
        exact ⟨rfl, by simpa [Dict.contains] using hother⟩
      · intro ⟨heq, _⟩
        cases heq
        rfl
  · next hother =>
    refine ⟨nofun, ?_⟩
    intro ⟨heq, _⟩
    exact absurd heq (hother name)

/-- The outcome that the first absent define decides. -/
def Decided (absent : Option String) (outcome : Except BodyError String) : Prop :=
  match absent with
  | some name => outcome = .error (.undefinedDefine name)
  | none => ∃ text, outcome = .ok text

mutual

theorem Segment.render_outcome (s : Segment) :
    Decided ((s.asked defines).findSome? (Lexeme.absent? defines)) (s.render defines) := by
  cases s with
  | text content => exact ⟨content, rfl⟩
  | interp name span =>
    rw [Segment.asked, Segment.render, List.findSome?_singleton]
    show Decided (if (defines.find? name).isSome then none else some name) _
    cases defines.find? name with
    | none => rfl
    | some v => exact ⟨valueText v, rfl⟩
  | cond name span thenPart elsePart =>
    rw [Segment.asked, Segment.render]
    split
    · exact renderAll_outcome thenPart
    · exact renderAll_outcome elsePart

/-- Rendering fails at the first tag whose define is absent, and only there. -/
theorem renderAll_outcome (segments : List Segment) :
    Decided ((askedOf defines segments).findSome? (Lexeme.absent? defines))
      (renderAll defines segments) := by
  cases segments with
  | nil => exact ⟨"", rfl⟩
  | cons s rest =>
    have hs := s.render_outcome
    have hrest := renderAll_outcome rest
    rw [askedOf, List.findSome?_append, renderAll]
    cases hfirst : (s.asked defines).findSome? (Lexeme.absent? defines) with
    | some name =>
      rw [hfirst] at hs
      have herror : s.render defines = .error (.undefinedDefine name) := hs
      rw [herror]
      rfl
    | none =>
      rw [hfirst] at hs
      obtain ⟨front, hfront⟩ := hs
      rw [hfront, Option.none_or]
      cases hlater : (askedOf defines rest).findSome? (Lexeme.absent? defines) with
      | some name =>
        rw [hlater] at hrest
        have herror : renderAll defines rest = .error (.undefinedDefine name) := hrest
        rw [herror]
        rfl
      | none =>
        rw [hlater] at hrest
        obtain ⟨back, hback⟩ := hrest
        rw [hback]
        exact ⟨front ++ back, rfl⟩

end

end Asked

theorem referenced_of_firstAbsent? {t : Template} {defines : Defines} {name : String}
    (h : t.firstAbsent? defines = some name) :
    name ∈ t.referenced ∧ defines.find? name = none := by
  obtain ⟨l, hl, habsent⟩ := List.exists_of_findSome?_eq_some h
  obtain ⟨htoken, hnone⟩ := (Lexeme.absent?_eq_some defines).mp habsent
  exact ⟨mem_referenced.mpr (mem_namesOf_of_asked defines t.segments hl htoken), hnone⟩

theorem render_error_iff {t : Template} {defines : Defines} {e : BodyError} :
    t.render defines = .error e ↔
      ∃ name, t.firstAbsent? defines = some name ∧ e = .undefinedDefine name := by
  have houtcome : Decided (t.firstAbsent? defines) (t.render defines) :=
    renderAll_outcome defines t.segments
  cases hfirst : t.firstAbsent? defines with
  | some name =>
    rw [hfirst] at houtcome
    have herror : t.render defines = .error (.undefinedDefine name) := houtcome
    rw [herror]
    simp [eq_comm]
  | none =>
    rw [hfirst] at houtcome
    obtain ⟨text, htext⟩ := houtcome
    rw [htext]
    simp

/-! ## Rendering and references -/

/-- Rendering depends only on the defines that a template refers to. It fails exactly
if some tag asks for an absent define, with the define of the first such tag in the
order of the text; that is one of the defines referred to, so rendering succeeds if
these are all there. -/
theorem render_by_references (source : String) (t : Template) (h : compile source = .ok t) :
    (∀ d d' : Defines, (∀ name ∈ t.referenced, d.find? name = d'.find? name) →
      t.render d = t.render d') ∧
    (∀ d : Defines, (t.asked d).Sublist (lex source) ∧
      (∀ e, t.render d = .error e ↔
        ∃ name, t.firstAbsent? d = some name ∧ e = .undefinedDefine name) ∧
      ∀ name, t.firstAbsent? d = some name → name ∈ t.referenced ∧ d.find? name = none) ∧
    (∀ d : Defines, (∀ name ∈ t.referenced, d.contains name = true) →
      ∃ text, t.render d = .ok text) := by
  refine ⟨?_, ?_, ?_⟩
  · intro d d' hagree
    apply renderAll_congr
    intro name hname
    exact hagree name (mem_referenced.mpr hname)
  · intro d
    refine ⟨?_, fun e => render_error_iff, fun name hname => referenced_of_firstAbsent? hname⟩
    obtain ⟨block, hblock, rfl⟩ := (compile_ok_iff source t).mp h
    rw [← hblock]
    exact askedOf_sublist d block
  · intro d hdefined
    cases hrender : t.render d with
    | ok text => exact ⟨text, rfl⟩
    | error e =>
      obtain ⟨name, hfirst, _⟩ := render_error_iff.mp hrender
      obtain ⟨hname, hnone⟩ := referenced_of_firstAbsent? hfirst
      have hthere := hdefined name hname
      rw [Dict.contains, hnone] at hthere
      cases hthere

/-- A define that only the other branch asks for, and one behind the conditional. -/
def guardedSource : String :=
  "\x7b\x7b#if A\x7d\x7d\x7b\x7bX\x7d\x7d\x7b\x7belse\x7d\x7d\x7b\x7bY\x7d\x7d"
    ++ "\x7b\x7b/if\x7d\x7d;\x7b\x7bZ\x7d\x7d"

def guardedTemplate : Template :=
  ⟨[.cond "A" ⟨0, 34⟩ [.interp "X" ⟨9, 14⟩] [.interp "Y" ⟨22, 27⟩], .text ";",
    .interp "Z" ⟨35, 40⟩]⟩

/-- Without `A` the value of `X` does not matter, and `Z` is missing. -/
theorem render_by_references_guarded :
    compile guardedSource = .ok guardedTemplate ∧
      guardedTemplate.referenced = ["A", "X", "Y", "Z"] ∧
      guardedTemplate.render (.ofList [("Y", .null)]) = .error (.undefinedDefine "Z") ∧
      guardedTemplate.render (.ofList [("W", .null), ("Y", .null)]) =
        guardedTemplate.render (.ofList [("Y", .null)]) ∧
      ∃ text, guardedTemplate.render (.ofList [("A", .null), ("X", .null), ("Y", .string "y"),
        ("Z", .bool true)]) = .ok text := by
  have hlex : lex guardedSource = [⟨.openIf "A", 0, 9⟩, ⟨.interp "X", 9, 14⟩, ⟨.elseMark, 14, 22⟩,
      ⟨.interp "Y", 22, 27⟩, ⟨.closeIf, 27, 34⟩, ⟨.text ";", 34, 35⟩, ⟨.interp "Z", 35, 40⟩] := by
    decide +kernel
  have hcompile : compile guardedSource = .ok guardedTemplate := by
    unfold compile parse
    rw [hlex]
    rfl
  have hnames : guardedTemplate.referenced = ["A", "X", "Y", "Z"] := by decide +kernel
  obtain ⟨hcongr, hfails, hsucceeds⟩ := render_by_references _ _ hcompile
  rw [hnames] at hcongr hsucceeds
  refine ⟨hcompile, hnames, ?_, hcongr _ _ (by decide +kernel), hsucceeds _ (by decide +kernel)⟩
  exact ((hfails _).2.1 _).mpr ⟨"Z", by decide +kernel, rfl⟩

end ShaderGraph.Template
