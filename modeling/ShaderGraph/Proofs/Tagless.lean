import ShaderGraph.Proofs.Outcome
import ShaderGraph.Proofs.Printing

/-!
# Rendered texts hold no tags

A tag begins with two braces, and a text without such a pair stands for itself as a
template. Rendering gives texts of this kind, as long as the values that it puts in
have no braces of their own.

* **no braces meet** — parts of a template come together in rendering that were
  apart in its text, and a brace among them is followed by plain text or by nothing
  (`Segment.spaced_render`, `spaced_renderAll`);
* **texts without tags are kept** — they are cut into braces and plain texts alone
  (`shown_of_mem_pieces`), and these are rendered as they are (`exists_shown`).
-/

namespace ShaderGraph.Template

open ShaderGraph.Json ShaderGraph.Text

/-! ## Statements -/

/-- The text has no two braces in a row. -/
def Tagless (text : String) : Prop := ¬ ['{', '{'] <:+: text.toList

mutual

/-- The values that rendering a segment puts in, in order: only those of the branches
that are taken. -/
def Segment.inserted (defines : Defines) : Segment → List Value
  | .text _ => []
  | .interp name _ => (defines.find? name).toList
  | .cond name _ thenPart elsePart =>
    if isTruthy (defines.find? name) then insertedOf defines thenPart
    else insertedOf defines elsePart

def insertedOf (defines : Defines) : List Segment → List Value
  | [] => []
  | s :: rest => s.inserted defines ++ insertedOf defines rest

end

/-- The values that rendering a template text puts in. -/
def insertedValues (source : String) (defines : Defines) : List Value :=
  match compile source with
  | .error _ => []
  | .ok t => insertedOf defines t.segments

/-- The text is a template that every set of defines renders as the text itself. -/
def Verbatim (text : String) : Prop :=
  ∀ tag, ∃ body, BodyCompiler.template.compile tag text = .ok body ∧
    ∀ defines, body defines = .ok text

/-! ## Single braces -/

/-- No brace stands right before another. -/
def Single (cs : List Char) : Prop := cs.IsChain (fun a b => a = '{' → b ≠ '{')

theorem tagless_iff_single {text : String} : Tagless text ↔ Single text.toList := by
  rw [Tagless, Single, List.isChain_iff_forall_rel_of_append_cons_cons]
  constructor
  · rintro h a b before after htext rfl rfl
    exact h ⟨before, after, by simp [htext]⟩
  · rintro h ⟨before, after, htext⟩
    have hpair : text.toList = before ++ '{' :: '{' :: after := by simpa using htext.symm
    exact h hpair rfl rfl

theorem single_of_not_mem {cs : List Char} (h : '{' ∉ cs) : Single cs := by
  rw [Single, List.isChain_iff_forall_rel_of_append_cons_cons]
  rintro a b before after rfl rfl
  simp at h

/-- No brace stands right before another, and none at the very end unless
`atEnd`. -/
structure Spaced (atEnd : Bool) (cs : List Char) : Prop where
  single : Single cs
  last : cs.getLast? = some '{' → atEnd = true

theorem spaced_of_not_mem {cs : List Char} (h : '{' ∉ cs) (atEnd : Bool) : Spaced atEnd cs where
  single := single_of_not_mem h
  last hlast := absurd (List.mem_of_getLast? hlast) h

/-! ## Rendering -/

theorem renderAll_cons_ok {defines : Defines} {s : Segment} {rest : List Segment} {text : String} :
    renderAll defines (s :: rest) = .ok text ↔ ∃ front back, s.render defines = .ok front ∧
      renderAll defines rest = .ok back ∧ text = front ++ back := by
  rw [renderAll]
  cases s.render defines with
  | error e => simp
  | ok front =>
    cases renderAll defines rest with
    | error e => simp
    | ok back => simp [eq_comm]

theorem template_compile_ok {tag source : String} {body : Body} :
    BodyCompiler.template.compile tag source = .ok body ↔
      ∃ t, compile source = .ok t ∧ t.render = body := by
  simp only [BodyCompiler.template]
  cases compile source with
  | error e => simp
  | ok t => simp

/-! ## No braces meet -/

/-- Behind a brace nothing is rendered, or something that begins with another
character. -/
theorem renderAll_behind_brace {defines : Defines} {s : Segment} {rest : List Segment}
    {text : String} (hbrace : s.isBrace = true)
    (hchain : (s :: rest).IsChain Segment.Precedes) (hnormal : AllNormal rest)
    (h : renderAll defines rest = .ok text) :
    rest = [] ∧ text = "" ∨ ∃ c cs, text.toList = c :: cs ∧ c ≠ '{' := by
  cases rest with
  | nil =>
    rw [renderAll] at h
    exact .inl ⟨rfl, (Except.ok.inj h).symm⟩
  | cons next rest =>
    right
    have hplain : next.isPlain = true := (List.isChain_cons_cons.mp hchain).1.2 hbrace
    rw [AllNormal] at hnormal
    obtain ⟨front, back, hfront, -, rfl⟩ := renderAll_cons_ok.mp h
    cases next with
    | text content =>
      cases hfront
      have hnext := hnormal.1
      rw [Segment.Normal] at hnext
      obtain ⟨hne, hfree⟩ := hnext.resolve_left (by simpa [Segment.isPlain] using hplain)
      obtain ⟨c, cs, hcs⟩ := List.exists_cons_of_ne_nil (l := front.toList) (by simpa using hne)
      refine ⟨c, cs ++ back.toList, by simp [hcs], ?_⟩
      rintro rfl
      simp [hcs] at hfree
    | interp | cond => cases hplain

mutual

theorem Segment.spaced_render (s : Segment) {defines : Defines} {text : String}
    (hnormal : s.Normal) (h : s.render defines = .ok text)
    (hvalues : ∀ v ∈ s.inserted defines, '{' ∉ (valueText v).toList) :
    Spaced s.isBrace text.toList := by
  cases s with
  | text content =>
    cases h
    rw [Segment.Normal] at hnormal
    rcases hnormal with rfl | ⟨-, hfree⟩
    · exact ⟨by simp [Single], fun _ => rfl⟩
    · exact spaced_of_not_mem hfree _
  | interp name span =>
    rw [Segment.inserted] at hvalues
    rw [Segment.render] at h
    cases hfind : defines.find? name with
    | none =>
      rw [hfind] at h
      cases h
    | some v =>
      rw [hfind] at h hvalues
      cases h
      exact spaced_of_not_mem (hvalues v (by simp)) _
  | cond name span thenPart elsePart =>
    rw [Segment.Normal] at hnormal
    obtain ⟨-, ⟨hthen, hthenChain, hthenEnds⟩, ⟨helse, helseChain, helseEnds⟩⟩ := hnormal
    rw [Segment.render] at h
    rw [Segment.inserted] at hvalues
    show Spaced false _
    -- neither branch ends in a brace, whatever follows the conditional
    by_cases htruthy : isTruthy (defines.find? name) = true
    · rw [if_pos htruthy] at h hvalues
      rw [← hthenEnds]
      exact spaced_renderAll thenPart hthen hthenChain h hvalues
    · rw [if_neg htruthy] at h hvalues
      rw [← helseEnds]
      exact spaced_renderAll elsePart helse helseChain h hvalues

/-- Normal segments are rendered without two braces in a row. -/
theorem spaced_renderAll (segments : List Segment) {defines : Defines} {text : String}
    (hnormal : AllNormal segments) (hchain : segments.IsChain Segment.Precedes)
    (h : renderAll defines segments = .ok text)
    (hvalues : ∀ v ∈ insertedOf defines segments, '{' ∉ (valueText v).toList) :
    Spaced (endsInBrace segments) text.toList := by
  cases segments with
  | nil =>
    rw [renderAll] at h
    cases h
    exact spaced_of_not_mem (by simp) _
  | cons s rest =>
    rw [AllNormal] at hnormal
    rw [insertedOf, List.forall_mem_append] at hvalues
    obtain ⟨front, back, hfront, hback, rfl⟩ := renderAll_cons_ok.mp h
    have hs := s.spaced_render hnormal.1 hfront hvalues.1
    have hrest := spaced_renderAll rest hnormal.2 hchain.tail hback hvalues.2
    have hbehind (hlast : front.toList.getLast? = some '{') :=
      renderAll_behind_brace (hs.last hlast) hchain hnormal.2 hback
    rw [String.toList_append]
    constructor
    · refine hs.single.append hrest.single ?_
      rintro a ha b hb rfl
      rcases hbehind ha with ⟨-, rfl⟩ | ⟨c, cs, hcs, hc⟩
      · cases hb
      · rw [hcs] at hb
        cases hb
        exact hc
    · intro hlast
      rw [List.getLast?_append] at hlast
      cases hend : back.toList.getLast? with
      | none =>
        -- nothing is rendered behind the first segment, so there is nothing behind it
        rw [hend, Option.none_or] at hlast
        rcases hbehind hlast with ⟨rfl, -⟩ | ⟨c, cs, hcs, -⟩
        · exact hs.last hlast
        · simp [hcs] at hend
      | some c =>
        rw [hend, Option.some_or] at hlast
        have hbrace := hrest.last (hend.trans hlast)
        cases rest with
        | nil => cases hbrace
        | cons s' rest => simpa [endsInBrace] using hbrace

end

theorem tagless_of_compile {source : String} {t : Template} {defines : Defines} {text : String}
    (hcompile : compile source = .ok t) (h : t.render defines = .ok text)
    (hvalues : ∀ v ∈ insertedOf defines t.segments, '{' ∉ (valueText v).toList) : Tagless text := by
  obtain ⟨hnormal, hchain⟩ := normal_of_compile hcompile
  exact tagless_iff_single.mpr (spaced_renderAll t.segments hnormal hchain h hvalues).single

/-! ## Texts without tags -/

/-- The piece is rendered as the characters it covers. -/
def Piece.Shown (p : Piece) : Prop :=
  p = ⟨.brace, ['{']⟩ ∨ p.token = .text (String.ofList p.chars)

theorem shown_next {c : Char} {cs : List Char} (h : Single (c :: cs)) : (next c cs).1.Shown := by
  unfold next
  split
  · next hc =>
    subst hc
    split
    · next inner =>
      have hpair := (List.isChain_cons_cons.mp h).1
      exact absurd rfl (hpair rfl)
    · exact .inl rfl
  · exact .inr rfl

/-- Without two braces in a row there is no tag to be cut out. -/
theorem shown_of_mem_pieces {cs : List Char} (h : Single cs) : ∀ p ∈ pieces cs, p.Shown := by
  fun_induction pieces cs with
  | case1 => simp
  | case2 c cs ih =>
    rw [List.forall_mem_cons]
    refine ⟨shown_next h, ih ?_⟩
    rw [Single, ← next_append c cs] at h
    exact h.right_of_append

theorem Piece.Shown.exists_derivation {p : Piece} (h : p.Shown) (span : Span) :
    ∃ d : Derivation, d.lexemes = [p.token.over span] ∧
      ∀ defines, d.segment.render defines = .ok (String.ofList p.chars) := by
  rcases h with rfl | htext
  · exact ⟨.brace span, rfl, fun _ => rfl⟩
  · refine ⟨.text (String.ofList p.chars) span, ?_, fun _ => rfl⟩
    rw [Derivation.lexemes, htext]

theorem exists_shown (start : Nat) {ps : List Piece} (h : ∀ p ∈ ps, p.Shown) :
    ∃ block, lexemesOf block = place start ps ∧
      ∀ defines, renderAll defines (segmentsOf block) = .ok (String.ofList (charsOf ps)) := by
  induction ps generalizing start with
  | nil => exact ⟨[], rfl, fun _ => rfl⟩
  | cons p ps ih =>
    rw [List.forall_mem_cons] at h
    obtain ⟨d, hd, hrender⟩ := h.1.exists_derivation ⟨start, start + octets p.chars⟩
    obtain ⟨block, hblock, hrest⟩ := ih (start + octets p.chars) h.2
    refine ⟨d :: block, ?_, ?_⟩
    · rw [lexemesOf, hd, hblock]
      rfl
    · intro defines
      rw [segmentsOf, renderAll_cons_ok]
      refine ⟨_, _, hrender defines, hrest defines, ?_⟩
      rw [charsOf_cons, String.ofList_append]

theorem verbatim_of_tagless {text : String} (h : Tagless text) : Verbatim text := by
  intro tag
  have hshown := shown_of_mem_pieces (tagless_iff_single.mp h)
  obtain ⟨block, hblock, hrender⟩ := exists_shown 0 hshown
  rw [charsOf_pieces, String.ofList_toList] at hrender
  have hcompile := (compile_ok_iff text _).mpr ⟨block, hblock, rfl⟩
  exact ⟨_, template_compile_ok.mpr ⟨_, hcompile, rfl⟩, hrender⟩

/-! ## Rendering a rendered text -/

/-- A rendered text holds no tags, if the values that were put in have no braces, and
rendering it again, with whatever defines, changes nothing: this holds of every text
without two braces in a row. -/
theorem render_tagless :
    (∀ tag source body defines text, BodyCompiler.template.compile tag source = .ok body →
      body defines = .ok text →
      (∀ v ∈ insertedValues source defines, '{' ∉ (valueText v).toList) →
      Tagless text ∧ Verbatim text) ∧
    ∀ text, Tagless text → Verbatim text := by
  constructor
  · intro tag source body defines text hbody htext hvalues
    obtain ⟨t, hcompile, rfl⟩ := template_compile_ok.mp hbody
    rw [insertedValues, hcompile] at hvalues
    have htagless := tagless_of_compile hcompile htext hvalues
    exact ⟨htagless, verbatim_of_tagless htagless⟩
  · intro text htagless
    exact verbatim_of_tagless htagless

/-- Braces beside tags, and a branch that is not taken. -/
def mixedSource : String :=
  "\x7b \x7b\x7b#if A\x7d\x7d\x7ba\x7d\x7b\x7bX\x7d\x7d\x7b\x7belse\x7d\x7d\x7b\x7bY\x7d\x7d"
    ++ "\x7b\x7b/if\x7d\x7d\x7b\x7bZ\x7d\x7d\x7b"

def mixedTemplate : Template :=
  ⟨[.text "\x7b", .text " ",
    .cond "A" ⟨2, 39⟩ [.text "\x7b", .text "a\x7d", .interp "X" ⟨14, 19⟩] [.interp "Y" ⟨27, 32⟩],
    .interp "Z" ⟨39, 44⟩, .text "\x7b"]⟩

/-- The only value with braces belongs to the other branch. -/
def mixedDefines : Defines :=
  Dict.ofList [("A", .bool true), ("X", .string "é"), ("Y", .string "\x7b\x7bX\x7d\x7d"),
    ("Z", .null)]

theorem render_tagless_mixed :
    BodyCompiler.template.compile "mixed" mixedSource = .ok mixedTemplate.render ∧
      mixedTemplate.render mixedDefines = .ok "\x7b \x7ba\x7dé\x7b" ∧
      insertedValues mixedSource mixedDefines = [.string "é", .null] ∧
      Tagless "\x7b \x7ba\x7dé\x7b" ∧ Verbatim "\x7b \x7ba\x7dé\x7b" := by
  have hlex : lex mixedSource = [⟨.brace, 0, 1⟩, ⟨.text " ", 1, 2⟩, ⟨.openIf "A", 2, 11⟩,
      ⟨.brace, 11, 12⟩, ⟨.text "a\x7d", 12, 14⟩, ⟨.interp "X", 14, 19⟩, ⟨.elseMark, 19, 27⟩,
      ⟨.interp "Y", 27, 32⟩, ⟨.closeIf, 32, 39⟩, ⟨.interp "Z", 39, 44⟩, ⟨.brace, 44, 45⟩] := by
    decide +kernel
  have hcompile : compile mixedSource = .ok mixedTemplate := by
    unfold compile parse
    rw [hlex]
    rfl
  have hbody : BodyCompiler.template.compile "mixed" mixedSource = .ok mixedTemplate.render :=
    template_compile_ok.mpr ⟨_, hcompile, rfl⟩
  have htext : mixedTemplate.render mixedDefines = .ok "\x7b \x7ba\x7dé\x7b" := by decide +kernel
  have hvalues : insertedValues mixedSource mixedDefines = [.string "é", .null] := by
    rw [insertedValues, hcompile]
    rfl
  refine ⟨hbody, htext, hvalues, render_tagless.1 _ _ _ _ _ hbody htext ?_⟩
  rw [hvalues]
  simp [valueText]

end ShaderGraph.Template
