import Mathlib.Data.List.Induction
import ShaderGraph.Template.Render

/-!
# The grammar of templates

The reader of templates is a machine with a stack of open conditionals. What it
reads is a language with a grammar:

    block   = segment*
    segment = text | brace | interp | if block (else block)? endif

A `Derivation` is a parse tree of this grammar, with the range of every token.

* **completeness** — the tokens of a derivation take the reader on by the
  segments that the derivation stands for (`Reading.steps_lexemesOf`);
* **soundness** — whatever the reader has read is spelled by derivations: one
  list for the innermost block and one for every branch that is open around it
  (`Reading.Spells`, kept by every step);
* **uniqueness** — tokens have at most one derivation (`lexemesOf_inj`);
* **nesting** — which token lists have one can be said by counting tags and
  looking for the conditional of every `else` (`derivable_iff_nested`).
-/

namespace ShaderGraph.Template

/-! ## Derivations -/

/-- A derivation of one segment. -/
inductive Derivation where
  | text (content : String) (span : Span)
  | brace (span : Span)
  | interp (name : String) (span : Span)
  /-- A conditional without `else`. -/
  | cond (name : String) (opening : Span) (thenPart : List Derivation) (closing : Span)
  /-- A conditional with `else`. -/
  | condElse (name : String) (opening : Span) (thenPart : List Derivation) (middle : Span)
      (elsePart : List Derivation) (closing : Span)

/-- A token in its place. -/
def Token.over (token : Token) (span : Span) : Lexeme := ⟨token, span.start, span.stop⟩

@[simp] theorem Token.over_token (token : Token) (span : Span) :
    (token.over span).token = token := rfl

@[simp] theorem Token.over_inj {t t' : Token} {s s' : Span} :
    t.over s = t'.over s' ↔ t = t' ∧ s = s' := by
  obtain ⟨start, stop⟩ := s
  obtain ⟨start', stop'⟩ := s'
  simp [Token.over]

theorem Token.over_eq {token : Token} {l : Lexeme} (h : l.token = token) :
    token.over ⟨l.start, l.stop⟩ = l := by
  subst h
  rfl

mutual

/-- The tokens that a derivation derives. -/
def Derivation.lexemes : Derivation → List Lexeme
  | .text content span => [(Token.text content).over span]
  | .brace span => [Token.brace.over span]
  | .interp name span => [(Token.interp name).over span]
  | .cond name opening thenPart closing =>
    (Token.openIf name).over opening :: (lexemesOf thenPart ++ [Token.closeIf.over closing])
  | .condElse name opening thenPart middle elsePart closing =>
    (Token.openIf name).over opening :: (lexemesOf thenPart ++
      Token.elseMark.over middle :: (lexemesOf elsePart ++ [Token.closeIf.over closing]))

/-- The tokens of a block. -/
def lexemesOf : List Derivation → List Lexeme
  | [] => []
  | d :: rest => d.lexemes ++ lexemesOf rest

end

mutual

/-- The abstract syntax of a derivation. The range of a conditional runs from its
opening tag to the end of its closing tag. -/
def Derivation.segment : Derivation → Segment
  | .text content _ => .text content
  | .brace _ => .text "\x7b"
  | .interp name span => .interp name span
  | .cond name opening thenPart closing =>
    .cond name ⟨opening.start, closing.stop⟩ (segmentsOf thenPart) []
  | .condElse name opening thenPart _ elsePart closing =>
    .cond name ⟨opening.start, closing.stop⟩ (segmentsOf thenPart) (segmentsOf elsePart)

/-- The abstract syntax of a block. -/
def segmentsOf : List Derivation → List Segment
  | [] => []
  | d :: rest => d.segment :: segmentsOf rest

end

/-- Tokens of the grammar's language. -/
def Derivable (tokens : List Lexeme) : Prop := ∃ block, lexemesOf block = tokens

@[simp] theorem lexemesOf_append (ds es : List Derivation) :
    lexemesOf (ds ++ es) = lexemesOf ds ++ lexemesOf es := by
  induction ds with
  | nil => simp [lexemesOf]
  | cons d ds ih => simp [lexemesOf, ih]

@[simp] theorem segmentsOf_append (ds es : List Derivation) :
    segmentsOf (ds ++ es) = segmentsOf ds ++ segmentsOf es := by
  induction ds with
  | nil => simp [segmentsOf]
  | cons d ds ih => simp [segmentsOf, ih]

@[simp] theorem lexemesOf_singleton (d : Derivation) : lexemesOf [d] = d.lexemes := by
  simp [lexemesOf]

@[simp] theorem segmentsOf_singleton (d : Derivation) : segmentsOf [d] = [d.segment] := by
  simp [segmentsOf]

theorem Derivation.cond_append (name : String) (opening : Span) (thenPart : List Derivation)
    (closing : Span) (rest : List Lexeme) :
    (Derivation.cond name opening thenPart closing).lexemes ++ rest =
      (Token.openIf name).over opening ::
        (lexemesOf thenPart ++ Token.closeIf.over closing :: rest) := by
  simp [Derivation.lexemes]

theorem Derivation.condElse_append (name : String) (opening : Span) (thenPart : List Derivation)
    (middle : Span) (elsePart : List Derivation) (closing : Span) (rest : List Lexeme) :
    (Derivation.condElse name opening thenPart middle elsePart closing).lexemes ++ rest =
      (Token.openIf name).over opening :: (lexemesOf thenPart ++
        Token.elseMark.over middle ::
          (lexemesOf elsePart ++ Token.closeIf.over closing :: rest)) := by
  simp [Derivation.lexemes]

/-! ## Reading what is derived -/

/-- Add segments to the innermost block. -/
def Reading.pushAll (r : Reading) (segments : List Segment) : Reading :=
  { r with block := segments.reverse ++ r.block }

theorem Reading.steps_append (r : Reading) (ls rest : List Lexeme) :
    r.steps (ls ++ rest) = match r.steps ls with
      | .error f => .error f
      | .ok r' => r'.steps rest := by
  induction ls generalizing r with
  | nil => rfl
  | cons l ls ih =>
    rw [List.cons_append, steps, steps]
    cases hstep : r.step l with
    | error f => rfl
    | ok r' => exact ih r'

mutual

theorem Reading.steps_lexemes (d : Derivation) (r : Reading) (rest : List Lexeme) :
    r.steps (d.lexemes ++ rest) = (r.push d.segment).steps rest := by
  cases d with
  | text content span => rfl
  | brace span => rfl
  | interp name span => rfl
  | cond name opening thenPart closing =>
    rw [Derivation.cond_append, steps]
    simp only [step, Token.over]
    rw [steps_lexemesOf thenPart]
    simp [steps, step, pushAll, push, Derivation.segment]
  | condElse name opening thenPart middle elsePart closing =>
    rw [Derivation.condElse_append, steps]
    simp only [step, Token.over]
    rw [steps_lexemesOf thenPart]
    simp only [steps, step, pushAll, List.append_nil, List.reverse_reverse]
    rw [steps_lexemesOf elsePart]
    simp [steps, step, pushAll, push, Derivation.segment]

/-- A block takes the reader on by its segments, whatever comes next. -/
theorem Reading.steps_lexemesOf (block : List Derivation) (r : Reading) (rest : List Lexeme) :
    r.steps (lexemesOf block ++ rest) = (r.pushAll (segmentsOf block)).steps rest := by
  cases block with
  | nil => rfl
  | cons d block =>
    rw [lexemesOf, List.append_assoc, steps_lexemes d, steps_lexemesOf block]
    simp [pushAll, push, segmentsOf]

end

/-! ## Deriving what is read -/

/-- What the reader has made of tokens: segments of derived blocks, for the
innermost block and for every open conditional around it. -/
inductive Reading.Spells : List Lexeme → Reading → Prop
  | top (block : List Derivation) : Spells (lexemesOf block) ⟨[], (segmentsOf block).reverse⟩
  | inThen {ls : List Lexeme} {outer : List OpenIf} {before : List Segment} (name : String)
      (opening : Span) (block : List Derivation) : Spells ls ⟨outer, before⟩ →
      Spells (ls ++ (Token.openIf name).over opening :: lexemesOf block)
        ⟨⟨name, opening.start, before, none⟩ :: outer, (segmentsOf block).reverse⟩
  | inElse {ls : List Lexeme} {outer : List OpenIf} {before : List Segment} (name : String)
      (opening : Span) (thenPart : List Derivation) (middle : Span) (block : List Derivation) :
      Spells ls ⟨outer, before⟩ →
      Spells (ls ++ (Token.openIf name).over opening :: (lexemesOf thenPart ++
          Token.elseMark.over middle :: lexemesOf block))
        ⟨⟨name, opening.start, before, some (segmentsOf thenPart)⟩ :: outer,
          (segmentsOf block).reverse⟩

theorem Reading.Spells.push {ls : List Lexeme} {r : Reading} (h : Spells ls r) (d : Derivation) :
    Spells (ls ++ d.lexemes) (r.push d.segment) := by
  cases h with
  | top block =>
    have hmore := Spells.top (block ++ [d])
    simpa [Reading.push] using hmore
  | inThen name opening block houter =>
    have hmore := houter.inThen name opening (block ++ [d])
    simpa [Reading.push] using hmore
  | inElse name opening thenPart middle block houter =>
    have hmore := houter.inElse name opening thenPart middle (block ++ [d])
    simpa [Reading.push] using hmore

/-- A token that can be read leaves what was read derived. -/
theorem Reading.Spells.step {ls : List Lexeme} {r r' : Reading} {l : Lexeme} (h : Spells ls r)
    (hstep : r.step l = .ok r') : Spells (ls ++ [l]) r' := by
  obtain ⟨token, start, stop⟩ := l
  cases token with
  | text content =>
    cases hstep
    exact h.push (.text content ⟨start, stop⟩)
  | brace =>
    cases hstep
    exact h.push (.brace ⟨start, stop⟩)
  | interp name =>
    cases hstep
    exact h.push (.interp name ⟨start, stop⟩)
  | openIf name =>
    cases hstep
    exact h.inThen name ⟨start, stop⟩ []
  | openTag => cases hstep
  | elseMark =>
    cases h with
    | top block => cases hstep
    | inElse name opening thenPart middle block houter => cases hstep
    | inThen name opening block houter =>
      cases hstep
      rw [List.reverse_reverse, List.append_assoc]
      exact houter.inElse name opening block ⟨start, stop⟩ []
  | closeIf =>
    cases h with
    | top block => cases hstep
    | inThen name opening block houter =>
      cases hstep
      rw [List.reverse_reverse, List.append_assoc]
      exact houter.push (.cond name opening block ⟨start, stop⟩)
    | inElse name opening thenPart middle block houter =>
      cases hstep
      rw [List.reverse_reverse, List.append_assoc, List.cons_append, List.append_assoc]
      exact houter.push (.condElse name opening thenPart middle block ⟨start, stop⟩)

theorem Reading.Spells.steps {ls : List Lexeme} {r r' : Reading} (h : Spells ls r)
    {more : List Lexeme} (hsteps : r.steps more = .ok r') : Spells (ls ++ more) r' := by
  induction more generalizing ls r with
  | nil =>
    cases hsteps
    rwa [List.append_nil]
  | cons l more ih =>
    unfold Reading.steps at hsteps
    split at hsteps
    · cases hsteps
    · next hstep => simpa using ih (h.step hstep) hsteps

theorem Reading.spells_of_steps {ls : List Lexeme} {r : Reading}
    (h : Reading.start.steps ls = .ok r) : r.Spells ls := by
  have hstart : Reading.start.Spells [] := .top []
  exact hstart.steps h

/-- The reader gives the abstract syntax of a derivation, and fails where there is
none. -/
theorem ofLexemes_ok_iff (ls : List Lexeme) (length : Nat) (t : Template) :
    ofLexemes ls length = .ok t ↔ ∃ block, lexemesOf block = ls ∧ t = ⟨segmentsOf block⟩ := by
  constructor
  · intro h
    unfold ofLexemes at h
    split at h
    · cases h
    · next r hsteps =>
      cases Reading.spells_of_steps hsteps with
      | top block =>
        cases h
        exact ⟨block, rfl, by rw [List.reverse_reverse]⟩
      | inThen name opening block houter => cases h
      | inElse name opening thenPart middle block houter => cases h
  · rintro ⟨block, rfl, rfl⟩
    have hsteps := Reading.steps_lexemesOf block .start []
    rw [List.append_nil] at hsteps
    rw [ofLexemes, hsteps]
    simp [Reading.steps, Reading.finish, Reading.pushAll, Reading.start]

/-! ## Uniqueness -/

/-- The next token, if there is one, begins no segment. -/
def Stops (ls : List Lexeme) : Prop := ∀ l ∈ ls.head?, l.token = .elseMark ∨ l.token = .closeIf

theorem Stops.nil : Stops [] := by simp [Stops]

theorem Stops.elseMark (span : Span) (rest : List Lexeme) :
    Stops (Token.elseMark.over span :: rest) := by simp [Stops]

theorem Stops.closeIf (span : Span) (rest : List Lexeme) :
    Stops (Token.closeIf.over span :: rest) := by simp [Stops]

theorem Derivation.not_stops (d : Derivation) (rest : List Lexeme) :
    ¬ Stops (d.lexemes ++ rest) := by
  cases d <;> simp [Derivation.lexemes, Stops]

theorem openIf_cons_inj {name name' : String} {opening opening' : Span} {ls ls' : List Lexeme}
    (h : (Token.openIf name).over opening :: ls = (Token.openIf name').over opening' :: ls') :
    name = name' ∧ opening = opening' ∧ ls = ls' := by
  simpa [and_assoc] using h

mutual

theorem Derivation.lexemes_inj (d e : Derivation) {rest rest' : List Lexeme}
    (h : d.lexemes ++ rest = e.lexemes ++ rest') : d = e ∧ rest = rest' := by
  cases d with
  | text content span => cases e <;> simp_all [Derivation.lexemes]
  | brace span => cases e <;> simp_all [Derivation.lexemes]
  | interp name span => cases e <;> simp_all [Derivation.lexemes]
  | cond name opening thenPart closing =>
    cases e with
    | text | brace | interp => simp [Derivation.lexemes] at h
    | cond name' opening' thenPart' closing' =>
      rw [Derivation.cond_append, Derivation.cond_append] at h
      obtain ⟨rfl, rfl, hthen⟩ := openIf_cons_inj h
      obtain ⟨rfl, hclose⟩ :=
        lexemesOf_inj_append thenPart thenPart' (.closeIf _ _) (.closeIf _ _) hthen
      simpa using hclose
    | condElse name' opening' thenPart' middle' elsePart' closing' =>
      -- the branch ends at two different tokens
      rw [Derivation.cond_append, Derivation.condElse_append] at h
      obtain ⟨-, -, hthen⟩ := openIf_cons_inj h
      obtain ⟨-, hclose⟩ :=
        lexemesOf_inj_append thenPart thenPart' (.closeIf _ _) (.elseMark _ _) hthen
      simp at hclose
  | condElse name opening thenPart middle elsePart closing =>
    cases e with
    | text | brace | interp => simp [Derivation.lexemes] at h
    | cond name' opening' thenPart' closing' =>
      rw [Derivation.condElse_append, Derivation.cond_append] at h
      obtain ⟨-, -, hthen⟩ := openIf_cons_inj h
      obtain ⟨-, hclose⟩ :=
        lexemesOf_inj_append thenPart thenPart' (.elseMark _ _) (.closeIf _ _) hthen
      simp at hclose
    | condElse name' opening' thenPart' middle' elsePart' closing' =>
      rw [Derivation.condElse_append, Derivation.condElse_append] at h
      obtain ⟨rfl, rfl, hthen⟩ := openIf_cons_inj h
      obtain ⟨rfl, hmiddle⟩ :=
        lexemesOf_inj_append thenPart thenPart' (.elseMark _ _) (.elseMark _ _) hthen
      simp only [List.cons.injEq, Token.over_inj, true_and] at hmiddle
      obtain ⟨rfl, helse⟩ := hmiddle
      obtain ⟨rfl, hclose⟩ :=
        lexemesOf_inj_append elsePart elsePart' (.closeIf _ _) (.closeIf _ _) helse
      simpa using hclose

theorem lexemesOf_inj_append (ds es : List Derivation) {rest rest' : List Lexeme}
    (hrest : Stops rest) (hrest' : Stops rest')
    (h : lexemesOf ds ++ rest = lexemesOf es ++ rest') : ds = es ∧ rest = rest' := by
  cases ds with
  | nil =>
    cases es with
    | nil => exact ⟨rfl, h⟩
    | cons e es =>
      rw [lexemesOf, lexemesOf, List.append_assoc, List.nil_append] at h
      exact absurd (h ▸ hrest) (e.not_stops _)
  | cons d ds =>
    cases es with
    | nil =>
      rw [lexemesOf, lexemesOf, List.append_assoc, List.nil_append] at h
      exact absurd (h ▸ hrest') (d.not_stops _)
    | cons e es =>
      rw [lexemesOf, lexemesOf, List.append_assoc, List.append_assoc] at h
      obtain ⟨rfl, hmore⟩ := Derivation.lexemes_inj d e h
      obtain ⟨rfl, hrests⟩ := lexemesOf_inj_append ds es hrest hrest' hmore
      exact ⟨rfl, hrests⟩

end

/-- Tokens have at most one derivation. -/
theorem lexemesOf_inj {ds es : List Derivation} (h : lexemesOf ds = lexemesOf es) : ds = es :=
  (lexemesOf_inj_append ds es .nil .nil (by rw [h])).1

/-! ## Nesting -/

def Token.isOpenIf : Token → Bool
  | .openIf _ => true
  | _ => false

/-- The number of tags that open a conditional. -/
def openings (ls : List Lexeme) : Nat := ls.countP (·.token.isOpenIf)

/-- The number of tags that close one. -/
def closings (ls : List Lexeme) : Nat := ls.countP (·.token == .closeIf)

/-- Tokens with their tags in place: no open tag, conditionals balanced, and from
every `else` back to the opening tag of its conditional only a block, so that the
conditional is the innermost one and has no earlier `else`. -/
structure Nested (ls : List Lexeme) : Prop where
  noOpenTag : ∀ l ∈ ls, l.token ≠ .openTag
  balanced : openings ls = closings ls
  closings_le : ∀ front, front <+: ls → closings front ≤ openings front
  elses : ∀ front l back, ls = front ++ l :: back → l.token = .elseMark →
    ∃ outer opening block, front = outer ++ opening :: block ∧ opening.token.isOpenIf = true ∧
      Derivable block

@[simp] theorem openings_append (ls ms : List Lexeme) :
    openings (ls ++ ms) = openings ls + openings ms := by simp [openings]

@[simp] theorem closings_append (ls ms : List Lexeme) :
    closings (ls ++ ms) = closings ls + closings ms := by simp [closings]

theorem Reading.step_opened_length {r r' : Reading} {l : Lexeme} (h : r.step l = .ok r') :
    r'.opened.length + closings [l] = r.opened.length + openings [l] := by
  obtain ⟨token, start, stop⟩ := l
  obtain ⟨opened, block⟩ := r
  cases token with
  | text | brace | interp =>
    cases h
    rfl
  | openIf name =>
    cases h
    simp [openings, closings, Token.isOpenIf]
  | openTag => cases h
  | elseMark =>
    rcases opened with _ | ⟨⟨name, start, before, _ | branch⟩, outer⟩
    · cases h
    · cases h
      simp [openings, closings, Token.isOpenIf]
    · cases h
  | closeIf =>
    rcases opened with _ | ⟨o, outer⟩
    · cases h
    · cases h
      simp [openings, closings, Token.isOpenIf]

/-- The open conditionals are those opened and not closed. -/
theorem Reading.opened_length {r r' : Reading} {ls : List Lexeme} (h : r.steps ls = .ok r') :
    r'.opened.length + closings ls = r.opened.length + openings ls := by
  induction ls generalizing r with
  | nil =>
    cases h
    rfl
  | cons l ls ih =>
    unfold Reading.steps at h
    split at h
    · cases h
    · next r₁ hstep =>
      have hfirst := Reading.step_opened_length hstep
      have hrest := ih h
      rw [← List.singleton_append, closings_append, openings_append]
      omega

theorem Reading.steps_append_ok {r r' : Reading} {ls ms : List Lexeme}
    (h : r.steps (ls ++ ms) = .ok r') : ∃ r₁, r.steps ls = .ok r₁ ∧ r₁.steps ms = .ok r' := by
  rw [Reading.steps_append] at h
  split at h
  · cases h
  · next r₁ hls => exact ⟨r₁, hls, h⟩

theorem derivable_iff_steps {ls : List Lexeme} :
    Derivable ls ↔ ∃ r, Reading.start.steps ls = .ok r ∧ r.opened = [] := by
  constructor
  · rintro ⟨block, rfl⟩
    have hsteps := Reading.steps_lexemesOf block .start []
    rw [List.append_nil] at hsteps
    exact ⟨_, hsteps, rfl⟩
  · rintro ⟨r, hsteps, hopened⟩
    cases Reading.spells_of_steps hsteps with
    | top block => exact ⟨block, rfl⟩
    | inThen => cases hopened
    | inElse => cases hopened

/-- The token behind tokens that have been read can be read if it is in place. -/
theorem Nested.step_ok {ls front back : List Lexeme} {l : Lexeme} {r : Reading} (h : Nested ls)
    (hls : ls = front ++ l :: back) (hr : Reading.start.steps front = .ok r) :
    ∃ r', r.step l = .ok r' := by
  have hlength := Reading.opened_length hr
  obtain ⟨token, start, stop⟩ := l
  cases token with
  | text | brace | interp | openIf => exact ⟨_, rfl⟩
  | openTag =>
    have hmem : (⟨.openTag, start, stop⟩ : Lexeme) ∈ ls := by simp [hls]
    exact absurd rfl (h.noOpenTag _ hmem)
  | closeIf =>
    obtain ⟨opened, block⟩ := r
    cases opened with
    | cons o outer => exact ⟨_, rfl⟩
    | nil =>
      -- the tag would close more conditionals than were opened
      have hle := h.closings_le (front ++ [⟨.closeIf, start, stop⟩]) ⟨back, by simp [hls]⟩
      simp [closings, openings, Token.isOpenIf, Reading.start] at hle hlength
      omega
  | elseMark =>
    obtain ⟨outer, opening, block, rfl, hopening, derivations, rfl⟩ := h.elses _ _ _ hls rfl
    obtain ⟨r₁, _, hopened⟩ := Reading.steps_append_ok hr
    -- behind its opening tag and a block, the conditional is open and without `else`
    obtain ⟨token, start', stop'⟩ := opening
    cases token <;> simp only [Token.isOpenIf, Bool.false_eq_true] at hopening
    simp only [Reading.steps, Reading.step] at hopened
    rw [← List.append_nil (lexemesOf derivations), Reading.steps_lexemesOf] at hopened
    cases hopened
    exact ⟨_, rfl⟩

theorem Nested.steps_ok {ls front : List Lexeme} (h : Nested ls) (hfront : front <+: ls) :
    ∃ r, Reading.start.steps front = .ok r := by
  induction front using List.reverseRecOn with
  | nil => exact ⟨_, rfl⟩
  | append_singleton front l ih =>
    obtain ⟨back, hls⟩ := hfront
    rw [List.append_assoc, List.singleton_append] at hls
    obtain ⟨r, hr⟩ := ih ⟨l :: back, hls⟩
    obtain ⟨r', hr'⟩ := h.step_ok hls.symm hr
    refine ⟨r', ?_⟩
    rw [Reading.steps_append, hr]
    simp [Reading.steps, hr']

theorem Nested.of_steps {ls : List Lexeme} {r : Reading} (h : Reading.start.steps ls = .ok r)
    (hopened : r.opened = []) : Nested ls where
  noOpenTag := by
    intro l hl htoken
    obtain ⟨front, back, rfl⟩ := List.append_of_mem hl
    obtain ⟨r₁, _, hback⟩ := Reading.steps_append_ok h
    simp [Reading.steps, Reading.step, htoken] at hback
  balanced := by
    have hlength := Reading.opened_length h
    simp [hopened, Reading.start] at hlength
    exact hlength.symm
  closings_le := by
    rintro front ⟨back, rfl⟩
    obtain ⟨r₁, hfront, _⟩ := Reading.steps_append_ok h
    have hlength := Reading.opened_length hfront
    simp only [Reading.start, List.length_nil] at hlength
    omega
  elses := by
    rintro front l back rfl htoken
    obtain ⟨r₁, hfront, hback⟩ := Reading.steps_append_ok h
    cases Reading.spells_of_steps hfront with
    | top block => simp [Reading.steps, Reading.step, htoken] at hback
    | inElse => simp [Reading.steps, Reading.step, htoken] at hback
    | inThen name opening block houter => exact ⟨_, _, _, rfl, rfl, block, rfl⟩

/-- A token list has a derivation exactly if its tags are in place. -/
theorem derivable_iff_nested (ls : List Lexeme) : Derivable ls ↔ Nested ls := by
  constructor
  · intro h
    obtain ⟨r, hsteps, hopened⟩ := derivable_iff_steps.mp h
    exact Nested.of_steps hsteps hopened
  · intro h
    obtain ⟨r, hsteps⟩ := h.steps_ok (List.prefix_refl ls)
    refine derivable_iff_steps.mpr ⟨r, hsteps, ?_⟩
    have hlength := Reading.opened_length hsteps
    have hbalanced := h.balanced
    rw [← List.length_eq_zero_iff]
    simp only [Reading.start, List.length_nil] at hlength
    omega

/-! ## Templates -/

theorem compile_ok_iff (source : String) (t : Template) :
    compile source = .ok t ↔ ∃ block, lexemesOf block = lex source ∧ t = ⟨segmentsOf block⟩ := by
  rw [← ofLexemes_ok_iff (lex source) source.utf8ByteSize t, compile, parse]
  split
  · next hfault => simp [hfault]
  · next hparse => simp [hparse]

/-- A text is a template exactly if the grammar derives its tokens, which it does
exactly if their tags are in place. The derivation is unique, and the template is
its abstract syntax. -/
theorem compile_grammatical (source : String) :
    ((∃ t, compile source = .ok t) ↔ Derivable (lex source)) ∧
    (Derivable (lex source) ↔ Nested (lex source)) ∧
    (∀ block block', lexemesOf block = lex source → lexemesOf block' = lex source →
      block = block') ∧
    (∀ t block, compile source = .ok t → lexemesOf block = lex source →
      t.segments = segmentsOf block) := by
  refine ⟨?_, derivable_iff_nested _, ?_, ?_⟩
  · constructor
    · rintro ⟨t, ht⟩
      obtain ⟨block, hblock, _⟩ := (compile_ok_iff source t).mp ht
      exact ⟨block, hblock⟩
    · rintro ⟨block, hblock⟩
      exact ⟨_, (compile_ok_iff source _).mpr ⟨block, hblock, rfl⟩⟩
  · intro block block' hblock hblock'
    exact lexemesOf_inj (hblock.trans hblock'.symm)
  · intro t block ht hblock
    obtain ⟨block', hblock', rfl⟩ := (compile_ok_iff source t).mp ht
    rw [lexemesOf_inj (hblock.trans hblock'.symm)]

/-- A conditional in a branch of another, both with `else`. -/
def nestedSource : String :=
  "\x7b\x7b#if A\x7d\x7d\x7b\x7b#if B\x7d\x7dab\x7b\x7belse\x7d\x7da\x7b\x7b/if\x7d\x7d"
    ++ "\x7b\x7belse\x7d\x7dnone\x7b\x7b/if\x7d\x7d"

/-- Its derivation. -/
def nestedBlock : List Derivation :=
  [.condElse "A" ⟨0, 9⟩
    [.condElse "B" ⟨9, 18⟩ [.text "ab" ⟨18, 20⟩] ⟨20, 28⟩ [.text "a" ⟨28, 29⟩] ⟨29, 36⟩] ⟨36, 44⟩
    [.text "none" ⟨44, 48⟩] ⟨48, 55⟩]

/-- Each `else` of the sample goes to the innermost open conditional. -/
theorem compile_grammatical_nested :
    lexemesOf nestedBlock = lex nestedSource ∧
    (∀ block, lexemesOf block = lex nestedSource → block = nestedBlock) ∧
    ∃ t, compile nestedSource = .ok t ∧ t.segments = segmentsOf nestedBlock := by
  have hlex : lexemesOf nestedBlock = lex nestedSource := by decide +kernel
  obtain ⟨hsucceeds, _, hunique, hsegments⟩ := compile_grammatical nestedSource
  obtain ⟨t, ht⟩ := hsucceeds.mpr ⟨nestedBlock, hlex⟩
  exact ⟨hlex, fun block hblock => hunique block nestedBlock hblock hlex, t, ht,
    hsegments t nestedBlock ht hlex⟩

end ShaderGraph.Template
