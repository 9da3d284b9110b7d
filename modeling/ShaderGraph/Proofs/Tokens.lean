import Mathlib.Data.List.Chain
import Mathlib.Data.List.TakeWhile
import ShaderGraph.Template.Token

/-!
# Which tokens a text is cut into

`Token.Spelled` lists the ways to write each token, and `Follows` says which
tokens can stand side by side. Cutting a text is the same as finding tokens that
are written so and stand so, as long as no open tag is among them:

* **soundness** — the tokens of a text are written as `Spelled` says, open tags
  apart (`spelled_of_mem_pieces`), and neighbours follow each other
  (`pieces_isChain`);
* **completeness** — tokens that are written so and follow each other are the
  tokens of their text (`pieces_flatMap`).
-/

namespace ShaderGraph.Template

/-! ## Spelling -/

def Blanks (cs : List Char) : Prop := ∀ c ∈ cs, isTagBlank c = true

/-- The ways to write a token. Of an open tag nothing is said. -/
inductive Token.Spelled : Token → List Char → Prop
  | openIf {before between name after : List Char} : Blanks before → Blanks between →
      between ≠ [] → IsName name → Blanks after →
      Spelled (.openIf (String.ofList name)) ('{' :: '{' :: (before ++
        '#' :: 'i' :: 'f' :: (between ++ (name ++ (after ++ ['}', '}'])))))
  | elseMark {before after : List Char} : Blanks before → Blanks after →
      Spelled .elseMark ('{' :: '{' :: (before ++
        ('e' :: 'l' :: 's' :: 'e' :: (after ++ ['}', '}']))))
  | closeIf {before after : List Char} : Blanks before → Blanks after →
      Spelled .closeIf ('{' :: '{' :: (before ++ '/' :: 'i' :: 'f' :: (after ++ ['}', '}'])))
  | interp {before name after : List Char} : Blanks before → IsName name →
      name ≠ ['e', 'l', 's', 'e'] → Blanks after →
      Spelled (.interp (String.ofList name))
        ('{' :: '{' :: (before ++ (name ++ (after ++ ['}', '}']))))
  | text {cs : List Char} : cs ≠ [] → '{' ∉ cs → Spelled (.text (String.ofList cs)) cs
  | brace : Spelled .brace ['{']

def Token.isText : Token → Bool
  | .text _ => true
  | _ => false

/-- Which token can stand behind which: texts are not cut in two, and a brace is
single. -/
def Follows (a b : Token) : Prop :=
  (a.isText = true → b.isText = false) ∧ (a = .brace → b.isText = true)

/-! ## Runs of characters -/

section Runs

variable {p : Char → Bool} {run rest : List Char}

theorem takeWhile_run (hrun : ∀ c ∈ run, p c = true) (hrest : ∀ c ∈ rest.head?, p c = false) :
    (run ++ rest).takeWhile p = run := by
  rw [List.takeWhile_append_of_pos hrun]
  cases rest with
  | nil => simp
  | cons c rest => simp [hrest c rfl]

theorem dropWhile_run (hrun : ∀ c ∈ run, p c = true) (hrest : ∀ c ∈ rest.head?, p c = false) :
    (run ++ rest).dropWhile p = rest := by
  rw [List.dropWhile_append_of_pos hrun]
  cases rest with
  | nil => simp
  | cons c rest => simp [hrest c rfl]

theorem head?_dropWhile (p : Char → Bool) (cs : List Char) :
    ∀ c ∈ (cs.dropWhile p).head?, p c = false := by
  intro c hc
  have h := List.head?_dropWhile_not p cs
  rw [Option.mem_def.mp hc] at h
  exact h

end Runs

/-! ## The parts of a tag -/

theorem tagEnd?_blanks {after : List Char} (h : Blanks after) (rest : List Char) :
    tagEnd? (after ++ '}' :: '}' :: rest) = some (after ++ ['}', '}'], rest) := by
  have hbrace : ∀ c ∈ ('}' :: '}' :: rest).head?, isTagBlank c = false := by simp [isTagBlank]
  unfold tagEnd?
  rw [takeWhile_run h hbrace, dropWhile_run h hbrace]
  rfl

theorem tagEnd?_some {cs close rest : List Char} (h : tagEnd? cs = some (close, rest)) :
    ∃ after, Blanks after ∧ close = after ++ ['}', '}'] := by
  unfold tagEnd? at h
  split at h
  · cases h
    exact ⟨_, fun c hc => List.mem_takeWhile_imp hc, rfl⟩
  · cases h

theorem tagName?_name {name rest : List Char} (h : IsName name)
    (hrest : ∀ c ∈ rest.head?, isNameChar c = false) :
    tagName? (name ++ rest) = some (name, rest) := by
  rw [← isNameList_iff] at h
  cases name with
  | nil => cases h
  | cons c name =>
    simp only [isNameList, Bool.and_eq_true, List.all_eq_true] at h
    rw [List.cons_append, tagName?, if_pos h.1, takeWhile_run h.2 hrest, dropWhile_run h.2 hrest]

theorem tagName?_some {cs name rest : List Char} (h : tagName? cs = some (name, rest)) :
    IsName name := by
  rw [← isNameList_iff]
  unfold tagName? at h
  split at h
  · next c cs =>
    split at h
    · next hc =>
      cases h
      simp only [isNameList, hc, Bool.true_and, List.all_eq_true]
      intro d hd
      exact List.mem_takeWhile_imp hd
    · cases h
  · cases h

theorem isNameChar_of_isTagBlank {c : Char} (h : isTagBlank c = true) : isNameChar c = false := by
  simp only [isTagBlank, Bool.or_eq_true, beq_iff_eq] at h
  rcases h with rfl | rfl
  · decide
  · decide

/-- Neither blanks nor closing braces go on with a name. -/
theorem head?_tagEnd {after : List Char} (h : Blanks after) (rest : List Char) :
    ∀ c ∈ (after ++ '}' :: '}' :: rest).head?, isNameChar c = false := by
  cases after with
  | nil =>
    intro c hc
    cases hc
    decide
  | cons b after =>
    intro c hc
    cases hc
    exact isNameChar_of_isTagBlank (h b List.mem_cons_self)

/-- A name does not begin like a blank or one of the other tags. -/
theorem exists_cons_of_isName {name : List Char} (h : IsName name) :
    ∃ c cs, name = c :: cs ∧ isTagBlank c = false ∧ c ≠ '#' ∧ c ≠ '/' := by
  rw [← isNameList_iff] at h
  cases name with
  | nil => cases h
  | cons c cs =>
    simp only [isNameList, Bool.and_eq_true] at h
    have hc := isNameChar_of_isNameStart h.1
    refine ⟨c, cs, rfl, ?_, ?_, ?_⟩
    · cases hblank : isTagBlank c with
      | false => rfl
      | true => rw [isNameChar_of_isTagBlank hblank] at hc; cases hc
    · rintro rfl
      exact absurd hc (by decide)
    · rintro rfl
      exact absurd hc (by decide)

theorem wordTag?_name {name after : List Char} (hname : IsName name) (hafter : Blanks after)
    (rest : List Char) :
    wordTag? (name ++ (after ++ '}' :: '}' :: rest)) =
      some (⟨if name = ['e', 'l', 's', 'e'] then .elseMark else .interp (String.ofList name),
        name ++ (after ++ ['}', '}'])⟩, rest) := by
  simp [wordTag?, tagName?_name hname (head?_tagEnd hafter rest), tagEnd?_blanks hafter]

theorem ifTag?_name {between name after : List Char} (hbetween : Blanks between)
    (hne : between ≠ []) (hname : IsName name) (hafter : Blanks after) (rest : List Char) :
    ifTag? (between ++ (name ++ (after ++ '}' :: '}' :: rest))) =
      some (⟨.openIf (String.ofList name),
        '#' :: 'i' :: 'f' :: (between ++ (name ++ (after ++ ['}', '}'])))⟩, rest) := by
  have hhead : ∀ c ∈ (name ++ (after ++ '}' :: '}' :: rest)).head?, isTagBlank c = false := by
    obtain ⟨c, cs, rfl, hc, _⟩ := exists_cons_of_isName hname
    simp [hc]
  have hblanks : between.isEmpty = false := by simpa using hne
  simp [ifTag?, takeWhile_run hbetween hhead, dropWhile_run hbetween hhead, hblanks,
    tagName?_name hname (head?_tagEnd hafter rest), tagEnd?_blanks hafter]

/-! ## Tags -/

theorem tag?_of_inside {before inside rest : List Char} {piece : Piece} (hbefore : Blanks before)
    (hhead : ∀ c ∈ inside.head?, isTagBlank c = false)
    (hinside : tagInside? inside = some (piece, rest)) :
    tag? (before ++ inside) =
      some ({ piece with chars := '{' :: '{' :: (before ++ piece.chars) }, rest) := by
  simp [tag?, takeWhile_run hbefore hhead, dropWhile_run hbefore hhead, hinside]

theorem tagInside?_of_name {name : List Char} (hname : IsName name) (rest : List Char) :
    tagInside? (name ++ rest) = wordTag? (name ++ rest) := by
  obtain ⟨c, cs, rfl, -, hhash, hslash⟩ := exists_cons_of_isName hname
  unfold tagInside?
  split
  · next heq => exact absurd (List.cons.inj heq).1 hhash
  · next heq => exact absurd (List.cons.inj heq).1 hslash
  · rfl

/-- A word in a tag, with any blanks around it. -/
theorem tag?_of_name {before name after : List Char} (hbefore : Blanks before)
    (hname : IsName name) (hafter : Blanks after) (rest : List Char) :
    tag? (before ++ (name ++ (after ++ '}' :: '}' :: rest))) =
      some (⟨if name = ['e', 'l', 's', 'e'] then .elseMark else .interp (String.ofList name),
        '{' :: '{' :: (before ++ (name ++ (after ++ ['}', '}'])))⟩, rest) := by
  have hinside := wordTag?_name hname hafter rest
  rw [← tagInside?_of_name hname] at hinside
  refine tag?_of_inside hbefore ?_ hinside
  obtain ⟨c, cs, rfl, hc, -⟩ := exists_cons_of_isName hname
  simp [hc]

/-- What can follow a token in the text: a text ends at a brace, and a brace at
anything else. -/
def Token.Fits : Token → List Char → Prop
  | .text _, rest => ∀ c ∈ rest.head?, c = '{'
  | .brace, rest => ∀ c ∈ rest.head?, c ≠ '{'
  | _, _ => True

theorem next_of_tag? {inner rest : List Char} {piece : Piece}
    (h : tag? inner = some (piece, rest)) : next '{' ('{' :: inner) = (piece, rest) := by
  simp [next, h]

/-- A token that is written out and fits what follows is the first token of the
text. -/
theorem Token.Spelled.pieces {token : Token} {chars rest : List Char} (h : token.Spelled chars)
    (hfits : token.Fits rest) :
    Template.pieces (chars ++ rest) = ⟨token, chars⟩ :: Template.pieces rest := by
  have hnext : ∃ c cs, chars ++ rest = c :: cs ∧ next c cs = (⟨token, chars⟩, rest) := by
    cases h with
    | @openIf before between name after hbefore hbetween hne hname hafter =>
      refine ⟨_, _, rfl, next_of_tag? ?_⟩
      have hinside : tagInside? ('#' :: 'i' :: 'f' ::
          (between ++ (name ++ (after ++ '}' :: '}' :: rest)))) = _ :=
        ifTag?_name hbetween hne hname hafter rest
      simpa using tag?_of_inside hbefore (by simp [isTagBlank]) hinside
    | @closeIf before after hbefore hafter =>
      refine ⟨_, _, rfl, next_of_tag? ?_⟩
      have hinside : tagInside? ('/' :: 'i' :: 'f' :: (after ++ '}' :: '}' :: rest)) =
          some (⟨.closeIf, '/' :: 'i' :: 'f' :: (after ++ ['}', '}'])⟩, rest) := by
        simp [tagInside?, endTag?, tagEnd?_blanks hafter]
      simpa using tag?_of_inside hbefore (by simp [isTagBlank]) hinside
    | @elseMark before after hbefore hafter =>
      refine ⟨_, _, rfl, next_of_tag? ?_⟩
      have hname : IsName ['e', 'l', 's', 'e'] := by
        rw [← isNameList_iff]
        decide
      simpa using tag?_of_name hbefore hname hafter rest
    | @interp before name after hbefore hname helse hafter =>
      refine ⟨_, _, rfl, next_of_tag? ?_⟩
      simpa [helse] using tag?_of_name hbefore hname hafter rest
    | text hne hplain =>
      cases chars with
      | nil => exact absurd rfl hne
      | cons c cs =>
        rw [List.mem_cons, not_or] at hplain
        have hrun : ∀ d ∈ cs, isPlain d = true := by
          intro d hd
          simp only [isPlain, bne_iff_ne]
          rintro rfl
          exact hplain.2 hd
        have hstop : ∀ d ∈ rest.head?, isPlain d = false := by
          intro d hd
          simp [isPlain, hfits d hd]
        refine ⟨c, cs ++ rest, rfl, ?_⟩
        unfold next
        rw [if_neg (Ne.symm hplain.1), takeWhile_run hrun hstop, dropWhile_run hrun hstop]
    | brace =>
      refine ⟨'{', rest, rfl, ?_⟩
      cases rest with
      | nil => rfl
      | cons c rest =>
        have hc : c ≠ '{' := hfits c rfl
        simp [next, hc]
  obtain ⟨c, cs, htext, hnext⟩ := hnext
  rw [htext, Template.pieces, hnext]

theorem Token.Spelled.head {token : Token} {chars : List Char} (h : token.Spelled chars) :
    ∃ c cs, chars = c :: cs ∧ (token.isText = true ↔ c ≠ '{') := by
  cases h with
  | text hne hplain =>
    cases chars with
    | nil => exact absurd rfl hne
    | cons c cs =>
      rw [List.mem_cons, not_or] at hplain
      exact ⟨c, cs, rfl, by simp [Token.isText, Ne.symm hplain.1]⟩
  | _ => exact ⟨'{', _, rfl, by simp [Token.isText]⟩

theorem Follows.fits {a b : Token} {chars : List Char} (h : Follows a b) (hb : b.Spelled chars)
    (rest : List Char) : a.Fits (chars ++ rest) := by
  obtain ⟨c, cs, rfl, hc⟩ := hb.head
  cases a with
  | text content =>
    have hb := h.1 rfl
    simpa [Token.Fits, hb] using hc
  | brace =>
    have hb := h.2 rfl
    simpa [Token.Fits, hb] using hc
  | openIf | elseMark | closeIf | interp | openTag => trivial

/-- Tokens that are written out one after the other, and may stand so, are found
again. -/
theorem pieces_flatMap {ps : List Piece} (hspelled : ∀ p ∈ ps, p.token.Spelled p.chars)
    (hchain : (ps.map (·.token)).IsChain Follows) : pieces (ps.flatMap (·.chars)) = ps := by
  induction ps with
  | nil => rw [List.flatMap_nil, pieces]
  | cons p ps ih =>
    rw [List.forall_mem_cons] at hspelled
    have hfits : p.token.Fits (ps.flatMap (·.chars)) := by
      cases ps with
      | nil => cases htoken : p.token <;> simp [Token.Fits]
      | cons q ps =>
        rw [List.map_cons, List.map_cons, List.isChain_cons_cons] at hchain
        rw [List.flatMap_cons]
        exact hchain.1.fits (hspelled.2 q List.mem_cons_self) _
    rw [List.flatMap_cons, hspelled.1.pieces hfits, ih hspelled.2 hchain.tail]

/-! ## The tokens of a text -/

theorem wordTag?_some {cs rest : List Char} {piece : Piece}
    (h : wordTag? cs = some (piece, rest)) :
    ∃ name after, IsName name ∧ Blanks after ∧
      piece = ⟨if name = ['e', 'l', 's', 'e'] then .elseMark else .interp (String.ofList name),
        name ++ (after ++ ['}', '}'])⟩ := by
  simp only [wordTag?, Option.bind_eq_bind, Option.bind_eq_some_iff, Prod.exists,
    Option.pure_def, Option.some.injEq, Prod.mk.injEq] at h
  obtain ⟨name, afterName, hname, close, r, hend, rfl, rfl⟩ := h
  obtain ⟨after, hafter, rfl⟩ := tagEnd?_some hend
  exact ⟨name, after, tagName?_some hname, hafter, rfl⟩

theorem ifTag?_some {cs rest : List Char} {piece : Piece} (h : ifTag? cs = some (piece, rest)) :
    ∃ between name after, Blanks between ∧ between ≠ [] ∧ IsName name ∧ Blanks after ∧
      piece = ⟨.openIf (String.ofList name),
        '#' :: 'i' :: 'f' :: (between ++ (name ++ (after ++ ['}', '}'])))⟩ := by
  simp only [ifTag?] at h
  split at h
  · cases h
  · next hne =>
    simp only [Option.bind_eq_bind, Option.bind_eq_some_iff, Prod.exists, Option.pure_def,
      Option.some.injEq, Prod.mk.injEq] at h
    obtain ⟨name, afterName, hname, close, r, hend, rfl, rfl⟩ := h
    obtain ⟨after, hafter, rfl⟩ := tagEnd?_some hend
    have hbetween : Blanks (cs.takeWhile isTagBlank) := fun c hc => List.mem_takeWhile_imp hc
    exact ⟨_, name, after, hbetween, by simpa using hne, tagName?_some hname, hafter,
      by rw [List.append_assoc]⟩

theorem endTag?_some {cs rest : List Char} {piece : Piece}
    (h : endTag? cs = some (piece, rest)) :
    ∃ after, Blanks after ∧ piece = ⟨.closeIf, '/' :: 'i' :: 'f' :: (after ++ ['}', '}'])⟩ := by
  simp only [endTag?, Option.bind_eq_bind, Option.bind_eq_some_iff, Prod.exists,
    Option.pure_def, Option.some.injEq, Prod.mk.injEq] at h
  obtain ⟨close, r, hend, rfl, rfl⟩ := h
  obtain ⟨after, hafter, rfl⟩ := tagEnd?_some hend
  exact ⟨after, hafter, rfl⟩

theorem tag?_spelled {cs rest : List Char} {piece : Piece} (h : tag? cs = some (piece, rest)) :
    piece.token.Spelled piece.chars ∧ piece.token.isText = false ∧ piece.token ≠ .brace := by
  simp only [tag?, Option.bind_eq_bind, Option.bind_eq_some_iff, Prod.exists,
    Option.pure_def, Option.some.injEq, Prod.mk.injEq] at h
  obtain ⟨inner, r, hinner, rfl, rfl⟩ := h
  have hbefore : Blanks (cs.takeWhile isTagBlank) := fun c hc => List.mem_takeWhile_imp hc
  unfold tagInside? at hinner
  split at hinner
  · obtain ⟨between, name, after, hbetween, hne, hname, hafter, rfl⟩ := ifTag?_some hinner
    exact ⟨.openIf hbefore hbetween hne hname hafter, rfl, by simp⟩
  · obtain ⟨after, hafter, rfl⟩ := endTag?_some hinner
    exact ⟨.closeIf hbefore hafter, rfl, by simp⟩
  · obtain ⟨name, after, hname, hafter, rfl⟩ := wordTag?_some hinner
    simp only
    split
    · next helse =>
      subst helse
      exact ⟨.elseMark hbefore hafter, rfl, by simp⟩
    · next helse => exact ⟨.interp hbefore hname helse hafter, rfl, by simp⟩

theorem Token.fits_of_tag {token : Token} (htext : token.isText = false) (hbrace : token ≠ .brace)
    (rest : List Char) : token.Fits rest := by
  cases token with
  | text content => cases htext
  | brace => exact absurd rfl hbrace
  | openIf | elseMark | closeIf | interp | openTag => trivial

/-- The first token of a text is an open tag or written out, and fits what
follows. It is a text exactly if it begins with another character than a brace. -/
theorem next_spec (c : Char) (cs : List Char) :
    ((next c cs).1.token = .openTag ∨ (next c cs).1.token.Spelled (next c cs).1.chars) ∧
      (next c cs).1.token.Fits (next c cs).2 ∧
      ((next c cs).1.token.isText = true ↔ c ≠ '{') := by
  unfold next
  split
  · next hc =>
    subst hc
    split
    · next inner =>
      split
      · next found hfound =>
        obtain ⟨hspelled, htext, hbrace⟩ := tag?_spelled hfound
        exact ⟨.inr hspelled, Token.fits_of_tag htext hbrace _, by simp [htext]⟩
      · exact ⟨.inl rfl, trivial, by simp [Token.isText]⟩
    · next hsingle =>
      refine ⟨.inr .brace, ?_, by simp [Token.isText]⟩
      intro d hd hbrace
      subst hbrace
      exact hsingle cs.tail (List.eq_cons_of_mem_head? hd)
  · next hc =>
    refine ⟨.inr (.text (List.cons_ne_nil _ _) ?_), ?_, by simp [Token.isText, hc]⟩
    · intro hmem
      rcases List.mem_cons.mp hmem with heq | hmem
      · exact hc heq.symm
      · have hplain := List.mem_takeWhile_imp hmem
        simp [isPlain] at hplain
    · intro d hd
      have hplain := head?_dropWhile isPlain cs d hd
      simpa [isPlain] using hplain

theorem spelled_of_mem_pieces {cs : List Char} {p : Piece} (hp : p ∈ pieces cs)
    (htag : p.token ≠ .openTag) : p.token.Spelled p.chars := by
  fun_induction pieces cs with
  | case1 => cases hp
  | case2 c cs ih =>
    rcases List.mem_cons.mp hp with rfl | hp
    · exact (next_spec c cs).1.resolve_left htag
    · exact ih hp

theorem Token.Fits.follows {a b : Token} {c : Char} {cs : List Char} (h : a.Fits (c :: cs))
    (hb : b.isText = true ↔ c ≠ '{') : Follows a b := by
  constructor
  · intro ha
    cases a <;> simp_all [Token.isText, Token.Fits]
  · rintro rfl
    exact hb.mpr (h c rfl)

theorem pieces_isChain (cs : List Char) : ((pieces cs).map (·.token)).IsChain Follows := by
  fun_induction pieces cs with
  | case1 => simp
  | case2 c cs ih =>
    have hfits := (next_spec c cs).2.1
    rw [List.map_cons, List.isChain_cons]
    refine ⟨?_, ih⟩
    intro b hb
    cases hrest : (next c cs).2 with
    | nil => simp [hrest, pieces] at hb
    | cons d ds =>
      rw [hrest] at hfits hb
      rw [pieces] at hb
      cases hb
      exact hfits.follows (next_spec d ds).2.2

end ShaderGraph.Template
