import ShaderGraph.Proofs.Grammar
import ShaderGraph.Proofs.Placement

/-!
# Printing templates

`Template.print` writes a template as text. Parsing undoes it, up to the ranges of
tags, on the templates that are `Normal`, and these are the templates that texts
have.

* **texts have normal templates** — what the cut of a text says about neighbours
  comes down to the lists of segments (`normal_of_chain`);
* **normal templates are found again** — their tokens may stand side by side
  (`isChain_piecesOf`), so the text is cut into just these, and tokens fix the
  template up to ranges (`exists_derivation`).
-/

namespace ShaderGraph.Template

/-! ## Text of a template -/

mutual

/-- The text of a segment. An `else` is written only for a branch that is not
empty. -/
def Segment.print : Segment → String
  | .text content => content
  | .interp name _ => "\x7b\x7b" ++ name ++ "\x7d\x7d"
  | .cond name _ thenPart elsePart =>
    "\x7b\x7b#if " ++ name ++ "\x7d\x7d" ++ printAll thenPart
      ++ (if elsePart.isEmpty then "" else "\x7b\x7belse\x7d\x7d" ++ printAll elsePart)
      ++ "\x7b\x7b/if\x7d\x7d"

/-- The text of segments one after the other. -/
def printAll : List Segment → String
  | [] => ""
  | s :: rest => s.print ++ printAll rest

end

/-- The text of a template. -/
def print (t : Template) : String := printAll t.segments

mutual

/-- A segment without its ranges. -/
def Segment.bare : Segment → Segment
  | .text content => .text content
  | .interp name _ => .interp name ⟨0, 0⟩
  | .cond name _ thenPart elsePart => .cond name ⟨0, 0⟩ (bareAll thenPart) (bareAll elsePart)

def bareAll : List Segment → List Segment
  | [] => []
  | s :: rest => s.bare :: bareAll rest

end

/-- A template without its ranges. -/
def bare (t : Template) : Template := ⟨bareAll t.segments⟩

/-! ## Normal templates -/

/-- A text that is a single brace. -/
def Segment.isBrace : Segment → Bool
  | .text content => content == "\x7b"
  | _ => false

/-- A text that is not a single brace. -/
def Segment.isPlain : Segment → Bool
  | .text content => content != "\x7b"
  | _ => false

/-- Which segment can stand behind which: no plain text behind a plain text, and
only plain text behind a brace. -/
def Segment.Precedes (a b : Segment) : Prop :=
  (a.isPlain = true → b.isPlain = false) ∧ (a.isBrace = true → b.isPlain = true)

def endsInBrace (segments : List Segment) : Bool := segments.getLast?.any Segment.isBrace

mutual

/-- A segment with names for names and texts that a text can be cut into, at any
depth. A branch does not end in a brace. -/
def Segment.Normal : Segment → Prop
  | .text content => content = "\x7b" ∨ (content ≠ "" ∧ '{' ∉ content.toList)
  | .interp name _ => IsName name.toList ∧ name ≠ "else"
  | .cond name _ thenPart elsePart => IsName name.toList ∧
      (AllNormal thenPart ∧ thenPart.IsChain Segment.Precedes ∧ endsInBrace thenPart = false) ∧
      (AllNormal elsePart ∧ elsePart.IsChain Segment.Precedes ∧ endsInBrace elsePart = false)

def AllNormal : List Segment → Prop
  | [] => True
  | s :: rest => s.Normal ∧ AllNormal rest

end

/-- Normal segments in an order that can come about. -/
def Normal (t : Template) : Prop := AllNormal t.segments ∧ t.segments.IsChain Segment.Precedes

/-! ## Texts have normal templates -/

/-- The token can be written. -/
def Token.Writable (token : Token) : Prop := ∃ chars, token.Spelled chars

theorem Token.Writable.text {content : String} (h : (Token.text content).Writable) :
    content ≠ "" ∧ '{' ∉ content.toList := by
  obtain ⟨chars, h⟩ := h
  cases h with
  | text hne hplain => simpa using And.intro hne hplain

theorem Token.Writable.interp {name : String} (h : (Token.interp name).Writable) :
    IsName name.toList ∧ name ≠ "else" := by
  obtain ⟨chars, h⟩ := h
  cases h with
  | @interp before name after hbefore hname helse hafter =>
    refine ⟨by simpa using hname, ?_⟩
    intro heq
    exact helse (by simpa using congrArg String.toList heq)

theorem Token.Writable.openIf {name : String} (h : (Token.openIf name).Writable) :
    IsName name.toList := by
  obtain ⟨chars, h⟩ := h
  cases h with
  | openIf _ _ _ hname _ => simpa using hname

theorem Token.Writable.isPlain {content : String} (h : (Token.text content).Writable) :
    (Segment.text content).isPlain = true := by
  have hplain := h.text.2
  simp only [Segment.isPlain, bne_iff_ne]
  rintro rfl
  exact hplain (by decide)

section Chains

variable {ds : List Derivation}

theorem Derivation.first {d : Derivation} (h : ∀ l ∈ d.lexemes, l.token.Writable) :
    ∃ l ls, d.lexemes = l :: ls ∧ l.token.isText = d.segment.isPlain := by
  cases d with
  | text content span =>
    have hplain := (h _ List.mem_cons_self).isPlain
    exact ⟨_, _, rfl, hplain.symm⟩
  | brace | interp | cond | condElse => exact ⟨_, _, rfl, rfl⟩

theorem Derivation.last {d : Derivation} (h : ∀ l ∈ d.lexemes, l.token.Writable) :
    ∃ ls l, d.lexemes = ls ++ [l] ∧ l.token.isText = d.segment.isPlain ∧
      (d.segment.isBrace = true → l.token = .brace) := by
  cases d with
  | text content span =>
    have hplain := (h _ List.mem_cons_self).isPlain
    refine ⟨[], _, rfl, hplain.symm, ?_⟩
    intro hbrace
    simp_all [Derivation.segment, Segment.isPlain, Segment.isBrace]
  | brace => exact ⟨[], _, rfl, rfl, fun _ => rfl⟩
  | interp => exact ⟨[], _, rfl, rfl, nofun⟩
  | cond name opening thenPart closing => exact ⟨_ :: _, _, rfl, rfl, nofun⟩
  | condElse name opening thenPart middle elsePart closing =>
    refine ⟨(Token.openIf name).over opening :: (lexemesOf thenPart ++
      Token.elseMark.over middle :: lexemesOf elsePart), Token.closeIf.over closing, ?_, rfl, nofun⟩
    simp [Derivation.lexemes]

theorem isChain_segmentsOf (hwritable : ∀ l ∈ lexemesOf ds, l.token.Writable)
    (hchain : (lexemesOf ds).IsChain Lexeme.Precedes) :
    (segmentsOf ds).IsChain Segment.Precedes := by
  induction ds with
  | nil => simp [segmentsOf]
  | cons d ds ih =>
    rw [lexemesOf, List.forall_mem_append] at hwritable
    rw [lexemesOf] at hchain
    rw [segmentsOf, List.isChain_cons]
    refine ⟨?_, ih hwritable.2 hchain.right_of_append⟩
    cases ds with
    | nil => simp [segmentsOf]
    | cons e ds =>
      intro s hs
      cases hs
      rw [lexemesOf, List.forall_mem_append] at hwritable
      obtain ⟨ls, l, hd, hplain, hbrace⟩ := Derivation.last hwritable.1
      obtain ⟨l', ls', he, hplain'⟩ := Derivation.first hwritable.2.1
      -- the last token of one segment stands right before the first of the next
      have hfollows : Follows l.token l'.token :=
        (List.isChain_append.mp hchain).2.2 l (by simp [hd]) l' (by simp [lexemesOf, he])
      rw [Segment.Precedes, ← hplain, ← hplain']
      exact ⟨hfollows.1, fun h => hfollows.2 (hbrace h)⟩

theorem endsInBrace_segmentsOf {l : Lexeme} {rest : List Lexeme} (hl : l.token.isText = false)
    (hwritable : ∀ l ∈ lexemesOf ds, l.token.Writable)
    (hchain : (lexemesOf ds ++ l :: rest).IsChain Lexeme.Precedes) :
    endsInBrace (segmentsOf ds) = false := by
  rcases List.eq_nil_or_concat' ds with rfl | ⟨ds, d, rfl⟩
  · rfl
  · rw [lexemesOf_append, lexemesOf_singleton, List.forall_mem_append] at hwritable
    obtain ⟨ls, last, hd, -, hbrace⟩ := Derivation.last hwritable.2
    have hfollows : Follows last.token l.token :=
      (List.isChain_append.mp hchain).2.2 last (by simp [hd]) l rfl
    cases hends : d.segment.isBrace with
    | false => simp [endsInBrace, hends]
    | true =>
      have htext := hfollows.2 (hbrace hends)
      rw [hl] at htext
      cases htext

end Chains

/-- A branch, which some tag ends. -/
theorem branch_of_chain {ds : List Derivation} {l : Lexeme} {rest : List Lexeme}
    (hnormal : AllNormal (segmentsOf ds)) (hl : l.token.isText = false)
    (hwritable : ∀ l ∈ lexemesOf ds, l.token.Writable)
    (hchain : (lexemesOf ds ++ l :: rest).IsChain Lexeme.Precedes) :
    AllNormal (segmentsOf ds) ∧ (segmentsOf ds).IsChain Segment.Precedes ∧
      endsInBrace (segmentsOf ds) = false :=
  ⟨hnormal, isChain_segmentsOf hwritable hchain.left_of_append,
    endsInBrace_segmentsOf hl hwritable hchain⟩

mutual

theorem Derivation.normal_of_chain (d : Derivation) (hwritable : ∀ l ∈ d.lexemes, l.token.Writable)
    (hchain : d.lexemes.IsChain Lexeme.Precedes) : d.segment.Normal := by
  cases d with
  | text content span =>
    rw [Derivation.segment, Segment.Normal]
    exact .inr (hwritable _ List.mem_cons_self).text
  | brace span =>
    rw [Derivation.segment, Segment.Normal]
    exact .inl rfl
  | interp name span =>
    rw [Derivation.segment, Segment.Normal]
    exact (hwritable _ List.mem_cons_self).interp
  | cond name opening thenPart closing =>
    rw [Derivation.lexemes] at hwritable hchain
    rw [List.forall_mem_cons, List.forall_mem_append] at hwritable
    obtain ⟨hname, hthen, -⟩ := hwritable
    have hbranch := hchain.tail
    have hnormal := normal_of_chain thenPart hthen hbranch.left_of_append
    rw [Derivation.segment, Segment.Normal]
    refine ⟨hname.openIf, branch_of_chain hnormal rfl hthen hbranch, ?_, by simp, rfl⟩
    rw [AllNormal]
    trivial
  | condElse name opening thenPart middle elsePart closing =>
    rw [Derivation.lexemes] at hwritable hchain
    rw [List.forall_mem_cons, List.forall_mem_append, List.forall_mem_cons,
      List.forall_mem_append] at hwritable
    obtain ⟨hname, hthen, -, helse, -⟩ := hwritable
    have hbranch := hchain.tail
    have hbranch' := hbranch.right_of_append.tail
    have hnormal := normal_of_chain thenPart hthen hbranch.left_of_append
    have hnormal' := normal_of_chain elsePart helse hbranch'.left_of_append
    rw [Derivation.segment, Segment.Normal]
    exact ⟨hname.openIf, branch_of_chain hnormal rfl hthen hbranch,
      branch_of_chain hnormal' rfl helse hbranch'⟩

/-- Tokens that can be written and stand side by side are those of normal
segments. -/
theorem normal_of_chain (ds : List Derivation) (hwritable : ∀ l ∈ lexemesOf ds, l.token.Writable)
    (hchain : (lexemesOf ds).IsChain Lexeme.Precedes) : AllNormal (segmentsOf ds) := by
  cases ds with
  | nil => rw [segmentsOf, AllNormal]; trivial
  | cons d ds =>
    rw [lexemesOf] at hwritable hchain
    rw [List.forall_mem_append] at hwritable
    rw [segmentsOf, AllNormal]
    exact ⟨d.normal_of_chain hwritable.1 hchain.left_of_append,
      normal_of_chain ds hwritable.2 hchain.right_of_append⟩

end

/-! ## Tokens of a template -/

/-- A tag without blanks around its word. -/
def tagPiece (token : Token) (word : List Char) : Piece :=
  ⟨token, '{' :: '{' :: (word ++ ['}', '}'])⟩

mutual

/-- The tokens that a segment is printed with. -/
def Segment.pieces : Segment → List Piece
  | .text content => [⟨if content = "\x7b" then .brace else .text content, content.toList⟩]
  | .interp name _ => [tagPiece (.interp name) name.toList]
  | .cond name _ thenPart elsePart =>
    tagPiece (.openIf name) ('#' :: 'i' :: 'f' :: ' ' :: name.toList) :: (piecesOf thenPart ++
      ((if elsePart.isEmpty then []
        else tagPiece .elseMark ['e', 'l', 's', 'e'] :: piecesOf elsePart) ++
        [tagPiece .closeIf ['/', 'i', 'f']]))

def piecesOf : List Segment → List Piece
  | [] => []
  | s :: rest => s.pieces ++ piecesOf rest

end

theorem piecesOf_append (xs ys : List Segment) :
    piecesOf (xs ++ ys) = piecesOf xs ++ piecesOf ys := by
  induction xs with
  | nil => simp [piecesOf]
  | cons x xs ih => simp [piecesOf, ih]

mutual

theorem Segment.toList_print (s : Segment) : s.print.toList = s.pieces.flatMap (·.chars) := by
  cases s with
  | text content => simp [Segment.print, Segment.pieces]
  | interp name span => simp [Segment.print, Segment.pieces, tagPiece]
  | cond name span thenPart elsePart =>
    have hthen := toList_printAll thenPart
    have helse := toList_printAll elsePart
    cases elsePart with
    | nil => simp [Segment.print, Segment.pieces, tagPiece, hthen]
    | cons s rest => simp [Segment.print, Segment.pieces, tagPiece, hthen, helse]

theorem toList_printAll (segments : List Segment) :
    (printAll segments).toList = (piecesOf segments).flatMap (·.chars) := by
  cases segments with
  | nil => simp [printAll, piecesOf]
  | cons s rest => simp [printAll, piecesOf, s.toList_print, toList_printAll rest]

end

mutual

theorem Segment.spelled_pieces (s : Segment) (h : s.Normal) :
    ∀ p ∈ s.pieces, p.token.Spelled p.chars := by
  have hnone : Blanks [] := by simp [Blanks]
  cases s with
  | text content =>
    rw [Segment.Normal] at h
    intro p hp
    cases List.mem_singleton.mp hp
    by_cases hbrace : content = "\x7b"
    · subst hbrace
      exact .brace
    · obtain ⟨hne, hplain⟩ := h.resolve_left hbrace
      have hspelled := Token.Spelled.text (by simpa using hne) hplain
      simpa [hbrace] using hspelled
  | interp name span =>
    rw [Segment.Normal] at h
    intro p hp
    cases List.mem_singleton.mp hp
    have helse : name.toList ≠ ['e', 'l', 's', 'e'] := by
      intro heq
      exact h.2 (String.toList_inj.mp heq)
    have hspelled := Token.Spelled.interp hnone h.1 helse hnone
    simpa [tagPiece] using hspelled
  | cond name span thenPart elsePart =>
    rw [Segment.Normal] at h
    obtain ⟨hname, ⟨hthen, -⟩, ⟨helse, -⟩⟩ := h
    have hspace : Blanks [' '] := by simp [Blanks, isTagBlank]
    have hopen := Token.Spelled.openIf hnone hspace (by simp) hname hnone
    have helseMark := Token.Spelled.elseMark hnone hnone
    have hclose := Token.Spelled.closeIf hnone hnone
    rw [Segment.pieces, List.forall_mem_cons, List.forall_mem_append, List.forall_mem_append,
      List.forall_mem_singleton]
    refine ⟨by simpa [tagPiece] using hopen, spelled_piecesOf thenPart hthen, ?_,
      by simpa [tagPiece] using hclose⟩
    split
    · simp
    · rw [List.forall_mem_cons]
      exact ⟨by simpa [tagPiece] using helseMark, spelled_piecesOf elsePart helse⟩

theorem spelled_piecesOf (segments : List Segment) (h : AllNormal segments) :
    ∀ p ∈ piecesOf segments, p.token.Spelled p.chars := by
  cases segments with
  | nil => simp [piecesOf]
  | cons s rest =>
    rw [AllNormal] at h
    rw [piecesOf, List.forall_mem_append]
    exact ⟨s.spelled_pieces h.1, spelled_piecesOf rest h.2⟩

end

/-! ## Neighbours in a template -/

def Piece.Precedes (a b : Piece) : Prop := Follows a.token b.token

theorem Segment.first (s : Segment) :
    ∃ p ps, s.pieces = p :: ps ∧ p.token.isText = s.isPlain := by
  cases s with
  | text content =>
    refine ⟨_, _, rfl, ?_⟩
    by_cases hbrace : content = "\x7b"
    · simp [hbrace, Token.isText, Segment.isPlain]
    · simp [hbrace, Token.isText, Segment.isPlain]
  | interp | cond => exact ⟨_, _, rfl, rfl⟩

theorem Segment.last (s : Segment) :
    ∃ ps p, s.pieces = ps ++ [p] ∧ p.token.isText = s.isPlain ∧
      (p.token = .brace ↔ s.isBrace = true) := by
  cases s with
  | text content =>
    refine ⟨[], _, rfl, ?_⟩
    by_cases hbrace : content = "\x7b"
    · simp [hbrace, Token.isText, Segment.isPlain, Segment.isBrace]
    · simp [hbrace, Token.isText, Segment.isPlain, Segment.isBrace]
  | interp name span => exact ⟨[], _, rfl, rfl, by simp [tagPiece, Segment.isBrace]⟩
  | cond name span thenPart elsePart =>
    obtain ⟨ps, hpieces⟩ : ∃ ps, (Segment.cond name span thenPart elsePart).pieces =
        ps ++ [tagPiece .closeIf ['/', 'i', 'f']] := by
      rw [Segment.pieces, ← List.append_assoc, ← List.cons_append]
      exact ⟨_, rfl⟩
    exact ⟨ps, _, hpieces, rfl, by simp [tagPiece, Segment.isBrace]⟩

theorem isChain_branch {segments : List Segment} {p : Piece} {rest : List Piece}
    (hchain : (piecesOf segments).IsChain Piece.Precedes) (hends : endsInBrace segments = false)
    (hp : p.token.isText = false) (hrest : (p :: rest).IsChain Piece.Precedes) :
    (piecesOf segments ++ p :: rest).IsChain Piece.Precedes := by
  refine hchain.append hrest ?_
  intro q hq p' hp'
  cases hp'
  refine ⟨fun _ => hp, ?_⟩
  intro hbrace
  rcases List.eq_nil_or_concat' segments with rfl | ⟨segments, s, rfl⟩
  · simp [piecesOf] at hq
  · obtain ⟨ps, last, hs, -, hlast⟩ := s.last
    have hq' : q = last := by simpa [piecesOf_append, piecesOf, hs] using hq.symm
    have hs := hlast.mp (hq' ▸ hbrace)
    simp [endsInBrace, hs] at hends

mutual

theorem Segment.isChain_pieces (s : Segment) (h : s.Normal) :
    s.pieces.IsChain Piece.Precedes := by
  cases s with
  | text content => simp [Segment.pieces]
  | interp name span => simp [Segment.pieces]
  | cond name span thenPart elsePart =>
    rw [Segment.Normal] at h
    obtain ⟨-, ⟨hthen, hthenChain, hthenEnds⟩, ⟨helse, helseChain, helseEnds⟩⟩ := h
    have hclose : [tagPiece .closeIf ['/', 'i', 'f']].IsChain Piece.Precedes := by simp
    have hthenPieces := isChain_piecesOf thenPart hthen hthenChain
    have helsePieces := isChain_branch (isChain_piecesOf elsePart helse helseChain) helseEnds rfl
      hclose
    -- behind a tag anything can stand
    have htag : ∀ {p : Piece} {ps : List Piece}, p.token.isText = false → p.token ≠ .brace →
        ps.IsChain Piece.Precedes → (p :: ps).IsChain Piece.Precedes := by
      intro p ps htext hbrace hps
      refine hps.cons ?_
      intro q _
      exact ⟨fun h => absurd h (by simp [htext]), fun h => absurd h hbrace⟩
    rw [Segment.pieces]
    refine htag rfl nofun ?_
    split
    · exact isChain_branch hthenPieces hthenEnds rfl hclose
    · exact isChain_branch hthenPieces hthenEnds rfl (htag rfl nofun helsePieces)

/-- The tokens of normal segments may stand side by side. -/
theorem isChain_piecesOf (segments : List Segment) (h : AllNormal segments)
    (hchain : segments.IsChain Segment.Precedes) :
    (piecesOf segments).IsChain Piece.Precedes := by
  cases segments with
  | nil => simp [piecesOf]
  | cons s rest =>
    rw [AllNormal] at h
    rw [List.isChain_cons] at hchain
    rw [piecesOf]
    refine (s.isChain_pieces h.1).append (isChain_piecesOf rest h.2 hchain.2) ?_
    intro p hp q hq
    obtain ⟨ps, last, hs, hplain, hbrace⟩ := s.last
    have hp' : last = p := by simpa [hs] using hp
    subst hp'
    cases rest with
    | nil => simp [piecesOf] at hq
    | cons s' rest =>
      obtain ⟨first, ps', hs', hplain'⟩ := s'.first
      have hq' : first = q := by simpa [piecesOf, hs'] using hq
      subst hq'
      have hprecedes := hchain.1 s' rfl
      rw [Segment.Precedes, ← hplain, ← hplain', ← hbrace] at hprecedes
      exact hprecedes

end

/-! ## Derivations of a template -/

mutual

theorem Segment.exists_derivation (s : Segment) {ls : List Lexeme}
    (h : ls.map (·.token) = s.pieces.map (·.token)) :
    ∃ d : Derivation, d.lexemes = ls ∧ d.segment.bare = s.bare := by
  cases s with
  | text content =>
    obtain ⟨l, rfl, hl⟩ : ∃ l, ls = [l] ∧
        l.token = if content = "\x7b" then .brace else .text content := by
      simpa [Segment.pieces, List.map_eq_singleton_iff] using h
    split at hl
    · next hbrace =>
      subst hbrace
      exact ⟨.brace ⟨l.start, l.stop⟩, by rw [Derivation.lexemes, Token.over_eq hl], rfl⟩
    · exact ⟨.text content ⟨l.start, l.stop⟩, by rw [Derivation.lexemes, Token.over_eq hl], rfl⟩
  | interp name span =>
    obtain ⟨l, rfl, hl⟩ : ∃ l, ls = [l] ∧ l.token = .interp name := by
      simpa [Segment.pieces, tagPiece, List.map_eq_singleton_iff] using h
    exact ⟨.interp name ⟨l.start, l.stop⟩, by rw [Derivation.lexemes, Token.over_eq hl], rfl⟩
  | cond name span thenPart elsePart =>
    simp only [Segment.pieces, tagPiece, List.map_cons, List.map_append, List.map_nil,
      List.map_eq_cons_iff, List.map_eq_append_iff] at h
    obtain ⟨opening, _, rfl, hopening, ls₁, _, rfl, hthen, ls₂, _, rfl, helse, closing, _, rfl,
      hclosing, hnil⟩ := h
    rw [List.map_eq_nil_iff] at hnil
    subst hnil
    obtain ⟨ds, rfl, hds⟩ := exists_derivations thenPart hthen
    cases elsePart with
    | nil =>
      simp only [List.isEmpty_nil, if_true, List.map_nil, List.map_eq_nil_iff] at helse
      subst helse
      refine ⟨.cond name ⟨opening.start, opening.stop⟩ ds ⟨closing.start, closing.stop⟩, ?_, ?_⟩
      · rw [Derivation.lexemes, Token.over_eq hopening, Token.over_eq hclosing, List.nil_append]
      · simp [Derivation.segment, Segment.bare, hds]
    | cons s rest =>
      simp only [List.isEmpty_cons, Bool.false_eq_true, if_false, List.map_cons,
        List.map_eq_cons_iff] at helse
      obtain ⟨middle, ls₃, rfl, hmiddle, helse⟩ := helse
      obtain ⟨es, rfl, hes⟩ := exists_derivations (s :: rest) helse
      refine ⟨.condElse name ⟨opening.start, opening.stop⟩ ds ⟨middle.start, middle.stop⟩ es
        ⟨closing.start, closing.stop⟩, ?_, ?_⟩
      · rw [Derivation.lexemes, Token.over_eq hopening, Token.over_eq hmiddle,
          Token.over_eq hclosing, List.cons_append]
      · simp [Derivation.segment, Segment.bare, hds, hes]

/-- Tokens fix the segments up to ranges. -/
theorem exists_derivations (segments : List Segment) {ls : List Lexeme}
    (h : ls.map (·.token) = (piecesOf segments).map (·.token)) :
    ∃ ds, lexemesOf ds = ls ∧ bareAll (segmentsOf ds) = bareAll segments := by
  cases segments with
  | nil =>
    rw [piecesOf, List.map_nil, List.map_eq_nil_iff] at h
    exact ⟨[], by rw [h, lexemesOf], rfl⟩
  | cons s rest =>
    rw [piecesOf, List.map_append, List.map_eq_append_iff] at h
    obtain ⟨ls₁, ls₂, rfl, h₁, h₂⟩ := h
    obtain ⟨d, hd, hbare⟩ := s.exists_derivation h₁
    obtain ⟨ds, hds, hbares⟩ := exists_derivations rest h₂
    exact ⟨d :: ds, by rw [lexemesOf, hd, hds], by rw [segmentsOf, bareAll, bareAll, hbare, hbares]⟩

end

/-! ## Templates -/

theorem writable_of_mem_lex {source : String} {l : Lexeme} (h : l ∈ lex source)
    (htag : l.token ≠ .openTag) : l.token.Writable := by
  have hmem : l.token ∈ (lex source).map (·.token) := List.mem_map_of_mem h
  rw [lex, map_token_place] at hmem
  obtain ⟨p, hp, heq⟩ := List.mem_map.mp hmem
  rw [← heq] at htag ⊢
  exact ⟨p.chars, spelled_of_mem_pieces hp htag⟩

theorem normal_of_compile {source : String} {t : Template} (h : compile source = .ok t) :
    t.Normal := by
  obtain ⟨block, hblock, rfl⟩ := (compile_ok_iff source t).mp h
  have hnested := (derivable_iff_nested _).mp ⟨block, hblock⟩
  have hwritable : ∀ l ∈ lexemesOf block, l.token.Writable := by
    intro l hl
    rw [hblock] at hl
    exact writable_of_mem_lex hl (hnested.noOpenTag l hl)
  have hchain : (lexemesOf block).IsChain Lexeme.Precedes := hblock ▸ lex_isChain source
  exact ⟨normal_of_chain block hwritable hchain, isChain_segmentsOf hwritable hchain⟩

theorem compile_print_of_normal {t : Template} (h : t.Normal) :
    ∃ t', compile t.print = .ok t' ∧ t'.bare = t.bare := by
  have hchain : ((piecesOf t.segments).map (·.token)).IsChain Follows := by
    rw [List.isChain_map]
    exact isChain_piecesOf t.segments h.1 h.2
  have hpieces : pieces t.print.toList = piecesOf t.segments := by
    rw [print, toList_printAll]
    exact pieces_flatMap (spelled_piecesOf t.segments h.1) hchain
  have htokens : (lex t.print).map (·.token) = (piecesOf t.segments).map (·.token) := by
    rw [lex, map_token_place, hpieces]
  obtain ⟨block, hblock, hbare⟩ := exists_derivations t.segments htokens
  refine ⟨⟨segmentsOf block⟩, (compile_ok_iff t.print _).mpr ⟨block, hblock, rfl⟩, ?_⟩
  rw [bare, bare, hbare]

/-- Parsing undoes printing on exactly the templates that texts have: the template
of a text is normal, and a normal template is the template of its printed text, up
to the ranges of its tags. -/
theorem compile_print :
    (∀ source t, compile source = .ok t → t.Normal) ∧
    (∀ t : Template, t.Normal → ∃ t', compile t.print = .ok t' ∧ t'.bare = t.bare) := by
  constructor
  · intro source t h
    exact normal_of_compile h
  · intro t h
    exact compile_print_of_normal h

/-- A template with braces at the beginning of a branch and at its very end. -/
def bracedTemplate : Template :=
  ⟨[.text "o = ", .interp "K" ⟨0, 0⟩, .text ";",
    .cond "A" ⟨0, 0⟩ [.text "\x7b", .text " a \x7d"] [.interp "B" ⟨0, 0⟩], .text "\x7b"]⟩

example : bracedTemplate.print =
    "o = \x7b\x7bK\x7d\x7d;\x7b\x7b#if A\x7d\x7d\x7b a \x7d"
      ++ "\x7b\x7belse\x7d\x7d\x7b\x7bB\x7d\x7d\x7b\x7b/if\x7d\x7d\x7b" := by decide

theorem compile_print_braced :
    bracedTemplate.Normal ∧
      ∃ t, compile bracedTemplate.print = .ok t ∧ t.bare = bracedTemplate.bare ∧ t.Normal := by
  have hnormal : bracedTemplate.Normal := by
    simp [bracedTemplate, Normal, AllNormal, Segment.Normal, Segment.Precedes, Segment.isPlain,
      Segment.isBrace, endsInBrace]
    decide
  obtain ⟨t, ht, hbare⟩ := compile_print.2 bracedTemplate hnormal
  exact ⟨hnormal, t, ht, hbare, compile_print.1 _ t ht⟩

end ShaderGraph.Template
