import ShaderGraph.Proofs.Spans

/-!
# Templates one behind the other

Putting one template text behind another gives a template that renders as the two
do, one behind the other. Where the texts meet, the cut of the whole may differ from
the cuts of the parts:

* **two texts meet** — they become one token (`pieces_append_of_texts`), which is
  rendered as the two were;
* **anything else meets** — the tokens are those of both (`pieces_append_of_follows`),
  the second ones moved on by the length of the first text (`exists_shifted`);
* **two braces meet** — they may begin a tag, so nothing can be said. This is the only
  case that is left out (`seam_cases`).
-/

namespace ShaderGraph.Template

open ShaderGraph.Text

/-! ## Statements -/

/-- One rendering behind the other: both texts, or the first error. -/
def followedBy : Except BodyError String → Except BodyError String → Except BodyError String
  | .ok front, .ok back => .ok (front ++ back)
  | .ok _, .error e => .error e
  | .error e, _ => .error e

/-- The first text ends with a brace and the second begins with one. -/
def BracesMeet (first second : String) : Prop :=
  first.toList.getLast? = some '{' ∧ second.toList.head? = some '{'

/-! ## Rendering in sequence -/

theorem followedBy_assoc (x y z : Except BodyError String) :
    followedBy (followedBy x y) z = followedBy x (followedBy y z) := by
  cases x with
  | error e => rfl
  | ok a =>
    cases y with
    | error e => rfl
    | ok b =>
      cases z with
      | error e => rfl
      | ok c => simp [followedBy, String.append_assoc]

section Rendering

variable (defines : Defines)

theorem renderAll_cons (s : Segment) (rest : List Segment) :
    renderAll defines (s :: rest) = followedBy (s.render defines) (renderAll defines rest) := by
  rw [renderAll]
  cases s.render defines with
  | error e => rfl
  | ok front =>
    cases renderAll defines rest with
    | error e => rfl
    | ok back => rfl

theorem renderAll_append (front back : List Segment) :
    renderAll defines (front ++ back) =
      followedBy (renderAll defines front) (renderAll defines back) := by
  induction front with
  | nil =>
    rw [List.nil_append, renderAll]
    cases renderAll defines back with
    | error e => rfl
    | ok text => simp [followedBy]
  | cons s rest ih =>
    rw [List.cons_append, renderAll_cons, ih, renderAll_cons, followedBy_assoc]

/-- A text may be cut anywhere. -/
theorem renderAll_text_append (a b : String) (front back : List Segment) :
    renderAll defines (front ++ .text (a ++ b) :: back) =
      renderAll defines (front ++ [.text a] ++ .text b :: back) := by
  have hcut : (Segment.text (a ++ b)).render defines =
      followedBy ((Segment.text a).render defines) ((Segment.text b).render defines) := rfl
  rw [List.append_assoc, List.singleton_append, renderAll_append, renderAll_append,
    renderAll_cons, renderAll_cons, renderAll_cons, hcut, followedBy_assoc]

mutual

theorem Segment.render_shift (s : Segment) (n : Nat) :
    (s.shift n).render defines = s.render defines := by
  cases s with
  | text content => rfl
  | interp name span => rfl
  | cond name span thenPart elsePart =>
    rw [Segment.shift, Segment.render, Segment.render, renderAll_shiftAll thenPart,
      renderAll_shiftAll elsePart]

/-- Ranges do not matter for rendering. -/
theorem renderAll_shiftAll (segments : List Segment) (n : Nat) :
    renderAll defines (shiftAll n segments) = renderAll defines segments := by
  cases segments with
  | nil => rfl
  | cons s rest =>
    rw [shiftAll, renderAll_cons, renderAll_cons, s.render_shift, renderAll_shiftAll rest]

end

end Rendering

/-! ## Cutting at the seam -/

/-- The text is cut into tokens that are written out. -/
def WellCut (cs : List Char) : Prop := ∀ p ∈ pieces cs, p.token.Spelled p.chars

theorem Token.Spelled.plain {token : Token} {chars : List Char} (h : token.Spelled chars)
    (htext : token.isText = true) : chars ≠ [] ∧ '{' ∉ chars := by
  cases h with
  | text hne hfree => exact ⟨hne, hfree⟩
  | _ => cases htext

theorem Token.Spelled.text_eq {token : Token} {chars : List Char} {content : String}
    (h : token.Spelled chars) (htext : token = .text content) : content = String.ofList chars := by
  cases h with
  | text hne hfree => exact (Token.text.inj htext).symm
  | _ => cases htext

theorem Token.Spelled.single {token : Token} {chars : List Char} (h : token.Spelled chars)
    (hbrace : token = .brace) : chars = ['{'] := by
  cases h with
  | brace => rfl
  | _ => cases hbrace

/-- Two texts as one token. -/
def Piece.joined (p q : Piece) : Piece :=
  ⟨.text (String.ofList (p.chars ++ q.chars)), p.chars ++ q.chars⟩

theorem Piece.spelled_joined {p q : Piece} (hp : p.token.Spelled p.chars)
    (hq : q.token.Spelled q.chars) (hptext : p.token.isText = true)
    (hqtext : q.token.isText = true) : (p.joined q).token.Spelled (p.joined q).chars := by
  obtain ⟨hpne, hpfree⟩ := hp.plain hptext
  obtain ⟨_, hqfree⟩ := hq.plain hqtext
  refine .text (by simp [hpne]) ?_
  intro hmem
  exact (List.mem_append.mp hmem).elim hpfree hqfree

section Cutting

variable {cs ds : List Char}

theorem pieces_append_of_follows (hcs : WellCut cs) (hds : WellCut ds)
    (hseam : ∀ p ∈ (pieces cs).getLast?, ∀ q ∈ (pieces ds).head?, Follows p.token q.token) :
    pieces (cs ++ ds) = pieces cs ++ pieces ds := by
  have hchain : ((pieces cs ++ pieces ds).map (·.token)).IsChain Follows := by
    rw [List.map_append]
    refine (pieces_isChain cs).append (pieces_isChain ds) ?_
    intro a ha b hb
    rw [List.getLast?_map] at ha
    rw [List.head?_map] at hb
    obtain ⟨p, hp, rfl⟩ := Option.map_eq_some_iff.mp ha
    obtain ⟨q, hq, rfl⟩ := Option.map_eq_some_iff.mp hb
    exact hseam p hp q hq
  have hcut := pieces_flatMap (List.forall_mem_append.mpr ⟨hcs, hds⟩) hchain
  have hchars : (pieces cs ++ pieces ds).flatMap (·.chars) = cs ++ ds := by
    show charsOf _ = _
    rw [charsOf_append, charsOf_pieces, charsOf_pieces]
  rwa [hchars] at hcut

/-- Two texts that meet are one token. -/
theorem pieces_append_of_texts (hcs : WellCut cs) (hds : WellCut ds) {ps qs : List Piece}
    {p q : Piece} (hp : pieces cs = ps ++ [p]) (hq : pieces ds = q :: qs)
    (hptext : p.token.isText = true) (hqtext : q.token.isText = true) :
    pieces (cs ++ ds) = ps ++ p.joined q :: qs := by
  have hspelled : ∀ r ∈ ps ++ p.joined q :: qs, r.token.Spelled r.chars := by
    rw [List.forall_mem_append, List.forall_mem_cons]
    refine ⟨fun r hr => hcs r (by simp [hp, hr]), ?_, fun r hr => hds r (by simp [hq, hr])⟩
    exact Piece.spelled_joined (hcs p (by simp [hp])) (hds q (by simp [hq])) hptext hqtext
  have hpchain := pieces_isChain cs
  have hqchain := pieces_isChain ds
  rw [hp, List.map_append] at hpchain
  rw [hq, List.map_cons, List.isChain_cons] at hqchain
  have hchain : ((ps ++ p.joined q :: qs).map (·.token)).IsChain Follows := by
    rw [List.map_append, List.map_cons]
    refine hpchain.left_of_append.append (List.isChain_cons.mpr ⟨?_, hqchain.2⟩) ?_
    · -- the new token has the neighbours of the two texts
      intro b hb
      refine ⟨fun _ => (hqchain.1 b hb).1 hqtext, nofun⟩
    · intro a ha b hb
      cases hb
      have hfollows := (List.isChain_append.mp hpchain).2.2 a ha p.token rfl
      refine ⟨fun hatext => absurd hptext ?_, fun _ => rfl⟩
      rw [hfollows.1 hatext]
      nofun
  have hcut := pieces_flatMap hspelled hchain
  have hchars : (ps ++ p.joined q :: qs).flatMap (·.chars) = cs ++ ds := by
    show charsOf _ = _
    have hpchars := charsOf_pieces cs
    have hqchars := charsOf_pieces ds
    rw [hp, charsOf_append] at hpchars
    rw [hq] at hqchars
    rw [← hpchars, ← hqchars]
    simp [Piece.joined]
  rwa [hchars] at hcut

/-- Unless two braces meet, the tokens at the seam can follow each other or are two
texts. -/
theorem follows_or_texts (hcs : WellCut cs) (hds : WellCut ds)
    (hbraces : ¬ (cs.getLast? = some '{' ∧ ds.head? = some '{')) {ps qs : List Piece} {p q : Piece}
    (hp : pieces cs = ps ++ [p]) (hq : pieces ds = q :: qs) :
    Follows p.token q.token ∨ p.token.isText = true ∧ q.token.isText = true := by
  by_cases htexts : p.token.isText = true ∧ q.token.isText = true
  · exact .inr htexts
  · left
    refine ⟨?_, ?_⟩
    · intro hptext
      simpa [hptext] using htexts
    · intro hpbrace
      have hpspelled := hcs p (by simp [hp])
      have hqspelled := hds q (by simp [hq])
      have hpchars := hpspelled.single hpbrace
      obtain ⟨c, chars, hqchars, hc⟩ := hqspelled.head
      refine hc.mpr ?_
      intro hbrace
      subst hbrace
      apply hbraces
      rw [← charsOf_pieces cs, ← charsOf_pieces ds, hp, hq, charsOf_append, charsOf_cons]
      simp [hpchars, hqchars]

/-- Either the tokens of both stay, or the last of one and the first of the other are
joined. -/
theorem seam_cases (hcs : WellCut cs) (hds : WellCut ds)
    (hbraces : ¬ (cs.getLast? = some '{' ∧ ds.head? = some '{')) :
    (∀ p ∈ (pieces cs).getLast?, ∀ q ∈ (pieces ds).head?, Follows p.token q.token) ∨
      ∃ ps p q qs, pieces cs = ps ++ [p] ∧ pieces ds = q :: qs ∧
        p.token.isText = true ∧ q.token.isText = true := by
  rcases List.eq_nil_or_concat' (pieces cs) with hnil | ⟨ps, p, hp⟩
  · simp [hnil]
  · cases hq : pieces ds with
    | nil => simp
    | cons q qs =>
      rcases follows_or_texts hcs hds hbraces hp hq with hfollows | htexts
      · simpa [hp] using .inl hfollows
      · exact .inr ⟨ps, p, q, qs, hp, rfl, htexts⟩

end Cutting

/-! ## Derivations at the seam -/

/-- Where tokens end with a text, the block does. -/
theorem exists_text_last {block : List Derivation} {ls : List Lexeme} {l : Lexeme}
    (h : lexemesOf block = ls ++ [l]) (hl : l.token.isText = true) :
    ∃ front content span, block = front ++ [.text content span] ∧
      l.token = .text content ∧ lexemesOf front = ls := by
  rcases List.eq_nil_or_concat' block with rfl | ⟨front, d, rfl⟩
  · simp [lexemesOf] at h
  · rw [lexemesOf_append, lexemesOf_singleton] at h
    cases d with
    | text content span =>
      obtain ⟨hls, hlast⟩ := List.append_inj' h rfl
      cases hlast
      exact ⟨front, content, span, rfl, rfl, hls⟩
    | brace span | interp name span =>
      obtain ⟨_, hlast⟩ := List.append_inj' h rfl
      cases hlast
      cases hl
    | cond name opening thenPart closing | condElse name opening thenPart middle elsePart closing =>
      have hlast := congrArg List.getLast? h
      simp [Derivation.lexemes, List.getLast?_cons, List.getLast?_append] at hlast
      rw [← hlast] at hl
      cases hl

/-- Where tokens begin with a text, the block does. -/
theorem exists_text_first {block : List Derivation} {ls : List Lexeme} {l : Lexeme}
    (h : lexemesOf block = l :: ls) (hl : l.token.isText = true) :
    ∃ content span back, block = .text content span :: back ∧
      l.token = .text content ∧ lexemesOf back = ls := by
  cases block with
  | nil => cases h
  | cons d back =>
    cases d with
    | text content span =>
      cases h
      exact ⟨content, span, back, rfl, rfl, rfl⟩
    | brace | interp | cond | condElse =>
      cases h
      cases hl

/-- Tokens that are moved on have a derivation of the segments that are moved on. -/
theorem exists_shifted (block : List Derivation) (n : Nat) :
    ∃ block', lexemesOf block' = (lexemesOf block).map (Lexeme.shift n) ∧
      segmentsOf block' = shiftAll n (segmentsOf block) := by
  have hsteps := Reading.steps_lexemesOf block .start []
  rw [List.append_nil] at hsteps
  have hshift := Reading.steps_shift n .start (lexemesOf block)
  rw [hsteps] at hshift
  have hread : ofLexemes ((lexemesOf block).map (Lexeme.shift n)) 0 =
      .ok ⟨shiftAll n (segmentsOf block)⟩ := by
    have hstart : Reading.start.shift n = .start := rfl
    rw [hstart] at hshift
    rw [ofLexemes, hshift]
    simp [Reading.steps, Reading.finish, Reading.pushAll, Reading.start, Reading.shift]
  obtain ⟨block', hblock', heq⟩ := (ofLexemes_ok_iff _ _ _).mp hread
  exact ⟨block', hblock', (Template.mk.inj heq).symm⟩

theorem wellCut_of_block {source : String} {block : List Derivation}
    (h : lexemesOf block = lex source) : WellCut source.toList := by
  have hnested := (derivable_iff_nested _).mp ⟨block, h⟩
  intro p hp
  apply spelled_of_mem_pieces hp
  have hmem : p.token ∈ (lex source).map (·.token) := by
    rw [lex, map_token_place]
    exact List.mem_map_of_mem hp
  obtain ⟨l, hl, heq⟩ := List.mem_map.mp hmem
  rw [← heq]
  exact hnested.noOpenTag l hl

section Blocks

variable {first second : String} {block block' : List Derivation}

/-- Tokens that can follow each other leave both blocks as they are. -/
theorem exists_block_of_follows (h : lexemesOf block = lex first)
    (h' : lexemesOf block' = lex second)
    (hcut : pieces (first.toList ++ second.toList) = pieces first.toList ++ pieces second.toList) :
    ∃ whole, lexemesOf whole = lex (first ++ second) ∧
      segmentsOf whole = segmentsOf block ++ shiftAll first.utf8ByteSize (segmentsOf block') := by
  obtain ⟨moved, hmoved, hsegments⟩ := exists_shifted block' first.utf8ByteSize
  refine ⟨block ++ moved, ?_, by rw [segmentsOf_append, hsegments]⟩
  have hlex : lex (first ++ second) =
      lex first ++ (lex second).map (Lexeme.shift first.utf8ByteSize) := by
    rw [lex, String.toList_append, hcut, place_append, charsOf_pieces, octets_toList,
      place_shift, lex, lex]
  rw [lexemesOf_append, h, hmoved, h', hlex]

/-- Two texts that meet become one segment. -/
theorem exists_block_of_texts (h : lexemesOf block = lex first)
    (h' : lexemesOf block' = lex second) {ps qs : List Piece} {p q : Piece}
    (hp : pieces first.toList = ps ++ [p]) (hq : pieces second.toList = q :: qs)
    (hptext : p.token.isText = true) (hqtext : q.token.isText = true) :
    ∃ (whole : List Derivation) (front back : List Segment) (a b : String) (n : Nat),
      lexemesOf whole = lex (first ++ second) ∧
      segmentsOf block = front ++ [.text a] ∧ segmentsOf block' = .text b :: back ∧
      segmentsOf whole = front ++ .text (a ++ b) :: shiftAll n back := by
  have hpspelled := wellCut_of_block h p (by simp [hp])
  have hqspelled := wellCut_of_block h' q (by simp [hq])
  have hcut := pieces_append_of_texts (wellCut_of_block h) (wellCut_of_block h') hp hq hptext hqtext
  rw [lex, hp, place_append] at h
  rw [lex, hq] at h'
  obtain ⟨front, a, span, rfl, ha, hfront⟩ := exists_text_last h hptext
  obtain ⟨b, span', back, rfl, hb, hback⟩ := exists_text_first h' hqtext
  have hmerged : a ++ b = String.ofList (p.chars ++ q.chars) := by
    have hpa := hpspelled.text_eq ha
    have hqb := hqspelled.text_eq hb
    rw [hpa, hqb, String.ofList_append]
  obtain ⟨moved, hmoved, hsegments⟩ :=
    exists_shifted back (octets (charsOf ps) + octets p.chars)
  let middle : Span := ⟨octets (charsOf ps), octets (charsOf ps) + octets (p.chars ++ q.chars)⟩
  have hlex : lex (first ++ second) =
      place 0 ps ++ (Token.text (a ++ b)).over middle :: place middle.stop qs := by
    rw [lex, String.toList_append, hcut, place_append, Nat.zero_add, hmerged]
    rfl
  have hstop : middle.stop = 0 + octets q.chars + (octets (charsOf ps) + octets p.chars) := by
    show octets (charsOf ps) + octets (p.chars ++ q.chars) = _
    rw [octets_append]
    omega
  refine ⟨front ++ .text (a ++ b) middle :: moved, segmentsOf front, segmentsOf back, a, b,
    octets (charsOf ps) + octets p.chars, ?_, ?_, ?_, ?_⟩
  · rw [hlex, hstop, place_shift, lexemesOf_append, lexemesOf, hfront, hmoved, hback]
    rfl
  · simp [segmentsOf, Derivation.segment]
  · simp [segmentsOf, Derivation.segment]
  · simp [segmentsOf, Derivation.segment, hsegments]

end Blocks

/-! ## Templates one behind the other -/

/-- A template text behind another, where no braces meet, gives a template that renders
as the first and then the second: both texts if both have one, and otherwise the error
of the first that fails. -/
theorem compile_append (first second : String) (t t' : Template) (h : compile first = .ok t)
    (h' : compile second = .ok t') (hbraces : ¬ BracesMeet first second) :
    ∃ whole, compile (first ++ second) = .ok whole ∧
      ∀ defines, whole.render defines = followedBy (t.render defines) (t'.render defines) := by
  obtain ⟨block, hblock, rfl⟩ := (compile_ok_iff first t).mp h
  obtain ⟨block', hblock', rfl⟩ := (compile_ok_iff second t').mp h'
  have hwell := wellCut_of_block hblock
  have hwell' := wellCut_of_block hblock'
  rcases seam_cases hwell hwell' hbraces with
    hfollows | ⟨ps, p, q, qs, hp, hq, hptext, hqtext⟩
  · have hcut := pieces_append_of_follows hwell hwell' hfollows
    obtain ⟨whole, hwhole, hsegments⟩ := exists_block_of_follows hblock hblock' hcut
    refine ⟨_, (compile_ok_iff _ _).mpr ⟨whole, hwhole, rfl⟩, ?_⟩
    intro defines
    show renderAll defines (segmentsOf whole) = _
    rw [hsegments, renderAll_append, renderAll_shiftAll]
    rfl
  · obtain ⟨whole, front, back, a, b, n, hwhole, hfront, hback, hsegments⟩ :=
      exists_block_of_texts hblock hblock' hp hq hptext hqtext
    refine ⟨_, (compile_ok_iff _ _).mpr ⟨whole, hwhole, rfl⟩, ?_⟩
    intro defines
    show renderAll defines (segmentsOf whole) =
      followedBy (renderAll defines (segmentsOf block)) (renderAll defines (segmentsOf block'))
    rw [hsegments, hfront, hback, renderAll_text_append, renderAll_append, renderAll_cons,
      renderAll_cons, renderAll_shiftAll]

/-- A conditional before a text. -/
def seamFirst : String := "\x7b\x7b#if A\x7d\x7da\x7b\x7b/if\x7d\x7db"

/-- A text before a value, and a brace at the end. -/
def seamSecond : String := "c\x7b\x7bX\x7d\x7d\x7b"

/-- Two texts meet at the seam of the samples. -/
theorem compile_append_sample :
    compile seamFirst = .ok ⟨[.cond "A" ⟨0, 17⟩ [.text "a"] [], .text "b"]⟩ ∧
      compile seamSecond = .ok ⟨[.text "c", .interp "X" ⟨1, 6⟩, .text "\x7b"]⟩ ∧
      ∃ whole, compile (seamFirst ++ seamSecond) = .ok whole ∧
        whole.render (.ofList [("A", .bool true), ("X", .string "x")]) = .ok "abcx\x7b" ∧
        whole.render .empty = .error (.undefinedDefine "X") := by
  have hlex : lex seamFirst =
      [⟨.openIf "A", 0, 9⟩, ⟨.text "a", 9, 10⟩, ⟨.closeIf, 10, 17⟩, ⟨.text "b", 17, 18⟩] := by
    decide +kernel
  have hlex' : lex seamSecond = [⟨.text "c", 0, 1⟩, ⟨.interp "X", 1, 6⟩, ⟨.brace, 6, 7⟩] := by
    decide +kernel
  have hfirst : compile seamFirst = .ok ⟨[.cond "A" ⟨0, 17⟩ [.text "a"] [], .text "b"]⟩ := by
    unfold compile parse
    rw [hlex]
    rfl
  have hsecond : compile seamSecond =
      .ok ⟨[.text "c", .interp "X" ⟨1, 6⟩, .text "\x7b"]⟩ := by
    unfold compile parse
    rw [hlex']
    rfl
  have hbraces : ¬ BracesMeet seamFirst seamSecond := by
    intro hmeet
    exact absurd hmeet.2 (by decide)
  obtain ⟨whole, hwhole, hrender⟩ := compile_append _ _ _ _ hfirst hsecond hbraces
  refine ⟨hfirst, hsecond, whole, hwhole, ?_, ?_⟩
  · rw [hrender]
    rfl
  · rw [hrender]
    rfl

end ShaderGraph.Template
