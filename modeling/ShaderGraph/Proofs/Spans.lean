import ShaderGraph.Proofs.Grammar
import ShaderGraph.Proofs.Placement

/-!
# What the ranges of tags cover

A segment that is a tag carries its range in the text. The tokens of a derivation
lie side by side, so ranges are in order and nested as the segments are.

* **derivations** — every segment of a template, at any depth, has a derivation
  whose tokens stand together in the text (`exists_derivation_of_mem_parts`);
* **order** — the range of a derivation runs from its first token to its last
  (`Derivation.span_ends`), so that neighbours and branches lie as their tokens do
  (`inRow_of_ordered`, `inside_of_ordered`);
* **cutting out** — the reader does not care where a text begins
  (`Reading.steps_shift`), and tokens that stand together are the tokens of what they
  cover, so a segment is found again in its own range (`Derivation.covers`).
-/

namespace ShaderGraph.Template

open ShaderGraph.Text

/-! ## Segments and ranges -/

/-- The range of a tag. -/
def Segment.span? : Segment → Option Span
  | .text _ => none
  | .interp _ span => some span
  | .cond _ span _ _ => some span

/-- The ranges of the tags among segments. -/
def tagSpans (segments : List Segment) : List Span := segments.filterMap Segment.span?

mutual

/-- A segment and those in its branches, at any depth. -/
def Segment.parts : Segment → List Segment
  | .text content => [.text content]
  | .interp name span => [.interp name span]
  | .cond name span thenPart elsePart =>
    .cond name span thenPart elsePart :: (partsOf thenPart ++ partsOf elsePart)

/-- All segments of a block, at any depth. -/
def partsOf : List Segment → List Segment
  | [] => []
  | s :: rest => s.parts ++ partsOf rest

end

/-- Ranges that are not empty, each before those that follow. -/
def InRow (spans : List Span) : Prop :=
  (∀ s ∈ spans, s.start < s.stop) ∧ spans.Pairwise fun s t => s.stop ≤ t.start

def Span.shift (n : Nat) (span : Span) : Span := ⟨span.start + n, span.stop + n⟩

mutual

/-- A segment whose ranges are moved on by `n` octets. -/
def Segment.shift (n : Nat) : Segment → Segment
  | .text content => .text content
  | .interp name span => .interp name (span.shift n)
  | .cond name span thenPart elsePart =>
    .cond name (span.shift n) (shiftAll n thenPart) (shiftAll n elsePart)

def shiftAll (n : Nat) : List Segment → List Segment
  | [] => []
  | s :: rest => s.shift n :: shiftAll n rest

end

/-- Cut out of the text, the range is a template of this one segment, with its
ranges counted from the beginning of the cut. -/
def Segment.Covers (s : Segment) (source : String) (span : Span) : Prop :=
  ∃ before part after, span.Cuts source before part after ∧
    ∃ s', compile part = .ok ⟨[s']⟩ ∧ s = s'.shift span.start

/-! ## Reading at another place -/

theorem shiftAll_eq_map (n : Nat) (segments : List Segment) :
    shiftAll n segments = segments.map (Segment.shift n) := by
  induction segments with
  | nil => rfl
  | cons s rest ih => rw [shiftAll, ih, List.map_cons]

@[simp] theorem shiftAll_reverse (n : Nat) (segments : List Segment) :
    shiftAll n segments.reverse = (shiftAll n segments).reverse := by
  rw [shiftAll_eq_map, shiftAll_eq_map, List.map_reverse]

def Lexeme.shift (n : Nat) (l : Lexeme) : Lexeme := ⟨l.token, l.start + n, l.stop + n⟩

def Fault.shift (n : Nat) (f : Fault) : Fault := ⟨f.message, f.span.shift n⟩

def OpenIf.shift (n : Nat) (o : OpenIf) : OpenIf :=
  ⟨o.name, o.start + n, shiftAll n o.before, o.thenPart.map (shiftAll n)⟩

def Reading.shift (n : Nat) (r : Reading) : Reading :=
  ⟨r.opened.map (OpenIf.shift n), shiftAll n r.block⟩

/-- What a token does to a reading does not depend on where the text begins. -/
theorem Reading.step_shift (n : Nat) (r : Reading) (l : Lexeme) :
    (r.shift n).step (l.shift n) = match r.step l with
      | .error f => .error (f.shift n)
      | .ok r' => .ok (r'.shift n) := by
  obtain ⟨token, start, stop⟩ := l
  obtain ⟨opened, block⟩ := r
  cases token with
  | text | brace | interp | openIf => rfl
  | openTag =>
    rcases opened with _ | ⟨⟨name, start, before, _ | branch⟩, outer⟩
    · rfl
    · rfl
    · rfl
  | elseMark =>
    rcases opened with _ | ⟨⟨name, start, before, _ | branch⟩, outer⟩
    · rfl
    · simp [Reading.step, Reading.shift, Lexeme.shift, OpenIf.shift, shiftAll]
    · rfl
  | closeIf =>
    rcases opened with _ | ⟨⟨name, start, before, _ | branch⟩, outer⟩
    · rfl
    · simp [Reading.step, Reading.shift, Lexeme.shift, OpenIf.shift, shiftAll, Segment.shift,
        Span.shift]
    · simp [Reading.step, Reading.shift, Lexeme.shift, OpenIf.shift, shiftAll, Segment.shift,
        Span.shift]

theorem Reading.steps_shift (n : Nat) (r : Reading) (ls : List Lexeme) :
    (r.shift n).steps (ls.map (Lexeme.shift n)) = match r.steps ls with
      | .error f => .error (f.shift n)
      | .ok r' => .ok (r'.shift n) := by
  induction ls generalizing r with
  | nil => rfl
  | cons l ls ih =>
    rw [List.map_cons, Reading.steps, Reading.steps, Reading.step_shift]
    cases r.step l with
    | error f => rfl
    | ok r' => exact ih r'

theorem place_shift (n start : Nat) (ps : List Piece) :
    place (start + n) ps = (place start ps).map (Lexeme.shift n) := by
  induction ps generalizing start with
  | nil => rfl
  | cons p ps ih =>
    have hstop : start + n + octets p.chars = start + octets p.chars + n := by omega
    rw [place, place, List.map_cons, hstop, ih, Lexeme.shift]

/-! ## Derivations of segments at any depth -/

mutual

theorem Derivation.exists_of_mem_parts (d : Derivation) {s : Segment} (hs : s ∈ d.segment.parts) :
    ∃ e : Derivation, e.lexemes <:+: d.lexemes ∧ e.segment = s := by
  cases d with
  | text content span =>
    cases List.mem_singleton.mp hs
    exact ⟨.text content span, List.infix_refl _, rfl⟩
  | brace span =>
    cases List.mem_singleton.mp hs
    exact ⟨.brace span, List.infix_refl _, rfl⟩
  | interp name span =>
    cases List.mem_singleton.mp hs
    exact ⟨.interp name span, List.infix_refl _, rfl⟩
  | cond name opening thenPart closing =>
    rw [Derivation.segment, Segment.parts, partsOf, List.append_nil] at hs
    rcases List.mem_cons.mp hs with rfl | hs
    · exact ⟨.cond name opening thenPart closing, List.infix_refl _, rfl⟩
    · obtain ⟨e, he, rfl⟩ := exists_derivation_of_mem_parts thenPart hs
      refine ⟨e, he.trans ?_, rfl⟩
      exact ⟨[(Token.openIf name).over opening], [Token.closeIf.over closing], rfl⟩
  | condElse name opening thenPart middle elsePart closing =>
    rw [Derivation.segment, Segment.parts] at hs
    rcases List.mem_cons.mp hs with rfl | hs
    · exact ⟨.condElse name opening thenPart middle elsePart closing, List.infix_refl _, rfl⟩
    · rcases List.mem_append.mp hs with hs | hs
      · obtain ⟨e, he, rfl⟩ := exists_derivation_of_mem_parts thenPart hs
        refine ⟨e, he.trans ?_, rfl⟩
        exact ⟨[(Token.openIf name).over opening],
          Token.elseMark.over middle :: (lexemesOf elsePart ++ [Token.closeIf.over closing]),
          by simp [Derivation.lexemes]⟩
      · obtain ⟨e, he, rfl⟩ := exists_derivation_of_mem_parts elsePart hs
        refine ⟨e, he.trans ?_, rfl⟩
        exact ⟨(Token.openIf name).over opening ::
          (lexemesOf thenPart ++ [Token.elseMark.over middle]), [Token.closeIf.over closing],
          by simp [Derivation.lexemes]⟩

/-- A segment of a block, at any depth, has a derivation within the block's. -/
theorem exists_derivation_of_mem_parts (ds : List Derivation) {s : Segment}
    (hs : s ∈ partsOf (segmentsOf ds)) :
    ∃ e : Derivation, e.lexemes <:+: lexemesOf ds ∧ e.segment = s := by
  cases ds with
  | nil => cases hs
  | cons d ds =>
    rw [segmentsOf, partsOf] at hs
    rcases List.mem_append.mp hs with hs | hs
    · obtain ⟨e, he, rfl⟩ := d.exists_of_mem_parts hs
      exact ⟨e, he.trans ⟨[], lexemesOf ds, rfl⟩, rfl⟩
    · obtain ⟨e, he, rfl⟩ := exists_derivation_of_mem_parts ds hs
      exact ⟨e, he.trans ⟨d.lexemes, [], by simp [lexemesOf]⟩, rfl⟩

end

/-- What a derivation of a conditional is made of: its two tags, and between them
the tokens of its branches. -/
theorem Derivation.of_cond {e : Derivation} {name : String} {span : Span}
    {thenPart elsePart : List Segment} (h : e.segment = .cond name span thenPart elsePart) :
    ∃ opening inner closing, e.lexemes = opening :: (inner ++ [closing]) ∧
      span = ⟨opening.start, closing.stop⟩ ∧
      (∃ ds, thenPart = segmentsOf ds ∧ lexemesOf ds <:+: inner) ∧
      (∃ es, elsePart = segmentsOf es ∧ lexemesOf es <:+: inner) := by
  cases e with
  | text | brace | interp => cases h
  | cond name opening ds closing =>
    cases h
    exact ⟨_, lexemesOf ds, _, rfl, rfl, ⟨ds, rfl, List.infix_refl _⟩,
      [], rfl, List.nil_infix⟩
  | condElse name opening ds middle es closing =>
    cases h
    refine ⟨(Token.openIf name).over opening,
      lexemesOf ds ++ Token.elseMark.over middle :: lexemesOf es, Token.closeIf.over closing,
      by simp [Derivation.lexemes], rfl, ⟨ds, rfl, ⟨[], _, rfl⟩⟩, es, rfl, ?_⟩
    exact ⟨lexemesOf ds ++ [Token.elseMark.over middle], [], by simp⟩

/-! ## The order of ranges -/

/-- The octets from the first token of a derivation to its last. -/
def Derivation.span : Derivation → Span
  | .text _ span => span
  | .brace span => span
  | .interp _ span => span
  | .cond _ opening _ closing => ⟨opening.start, closing.stop⟩
  | .condElse _ opening _ _ _ closing => ⟨opening.start, closing.stop⟩

theorem Derivation.span_of_mem {d : Derivation} {span : Span} (h : span ∈ d.segment.span?) :
    span = d.span := by
  cases d <;> cases h <;> rfl

theorem Derivation.span_ends (d : Derivation) :
    (∃ l, d.lexemes.head? = some l ∧ l.start = d.span.start) ∧
      ∃ l, d.lexemes.getLast? = some l ∧ l.stop = d.span.stop := by
  cases d with
  | text | brace | interp => exact ⟨⟨_, rfl, rfl⟩, _, rfl, rfl⟩
  | cond name opening ds closing | condElse name opening ds middle es closing =>
    refine ⟨⟨_, rfl, rfl⟩, Token.closeIf.over closing, ?_, rfl⟩
    simp [Derivation.lexemes, List.getLast?_cons, List.getLast?_append]

/-- Tokens that are not empty, each before those that follow. -/
def Ordered (ls : List Lexeme) : Prop := InRow (ls.map Lexeme.span)

theorem ordered_lex (source : String) : Ordered (lex source) := by
  obtain ⟨hinside, hpairwise⟩ := (tiles_lex source).pairwise
  exact ⟨fun s hs => (hinside s hs).2, hpairwise⟩

theorem Ordered.of_sublist {ls ms : List Lexeme} (h : Ordered ls) (hsub : ms.Sublist ls) :
    Ordered ms := by
  have hspans : (ms.map Lexeme.span).Sublist (ls.map Lexeme.span) := hsub.map _
  exact ⟨fun s hs => h.1 s (hspans.subset hs), h.2.sublist hspans⟩

theorem Ordered.lt {ls : List Lexeme} (h : Ordered ls) {l : Lexeme} (hl : l ∈ ls) :
    l.start < l.stop := h.1 _ (List.mem_map_of_mem hl)

theorem Ordered.le {ls ms : List Lexeme} (h : Ordered (ls ++ ms)) {l m : Lexeme} (hl : l ∈ ls)
    (hm : m ∈ ms) : l.stop ≤ m.start := by
  have hpairwise := h.2
  rw [List.map_append, List.pairwise_append] at hpairwise
  exact hpairwise.2.2 _ (List.mem_map_of_mem hl) _ (List.mem_map_of_mem hm)

theorem Derivation.span_lt {d : Derivation} (h : Ordered d.lexemes) :
    d.span.start < d.span.stop := by
  obtain ⟨⟨first, hfirst, hstart⟩, last, hlast, hstop⟩ := d.span_ends
  rw [← hstart, ← hstop]
  cases hlexemes : d.lexemes with
  | nil =>
    rw [hlexemes] at hfirst
    cases hfirst
  | cons l rest =>
    rw [hlexemes] at h hfirst hlast
    cases hfirst
    have hlt := h.lt List.mem_cons_self
    rcases List.mem_cons.mp (List.mem_of_mem_getLast? hlast) with rfl | hmem
    · exact hlt
    · have hsplit : Ordered ([first] ++ rest) := h
      have hle := hsplit.le List.mem_cons_self hmem
      have hlast := h.lt (List.mem_cons_of_mem _ hmem)
      omega

/-- The range of a segment begins and ends with tokens of the block that it is in, at
whatever depth. -/
theorem ends_of_mem_parts {ds : List Derivation} {s : Segment} {span : Span}
    (hs : s ∈ partsOf (segmentsOf ds)) (hspan : span ∈ s.span?) :
    (∃ l ∈ lexemesOf ds, l.start = span.start) ∧ ∃ l ∈ lexemesOf ds, l.stop = span.stop := by
  obtain ⟨e, he, rfl⟩ := exists_derivation_of_mem_parts ds hs
  obtain ⟨⟨first, hfirst, hstart⟩, last, hlast, hstop⟩ := e.span_ends
  rw [Derivation.span_of_mem hspan]
  exact ⟨⟨first, he.subset (List.mem_of_mem_head? hfirst), hstart⟩,
    last, he.subset (List.mem_of_mem_getLast? hlast), hstop⟩

theorem mem_partsOf_of_mem {s : Segment} {segments : List Segment} (h : s ∈ segments) :
    s ∈ partsOf segments := by
  induction segments with
  | nil => cases h
  | cons t rest ih =>
    rw [partsOf, List.mem_append]
    rcases List.mem_cons.mp h with rfl | h
    · left
      cases s <;> simp [Segment.parts]
    · exact .inr (ih h)

/-- Ranges of neighbours are in the order of the tokens. -/
theorem inRow_of_ordered {ds : List Derivation} (h : Ordered (lexemesOf ds)) :
    InRow (tagSpans (segmentsOf ds)) := by
  induction ds with
  | nil => exact ⟨by simp [segmentsOf, tagSpans], .nil⟩
  | cons d ds ih =>
    rw [lexemesOf] at h
    obtain ⟨hlt, hpairwise⟩ := ih (h.of_sublist (List.sublist_append_right _ _))
    rw [segmentsOf, tagSpans]
    cases hspan : d.segment.span? with
    | none =>
      rw [List.filterMap_cons_none hspan]
      exact ⟨hlt, hpairwise⟩
    | some span =>
      rw [List.filterMap_cons_some hspan, Derivation.span_of_mem hspan]
      have hd := Derivation.span_lt (h.of_sublist (List.sublist_append_left _ _))
      refine ⟨List.forall_mem_cons.mpr ⟨hd, hlt⟩, List.pairwise_cons.mpr ⟨?_, hpairwise⟩⟩
      intro other hother
      obtain ⟨s, hs, hother⟩ := List.mem_filterMap.mp hother
      obtain ⟨⟨first, hfirst, hstart⟩, -⟩ := ends_of_mem_parts (mem_partsOf_of_mem hs) hother
      obtain ⟨-, last, hlast, hstop⟩ := d.span_ends
      have hle := h.le (List.mem_of_mem_getLast? hlast) hfirst
      omega

/-- Ranges in a branch lie between the two tags of the conditional. -/
theorem inside_of_ordered {opening closing : Lexeme} {inner : List Lexeme}
    (h : Ordered (opening :: (inner ++ [closing]))) {ds : List Derivation}
    (hds : lexemesOf ds <:+: inner) {s : Segment} {span : Span}
    (hs : s ∈ partsOf (segmentsOf ds)) (hspan : span ∈ s.span?) :
    opening.start < span.start ∧ span.stop < closing.stop := by
  obtain ⟨⟨first, hfirst, hstart⟩, last, hlast, hstop⟩ := ends_of_mem_parts hs hspan
  have hfront : Ordered ([opening] ++ (inner ++ [closing])) := h
  have hback : Ordered ((opening :: inner) ++ [closing]) := h
  have hafter := hfront.le List.mem_cons_self (List.mem_append_left _ (hds.subset hfirst))
  have hbefore := hback.le (List.mem_cons_of_mem _ (hds.subset hlast)) List.mem_cons_self
  have hopening := h.lt List.mem_cons_self
  have hclosing := h.lt (List.mem_cons_of_mem _ (List.mem_append_right inner List.mem_cons_self))
  omega

/-! ## Cutting out -/

theorem Derivation.span_of_place {d : Derivation} {start : Nat} {ps : List Piece}
    (h : d.lexemes = place start ps) : d.span = ⟨start, start + octets (charsOf ps)⟩ := by
  obtain ⟨⟨first, hfirst, hstart⟩, last, hlast, hstop⟩ := d.span_ends
  rw [h] at hfirst hlast
  have hspan : d.span = ⟨d.span.start, d.span.stop⟩ := rfl
  rw [hspan, ← hstart, ← hstop, start_of_head?_place hfirst, stop_of_getLast?_place hlast]

/-- Tokens that stand together, with no open tag, are the tokens of what they
cover. -/
theorem pieces_of_part {cs : List Char} {ps : List Piece} (hps : ps <:+: pieces cs)
    (htags : ∀ p ∈ ps, p.token ≠ .openTag) : pieces (charsOf ps) = ps := by
  have hchain := List.IsChain.infix (pieces_isChain cs) (hps.map _)
  exact pieces_flatMap (fun p hp => spelled_of_mem_pieces (hps.subset hp) (htags p hp)) hchain

/-- Reading placed tokens from octet 0 on gives the segment of their derivation, with
its ranges counted from there. -/
theorem ofLexemes_of_derivation {d : Derivation} {start : Nat} {ps : List Piece}
    (h : d.lexemes = place start ps) (length : Nat) :
    ∃ s, ofLexemes (place 0 ps) length = .ok ⟨[s]⟩ ∧ d.segment = s.shift start := by
  have hread := Reading.steps_lexemes d .start []
  have hshift := Reading.steps_shift start .start (place 0 ps)
  rw [← place_shift, Nat.zero_add, ← h] at hshift
  rw [List.append_nil] at hread
  have hsteps : Reading.start.steps d.lexemes = match Reading.start.steps (place 0 ps) with
      | .error f => .error (f.shift start)
      | .ok r => .ok (r.shift start) := hshift
  rw [hread] at hsteps
  unfold ofLexemes
  cases hps : Reading.start.steps (place 0 ps) with
  | error f =>
    rw [hps] at hsteps
    cases hsteps
  | ok r =>
    rw [hps] at hsteps
    obtain ⟨hopened, hblock⟩ := Reading.mk.inj (Except.ok.inj hsteps)
    obtain ⟨opened, block⟩ := r
    rw [shiftAll_eq_map] at hblock
    obtain ⟨s, rfl, hs⟩ := List.map_eq_singleton_iff.mp hblock.symm
    have hnone : opened = [] := List.map_eq_nil_iff.mp hopened.symm
    subst hnone
    exact ⟨s, rfl, hs.symm⟩

/-- The range of a derivation in a text covers its segment. -/
theorem Derivation.covers {source : String} {d : Derivation} (h : d.lexemes <:+: lex source) :
    d.segment.Covers source d.span := by
  obtain ⟨front, back, hlex⟩ := h
  rw [List.append_assoc] at hlex
  obtain ⟨qs, _, hpieces, -, hrest⟩ := exists_pieces_of_place hlex.symm
  obtain ⟨ps, rs, rfl, hplace, -⟩ := exists_pieces_of_place hrest
  rw [Nat.zero_add] at hplace
  have htext : source.toList = charsOf qs ++ charsOf ps ++ charsOf rs := by
    have hchars := charsOf_pieces source.toList
    rw [hpieces, charsOf_append, charsOf_append, ← List.append_assoc] at hchars
    exact hchars.symm
  have htags : ∀ p ∈ ps, p.token ≠ .openTag := by
    intro p hp
    have hmem : p.token ∈ d.lexemes.map (·.token) := by
      rw [← hplace, map_token_place]
      exact List.mem_map_of_mem hp
    obtain ⟨l, hl, heq⟩ := List.mem_map.mp hmem
    rw [← heq]
    exact ((derivable_iff_nested _).mp ⟨[d], lexemesOf_singleton d⟩).noOpenTag l hl
  have hpart : lex (String.ofList (charsOf ps)) = place 0 ps := by
    rw [lex, String.toList_ofList, pieces_of_part ⟨qs, rs, by rw [hpieces]; simp⟩ htags]
  obtain ⟨s, hparse, hs⟩ := ofLexemes_of_derivation hplace.symm
    (String.ofList (charsOf ps)).utf8ByteSize
  rw [Derivation.span_of_place hplace.symm]
  refine ⟨_, _, _, Span.cuts_of_chars htext, s, ?_, hs⟩
  rw [compile, parse, hpart, hparse]

/-! ## The ranges of a template -/

/-- In the template of a text every tag, at any depth, covers its own range; the
ranges of neighbours follow each other, and those in a branch lie strictly inside the
conditional's. -/
theorem compile_spans (source : String) (t : Template) (h : compile source = .ok t) :
    (∀ s ∈ partsOf t.segments, ∀ span ∈ s.span?, s.Covers source span) ∧
    InRow (tagSpans t.segments) ∧
    ∀ name span thenPart elsePart, .cond name span thenPart elsePart ∈ partsOf t.segments →
      InRow (tagSpans thenPart) ∧ InRow (tagSpans elsePart) ∧
      ∀ s ∈ partsOf thenPart ++ partsOf elsePart, ∀ inner ∈ s.span?,
        span.start < inner.start ∧ inner.stop < span.stop := by
  obtain ⟨block, hblock, rfl⟩ := (compile_ok_iff source t).mp h
  have hordered : Ordered (lexemesOf block) := hblock ▸ ordered_lex source
  refine ⟨?_, inRow_of_ordered hordered, ?_⟩
  · intro s hs span hspan
    obtain ⟨d, hd, rfl⟩ := exists_derivation_of_mem_parts block hs
    rw [Derivation.span_of_mem hspan]
    rw [hblock] at hd
    exact Derivation.covers hd
  · intro name span thenPart elsePart hcond
    obtain ⟨e, he, hsegment⟩ := exists_derivation_of_mem_parts block hcond
    obtain ⟨opening, inner, closing, hlexemes, rfl, ⟨ds, rfl, hds⟩, es, rfl, hes⟩ :=
      Derivation.of_cond hsegment
    rw [hlexemes] at he
    have hlocal := hordered.of_sublist he.sublist
    have hinner : Ordered inner := by
      refine hlocal.of_sublist (List.Sublist.cons _ ?_)
      exact List.sublist_append_left _ _
    refine ⟨inRow_of_ordered (hinner.of_sublist hds.sublist),
      inRow_of_ordered (hinner.of_sublist hes.sublist), ?_⟩
    intro s hs innerSpan hspan
    rcases List.mem_append.mp hs with hs | hs
    · exact inside_of_ordered hlocal hds hs hspan
    · exact inside_of_ordered hlocal hes hs hspan

/-- A conditional behind a character of two octets, with tags in both branches. -/
def branchedSource : String :=
  "é\x7b\x7b#if A\x7d\x7dö\x7b\x7b X \x7d\x7d\x7b\x7belse\x7d\x7d\x7b\x7b#if B\x7d\x7db"
    ++ "\x7b\x7b/if\x7d\x7d\x7b\x7bY\x7d\x7d\x7b\x7b/if\x7d\x7d"

def branchedTemplate : Template :=
  ⟨[.text "é", .cond "A" ⟨2, 57⟩ [.text "ö", .interp "X" ⟨13, 20⟩]
    [.cond "B" ⟨28, 45⟩ [.text "b"] [], .interp "Y" ⟨45, 50⟩]]⟩

theorem compile_spans_branched :
    compile branchedSource = .ok branchedTemplate ∧
      (Segment.cond "B" ⟨28, 45⟩ [.text "b"] []).Covers branchedSource ⟨28, 45⟩ ∧
      InRow [⟨28, 45⟩, ⟨45, 50⟩] ∧ 2 < 28 ∧ 45 < 57 := by
  have hlex : lex branchedSource = [⟨.text "é", 0, 2⟩, ⟨.openIf "A", 2, 11⟩, ⟨.text "ö", 11, 13⟩,
      ⟨.interp "X", 13, 20⟩, ⟨.elseMark, 20, 28⟩, ⟨.openIf "B", 28, 37⟩, ⟨.text "b", 37, 38⟩,
      ⟨.closeIf, 38, 45⟩, ⟨.interp "Y", 45, 50⟩, ⟨.closeIf, 50, 57⟩] := by decide +kernel
  have hcompile : compile branchedSource = .ok branchedTemplate := by
    unfold compile parse
    rw [hlex]
    rfl
  obtain ⟨hcovers, -, hcond⟩ := compile_spans _ _ hcompile
  have hinner : Segment.cond "B" ⟨28, 45⟩ [.text "b"] [] ∈ partsOf branchedTemplate.segments := by
    simp [branchedTemplate, partsOf, Segment.parts]
  obtain ⟨-, helse, hinside⟩ := hcond "A" ⟨2, 57⟩ [.text "ö", .interp "X" ⟨13, 20⟩]
    [.cond "B" ⟨28, 45⟩ [.text "b"] [], .interp "Y" ⟨45, 50⟩]
    (by simp [branchedTemplate, partsOf, Segment.parts])
  have hstrict := hinside (.cond "B" ⟨28, 45⟩ [.text "b"] [])
    (by simp [partsOf, Segment.parts]) ⟨28, 45⟩ rfl
  exact ⟨hcompile, hcovers _ hinner ⟨28, 45⟩ rfl, helse, hstrict⟩

end ShaderGraph.Template
