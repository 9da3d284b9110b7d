import ShaderGraph.Proofs.Tokens
import ShaderGraph.Template.Segment

/-!
# Tokens in their places

The tokens of a text lie side by side from its first octet to its last.

* **nothing is lost** — the characters of the tokens are those of the text
  (`charsOf_pieces`), and their ranges leave no gap (`tiles_lex`);
* **where a token stands** — the range of a token cuts the text between two
  characters at both ends, and what is cut out is the first token of what begins
  there (`exists_next_of_mem_lex`).
-/

namespace ShaderGraph.Template

open ShaderGraph.Text

/-! ## Ranges in a text -/

/-- The range divides the text: `part` is what it covers, between `before` and
`after`. So both ends are ends of characters. -/
structure Span.Cuts (span : Span) (source before part after : String) : Prop where
  text : source = before ++ part ++ after
  start : span.start = before.utf8ByteSize
  stop : span.stop = (before ++ part).utf8ByteSize

/-- Ranges that are not empty and follow each other without gap, from one octet to
another. -/
def Tiles (start stop : Nat) : List Span → Prop
  | [] => start = stop
  | s :: rest => s.start = start ∧ s.start < s.stop ∧ Tiles s.stop stop rest

def Lexeme.span (l : Lexeme) : Span := ⟨l.start, l.stop⟩

theorem Span.cuts_of_chars {source : String} {before part after : List Char}
    (h : source.toList = before ++ part ++ after) :
    Span.Cuts ⟨octets before, octets before + octets part⟩ source (.ofList before)
      (.ofList part) (.ofList after) where
  text := by
    rw [← String.ofList_append, ← String.ofList_append, ← h, String.ofList_toList]
  start := octets_eq_utf8ByteSize before
  stop := by
    show octets before + octets part = _
    rw [← String.ofList_append, ← octets_eq_utf8ByteSize, octets_append]

theorem Tiles.pairwise {start stop : Nat} {spans : List Span} (h : Tiles start stop spans) :
    (∀ s ∈ spans, start ≤ s.start ∧ s.start < s.stop) ∧
      spans.Pairwise (fun s t => s.stop ≤ t.start) := by
  induction spans generalizing start with
  | nil => simp
  | cons s rest ih =>
    obtain ⟨hstart, hlt, hrest⟩ := h
    obtain ⟨hinside, hpairwise⟩ := ih hrest
    refine ⟨List.forall_mem_cons.mpr ⟨⟨by omega, hlt⟩, ?_⟩, List.pairwise_cons.mpr ⟨?_, hpairwise⟩⟩
    · intro t ht
      have htail := hinside t ht
      exact ⟨by omega, htail.2⟩
    · intro t ht
      exact (hinside t ht).1

/-! ## Pieces -/

/-- The characters of pieces one after the other. -/
def charsOf (ps : List Piece) : List Char := ps.flatMap (·.chars)

@[simp] theorem charsOf_nil : charsOf [] = [] := rfl

@[simp] theorem charsOf_cons (p : Piece) (ps : List Piece) :
    charsOf (p :: ps) = p.chars ++ charsOf ps := rfl

@[simp] theorem charsOf_append (ps qs : List Piece) :
    charsOf (ps ++ qs) = charsOf ps ++ charsOf qs := List.flatMap_append

/-- Cutting a text loses no character. -/
theorem charsOf_pieces (cs : List Char) : charsOf (pieces cs) = cs := by
  fun_induction pieces cs with
  | case1 => rfl
  | case2 c cs ih => rw [charsOf_cons, ih, next_append]

theorem ne_nil_of_mem_pieces {cs : List Char} {p : Piece} (hp : p ∈ pieces cs) :
    p.chars ≠ [] := by
  fun_induction pieces cs with
  | case1 => cases hp
  | case2 c cs ih =>
    rcases List.mem_cons.mp hp with rfl | hp
    · exact next_ne_nil c cs
    · exact ih hp

theorem octets_pos {cs : List Char} (h : cs ≠ []) : 0 < octets cs := by
  cases cs with
  | nil => exact absurd rfl h
  | cons c cs =>
    have hc := c.utf8Size_pos
    rw [octets_cons]
    omega

theorem place_append (start : Nat) (ps qs : List Piece) :
    place start (ps ++ qs) = place start ps ++ place (start + octets (charsOf ps)) qs := by
  induction ps generalizing start with
  | nil => rfl
  | cons p ps ih => simp [place, ih, Nat.add_assoc]

@[simp] theorem map_token_place (start : Nat) (ps : List Piece) :
    (place start ps).map (·.token) = ps.map (·.token) := by
  induction ps generalizing start with
  | nil => rfl
  | cons p ps ih => simp [place, ih]

theorem tiles_place (start : Nat) {ps : List Piece} (h : ∀ p ∈ ps, p.chars ≠ []) :
    Tiles start (start + octets (charsOf ps)) ((place start ps).map Lexeme.span) := by
  induction ps generalizing start with
  | nil => rfl
  | cons p ps ih =>
    rw [List.forall_mem_cons] at h
    have hp := octets_pos h.1
    have hps := ih (start + octets p.chars) h.2
    refine ⟨rfl, ?_, ?_⟩
    · show start < start + octets p.chars
      omega
    · rwa [charsOf_cons, octets_append, ← Nat.add_assoc]

theorem start_of_head?_place {start : Nat} {ps : List Piece} {l : Lexeme}
    (h : (place start ps).head? = some l) : l.start = start := by
  cases ps with
  | nil => cases h
  | cons p ps =>
    cases h
    rfl

theorem stop_of_getLast?_place {start : Nat} {ps : List Piece} {l : Lexeme}
    (h : (place start ps).getLast? = some l) : l.stop = start + octets (charsOf ps) := by
  rcases List.eq_nil_or_concat' ps with rfl | ⟨ps, p, rfl⟩
  · cases h
  · rw [place_append, place, place, List.getLast?_concat] at h
    cases h
    simp [Nat.add_assoc]

/-- Where placed tokens are parted, the pieces are. -/
theorem exists_pieces_of_place {start : Nat} {ps : List Piece} {front back : List Lexeme}
    (h : place start ps = front ++ back) : ∃ qs rs, ps = qs ++ rs ∧ place start qs = front ∧
      place (start + octets (charsOf qs)) rs = back := by
  induction front generalizing start ps with
  | nil => exact ⟨[], ps, rfl, rfl, h⟩
  | cons l front ih =>
    cases ps with
    | nil => cases h
    | cons p ps =>
      obtain ⟨hl, hrest⟩ := List.cons.inj h
      obtain ⟨qs, rs, rfl, hfront, hback⟩ := ih hrest
      refine ⟨p :: qs, rs, rfl, ?_, ?_⟩
      · rw [place, hl, hfront]
      · rwa [charsOf_cons, octets_append, ← Nat.add_assoc]

/-! ## The tokens of a text -/

/-- The tokens of a text cover it from end to end. -/
theorem tiles_lex (source : String) :
    Tiles 0 source.utf8ByteSize ((lex source).map Lexeme.span) := by
  have htiles := tiles_place 0 (fun p (hp : p ∈ pieces source.toList) => ne_nil_of_mem_pieces hp)
  rwa [charsOf_pieces, octets_toList, Nat.zero_add] at htiles

/-- Neighbours among tokens in place. -/
def Lexeme.Precedes (a b : Lexeme) : Prop := Follows a.token b.token

theorem lex_isChain (source : String) : (lex source).IsChain Lexeme.Precedes := by
  have hchain := pieces_isChain source.toList
  rw [← map_token_place 0, List.isChain_map] at hchain
  exact hchain

theorem exists_next_of_mem_pieces {cs : List Char} {start : Nat} {l : Lexeme}
    (hl : l ∈ place start (pieces cs)) :
    ∃ before c rest, cs = before ++ c :: rest ∧ l.token = (next c rest).1.token ∧
      l.start = start + octets before ∧ l.stop = l.start + octets (next c rest).1.chars := by
  fun_induction pieces cs generalizing start with
  | case1 => cases hl
  | case2 c cs ih =>
    rcases List.mem_cons.mp hl with rfl | hl
    · exact ⟨[], c, cs, rfl, rfl, rfl, rfl⟩
    · obtain ⟨before, d, rest, hcs, htoken, hstart, hstop⟩ := ih hl
      refine ⟨(next c cs).1.chars ++ before, d, rest, ?_, htoken, ?_, hstop⟩
      · rw [List.append_assoc, ← hcs, next_append]
      · rw [hstart, octets_append, Nat.add_assoc]

/-- A token is cut out of the text by its range, and it is the first token of what
begins there. -/
theorem exists_next_of_mem_lex {source : String} {l : Lexeme} (hl : l ∈ lex source) :
    ∃ before c rest, l.token = (next c rest).1.token ∧
      l.span.Cuts source (.ofList before) (.ofList (next c rest).1.chars)
        (.ofList (next c rest).2) := by
  obtain ⟨before, c, rest, htext, htoken, hstart, hstop⟩ := exists_next_of_mem_pieces hl
  refine ⟨before, c, rest, htoken, ?_⟩
  have hspan : l.span = ⟨octets before, octets before + octets (next c rest).1.chars⟩ := by
    rw [Lexeme.span, hstop, hstart, Nat.zero_add]
  rw [hspan]
  apply Span.cuts_of_chars
  rw [htext, List.append_assoc, next_append]

end ShaderGraph.Template
