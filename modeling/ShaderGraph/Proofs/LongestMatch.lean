import Mathlib.Computability.Language
import Mathlib.Data.List.DropRight
import ShaderGraph.Proofs.Placement
import ShaderGraph.Text

/-!
# Cutting by longest match

Every kind of token has a pattern. A scanner takes at each place the longest match
of any pattern, and of two kinds that match equally far the one of higher priority;
where nothing matches it refuses a character and goes on behind it. `Scanned` is
this scanner as a relation, with what it refuses. The tokens of a text are what it
finds, and it refuses nothing.

* **patterns** — the characters of a pattern are the ways to write its token
  (`Kind.spelled_of_mem`, `Token.Spelled.mem_pattern`), and the name of a tag is
  found by taking away what is around it (`tagWord_name`, `tagWord_openIf`);
* **one token** — the first token of a text is a longest match (`next_longest`) and
  there is no other (`Longest.next_eq`);
* **all tokens** — so a scan finds the tokens of the text (`scanned_iff`).

`lex_lossless` adds where the tokens stand and what each says about its characters.
-/

namespace ShaderGraph.Template

open ShaderGraph.Text Computability

/-! ## Patterns -/

/-- What a token is, without what it carries. -/
inductive Kind where
  | openIf
  | elseMark
  | closeIf
  | interp
  | openTag
  | text
  | brace
deriving DecidableEq, Repr

/-- These characters and no others. -/
def exactly (word : List Char) : Language Char := {word}

/-- One character of a class. -/
def oneOf (p : Char → Bool) : Language Char := {cs | ∃ c, p c = true ∧ cs = [c]}

/-- Any number of characters of a class. -/
def manyOf (p : Char → Bool) : Language Char := (oneOf p)∗

/-- At least one character of a class. -/
def someOf (p : Char → Bool) : Language Char := oneOf p * manyOf p

/-- An identifier. -/
def nameWord : Language Char := oneOf isNameStart * manyOf isNameChar

/-- Double braces around a word, with blanks on both sides of it. -/
def tagOf (word : Language Char) : Language Char :=
  exactly ['{', '{'] * manyOf isTagBlank * word * manyOf isTagBlank * exactly ['}', '}']

/-- What the tokens of a kind are written with. -/
def Kind.pattern : Kind → Language Char
  | .openIf => tagOf (exactly ['#', 'i', 'f'] * someOf isTagBlank * nameWord)
  | .elseMark => tagOf (exactly ['e', 'l', 's', 'e'])
  | .closeIf => tagOf (exactly ['/', 'i', 'f'])
  | .interp => tagOf nameWord
  | .openTag => exactly ['{', '{'] * manyOf isOpenTagChar
  | .text => someOf isPlain
  | .brace => exactly ['{']

/-- Which kind is taken if several match the same characters. Only `else` is also a
name, so it is enough to put the keywords first. -/
def Kind.priority : Kind → Nat
  | .openIf | .elseMark | .closeIf => 20
  | .interp | .openTag | .text | .brace => 0

/-- The four kinds of tag. -/
def Kind.isTag : Kind → Bool
  | .openIf | .elseMark | .closeIf | .interp => true
  | .openTag | .text | .brace => false

/-- Characters without the blanks around them. -/
def trimmed (cs : List Char) : List Char := (cs.dropWhile isBlank).rdropWhile isBlank

def withoutIf : List Char → List Char
  | '#' :: 'i' :: 'f' :: rest => rest
  | cs => cs

/-- The word of a tag: what is left without the braces, the blanks and `#if`. -/
def tagWord (chars : List Char) : List Char :=
  trimmed (withoutIf (trimmed ((chars.drop 2).rdrop 2)))

/-- The token of a kind that the characters make. -/
def Kind.token (chars : List Char) : Kind → Token
  | .openIf => .openIf (String.ofList (tagWord chars))
  | .elseMark => .elseMark
  | .closeIf => .closeIf
  | .interp => .interp (String.ofList (tagWord chars))
  | .openTag => .openTag
  | .text => .text (String.ofList chars)
  | .brace => .brace

def Token.kind : Token → Kind
  | .openIf _ => .openIf
  | .elseMark => .elseMark
  | .closeIf => .closeIf
  | .interp _ => .interp
  | .openTag => .openTag
  | .text _ => .text
  | .brace => .brace

/-! ## Scanning -/

/-- The characters are the longest that match at the front of the text, and the
kind is the first of those that match them. -/
structure Longest (text : List Char) (kind : Kind) (chars : List Char) : Prop where
  front : chars <+: text
  hit : chars ∈ kind.pattern
  longest : ∀ (other : Kind) (found : List Char), found <+: text → found ∈ other.pattern →
    found.length ≤ chars.length
  first : ∀ other : Kind, chars ∈ other.pattern → other.priority ≤ kind.priority

/-- A scan of characters from octet `start` on: the tokens it finds, and the ranges
that it refuses. -/
inductive Scanned : (start : Nat) → List Char → List Lexeme → (refused : List Span) → Prop
  | done {start : Nat} : Scanned start [] [] []
  | token {start : Nat} {kind : Kind} {chars rest : List Char} {tokens : List Lexeme}
      {refused : List Span} : Longest (chars ++ rest) kind chars →
      Scanned (start + octets chars) rest tokens refused →
      Scanned start (chars ++ rest)
        (⟨kind.token chars, start, start + octets chars⟩ :: tokens) refused
  | refuse {start : Nat} {c : Char} {rest : List Char} {tokens : List Lexeme}
      {refused : List Span} :
      (∀ (kind : Kind) (found : List Char), found <+: c :: rest → found ∉ kind.pattern) →
      Scanned (start + c.utf8Size) rest tokens refused →
      Scanned start (c :: rest) tokens (⟨start, start + c.utf8Size⟩ :: refused)

/-! ## The characters of a pattern -/

@[simp] theorem mem_exactly {word cs : List Char} : cs ∈ exactly word ↔ cs = word := Iff.rfl

@[simp] theorem mem_manyOf {p : Char → Bool} {cs : List Char} :
    cs ∈ manyOf p ↔ ∀ c ∈ cs, p c = true := by
  rw [manyOf, Language.mem_kstar]
  constructor
  · rintro ⟨words, rfl, hwords⟩ c hc
    obtain ⟨word, hword, hc⟩ := List.mem_flatten.mp hc
    obtain ⟨d, hd, rfl⟩ := hwords word hword
    rwa [List.mem_singleton.mp hc]
  · intro h
    refine ⟨cs.map ([·]), by rw [← List.flatMap_def, List.flatMap_singleton'], ?_⟩
    intro word hword
    obtain ⟨c, hc, rfl⟩ := List.mem_map.mp hword
    exact ⟨c, h c hc, rfl⟩

theorem mem_oneOf_mul {p q : Char → Bool} {cs : List Char} :
    cs ∈ oneOf p * manyOf q ↔ ∃ c rest, cs = c :: rest ∧ p c = true ∧ ∀ d ∈ rest, q d = true := by
  rw [Language.mem_mul]
  constructor
  · rintro ⟨_, ⟨c, hc, rfl⟩, rest, hrest, rfl⟩
    exact ⟨c, rest, rfl, hc, mem_manyOf.mp hrest⟩
  · rintro ⟨c, rest, rfl, hc, hrest⟩
    exact ⟨[c], ⟨c, hc, rfl⟩, rest, mem_manyOf.mpr hrest, rfl⟩

theorem mem_someOf {p : Char → Bool} {cs : List Char} :
    cs ∈ someOf p ↔ cs ≠ [] ∧ ∀ c ∈ cs, p c = true := by
  rw [someOf, mem_oneOf_mul]
  cases cs <;> simp

theorem mem_nameWord {cs : List Char} : cs ∈ nameWord ↔ IsName cs := by
  rw [nameWord, mem_oneOf_mul, ← isNameList_iff]
  cases cs <;> simp [isNameList]

theorem mem_tagOf {word : Language Char} {chars : List Char} :
    chars ∈ tagOf word ↔ ∃ before inside after, Blanks before ∧ inside ∈ word ∧ Blanks after ∧
      chars = '{' :: '{' :: (before ++ (inside ++ (after ++ ['}', '}']))) := by
  simp only [tagOf, mul_assoc, Language.mem_mul, mem_exactly, mem_manyOf]
  constructor
  · rintro ⟨_, rfl, _, ⟨before, hbefore, _, ⟨inside, hinside, _, ⟨after, hafter, _, rfl, rfl⟩,
      rfl⟩, rfl⟩, rfl⟩
    exact ⟨before, inside, after, hbefore, hinside, hafter, rfl⟩
  · rintro ⟨before, inside, after, hbefore, hinside, hafter, rfl⟩
    exact ⟨_, rfl, _, ⟨before, hbefore, _, ⟨inside, hinside, _, ⟨after, hafter, _, rfl, rfl⟩,
      rfl⟩, rfl⟩, rfl⟩

/-- What stands in a tag that opens a conditional. -/
theorem mem_ifWord {inside : List Char} :
    inside ∈ exactly ['#', 'i', 'f'] * someOf isTagBlank * nameWord ↔ ∃ between name,
      Blanks between ∧ between ≠ [] ∧ IsName name ∧
        inside = '#' :: 'i' :: 'f' :: (between ++ name) := by
  simp only [mul_assoc, Language.mem_mul, mem_exactly, mem_someOf, mem_nameWord]
  constructor
  · rintro ⟨_, rfl, _, ⟨between, ⟨hne, hbetween⟩, name, hname, rfl⟩, rfl⟩
    exact ⟨between, name, hbetween, hne, hname, rfl⟩
  · rintro ⟨between, name, hbetween, hne, hname, rfl⟩
    exact ⟨_, rfl, _, ⟨between, ⟨hne, hbetween⟩, name, hname, rfl⟩, rfl⟩

theorem mem_openTag {chars : List Char} : chars ∈ Kind.openTag.pattern ↔ ∃ run,
    (∀ c ∈ run, isOpenTagChar c = true) ∧ chars = '{' :: '{' :: run := by
  simp only [Kind.pattern, Language.mem_mul, mem_exactly, mem_manyOf]
  constructor
  · rintro ⟨_, rfl, run, hrun, rfl⟩
    exact ⟨run, hrun, rfl⟩
  · rintro ⟨run, hrun, rfl⟩
    exact ⟨_, rfl, run, hrun, rfl⟩

theorem Kind.ne_nil_of_mem {kind : Kind} {chars : List Char} (h : chars ∈ kind.pattern) :
    chars ≠ [] := by
  rintro rfl
  cases kind with
  | openIf | elseMark | closeIf | interp =>
    obtain ⟨_, _, _, _, _, _, heq⟩ := mem_tagOf.mp h
    cases heq
  | openTag =>
    obtain ⟨_, _, heq⟩ := mem_openTag.mp h
    cases heq
  | text => exact (mem_someOf.mp h).1 rfl
  | brace => cases mem_exactly.mp h

/-! ## The word of a tag -/

theorem isBlank_of_isTagBlank {c : Char} (h : isTagBlank c = true) : isBlank c = true := by
  simp only [isTagBlank, Bool.or_eq_true, beq_iff_eq] at h
  rcases h with rfl | rfl
  · decide
  · decide

theorem isBlank_of_isNameChar {c : Char} (h : isNameChar c = true) : isBlank c = false := by
  have hrange : 0x30 ≤ c.toNat ∧ c.toNat ≤ 0x7a := by
    rw [isNameChar_iff] at h
    rcases h with (⟨hlo, hhi⟩ | ⟨hlo, hhi⟩) | ⟨hlo, hhi⟩ | rfl
    · exact ⟨le_trans (by decide) (Char.le_def.mp hlo), le_trans (Char.le_def.mp hhi) (by decide)⟩
    · exact ⟨le_trans (by decide) (Char.le_def.mp hlo), le_trans (Char.le_def.mp hhi) (by decide)⟩
    · exact ⟨le_trans (by decide) (Char.le_def.mp hlo), le_trans (Char.le_def.mp hhi) (by decide)⟩
    · decide
  simp only [isBlank, Bool.or_eq_false_iff, Bool.and_eq_false_iff, decide_eq_false_iff_not,
    beq_eq_false_iff_ne]
  omega

/-- Blanks around a word are trimmed, and no more if the word neither begins nor
ends with one. -/
theorem trimmed_word {before word after : List Char} (hbefore : Blanks before)
    (hafter : Blanks after) (hhead : ∀ c ∈ word.head?, isBlank c = false)
    (hlast : ∀ c ∈ word.getLast?, isBlank c = false) (hne : word ≠ []) :
    trimmed (before ++ (word ++ after)) = word := by
  have hfront : (before ++ (word ++ after)).dropWhile isBlank = word ++ after := by
    refine dropWhile_run (fun c hc => isBlank_of_isTagBlank (hbefore c hc)) ?_
    intro c hc
    rw [List.head?_append_of_ne_nil _ hne] at hc
    exact hhead c hc
  have hback : (after.reverse ++ word.reverse).dropWhile isBlank = word.reverse := by
    refine dropWhile_run (fun c hc => isBlank_of_isTagBlank (hafter c ?_)) ?_
    · simpa using hc
    · intro c hc
      rw [List.head?_reverse] at hc
      exact hlast c hc
  rw [trimmed, hfront, List.rdropWhile, List.reverse_append, hback, List.reverse_reverse]

theorem name_ends {name : List Char} (h : IsName name) :
    name ≠ [] ∧ (∀ c ∈ name.head?, isBlank c = false) ∧
      ∀ c ∈ name.getLast?, isBlank c = false := by
  have hall : ∀ c ∈ name, isBlank c = false := by
    rw [← isNameList_iff] at h
    cases name with
    | nil => cases h
    | cons c name =>
      simp only [isNameList, Bool.and_eq_true, List.all_eq_true] at h
      refine List.forall_mem_cons.mpr ⟨?_, ?_⟩
      · exact isBlank_of_isNameChar (isNameChar_of_isNameStart h.1)
      · exact fun d hd => isBlank_of_isNameChar (h.2 d hd)
  refine ⟨?_, fun c hc => hall c (List.mem_of_mem_head? hc),
    fun c hc => hall c (List.mem_of_mem_getLast? hc)⟩
  rintro rfl
  exact h

theorem tagWord_eq (before inside after : List Char) :
    tagWord ('{' :: '{' :: (before ++ (inside ++ (after ++ ['}', '}'])))) =
      trimmed (withoutIf (trimmed (before ++ (inside ++ after)))) := by
  have hinner : (('{' :: '{' :: (before ++ (inside ++ (after ++ ['}', '}'])))).drop 2).rdrop 2 =
      before ++ (inside ++ after) := by
    simp [List.rdrop, ← List.append_assoc]
  rw [tagWord, hinner]

theorem tagWord_name {before name after : List Char} (hbefore : Blanks before)
    (hname : IsName name) (hafter : Blanks after) :
    tagWord ('{' :: '{' :: (before ++ (name ++ (after ++ ['}', '}'])))) = name := by
  obtain ⟨hne, hhead, hlast⟩ := name_ends hname
  have hplain : withoutIf name = name := by
    obtain ⟨c, cs, rfl, -, hhash, -⟩ := exists_cons_of_isName hname
    unfold withoutIf
    split
    · next heq => exact absurd (List.cons.inj heq).1 hhash
    · rfl
  have hnone : Blanks [] := by simp [Blanks]
  have hagain := trimmed_word hnone hnone hhead hlast hne
  rw [tagWord_eq, trimmed_word hbefore hafter hhead hlast hne, hplain]
  simpa using hagain

theorem tagWord_openIf {before between name after : List Char} (hbefore : Blanks before)
    (hbetween : Blanks between) (hname : IsName name) (hafter : Blanks after) :
    tagWord ('{' :: '{' :: (before ++ (('#' :: 'i' :: 'f' :: (between ++ name)) ++
      (after ++ ['}', '}'])))) = name := by
  obtain ⟨hne, hhead, hlast⟩ := name_ends hname
  have hlast' : ∀ c ∈ ('#' :: 'i' :: 'f' :: (between ++ name)).getLast?, isBlank c = false := by
    intro c hc
    have hsplit : '#' :: 'i' :: 'f' :: (between ++ name) = ('#' :: 'i' :: 'f' :: between) ++ name :=
      rfl
    rw [hsplit, List.getLast?_append_of_ne_nil _ hne] at hc
    exact hlast c hc
  have hnone : Blanks [] := by simp [Blanks]
  have hword := trimmed_word hbetween hnone hhead hlast hne
  rw [tagWord_eq, trimmed_word hbefore hafter (by simp [isBlank]) hlast' (by simp)]
  simpa [withoutIf] using hword

/-! ## Patterns and spelling -/

/-- Characters of a pattern write the token of its kind; `else` in the pattern of a
name writes the keyword. -/
theorem Kind.spelled_of_mem {kind : Kind} {chars : List Char} (hkind : kind ≠ .openTag)
    (h : chars ∈ kind.pattern) : (kind.token chars).Spelled chars ∨
      (kind = .interp ∧ Token.elseMark.Spelled chars) := by
  cases kind with
  | openIf =>
    obtain ⟨before, inside, after, hbefore, hinside, hafter, rfl⟩ := mem_tagOf.mp h
    obtain ⟨between, name, hbetween, hne, hname, rfl⟩ := mem_ifWord.mp hinside
    have hspelled := Token.Spelled.openIf hbefore hbetween hne hname hafter
    rw [Kind.token, tagWord_openIf hbefore hbetween hname hafter]
    simpa using hspelled
  | elseMark =>
    obtain ⟨before, _, after, hbefore, rfl, hafter, rfl⟩ := mem_tagOf.mp h
    exact .inl (.elseMark hbefore hafter)
  | closeIf =>
    obtain ⟨before, _, after, hbefore, rfl, hafter, rfl⟩ := mem_tagOf.mp h
    exact .inl (.closeIf hbefore hafter)
  | interp =>
    obtain ⟨before, name, after, hbefore, hname, hafter, rfl⟩ := mem_tagOf.mp h
    rw [mem_nameWord] at hname
    by_cases helse : name = ['e', 'l', 's', 'e']
    · subst helse
      exact .inr ⟨rfl, .elseMark hbefore hafter⟩
    · rw [Kind.token, tagWord_name hbefore hname hafter]
      exact .inl (.interp hbefore hname helse hafter)
  | openTag => exact absurd rfl hkind
  | text =>
    obtain ⟨hne, hplain⟩ := mem_someOf.mp h
    refine .inl (.text hne ?_)
    intro hmem
    simpa [isPlain] using hplain _ hmem
  | brace =>
    cases mem_exactly.mp h
    exact .inl .brace

/-- What writes a token is of its pattern, and the token can be read off it. -/
theorem Token.Spelled.mem_pattern {token : Token} {chars : List Char} (h : token.Spelled chars) :
    chars ∈ token.kind.pattern ∧ token.kind.token chars = token := by
  cases h with
  | @openIf before between name after hbefore hbetween hne hname hafter =>
    have hword := tagWord_openIf hbefore hbetween hname hafter
    rw [List.cons_append, List.cons_append, List.cons_append, List.append_assoc] at hword
    refine ⟨mem_tagOf.mpr ⟨before, _, after, hbefore,
      mem_ifWord.mpr ⟨between, name, hbetween, hne, hname, rfl⟩, hafter, by simp⟩, ?_⟩
    rw [Token.kind, Kind.token, hword]
  | elseMark hbefore hafter =>
    exact ⟨mem_tagOf.mpr ⟨_, _, _, hbefore, mem_exactly.mpr rfl, hafter, rfl⟩, rfl⟩
  | closeIf hbefore hafter =>
    exact ⟨mem_tagOf.mpr ⟨_, _, _, hbefore, mem_exactly.mpr rfl, hafter, rfl⟩, rfl⟩
  | @interp before name after hbefore hname _ hafter =>
    refine ⟨mem_tagOf.mpr ⟨before, name, after, hbefore, mem_nameWord.mpr hname, hafter, rfl⟩, ?_⟩
    rw [Token.kind, Kind.token, tagWord_name hbefore hname hafter]
  | text hne hplain =>
    refine ⟨mem_someOf.mpr ⟨hne, ?_⟩, rfl⟩
    intro c hc
    simp only [isPlain, bne_iff_ne]
    rintro rfl
    exact hplain hc
  | brace => exact ⟨mem_exactly.mpr rfl, rfl⟩

theorem close_not_mem_openTag {chars : List Char} (h : chars ∈ Kind.openTag.pattern) :
    '}' ∉ chars := by
  obtain ⟨run, hrun, rfl⟩ := mem_openTag.mp h
  intro hmem
  have hrun' : '}' ∈ run := by simpa using hmem
  simpa [isOpenTagChar] using hrun _ hrun'

/-- A tag ends in closing braces. -/
theorem Token.Spelled.close_mem {token : Token} {chars : List Char} (h : token.Spelled chars)
    (htag : token.kind.isTag = true) : '}' ∈ chars := by
  cases h with
  | text | brace => cases htag
  | _ => simp

theorem Token.Spelled.not_mem_openTag {token : Token} {chars : List Char}
    (h : token.Spelled chars) : chars ∉ Kind.openTag.pattern := by
  intro hopen
  cases h with
  | text _ hplain =>
    obtain ⟨run, _, rfl⟩ := mem_openTag.mp hopen
    exact hplain List.mem_cons_self
  | brace =>
    obtain ⟨run, _, heq⟩ := mem_openTag.mp hopen
    cases heq
  | openIf | elseMark | closeIf | interp =>
    exact close_not_mem_openTag hopen (by simp)

theorem Token.Spelled.unique {token other : Token} {chars : List Char} (h : token.Spelled chars)
    (hother : other.Spelled chars) : token = other := by
  have hends : ∀ t : Token, t.Fits [] := by
    intro t
    cases t <;> simp [Token.Fits]
  have hpieces := (h.pieces (hends token)).symm.trans (hother.pieces (hends other))
  simpa using hpieces

theorem Token.fits_of_isTag {token : Token} (h : token.kind.isTag = true) (rest : List Char) :
    token.Fits rest := by
  refine Token.fits_of_tag ?_ ?_ rest
  · cases token <;> simp_all [Token.kind, Kind.isTag, Token.isText]
  · rintro rfl
    cases h

theorem Token.Spelled.isTag {token : Token} {chars : List Char} (h : token.Spelled chars)
    (htext : token.isText = false) (hbrace : token ≠ .brace) : token.kind.isTag = true := by
  cases h with
  | text => cases htext
  | brace => exact absurd rfl hbrace
  | openIf | elseMark | closeIf | interp => rfl

/-! ## The first token is the longest match -/

/-- A token that is written out at the front of a text, and fits what follows, is
its first token. -/
theorem next_of_spelled {token : Token} {chars rest : List Char} {c : Char} {cs : List Char}
    (h : token.Spelled chars) (hfits : token.Fits rest) (htext : c :: cs = chars ++ rest) :
    (next c cs).1 = ⟨token, chars⟩ := by
  have hpieces := h.pieces hfits
  rw [← htext, pieces] at hpieces
  exact (List.cons.inj hpieces).1

/-- If a tag matches at the front of a text, its characters are those of the first
token. -/
theorem next_of_tag {kind : Kind} {found : List Char} {c : Char} {cs : List Char}
    (htag : kind.isTag = true) (hfront : found <+: c :: cs) (hfound : found ∈ kind.pattern) :
    (next c cs).1.chars = found ∧ (next c cs).1.token.kind.isTag = true ∧
      kind.priority ≤ (next c cs).1.token.kind.priority := by
  obtain ⟨rest, htext⟩ := hfront
  have hkind : kind ≠ .openTag := by
    rintro rfl
    cases htag
  rcases Kind.spelled_of_mem hkind hfound with hspelled | ⟨rfl, hspelled⟩
  · have hsame : (kind.token found).kind = kind := by cases kind <;> rfl
    have hfits := Token.fits_of_isTag (hsame.symm ▸ htag) rest
    rw [next_of_spelled hspelled hfits htext.symm]
    exact ⟨rfl, hsame.symm ▸ htag, le_of_eq (congrArg Kind.priority hsame.symm)⟩
  · rw [next_of_spelled hspelled trivial htext.symm]
    exact ⟨rfl, rfl, Nat.zero_le _⟩

theorem length_le_takeWhile {p : Char → Bool} {run cs : List Char} (h : run <+: cs)
    (hrun : ∀ c ∈ run, p c = true) : run.length ≤ (cs.takeWhile p).length := by
  obtain ⟨rest, rfl⟩ := h
  rw [List.takeWhile_append_of_pos hrun, List.length_append]
  omega

/-- The ways a first token comes about: a tag, an open tag where there is no tag, a
brace, or text. -/
theorem next_cases (c : Char) (cs : List Char) :
    ((next c cs).1.token.kind.isTag = true ∧ (next c cs).1.token.Spelled (next c cs).1.chars) ∨
    (∃ inner, c = '{' ∧ cs = '{' :: inner ∧ tag? inner = none ∧
      next c cs = (⟨.openTag, '{' :: '{' :: inner.takeWhile isOpenTagChar⟩,
        inner.dropWhile isOpenTagChar)) ∨
    (c = '{' ∧ cs.head? ≠ some '{' ∧ next c cs = (⟨.brace, ['{']⟩, cs)) ∨
    (c ≠ '{' ∧ next c cs = (⟨.text (String.ofList (c :: cs.takeWhile isPlain)),
      c :: cs.takeWhile isPlain⟩, cs.dropWhile isPlain)) := by
  unfold next
  split
  · next hc =>
    subst hc
    split
    · next inner =>
      split
      · next found hfound =>
        obtain ⟨hspelled, htext, hbrace⟩ := tag?_spelled hfound
        exact .inl ⟨hspelled.isTag htext hbrace, hspelled⟩
      · next hnone => exact .inr (.inl ⟨inner, rfl, rfl, hnone, rfl⟩)
    · next hsingle =>
      refine .inr (.inr (.inl ⟨rfl, ?_, rfl⟩))
      intro hhead
      exact hsingle cs.tail (List.eq_cons_of_mem_head? hhead)
  · next hc => exact .inr (.inr (.inr ⟨hc, rfl⟩))

theorem hit_of_next (c : Char) (cs : List Char) :
    (next c cs).1.chars ∈ (next c cs).1.token.kind.pattern ∧
      (next c cs).1.token.kind.token (next c cs).1.chars = (next c cs).1.token := by
  rcases (next_spec c cs).1 with hopen | hspelled
  · rcases next_cases c cs with ⟨-, hspelled⟩ | ⟨inner, -, -, -, hnext⟩ | ⟨-, -, hnext⟩ | ⟨-, hnext⟩
    · exact hspelled.mem_pattern
    · rw [hnext]
      exact ⟨mem_openTag.mpr ⟨_, fun c hc => List.mem_takeWhile_imp hc, rfl⟩, rfl⟩
    · rw [hnext] at hopen
      cases hopen
    · rw [hnext] at hopen
      cases hopen
  · exact hspelled.mem_pattern

/-- An open tag ends before a brace, so no open tag is longer than a tag. -/
theorem openTag_length_le {c : Char} {cs found : List Char} (hfront : found <+: c :: cs)
    (hfound : found ∈ Kind.openTag.pattern) : found.length ≤ (next c cs).1.chars.length := by
  have hchars : (next c cs).1.chars <+: c :: cs := ⟨_, next_append c cs⟩
  rcases next_cases c cs with ⟨htag, hspelled⟩ | ⟨inner, rfl, rfl, -, hnext⟩ | ⟨rfl, hsingle, -⟩ |
    ⟨hc, -⟩
  · by_contra hlt
    have hbefore := List.prefix_of_prefix_length_le hchars hfront (by omega)
    exact close_not_mem_openTag hfound (hbefore.subset (hspelled.close_mem htag))
  · obtain ⟨run, hrun, rfl⟩ := mem_openTag.mp hfound
    rw [List.cons_prefix_cons, List.cons_prefix_cons] at hfront
    have hle := length_le_takeWhile hfront.2.2 hrun
    rw [hnext]
    simpa using hle
  · obtain ⟨run, _, rfl⟩ := mem_openTag.mp hfound
    obtain ⟨rest, htext⟩ := hfront
    cases htext
    exact absurd rfl hsingle
  · obtain ⟨run, _, rfl⟩ := mem_openTag.mp hfound
    rw [List.cons_prefix_cons] at hfront
    exact absurd hfront.1.symm hc

theorem text_length_le {c : Char} {cs found : List Char} (hfront : found <+: c :: cs)
    (hfound : found ∈ Kind.text.pattern) : found.length ≤ (next c cs).1.chars.length := by
  obtain ⟨hne, hplain⟩ := mem_someOf.mp hfound
  cases found with
  | nil => exact absurd rfl hne
  | cons d found =>
    rw [List.cons_prefix_cons] at hfront
    obtain ⟨rfl, hfront⟩ := hfront
    rw [List.forall_mem_cons] at hplain
    have hd : d ≠ '{' := by simpa [isPlain] using hplain.1
    have hle := length_le_takeWhile hfront hplain.2
    unfold next
    rw [if_neg hd]
    simpa using hle

/-- The first token of a text is a longest match. -/
theorem next_longest (c : Char) (cs : List Char) :
    Longest (c :: cs) (next c cs).1.token.kind (next c cs).1.chars where
  front := ⟨_, next_append c cs⟩
  hit := (hit_of_next c cs).1
  longest := by
    intro other found hfront hfound
    cases other with
    | openIf | elseMark | closeIf | interp =>
      rw [(next_of_tag rfl hfront hfound).1]
    | openTag => exact openTag_length_le hfront hfound
    | text => exact text_length_le hfront hfound
    | brace =>
      cases mem_exactly.mp hfound
      exact List.length_pos_iff.mpr (next_ne_nil c cs)
  first := by
    intro other hother
    cases other with
    | openIf | elseMark | closeIf =>
      exact (next_of_tag rfl ⟨_, next_append c cs⟩ hother).2.2
    | interp | openTag | text | brace => exact Nat.zero_le _

/-- There is no other longest match than the first token. -/
theorem Longest.next_eq {c : Char} {cs chars rest : List Char} {kind : Kind}
    (h : Longest (c :: cs) kind chars) (htext : c :: cs = chars ++ rest) :
    next c cs = (⟨kind.token chars, chars⟩, rest) := by
  have hfirst := next_longest c cs
  have hlength : chars.length = (next c cs).1.chars.length :=
    Nat.le_antisymm (hfirst.longest kind chars h.front h.hit)
      (h.longest _ _ hfirst.front hfirst.hit)
  have hchars : chars = (next c cs).1.chars :=
    (List.prefix_of_prefix_length_le h.front hfirst.front (by omega)).eq_of_length hlength
  have hrest : (next c cs).2 = rest := by
    have happend := next_append c cs
    rw [htext, ← hchars] at happend
    exact List.append_cancel_left happend
  have htoken : (next c cs).1.token = kind.token chars := by
    by_cases hkind : kind = .openTag
    · subst hkind
      -- what writes another token holds a closing brace, no brace or a single one
      refine (next_spec c cs).1.resolve_right ?_
      intro hspelled
      exact hspelled.not_mem_openTag (hchars ▸ h.hit)
    · rcases Kind.spelled_of_mem hkind h.hit with hspelled | ⟨rfl, hspelled⟩
      · rcases (next_spec c cs).1 with hopen | hnext
        · have hhit := hfirst.hit
          rw [hopen, ← hchars] at hhit
          exact absurd hhit hspelled.not_mem_openTag
        · rw [← hchars] at hnext
          exact hnext.unique hspelled
      · -- the keyword would have come first
        have hle := h.first .elseMark hspelled.mem_pattern.1
        cases hle
  rw [hchars] at htoken ⊢
  rw [← htoken, ← hrest]

/-! ## Scans -/

/-- A scan finds the tokens of the text and refuses nothing. -/
theorem scanned_iff {start : Nat} {cs : List Char} {tokens : List Lexeme} {refused : List Span} :
    Scanned start cs tokens refused ↔ tokens = place start (pieces cs) ∧ refused = [] := by
  constructor
  · intro h
    induction h with
    | done => simp [pieces, place]
    | @token start kind chars rest tokens refused hlongest _ ih =>
      obtain ⟨rfl, rfl⟩ := ih
      cases htext : chars ++ rest with
      | nil =>
        obtain ⟨rfl, -⟩ := List.append_eq_nil_iff.mp htext
        exact absurd rfl (Kind.ne_nil_of_mem hlongest.hit)
      | cons c cs =>
        rw [htext] at hlongest
        rw [pieces, hlongest.next_eq htext.symm]
        exact ⟨rfl, rfl⟩
    | @refuse start c rest tokens refused hnone _ _ =>
      have hfirst := next_longest c rest
      exact absurd hfirst.hit (hnone _ _ hfirst.front)
  · rintro ⟨rfl, rfl⟩
    fun_induction pieces cs generalizing start with
    | case1 => exact .done
    | case2 c cs ih =>
      have hfirst := next_longest c cs
      rw [← next_append c cs] at hfirst
      have hscan := Scanned.token hfirst (@ih (start + octets (next c cs).1.chars))
      rw [next_append, (hit_of_next c cs).2] at hscan
      exact hscan

/-! ## The tokens of a text -/

/-- What a token says about the characters that it covers and those after it. -/
structure Token.Reads (token : Token) (chars after : List Char) : Prop where
  text : ∀ content, token = .text content → content.toList = chars ∧ '{' ∉ chars
  brace : token = .brace → chars = ['{'] ∧ after.head? ≠ some '{'
  tag : token.kind.isTag = true → chars ∈ token.kind.pattern ∧ token.Spelled chars
  openTag : ['{', '{'] <+: chars ++ after → (token = .openTag ↔
    ∀ kind : Kind, kind.isTag = true → ∀ found, found <+: chars ++ after → found ∉ kind.pattern)
  reach : token = .openTag → ∃ run, chars = '{' :: '{' :: run ∧
    (∀ c ∈ run, c ≠ '{' ∧ c ≠ '}') ∧ ∀ c ∈ after.head?, c = '{' ∨ c = '}'

theorem openTag_iff_no_tag {c : Char} {cs : List Char} (h : ['{', '{'] <+: c :: cs) :
    (next c cs).1.token = .openTag ↔
      ∀ kind : Kind, kind.isTag = true → ∀ found, found <+: c :: cs → found ∉ kind.pattern := by
  constructor
  · intro hopen kind htag found hfront hfound
    have hnext := (next_of_tag htag hfront hfound).2.1
    rw [hopen] at hnext
    cases hnext
  · intro hnone
    obtain ⟨inner, htext⟩ := h
    obtain ⟨rfl, rfl⟩ : '{' = c ∧ '{' :: inner = cs := List.cons.inj htext
    rcases next_cases '{' ('{' :: inner) with
      ⟨htag, hspelled⟩ | ⟨_, -, -, -, hnext⟩ | ⟨-, hsingle, -⟩ | ⟨hc, -⟩
    · exact absurd hspelled.mem_pattern.1 (hnone _ htag _ ⟨_, next_append _ _⟩)
    · rw [hnext]
    · exact absurd rfl hsingle
    · exact absurd rfl hc

theorem next_reads (c : Char) (cs : List Char) :
    (next c cs).1.token.Reads (next c cs).1.chars (next c cs).2 where
  text := by
    intro content hcontent
    have hspelled := (next_spec c cs).1
    rw [hcontent] at hspelled
    cases hspelled.resolve_left nofun with
    | text _ hplain => exact ⟨String.toList_ofList, hplain⟩
  brace := by
    intro hbrace
    rcases next_cases c cs with ⟨htag, -⟩ | ⟨_, -, -, -, hnext⟩ | ⟨-, hsingle, hnext⟩ | ⟨-, hnext⟩
    · rw [hbrace] at htag
      cases htag
    · rw [hnext] at hbrace
      cases hbrace
    · rw [hnext]
      exact ⟨rfl, hsingle⟩
    · rw [hnext] at hbrace
      cases hbrace
  tag := by
    intro htag
    have hnotOpen : (next c cs).1.token ≠ .openTag := by
      intro hopen
      rw [hopen] at htag
      cases htag
    have hspelled := (next_spec c cs).1.resolve_left hnotOpen
    exact ⟨hspelled.mem_pattern.1, hspelled⟩
  openTag := by
    rw [next_append]
    exact openTag_iff_no_tag
  reach := by
    intro hopen
    rcases next_cases c cs with ⟨htag, -⟩ | ⟨inner, -, -, -, hnext⟩ | ⟨-, -, hnext⟩ | ⟨-, hnext⟩
    · rw [hopen] at htag
      cases htag
    · rw [hnext]
      refine ⟨_, rfl, ?_, ?_⟩
      · intro d hd
        simpa [isOpenTagChar] using List.mem_takeWhile_imp hd
      · intro d hd
        have hstop := head?_dropWhile isOpenTagChar inner d hd
        simpa [isOpenTagChar, or_iff_not_imp_left] using hstop
    · rw [hnext] at hopen
      cases hopen
    · rw [hnext] at hopen
      cases hopen

/-- Every text can be cut without refusing or losing anything: the tokens are those
of a scan by longest match, they cover the text from end to end, each covers what it
says, and no two texts are neighbours. -/
theorem lex_lossless (source : String) :
    (∀ tokens refused, Scanned 0 source.toList tokens refused ↔
      tokens = lex source ∧ refused = []) ∧
    Tiles 0 source.utf8ByteSize ((lex source).map Lexeme.span) ∧
    (∀ l ∈ lex source, ∃ before part after, l.span.Cuts source before part after ∧
      l.token.Reads part.toList after.toList) ∧
    (lex source).IsChain fun a b => ¬ (a.token.isText = true ∧ b.token.isText = true) := by
  refine ⟨fun tokens refused => scanned_iff, tiles_lex source, ?_, ?_⟩
  · intro l hl
    obtain ⟨before, c, rest, htoken, hcuts⟩ := exists_next_of_mem_lex hl
    refine ⟨_, _, _, hcuts, ?_⟩
    rw [htoken, String.toList_ofList, String.toList_ofList]
    exact next_reads c rest
  · refine (lex_isChain source).imp ?_
    rintro a b hfollows ⟨ha, hb⟩
    rw [hfollows.1 ha] at hb
    cases hb

-- an open tag reaches up to the next brace, and octets are counted
example : lex "é = \x7b\x7b 1.0 \x7d\x7d\x7b" =
    [⟨.text "é = ", 0, 5⟩, ⟨.openTag, 5, 12⟩, ⟨.text "\x7d\x7d", 12, 14⟩, ⟨.brace, 14, 15⟩] := by
  decide +kernel

end ShaderGraph.Template
