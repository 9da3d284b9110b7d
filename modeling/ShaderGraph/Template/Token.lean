import ShaderGraph.Identifier
import ShaderGraph.Text

/-!
# Template tokens

A body template is shader text with tags: `#if NAME`, `else`, `/if` and a bare
`NAME`, each between double braces. `pieces` cuts a text into tokens, always
taking the longest token that fits. Every text can be cut: double braces that
start no tag are an open tag up to the next brace, and a single brace stands
for itself, since shader code is full of them.

Only space and tab may stand around the words of a tag.
-/

namespace ShaderGraph.Template

open ShaderGraph.Text

/-- What a stretch of template text is. -/
inductive Token where
  /-- The tag that opens a conditional on a define. -/
  | openIf (name : String)
  /-- The tag between the two branches of a conditional. -/
  | elseMark
  /-- The tag that closes a conditional. -/
  | closeIf
  /-- The tag that stands for the value of a define. -/
  | interp (name : String)
  /-- Double braces that start no tag, with the text up to the next brace. -/
  | openTag
  /-- Text without an opening brace. -/
  | text (content : String)
  /-- A single opening brace. -/
  | brace
deriving DecidableEq, Repr

/-- How a token is named in a message. -/
def Token.display : Token → String
  | .openIf name => "\x7b\x7b#if " ++ name ++ "\x7d\x7d"
  | .elseMark => "\x7b\x7belse\x7d\x7d"
  | .closeIf => "\x7b\x7b/if\x7d\x7d"
  | .interp name => "\x7b\x7b" ++ name ++ "\x7d\x7d"
  | .openTag => "\x7b\x7b"
  | .text _ => "<text>"
  | .brace => "\x7b"

/-- The blanks that may stand inside a tag. -/
def isTagBlank (c : Char) : Bool := c == ' ' || c == '\t'

/-- A token with the characters it covers. -/
structure Piece where
  token : Token
  chars : List Char
deriving DecidableEq, Repr

/-! ## Tags -/

/-- The blanks and closing braces at the end of a tag, and what follows. -/
def tagEnd? (cs : List Char) : Option (List Char × List Char) :=
  match cs.dropWhile isTagBlank with
  | '}' :: '}' :: rest => some (cs.takeWhile isTagBlank ++ ['}', '}'], rest)
  | _ => none

/-- The identifier at the front of a text, and what follows. -/
def tagName? : List Char → Option (List Char × List Char)
  | c :: cs =>
    if isNameStart c then some (c :: cs.takeWhile isNameChar, cs.dropWhile isNameChar)
    else none
  | [] => none

/-- A tag that is only a word, after its leading blanks: `else`, or the name of
a define. -/
def wordTag? (cs : List Char) : Option (Piece × List Char) := do
  let (name, afterName) ← tagName? cs
  let (close, rest) ← tagEnd? afterName
  let token := if name = ['e', 'l', 's', 'e'] then .elseMark else .interp (String.ofList name)
  return (⟨token, name ++ close⟩, rest)

/-- The rest of an opening tag, after its `#if`: at least one blank, then the
name of a define. -/
def ifTag? (cs : List Char) : Option (Piece × List Char) := do
  let blanks := cs.takeWhile isTagBlank
  if blanks.isEmpty then none else
  let (name, afterName) ← tagName? (cs.dropWhile isTagBlank)
  let (close, rest) ← tagEnd? afterName
  return (⟨.openIf (String.ofList name), '#' :: 'i' :: 'f' :: (blanks ++ name ++ close)⟩, rest)

/-- The rest of a closing tag, after its `/if`. -/
def endTag? (cs : List Char) : Option (Piece × List Char) := do
  let (close, rest) ← tagEnd? cs
  return (⟨.closeIf, '/' :: 'i' :: 'f' :: close⟩, rest)

/-- What a tag holds after its opening braces and blanks, through its closing
braces. -/
def tagInside? : List Char → Option (Piece × List Char)
  | '#' :: 'i' :: 'f' :: cs => ifTag? cs
  | '/' :: 'i' :: 'f' :: cs => endTag? cs
  | cs => wordTag? cs

/-- The tag whose inside starts here, just after the double braces. -/
def tag? (cs : List Char) : Option (Piece × List Char) := do
  let (piece, rest) ← tagInside? (cs.dropWhile isTagBlank)
  return ({ piece with chars := '{' :: '{' :: (cs.takeWhile isTagBlank ++ piece.chars) }, rest)

/-! ## Cutting a text -/

/-- Text without an opening brace. -/
def isPlain (c : Char) : Bool := c != '{'

/-- What an open tag runs over: everything up to a brace of either kind. -/
def isOpenTagChar (c : Char) : Bool := c != '{' && c != '}'

/-- The longest token at the front of the text `c :: cs`, and what follows. -/
def next (c : Char) (cs : List Char) : Piece × List Char :=
  if c = '{' then
    match cs with
    | '{' :: inner =>
      match tag? inner with
      | some found => found
      | none =>
        (⟨.openTag, '{' :: '{' :: inner.takeWhile isOpenTagChar⟩, inner.dropWhile isOpenTagChar)
    | _ => (⟨.brace, ['{']⟩, cs)
  else
    let chars := c :: cs.takeWhile isPlain
    (⟨.text (String.ofList chars), chars⟩, cs.dropWhile isPlain)

/-- A tag's end loses no character. -/
theorem tagEnd?_append {cs close rest : List Char} (h : tagEnd? cs = some (close, rest)) :
    close ++ rest = cs := by
  unfold tagEnd? at h
  split at h
  · next r hr =>
    obtain ⟨rfl, rfl⟩ := Prod.mk.inj (Option.some.inj h)
    rw [List.append_assoc]
    show cs.takeWhile isTagBlank ++ ('}' :: '}' :: r) = cs
    rw [← hr, List.takeWhile_append_dropWhile]
  · cases h

/-- A tag's name loses no character. -/
theorem tagName?_append {cs name rest : List Char} (h : tagName? cs = some (name, rest)) :
    name ++ rest = cs := by
  unfold tagName? at h
  split at h
  · split at h
    · obtain ⟨rfl, rfl⟩ := Prod.mk.inj (Option.some.inj h)
      simp
    · cases h
  · cases h

theorem wordTag?_append {cs : List Char} {piece : Piece} {rest : List Char}
    (h : wordTag? cs = some (piece, rest)) : piece.chars ++ rest = cs := by
  simp only [wordTag?, Option.bind_eq_bind, Option.bind_eq_some_iff, Prod.exists,
    Option.pure_def, Option.some.injEq, Prod.mk.injEq] at h
  obtain ⟨name, afterName, hname, close, r, hend, rfl, rfl⟩ := h
  simp [tagEnd?_append hend, tagName?_append hname]

theorem ifTag?_append {cs : List Char} {piece : Piece} {rest : List Char}
    (h : ifTag? cs = some (piece, rest)) :
    piece.chars ++ rest = '#' :: 'i' :: 'f' :: cs := by
  unfold ifTag? at h
  simp only at h
  split at h
  · cases h
  · simp only [Option.bind_eq_bind, Option.bind_eq_some_iff, Prod.exists,
      Option.pure_def, Option.some.injEq, Prod.mk.injEq] at h
    obtain ⟨name, afterName, hname, close, r, hend, rfl, rfl⟩ := h
    simp [tagEnd?_append hend, tagName?_append hname]

theorem endTag?_append {cs : List Char} {piece : Piece} {rest : List Char}
    (h : endTag? cs = some (piece, rest)) :
    piece.chars ++ rest = '/' :: 'i' :: 'f' :: cs := by
  simp only [endTag?, Option.bind_eq_bind, Option.bind_eq_some_iff, Prod.exists,
    Option.pure_def, Option.some.injEq, Prod.mk.injEq] at h
  obtain ⟨close, r, hend, rfl, rfl⟩ := h
  simp [tagEnd?_append hend]

theorem tagInside?_append {cs : List Char} {piece : Piece} {rest : List Char}
    (h : tagInside? cs = some (piece, rest)) : piece.chars ++ rest = cs := by
  unfold tagInside? at h
  split at h
  · exact ifTag?_append h
  · exact endTag?_append h
  · exact wordTag?_append h

theorem tag?_append {cs : List Char} {piece : Piece} {rest : List Char}
    (h : tag? cs = some (piece, rest)) : piece.chars ++ rest = '{' :: '{' :: cs := by
  simp only [tag?, Option.bind_eq_bind, Option.bind_eq_some_iff, Prod.exists,
    Option.pure_def, Option.some.injEq, Prod.mk.injEq] at h
  obtain ⟨inner, r, hinner, rfl, rfl⟩ := h
  simp [tagInside?_append hinner]

/-- The front token and what follows it make up the text. -/
theorem next_append (c : Char) (cs : List Char) :
    (next c cs).1.chars ++ (next c cs).2 = c :: cs := by
  unfold next
  split
  · next hc =>
    subst hc
    split
    · next inner =>
      split
      · next found hfound => exact tag?_append hfound
      · simp
    · simp
  · simp

/-- A tag covers at least its opening braces. -/
theorem tag?_ne_nil {cs : List Char} {piece : Piece} {rest : List Char}
    (h : tag? cs = some (piece, rest)) : piece.chars ≠ [] := by
  simp only [tag?, Option.bind_eq_bind, Option.bind_eq_some_iff, Prod.exists,
    Option.pure_def, Option.some.injEq, Prod.mk.injEq] at h
  obtain ⟨inner, r, -, rfl, -⟩ := h
  simp

/-- A token covers at least one character. -/
theorem next_ne_nil (c : Char) (cs : List Char) : (next c cs).1.chars ≠ [] := by
  unfold next
  split
  · split
    · split
      · next hfound => exact tag?_ne_nil hfound
      · simp
    · simp
  · simp

/-- Cutting off a token leaves a shorter text. -/
theorem next_length_lt (c : Char) (cs : List Char) :
    (next c cs).2.length < (c :: cs).length := by
  have h := congrArg List.length (next_append c cs)
  have h0 := List.length_pos_iff.mpr (next_ne_nil c cs)
  rw [List.length_append] at h
  omega

/-- The tokens of a text, in order. -/
def pieces : List Char → List Piece
  | [] => []
  | c :: cs => (next c cs).1 :: pieces (next c cs).2
termination_by cs => cs.length
decreasing_by exact next_length_lt c cs

/-! ## Tokens in place -/

/-- A token with the octet range it covers. -/
structure Lexeme where
  token : Token
  start : Nat
  stop : Nat
deriving DecidableEq, Repr

/-- Lay pieces one after the other, the first at octet `start`. -/
def place (start : Nat) : List Piece → List Lexeme
  | [] => []
  | p :: rest => ⟨p.token, start, start + octets p.chars⟩ :: place (start + octets p.chars) rest

/-- The tokens of a template text with their octet ranges. -/
def lex (source : String) : List Lexeme := place 0 (pieces source.toList)

end ShaderGraph.Template
