import ShaderGraph.Dict
import ShaderGraph.Json.Numeral

/-!
# Reading JSON

Readers take the text that is left and give a value with the text after it.
`Reader` adds two bounds: the number of brackets that may still be opened, and
a number of items that no list in the text can reach, by which the loops over
items end.
-/

namespace ShaderGraph.Json

open ShaderGraph.Text

/-- A reader of values of one kind. -/
abbrev Reader (α : Type) := (budget depth : Nat) → List Char → Except Failure (α × List Char)

/-- The blanks between the parts of a JSON text. -/
def isJsonBlank (c : Char) : Bool := c == ' ' || c == '\n' || c == '\t' || c == '\r'

/-- Leave out leading blanks. -/
def skipBlanks (cs : List Char) : List Char := cs.dropWhile isJsonBlank

/-- The rest of a literal. -/
def readLiteral : (word : List Char) → List Char → Except Failure (List Char)
  | [], cs => .ok cs
  | _ :: _, [] => .error (.before .eofInValue [])
  | w :: word, c :: cs =>
    if c = w then readLiteral word cs else .error (.on .expectedLiteral (c :: cs))

/-! ## Texts -/

/-- Whether a character is a hexadecimal digit. -/
def isHexDigit (c : Char) : Bool :=
  c.isDigit || ('a' ≤ c && c ≤ 'f') || ('A' ≤ c && c ≤ 'F')

/-- The value of a hexadecimal digit. -/
def hexValue (c : Char) : Nat :=
  if c.isDigit then c.toNat - '0'.toNat
  else if 'a' ≤ c then c.toNat - 'a'.toNat + 10
  else c.toNat - 'A'.toNat + 10

/-- What is wrong with a text that should start with four hexadecimal digits. -/
def notHex (cs : List Char) : Failure :=
  if octets cs < 4 then ⟨.eofInString, 0⟩ else ⟨.invalidEscape, octets cs - 4⟩

/-- The number that four hexadecimal digits make. -/
def readHex : List Char → Except Failure (Nat × List Char)
  | a :: b :: c :: d :: rest =>
    if isHexDigit a && isHexDigit b && isHexDigit c && isHexDigit d then
      .ok (((hexValue a * 16 + hexValue b) * 16 + hexValue c) * 16 + hexValue d, rest)
    else .error (notHex (a :: b :: c :: d :: rest))
  | cs => .error (notHex cs)

/-- Whether a number is the first half of a surrogate pair. -/
def isLeading (n : Nat) : Bool := 0xD800 ≤ n && n ≤ 0xDBFF

/-- Whether a number is the second half of a surrogate pair. -/
def isTrailing (n : Nat) : Bool := 0xDC00 ≤ n && n ≤ 0xDFFF

/-- The second half of a surrogate pair, after its first half. -/
def readTrailing (leading : Nat) : List Char → Except Failure (Char × List Char)
  | [] => .error (.before .eofInString [])
  | '\\' :: [] => .error (.before .eofInString [])
  | '\\' :: 'u' :: cs => do
    let (n, rest) ← readHex cs
    if isTrailing n then
      return (Char.ofNat ((leading - 0xD800) * 0x400 + (n - 0xDC00) + 0x10000), rest)
    else .error (.before .loneSurrogate rest)
  | '\\' :: cs => .error (.on .unpairedEscape cs)
  | cs => .error (.on .unpairedEscape cs)

/-- A character written by number, after its `u`. -/
def readCodePoint (cs : List Char) : Except Failure (Char × List Char) := do
  let (n, rest) ← readHex cs
  if isTrailing n then .error (.before .loneSurrogate rest)
  else if isLeading n then readTrailing n rest
  else return (Char.ofNat n, rest)

/-- The character that a short escape stands for. -/
def shortEscape? (c : Char) : Option Char :=
  match c with
  | '"' => some '"'
  | '\\' => some '\\'
  | '/' => some '/'
  | 'b' => some '\x08'
  | 'f' => some '\x0c'
  | 'n' => some '\n'
  | 'r' => some '\r'
  | 't' => some '\t'
  | _ => none

/-- An escaped character, after its backslash. -/
def readEscape : List Char → Except Failure (Char × List Char)
  | [] => .error (.before .eofInString [])
  | c :: cs =>
    if c = 'u' then readCodePoint cs
    else match shortEscape? c with
      | some d => .ok (d, cs)
      | none => .error (.on .invalidEscape (c :: cs))

theorem readHex_length {cs rest : List Char} {n : Nat} (h : readHex cs = .ok (n, rest)) :
    rest.length < cs.length := by
  unfold readHex at h
  split at h
  · split at h
    · cases h
      simp only [List.length_cons]
      omega
    · cases h
  · cases h

theorem readTrailing_length {leading : Nat} {cs rest : List Char} {c : Char}
    (h : readTrailing leading cs = .ok (c, rest)) : rest.length < cs.length := by
  unfold readTrailing at h
  split at h
  · cases h
  · cases h
  · next tail =>
    cases hx : readHex tail with
    | error f => rw [hx] at h; cases h
    | ok p =>
      obtain ⟨n, r⟩ := p
      rw [hx] at h
      have := readHex_length hx
      simp only [bind, Except.bind] at h
      split at h
      · have hrest : r = rest := congrArg Prod.snd (Except.ok.inj h)
        subst hrest
        simp only [List.length_cons]
        omega
      · cases h
  · cases h
  · cases h

theorem readCodePoint_length {cs rest : List Char} {c : Char}
    (h : readCodePoint cs = .ok (c, rest)) : rest.length < cs.length := by
  unfold readCodePoint at h
  cases hx : readHex cs with
  | error f => rw [hx] at h; cases h
  | ok p =>
    obtain ⟨n, r⟩ := p
    rw [hx] at h
    have hr := readHex_length hx
    simp only [bind, Except.bind] at h
    split at h
    · cases h
    · split at h
      · exact Nat.lt_trans (readTrailing_length h) hr
      · have hrest : r = rest := congrArg Prod.snd (Except.ok.inj h)
        exact hrest ▸ hr

/-- An escape takes at least one character. -/
theorem readEscape_length {cs rest : List Char} {c : Char}
    (h : readEscape cs = .ok (c, rest)) : rest.length < cs.length := by
  unfold readEscape at h
  split at h
  · cases h
  · split at h
    · exact Nat.lt_succ_of_lt (readCodePoint_length h)
    · split at h
      · cases h
        simp
      · cases h

/-- The characters of a quoted text, after its opening quote. -/
def readQuoted (cs : List Char) : Except Failure (List Char × List Char) :=
  match cs with
  | [] => .error (.before .eofInString [])
  | c :: rest =>
    if c = '"' then .ok ([], rest)
    else if c = '\\' then
      match _h : readEscape rest with
      | .error f => .error f
      | .ok (d, afterEscape) => (readQuoted afterEscape).map (fun p => (d :: p.1, p.2))
    else if c.toNat < 0x20 then .error (.before .controlCharacter rest)
    else (readQuoted rest).map (fun p => (c :: p.1, p.2))
termination_by cs.length
decreasing_by
  · exact Nat.lt_succ_of_lt (readEscape_length _h)
  · simp

/-- A quoted text, after its opening quote. -/
def readText (cs : List Char) : Except Failure (String × List Char) :=
  (readQuoted cs).map (fun p => (String.ofList p.1, p.2))

/-! ## Items and members -/

/-- Whether a list goes on, and the text of its next item or of its closing
bracket. -/
def nextItem (first : Bool) (cs : List Char) : Except Failure (Bool × List Char) :=
  match skipBlanks cs with
  | [] => .error (.before .eofInList [])
  | ']' :: rest => .ok (false, ']' :: rest)
  | ',' :: rest =>
    if first then .ok (true, ',' :: rest) else
    match skipBlanks rest with
    | [] => .error (.before .eofInValue [])
    | ']' :: rest => .error (.on .trailingComma (']' :: rest))
    | rest => .ok (true, rest)
  | rest => if first then .ok (true, rest) else .error (.on .expectedListEnd rest)

/-- Whether an object goes on, and the text of its next name, after the opening
quote, or of what follows its closing bracket. -/
def nextName (first : Bool) (cs : List Char) : Except Failure (Bool × List Char) :=
  match skipBlanks cs with
  | [] => .error (.before .eofInObject [])
  | '}' :: rest => .ok (false, rest)
  | ',' :: rest =>
    if first then .error (.on .keyNotString (',' :: rest)) else
    match skipBlanks rest with
    | [] => .error (.before .eofInValue [])
    | '"' :: rest => .ok (true, rest)
    | '}' :: rest => .error (.on .trailingComma ('}' :: rest))
    | rest => .error (.on .keyNotString rest)
  | '"' :: rest =>
    if first then .ok (true, rest) else .error (.on .expectedObjectEnd ('"' :: rest))
  | rest => .error (.on (if first then .keyNotString else .expectedObjectEnd) rest)

/-- The colon between a name and its value. -/
def readColon (cs : List Char) : Except Failure (List Char) :=
  match skipBlanks cs with
  | [] => .error (.before .eofInObject [])
  | ':' :: rest => .ok rest
  | rest => .error (.on .expectedColon rest)

/-- The end of a list that should have no more items. -/
def readListEnd (cs : List Char) : Except Failure (List Char) :=
  match skipBlanks cs with
  | [] => .error (.before .eofInList [])
  | ']' :: rest => .ok rest
  | ',' :: rest =>
    match skipBlanks rest with
    | ']' :: rest => .error (.on .trailingComma (']' :: rest))
    | rest => .error (.on .trailingText rest)
  | rest => .error (.on .trailingText rest)

/-- The items of a list, after its opening bracket and through the closing one;
at most `count` of them. -/
def readItems {α : Type} (item : List Char → Except Failure (α × List Char)) :
    (count : Nat) → (first : Bool) → List Char → Except Failure (List α × List Char)
  | 0, _, cs => .error (.before .eofInList cs)
  | count + 1, first, cs => do
    let (more, rest) ← nextItem first cs
    if more then
      let (x, rest) ← item rest
      let (xs, rest) ← readItems item count false rest
      return (x :: xs, rest)
    else
      let rest ← readListEnd rest
      return ([], rest)

/-- The members of an object, after its opening bracket and through the closing
one; at most `count` of them. -/
def readMembers {α : Type} (value : List Char → Except Failure (α × List Char)) :
    (count : Nat) → (first : Bool) → List Char → Except Failure (List (String × α) × List Char)
  | 0, _, cs => .error (.before .eofInObject cs)
  | count + 1, first, cs => do
    let (more, rest) ← nextName first cs
    if more then
      let (name, rest) ← readText rest
      let rest ← readColon rest
      let (x, rest) ← value rest
      let (xs, rest) ← readMembers value count false rest
      return ((name, x) :: xs, rest)
    else return ([], rest)

/-! ## Values -/

/-- A value without brackets. -/
def readScalar (cs : List Char) : Except Failure (Value × List Char) :=
  match cs with
  | [] => .error (.before .eofInValue [])
  | c :: rest =>
    if c = 'n' then (readLiteral ['u', 'l', 'l'] rest).map (Value.null, ·)
    else if c = 't' then (readLiteral ['r', 'u', 'e'] rest).map (Value.bool true, ·)
    else if c = 'f' then (readLiteral ['a', 'l', 's', 'e'] rest).map (Value.bool false, ·)
    else if c = '-' then (readNumber true rest).map (fun p => (Value.number p.1, p.2))
    else if c.isDigit then (readNumber false cs).map (fun p => (Value.number p.1, p.2))
    else if c = '"' then (readText rest).map (fun p => (Value.string p.1, p.2))
    else .error (.on .expectedValue cs)

/-- The members of an object in order; of several with one name the last
counts. -/
def objectOf (members : List (String × Value)) : Value :=
  .object (members.foldl (fun acc m => insertEntry m.1 m.2 acc) [])

/-- Any value. -/
def readValue (budget : Nat) : (depth : Nat) → List Char → Except Failure (Value × List Char)
  | 0, cs =>
    match skipBlanks cs with
    | '[' :: rest => .error (.on .tooDeep ('[' :: rest))
    | '{' :: rest => .error (.on .tooDeep ('{' :: rest))
    | rest => readScalar rest
  | depth + 1, cs =>
    match skipBlanks cs with
    | '[' :: rest =>
      (readItems (readValue budget depth) budget true rest).map (fun p => (.array p.1, p.2))
    | '{' :: rest =>
      (readMembers (readValue budget depth) budget true rest).map
        (fun p => (objectOf p.1, p.2))
    | rest => readScalar rest

/-! ## Documents -/

/-- The number of brackets that may be open at a time. -/
def depthLimit : Nat := 127

/-- Read a whole text. -/
def readDocument {α : Type} (reader : Reader α) (text : String) : Except ReadError α :=
  let cs := text.toList
  match reader (cs.length + 1) depthLimit cs with
  | .error f => .error (f.locate cs)
  | .ok (x, rest) =>
    match skipBlanks rest with
    | [] => .ok x
    | rest => .error ((Failure.on .trailingText rest).locate cs)

/-- The value that a text spells. -/
def parse (text : String) : Except ReadError Value := readDocument readValue text

end ShaderGraph.Json
