import ShaderGraph.Json.Reader

/-!
# Skipping JSON

A member that nobody asks for is passed over. Its value has to be well formed,
but it may be nested to any depth, its numbers may be out of range and its
escaped surrogates unpaired. So this is a machine with a stack of the brackets
that are open, and not a reader whose answer is thrown away.
-/

namespace ShaderGraph.Json

/-- The kinds of brackets. -/
inductive Bracket where
  | list
  | object
deriving DecidableEq, Repr

/-- The fault of a text that ends between brackets. -/
def Bracket.eof : Bracket → Fault
  | .list => .eofInList
  | .object => .eofInObject

/-- The fault of an item that neither ends nor goes on. -/
def Bracket.unended : Bracket → Fault
  | .list => .expectedListEnd
  | .object => .expectedObjectEnd

/-- The character that closes a bracket. -/
def Bracket.close : Bracket → Char
  | .list => ']'
  | .object => '}'

/-! ## Scalars -/

/-- Pass over an exponent, after its mark. -/
def skipExponent (cs : List Char) : Except Failure (List Char) :=
  match (scanSign cs).2 with
  | c :: rest =>
    if c.isDigit then .ok (rest.dropWhile Char.isDigit)
    else .error (.on .invalidNumber (c :: rest))
  | [] => .error (.before .invalidNumber [])

/-- Pass over an exponent, if there is one. -/
def skipTail : List Char → Except Failure (List Char)
  | 'e' :: cs | 'E' :: cs => skipExponent cs
  | cs => .ok cs

/-- Pass over a fraction and an exponent, if there are any. -/
def skipFraction : List Char → Except Failure (List Char)
  | '.' :: cs =>
    let rest := cs.dropWhile Char.isDigit
    if (cs.takeWhile Char.isDigit).isEmpty then .error (.on .invalidNumber rest)
    else skipTail rest
  | cs => skipTail cs

/-- Pass over a number, after its sign. -/
def skipNumber : List Char → Except Failure (List Char)
  | [] => .error (.before .invalidNumber [])
  | c :: cs =>
    if c = '0' then
      match cs with
      | d :: rest =>
        if d.isDigit then .error (.on .invalidNumber (d :: rest)) else skipFraction (d :: rest)
      | [] => .ok []
    else if c.isDigit then skipFraction (cs.dropWhile Char.isDigit)
    else .error (.on .invalidNumber (c :: cs))

/-- Pass over an escape, after its backslash. -/
def skipEscape : List Char → Except Failure (List Char)
  | [] => .error (.before .eofInString [])
  | c :: cs =>
    if c = 'u' then (readHex cs).map (·.2)
    else if (shortEscape? c).isSome then .ok cs
    else .error (.on .invalidEscape (c :: cs))

theorem skipEscape_length {cs rest : List Char} (h : skipEscape cs = .ok rest) :
    rest.length < cs.length := by
  unfold skipEscape at h
  split at h
  · cases h
  · split at h
    · next tail _ =>
      cases hx : readHex tail with
      | error f => rw [hx] at h; cases h
      | ok p =>
        rw [hx] at h
        cases h
        exact Nat.lt_succ_of_lt (readHex_length hx)
    · split at h
      · cases h
        simp
      · cases h

/-- Pass over a text, after its opening quote. A control character that ends it
does not count as read. -/
def skipText (cs : List Char) : Except Failure (List Char) :=
  match cs with
  | [] => .error (.before .eofInString [])
  | c :: rest =>
    if c = '"' then .ok rest
    else if c = '\\' then
      match _h : skipEscape rest with
      | .error f => .error f
      | .ok afterEscape => skipText afterEscape
    else if c.toNat < 0x20 then .error (.before .controlCharacter (c :: rest))
    else skipText rest
termination_by cs.length
decreasing_by
  · exact Nat.lt_succ_of_lt (skipEscape_length _h)
  · simp

/-- Pass over a value without brackets. -/
def skipScalar (cs : List Char) : Except Failure (List Char) :=
  match cs with
  | [] => .error (.before .eofInValue [])
  | c :: rest =>
    if c = 'n' then readLiteral ['u', 'l', 'l'] rest
    else if c = 't' then readLiteral ['r', 'u', 'e'] rest
    else if c = 'f' then readLiteral ['a', 'l', 's', 'e'] rest
    else if c = '-' then skipNumber rest
    else if c.isDigit then skipNumber cs
    else if c = '"' then skipText rest
    else .error (.on .expectedValue cs)

/-! ## Values -/

/-- Pass over a name and its colon. -/
def skipName (cs : List Char) : Except Failure (List Char) :=
  match skipBlanks cs with
  | [] => .error (.before .eofInObject [])
  | '"' :: rest => do
    let rest ← skipText rest
    readColon rest
  | rest => .error (.on .keyNotString rest)

/-- Pass over what comes before an item: nothing in a list, its name in an
object. -/
def Bracket.skipLabel : Bracket → List Char → Except Failure (List Char)
  | .list, cs => .ok cs
  | .object, cs => skipName cs

/-- The brackets that are open, innermost first, and whether a value comes next
or one has just ended. -/
structure SkipState where
  opened : List Bracket
  ended : Bool

/-- Pass over the start of a bracket: into its first item, or over its end. -/
def openBracket (bracket : Bracket) (opened : List Bracket) (cs : List Char) :
    Except Failure (SkipState × List Char) :=
  match skipBlanks cs with
  | [] => .error (.before bracket.eof [])
  | c :: rest =>
    if c = bracket.close then .ok (⟨opened, true⟩, rest)
    else do
      let rest ← bracket.skipLabel (c :: rest)
      return (⟨bracket :: opened, false⟩, rest)

/-- Pass over what follows an item: a comma up to the next item, or the end of
its bracket. -/
def afterItem (bracket : Bracket) (opened : List Bracket) (cs : List Char) :
    Except Failure (SkipState × List Char) :=
  match skipBlanks cs with
  | [] => .error (.before bracket.eof [])
  | c :: rest =>
    if c = ',' then do
      let rest ← bracket.skipLabel rest
      return (⟨bracket :: opened, false⟩, rest)
    else if c = bracket.close then .ok (⟨opened, true⟩, rest)
    else .error (.on bracket.unended (c :: rest))

/-- Pass over the start of a value. -/
def startValue (opened : List Bracket) (cs : List Char) :
    Except Failure (SkipState × List Char) :=
  match skipBlanks cs with
  | '[' :: rest => openBracket .list opened rest
  | '{' :: rest => openBracket .object opened rest
  | rest => (skipScalar rest).map (⟨opened, true⟩, ·)

/-- Pass over a value in at most `count` moves; each takes at least one
character. -/
def skipFrom : (count : Nat) → SkipState → List Char → Except Failure (List Char)
  | _, ⟨[], true⟩, cs => .ok cs
  | 0, _, cs => .error (.before .eofInValue cs)
  | count + 1, ⟨bracket :: opened, true⟩, cs => do
    let (state, rest) ← afterItem bracket opened cs
    skipFrom count state rest
  | count + 1, ⟨opened, false⟩, cs => do
    let (state, rest) ← startValue opened cs
    skipFrom count state rest

/-- Pass over any value. -/
def skipValue (budget : Nat) (cs : List Char) : Except Failure (List Char) :=
  skipFrom budget ⟨[], false⟩ cs

end ShaderGraph.Json
