import ShaderGraph.Json.Writer
import ShaderGraph.Text
import ShaderGraph.Text.Printable

/-!
# What can be wrong with a JSON text

A failure is a fault and the place where reading stopped. Readers only know the
text that is left, so they report how many octets of it there were; `locate`
turns that into a line and a column of the whole text.
-/

namespace ShaderGraph.Json

open ShaderGraph.Text

/-- What stands in a text where a value of another kind is wanted. -/
inductive Found where
  | null
  | bool (b : Bool)
  | number (n : Number)
  | string (s : String)
  | sequence
  | map
deriving DecidableEq, Repr

/-- How a found value is described. -/
def Found.describe : Found → String
  | .null => "null"
  | .bool b => "boolean `" ++ (if b then "true" else "false") ++ "`"
  | .number (.integer n h) =>
    "integer `" ++ String.ofList (Number.chars (.integer n h)) ++ "`"
  | .number (.double d) =>
    "floating point `" ++ String.ofList (Number.chars (.double d)) ++ "`"
  | .string s => "string " ++ quote s
  | .sequence => "sequence"
  | .map => "map"

/-- What is wrong. -/
inductive Fault where
  | eofInList
  | eofInObject
  | eofInString
  | eofInValue
  | expectedColon
  | expectedListEnd
  | expectedObjectEnd
  | expectedLiteral
  | expectedValue
  | invalidEscape
  | invalidNumber
  | outOfRange
  | controlCharacter
  | keyNotString
  | loneSurrogate
  | unpairedEscape
  | trailingComma
  | trailingText
  | tooDeep
  | wrongType (found : Found) (expected : String)
  | wrongLength (length : Nat) (expected : String)
  | missingField (name : String)
  | duplicateField (name : String)
deriving DecidableEq, Repr

/-- The wording of a fault. -/
def Fault.message : Fault → String
  | .eofInList => "EOF while parsing a list"
  | .eofInObject => "EOF while parsing an object"
  | .eofInString => "EOF while parsing a string"
  | .eofInValue => "EOF while parsing a value"
  | .expectedColon => "expected `:`"
  | .expectedListEnd => "expected `,` or `]`"
  | .expectedObjectEnd => "expected `,` or `\x7d`"
  | .expectedLiteral => "expected ident"
  | .expectedValue => "expected value"
  | .invalidEscape => "invalid escape"
  | .invalidNumber => "invalid number"
  | .outOfRange => "number out of range"
  | .controlCharacter => "control character (\\u0000-\\u001F) found while parsing a string"
  | .keyNotString => "key must be a string"
  | .loneSurrogate => "lone leading surrogate in hex escape"
  | .unpairedEscape => "unexpected end of hex escape"
  | .trailingComma => "trailing comma"
  | .trailingText => "trailing characters"
  | .tooDeep => "recursion limit exceeded"
  | .wrongType found expected =>
    "invalid type: " ++ found.describe ++ ", expected " ++ expected
  | .wrongLength length expected =>
    "invalid length " ++ toString length ++ ", expected " ++ expected
  | .missingField name => "missing field `" ++ name ++ "`"
  | .duplicateField name => "duplicate field `" ++ name ++ "`"

/-- A fault, and how many octets of the text were left unread when it showed. -/
structure Failure where
  fault : Fault
  left : Nat
deriving DecidableEq, Repr

/-- A fault that shows once everything before `rest` has been read. -/
def Failure.before (fault : Fault) (rest : List Char) : Failure := ⟨fault, octets rest⟩

/-- A fault that shows at the first octet of `rest`, which counts as read. -/
def Failure.on (fault : Fault) (rest : List Char) : Failure := ⟨fault, octets rest - 1⟩

/-! ## Positions -/

/-- A line, counted from one, and the number of octets read on it. -/
structure Position where
  line : Nat
  column : Nat
deriving DecidableEq, Repr

/-- Go on from `p` over the first `n` octets of a text. -/
def Position.advance (p : Position) : List Char → Nat → Position
  | _, 0 => p
  | [], n + 1 => ⟨p.line, p.column + (n + 1)⟩
  | c :: rest, n + 1 =>
    if c = '\n' then Position.advance ⟨p.line + 1, 0⟩ rest n
    else if n + 1 ≤ c.utf8Size then ⟨p.line, p.column + (n + 1)⟩
    else Position.advance ⟨p.line, p.column + c.utf8Size⟩ rest (n + 1 - c.utf8Size)

/-- A failure in place. -/
structure ReadError where
  fault : Fault
  position : Position
deriving DecidableEq, Repr

/-- The message of a failure in place. -/
def ReadError.message (e : ReadError) : String :=
  e.fault.message ++ " at line " ++ toString e.position.line
    ++ " column " ++ toString e.position.column

/-- Find the place of a failure in the text that was read. -/
def Failure.locate (f : Failure) (text : List Char) : ReadError :=
  ⟨f.fault, Position.advance ⟨1, 0⟩ text (octets text - f.left)⟩

end ShaderGraph.Json
