import ShaderGraph.Decimal.Shortest
import ShaderGraph.Json.Value

/-!
# Writing JSON

The compact form: no blanks, members in the order the object keeps them.
Doubles are written with the fewest digits that read back, positionally
between 0.00001 and 10 to the power 16 and with an exponent elsewhere. In texts
only quotes, backslashes and control characters are escaped.
-/

namespace ShaderGraph.Json

open ShaderGraph.Decimal

/-! ## Numbers -/

/-- The decimal digits of a whole number. -/
def natDigits (n : Nat) : List Char := Nat.toDigits 10 n

/-- A positive decimal in positional notation, with at least one digit on
either side of the point. `digits` are its digits and `point` tells how many of
them stand before the point. -/
def positional (digits : List Char) (point : Int) : List Char :=
  if point ≤ 0 then
    '0' :: '.' :: (List.replicate point.natAbs '0' ++ digits)
  else
    let before := point.toNat
    if digits.length ≤ before then
      digits ++ List.replicate (before - digits.length) '0' ++ ['.', '0']
    else digits.take before ++ '.' :: digits.drop before

/-- A positive decimal with one digit before the point and an exponent that
always has a sign. -/
def scientific (digits : List Char) (exponent : Int) : List Char :=
  let mantissa := match digits with
    | d :: e :: rest => d :: '.' :: e :: rest
    | _ => digits
  let sign := if exponent < 0 then '-' else '+'
  mantissa ++ 'e' :: sign :: natDigits exponent.natAbs

/-- The text of a magnitude. -/
def unitsText (units : Nat) : List Char :=
  if units = 0 then ['0', '.', '0'] else
  let d := shortest units
  let digits := natDigits d.digits
  let leading := d.exponent + digits.length - 1
  if -5 ≤ leading ∧ leading < 16 then positional digits (leading + 1)
  else scientific digits leading

/-- The text of a double. -/
def doubleText (d : Double) : List Char :=
  if d.negative then '-' :: unitsText d.units else unitsText d.units

/-- The text of a whole number. -/
def integerText (n : Int) : List Char :=
  if n < 0 then '-' :: natDigits n.natAbs else natDigits n.natAbs

/-- The text of a number. -/
def Number.chars : Number → List Char
  | .integer n _ => integerText n
  | .double d => doubleText d

/-! ## Texts -/

/-- A digit of a number below sixteen. -/
def hexDigit (n : Nat) : Char := Nat.digitChar n

/-- How a character is written inside a quoted text. -/
def escapeChar (c : Char) : List Char :=
  if c = '"' then ['\\', '"']
  else if c = '\\' then ['\\', '\\']
  else if c.toNat = 0x08 then ['\\', 'b']
  else if c.toNat = 0x0c then ['\\', 'f']
  else if c = '\n' then ['\\', 'n']
  else if c = '\r' then ['\\', 'r']
  else if c = '\t' then ['\\', 't']
  else if c.toNat < 0x20 then
    ['\\', 'u', '0', '0', hexDigit (c.toNat / 16), hexDigit (c.toNat % 16)]
  else [c]

/-- A text in quotes. -/
def stringChars (s : String) : List Char := '"' :: (s.toList.flatMap escapeChar ++ ['"'])

/-! ## Values -/

/-- Put a comma between written items. -/
def commaJoin : List (List Char) → List Char
  | [] => []
  | [x] => x
  | x :: y :: rest => x ++ ',' :: commaJoin (y :: rest)

/-- An array of written items. -/
def arrayChars (items : List (List Char)) : List Char := '[' :: (commaJoin items ++ [']'])

/-- An object of names and written values. -/
def objectChars (members : List (String × List Char)) : List Char :=
  '{' :: (commaJoin (members.map fun m => stringChars m.1 ++ ':' :: m.2) ++ ['}'])

mutual

/-- The compact form of a value. -/
def Value.chars : Value → List Char
  | .null => ['n', 'u', 'l', 'l']
  | .bool true => ['t', 'r', 'u', 'e']
  | .bool false => ['f', 'a', 'l', 's', 'e']
  | .number n => n.chars
  | .string s => stringChars s
  | .array items => arrayChars (itemsChars items)
  | .object members => objectChars (membersChars members)

/-- The compact forms of values. -/
def itemsChars : List Value → List (List Char)
  | [] => []
  | v :: rest => v.chars :: itemsChars rest

/-- The compact forms of members' values, beside their names. -/
def membersChars : List (String × Value) → List (String × List Char)
  | [] => []
  | (name, v) :: rest => (name, v.chars) :: membersChars rest

end

/-- The compact text of a value. -/
def Value.text (v : Value) : String := String.ofList v.chars

/-- An object with a line for each member, indented by two. -/
def prettyObject (members : List (String × Value)) : String :=
  if members.isEmpty then "\x7b\x7d" else
  let line := fun (m : String × Value) =>
    "  " ++ String.ofList (stringChars m.1) ++ ": " ++ m.2.text
  "\x7b\n" ++ ",\n".intercalate (members.map line) ++ "\n\x7d"

end ShaderGraph.Json
