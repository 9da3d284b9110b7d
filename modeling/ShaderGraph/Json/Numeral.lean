import ShaderGraph.Json.Failure

/-!
# Numerals

A numeral is a sign, whole digits, and perhaps fraction digits and an exponent.
Whole numbers that fit in 64 bits are kept as they are. For all others the
digits are gathered into a whole number of 64 bits as long as they fit, the
rest of the digits only counts for its length, and the outcome is scaled by one
multiplication or division with a rounded power of ten. So the double is close
to the numeral, though not always the closest.
-/

namespace ShaderGraph.Json

open ShaderGraph.Decimal

/-- A numeral as written. -/
structure Numeral where
  negative : Bool
  /-- The digits before the point; no other digit follows a leading zero. -/
  whole : List Char
  /-- The digits after the point, if there is one. -/
  fraction : Option (List Char)
  /-- The sign of the exponent and its digits, if there is one. -/
  exponent : Option (Bool × List Char)
deriving DecidableEq, Repr

/-! ## Scanning -/

/-- The fraction of a numeral, after its point. -/
def scanFraction (cs : List Char) : Except Failure (List Char × List Char) :=
  let digits := cs.takeWhile Char.isDigit
  let rest := cs.dropWhile Char.isDigit
  if !digits.isEmpty then .ok (digits, rest)
  else if rest.isEmpty then .error (.before .eofInValue rest)
  else .error (.on .invalidNumber rest)

/-- The sign of an exponent, after its mark. -/
def scanSign : List Char → Bool × List Char
  | '+' :: cs => (false, cs)
  | '-' :: cs => (true, cs)
  | cs => (false, cs)

/-- The exponent of a numeral, after its mark. -/
def scanExponent (cs : List Char) : Except Failure ((Bool × List Char) × List Char) :=
  let (negative, cs) := scanSign cs
  let digits := cs.takeWhile Char.isDigit
  let rest := cs.dropWhile Char.isDigit
  if !digits.isEmpty then .ok ((negative, digits), rest)
  else if rest.isEmpty then .error (.before .eofInValue rest)
  else .error (.on .invalidNumber rest)

/-- The digits before the point. -/
def scanWhole : List Char → Except Failure (List Char × List Char)
  | [] => .error (.before .eofInValue [])
  | c :: cs =>
    if c = '0' then
      match cs with
      | d :: rest =>
        if d.isDigit then .error (.on .invalidNumber (d :: rest)) else .ok (['0'], d :: rest)
      | [] => .ok (['0'], [])
    else if c.isDigit then .ok (c :: cs.takeWhile Char.isDigit, cs.dropWhile Char.isDigit)
    else .error (.on .invalidNumber (c :: cs))

/-- The exponent that may follow the digits of a numeral. -/
def scanTail : List Char → Except Failure (Option (Bool × List Char) × List Char)
  | 'e' :: cs | 'E' :: cs => do
    let (exponent, rest) ← scanExponent cs
    return (some exponent, rest)
  | cs => .ok (none, cs)

/-- A numeral, after its sign. -/
def scanNumeral (negative : Bool) (cs : List Char) : Except Failure (Numeral × List Char) := do
  let (whole, rest) ← scanWhole cs
  match rest with
  | '.' :: afterPoint =>
    let (fraction, rest) ← scanFraction afterPoint
    let (exponent, rest) ← scanTail rest
    return (⟨negative, whole, some fraction, exponent⟩, rest)
  | _ =>
    let (exponent, rest) ← scanTail rest
    return (⟨negative, whole, none, exponent⟩, rest)

/-! ## Values of numerals -/

/-- The value of a decimal digit. -/
def digitValue (c : Char) : Nat := c.toNat - '0'.toNat

/-- Add digits to a number for as long as it fits in 64 bits. The second part is
the number of digits that were left over. -/
def gather (n : Nat) : List Char → Nat × Nat
  | [] => (n, 0)
  | d :: rest =>
    let n' := n * 10 + digitValue d
    if n' < Nat.pow 2 64 then gather n' rest else (n, rest.length + 1)

/-- The largest exponent that is looked at. -/
def exponentLimit : Nat := Nat.pow 2 31 - 1

/-- The value of an exponent's digits, or the number of digits not yet read when
it passed the limit. -/
def exponentValue (n : Nat) : List Char → Except Nat Nat
  | [] => .ok n
  | d :: rest =>
    let n' := n * 10 + digitValue d
    if exponentLimit < n' then .error rest.length else exponentValue n' rest

/-- The magnitude nearest to a power of ten. -/
def powerOfTen (k : Nat) : Nat := unitsOfNat (Nat.pow 10 k)

/-- Scale a magnitude by a power of ten, with one rounding if the exponent is at
most 308 away from zero. `none` if the outcome is out of range. -/
def scale (units : Nat) (exponent : Int) : Option Nat :=
  if exponent.natAbs ≤ 308 then
    if 0 ≤ exponent then
      let scaled := mulUnits units (powerOfTen exponent.natAbs)
      if scaled < unitsLimit then some scaled else none
    else some (divUnits units (powerOfTen exponent.natAbs))
  else if units = 0 then some 0
  else if 0 ≤ exponent then none
  else scale (divUnits units (powerOfTen 308)) (exponent + 308)
termination_by exponent.natAbs
decreasing_by omega

/-- The whole number of a numeral without fraction and exponent, if it is kept
as one. Negative zero is not. -/
def wholeNumber? (negative : Bool) (n : Nat) : Option Number :=
  let i : Int := if negative then -(n : Int) else n
  if negative && n == 0 then none
  else if h : -Int.pow 2 63 ≤ i ∧ i < Int.pow 2 64 then some (.integer i h) else none

/-- The value of a numeral, or else the number of its digits not yet read when
it turned out to be out of range. -/
def Numeral.value (m : Numeral) : Except Nat Number :=
  let (n, dropped) := gather 0 m.whole
  let plain := if m.fraction.isNone && m.exponent.isNone && dropped == 0
    then wholeNumber? m.negative n else none
  match plain with
  | some number => .ok number
  | none =>
    let fraction := m.fraction.getD []
    let (n, unused) := gather n fraction
    let shift : Int := (dropped : Int) - (fraction.length - unused : Nat)
    match m.exponent with
    | none =>
      match scale (unitsOfNat n) shift with
      | some units => .ok (.double ⟨m.negative, units⟩)
      | none => .error 0
    | some (negativeExponent, digits) =>
      match exponentValue 0 digits with
      | .error unread =>
        if n ≠ 0 ∧ negativeExponent = false then .error unread
        else .ok (.double ⟨m.negative, 0⟩)
      | .ok e =>
        match scale (unitsOfNat n) (if negativeExponent then shift - e else shift + e) with
        | some units => .ok (.double ⟨m.negative, units⟩)
        | none => .error 0

/-- A number, after its sign. -/
def readNumber (negative : Bool) (cs : List Char) : Except Failure (Number × List Char) := do
  let (numeral, rest) ← scanNumeral negative cs
  match numeral.value with
  | .ok number => return (number, rest)
  | .error unread => .error ⟨.outOfRange, Text.octets rest + unread⟩

end ShaderGraph.Json
