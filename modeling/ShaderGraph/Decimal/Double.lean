/-!
# Double precision numbers

A finite double is a sign and a whole number of units, where a unit is the
least positive double, 2 to the power -1074. Every operation is the exact
result rounded once: to the nearest number with 53 significant bits, a tie to
the even one. Results of 2 to the power 1024 and more are out of range.
-/

namespace ShaderGraph.Decimal

/-- A finite double: its sign, which zero has too, and its magnitude in
units. -/
structure Double where
  negative : Bool
  units : Nat
deriving DecidableEq, Repr

/-- The number of significant bits. -/
def precision : Nat := 53

/-- How many units make up one. -/
def unitsPerOne : Nat := Nat.pow 2 1074

/-- The least magnitude in units that is out of range. -/
def unitsLimit : Nat := Nat.pow 2 2098

/-- The whole number nearest to `num / den`, a tie to the even one. -/
def roundDiv (num den : Nat) : Nat :=
  let quotient := num / den
  let twice := 2 * (num % den)
  if twice < den then quotient
  else if den < twice then quotient + 1
  else if quotient % 2 = 0 then quotient else quotient + 1

/-- The exponent of the last significant bit of a magnitude, at least that of
the unit. -/
def lastBit (units : Nat) : Nat := units.log2 - (precision - 1)

/-- The magnitude nearest to `num / den` units. -/
def roundUnits (num den : Nat) : Nat :=
  let step := Nat.pow 2 (lastBit (num / den))
  roundDiv num (den * step) * step

/-- The magnitude nearest to a whole number. -/
def unitsOfNat (n : Nat) : Nat := roundUnits (n * unitsPerOne) 1

/-- The product of two magnitudes. -/
def mulUnits (a b : Nat) : Nat := roundUnits (a * b) unitsPerOne

/-- The quotient of two magnitudes. -/
def divUnits (a b : Nat) : Nat := roundUnits (a * unitsPerOne) b

end ShaderGraph.Decimal
