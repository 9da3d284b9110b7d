import ShaderGraph.Decimal.Double

/-!
# Shortest decimals

The fewest decimal digits that stand for a double and for no other: a decimal
stands for the double that it is nearest to, and a decimal halfway between two
doubles stands for the one whose last bit is zero. Of several decimals of that
length the nearest to the double is taken, of two equally near ones the one
with the even last digit.
-/

namespace ShaderGraph.Decimal

/-- A positive decimal: `digits` times ten to the power `exponent`. -/
structure Digits where
  digits : Nat
  exponent : Int
deriving DecidableEq, Repr

/-- The number of decimal digits of a whole number. -/
def decimalLength (n : Nat) : Nat := (Nat.toDigits 10 n).length

/-- Four times the bounds, in units, between which a decimal stands for the
positive magnitude `units`. The gap below a power of two is half as wide as the
gap above it. -/
def interval (units : Nat) : Nat × Nat :=
  let gap := Nat.pow 2 (lastBit units)
  let below := if units = Nat.pow 2 units.log2 ∧ 1 < gap then gap else 2 * gap
  (4 * units - below, 4 * units + 2 * gap)

/-- Whether the significand of a magnitude is even. -/
def evenSignificand (units : Nat) : Bool := units / Nat.pow 2 (lastBit units) % 2 == 0

/-- Whether a decimal stands for the positive magnitude `units`. -/
def Digits.standsFor (d : Digits) (units : Nat) : Bool :=
  let (low, high) := interval units
  let num := 4 * d.digits * unitsPerOne * Nat.pow 10 d.exponent.toNat
  let den := Nat.pow 10 (-d.exponent).toNat
  if evenSignificand units then low * den ≤ num && num ≤ high * den
  else low * den < num && num < high * den

/-- The power of ten of the first digit of a positive magnitude. -/
def leadingExponent (units : Nat) : Int :=
  (decimalLength (units * Nat.pow 10 400 / unitsPerOne) : Int) - 401

/-- Of the two decimals with the last digit at `exponent` between which a
magnitude lies, the ones that stand for it; the nearer comes first. -/
def neighbours (units : Nat) (exponent : Int) : List Digits :=
  let num := units * Nat.pow 10 (-exponent).toNat
  let den := unitsPerOne * Nat.pow 10 exponent.toNat
  let below := num / den
  let twice := 2 * (num % den)
  let belowFirst := twice < den || (twice == den && below % 2 == 0)
  let candidates := if belowFirst then [below, below + 1] else [below + 1, below]
  (candidates.map (Digits.mk · exponent)).filter (·.standsFor units)

/-- Leave out final zeros, at most `bound` of them. -/
def Digits.trim (d : Digits) : (bound : Nat) → Digits
  | 0 => d
  | bound + 1 =>
    if d.digits % 10 = 0 then Digits.trim ⟨d.digits / 10, d.exponent + 1⟩ bound else d

/-- The shortest decimal that stands for a positive magnitude. Seventeen digits
are always enough. -/
def shortest (units : Nat) : Digits :=
  let leading := leadingExponent units
  match (List.range 17).findSome? fun k : Nat => (neighbours units (leading - k)).head? with
  | some d => d.trim 17
  | none => ⟨units, 0⟩

end ShaderGraph.Decimal
