/-!
# Identifiers

Names of defines and of sockets are identifiers: an ASCII letter or underscore,
then ASCII letters, digits and underscores. The character tests are `Char`'s
own, which know ASCII only, and that is the rule.
-/

namespace ShaderGraph

/-- The characters an identifier may start with. -/
def isNameStart (c : Char) : Bool := c.isAlpha || c == '_'

/-- The characters an identifier may go on with. -/
def isNameChar (c : Char) : Bool := c.isAlphanum || c == '_'

/-- Identifiers, on character lists. -/
def isNameList : List Char → Bool
  | [] => false
  | c :: rest => isNameStart c && rest.all isNameChar

/-- A start character may also stand inside. -/
theorem isNameChar_of_isNameStart {c : Char} (h : isNameStart c = true) :
    isNameChar c = true := by
  simp only [isNameStart, isNameChar, Char.isAlphanum, Bool.or_eq_true] at *
  rcases h with h | h
  · exact .inl (.inl h)
  · exact .inr h

/-- A text is an identifier if it has at least one character, starts as a name
and goes on as one. -/
def isIdentifier (s : String) : Bool := isNameList s.toList

/-! ## The pattern -/

/-- The letters from `A` to `Z` and from `a` to `z`. -/
def IsLetter (c : Char) : Prop := ('A' ≤ c ∧ c ≤ 'Z') ∨ ('a' ≤ c ∧ c ≤ 'z')

/-- The digits from `0` to `9`. -/
def IsDigit (c : Char) : Prop := '0' ≤ c ∧ c ≤ '9'

/-- The pattern `[A-Za-z_][A-Za-z0-9_]*`. -/
def IsName : List Char → Prop
  | [] => False
  | c :: rest => (IsLetter c ∨ c = '_') ∧ ∀ d ∈ rest, IsLetter d ∨ IsDigit d ∨ d = '_'

theorem isAlpha_iff (c : Char) : c.isAlpha = true ↔ IsLetter c := by
  unfold Char.isAlpha Char.isUpper Char.isLower
  simp [IsLetter, Char.le_def]

theorem isDigit_iff (c : Char) : c.isDigit = true ↔ IsDigit c := by
  simp [Char.isDigit, IsDigit, Char.le_def]

theorem isNameStart_iff (c : Char) : isNameStart c = true ↔ IsLetter c ∨ c = '_' := by
  simp [isNameStart, isAlpha_iff]

theorem isNameChar_iff (c : Char) : isNameChar c = true ↔ IsLetter c ∨ IsDigit c ∨ c = '_' := by
  simp [isNameChar, Char.isAlphanum, isAlpha_iff, isDigit_iff, or_assoc]

/-- The test is the pattern. -/
theorem isNameList_iff (cs : List Char) : isNameList cs = true ↔ IsName cs := by
  cases cs with
  | nil => simp [isNameList, IsName]
  | cons c rest => simp [isNameList, IsName, isNameStart_iff, isNameChar_iff]

instance : DecidablePred IsName := fun cs => decidable_of_iff _ (isNameList_iff cs)

end ShaderGraph
