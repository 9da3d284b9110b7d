import ShaderGraph.Text.WordChar

/-!
# Whole words

Replacing names in a text where they stand as whole words. The text is searched
from left to right for the first place where a name starts and ends at a word
boundary, the names being tried in order, and the search goes on after it. What
has been put in is not searched again. Which characters make up words is a
parameter.
-/

namespace ShaderGraph.Program

/-- Whether there is a word boundary between two neighbouring characters, either
of which may be missing. -/
def isBoundary (isWord : Char → Bool) (before after : Option Char) : Bool :=
  before.any isWord != after.any isWord

/-- Whether a name stands at the front of a text and ends at a word boundary. -/
def endsAtBoundary (isWord : Char → Bool) (name text : List Char) : Bool :=
  name.isPrefixOf text && isBoundary isWord name.getLast? (text.drop name.length).head?

/-- The first of the names that stands as a whole word at the front of a text
that follows the character `before`. -/
def wordAt? (isWord : Char → Bool) (names : List (List Char)) (before : Option Char)
    (text : List Char) : Option (List Char) :=
  if isBoundary isWord before text.head? then names.find? (endsAtBoundary isWord · text)
  else none

/-- Replace names in a text that follows the character `before`, leaving out its
first `skip` characters. Gives the new text and the names that occurred, in
order. -/
def replaceFrom (isWord : Char → Bool) (names : List (List Char))
    (new : List Char → List Char) : (before : Option Char) → (skip : Nat) → List Char →
      List Char × List (List Char)
  | _, _, [] => ([], [])
  | _, skip + 1, c :: text => replaceFrom isWord names new (some c) skip text
  | before, 0, c :: text =>
    match wordAt? isWord names before (c :: text) with
    | some name =>
      let (out, used) := replaceFrom isWord names new (some c) (name.length - 1) text
      (new name ++ out, name :: used)
    | none =>
      let (out, used) := replaceFrom isWord names new (some c) 0 text
      (c :: out, used)

/-- Replace names that stand as whole words in a text. -/
def replaceWords (isWord : Char → Bool) (names : List (List Char))
    (new : List Char → List Char) (text : List Char) : List Char × List (List Char) :=
  replaceFrom isWord names new none 0 text

end ShaderGraph.Program
