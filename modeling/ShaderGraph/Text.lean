/-!
# Texts

What the rest of the library needs to know about texts as lists of characters:

* **ranges** — a character class is a list of code point ranges in increasing order,
  both ends included;
* **blanks** — the characters that only separate: the white space property of the
  character standard, 25 code points in all;
* **lines** — a line ends at a line feed, and a carriage return right before the line
  feed belongs to the ending. What follows the last line feed is a line of its own if
  there is any of it, and keeps its carriage returns;
* **octets** — positions in texts are counted in the octets of their UTF-8 form,
  although the texts themselves are read character by character.
-/

namespace ShaderGraph.Text

/-! ## Tables of code points -/

/-- Whether a code point lies in one of the ranges. The ranges are in order, so
the search ends at the first that starts beyond it. -/
def inRanges : List (Nat × Nat) → Nat → Bool
  | [], _ => false
  | (lo, hi) :: rest, n => if n < lo then false else if n ≤ hi then true else inRanges rest n

/-! ## Blanks -/

/-- Whether a character is white space. -/
def isBlank (c : Char) : Bool :=
  let n := c.toNat
  (0x09 ≤ n && n ≤ 0x0d) || n == 0x20 || n == 0x85 || n == 0xa0 || n == 0x1680
    || (0x2000 ≤ n && n ≤ 0x200a) || n == 0x2028 || n == 0x2029 || n == 0x202f
    || n == 0x205f || n == 0x3000

/-- Whether a text holds nothing but white space. -/
def allBlank (cs : List Char) : Bool := cs.all isBlank

/-! ## Lines -/

/-- A finished line without the carriage return that ends it. -/
def dropReturn (line : List Char) : List Char :=
  if line.getLast? = some '\r' then line.dropLast else line

/-- The lines of a text, with the characters of the line under way given in
reverse. -/
def linesFrom (current : List Char) : List Char → List (List Char)
  | [] => if current.isEmpty then [] else [current.reverse]
  | c :: rest =>
    if c = '\n' then dropReturn current.reverse :: linesFrom [] rest
    else linesFrom (c :: current) rest

/-- The lines of a text without their endings. -/
def lines (text : List Char) : List (List Char) := linesFrom [] text

/-- A text without the line feeds at its ends. -/
def trimNewlines (text : List Char) : List Char :=
  ((text.dropWhile (· == '\n')).reverse.dropWhile (· == '\n')).reverse

/-! ## Octets -/

/-- The number of octets that the characters take in UTF-8. -/
def octets : List Char → Nat
  | [] => 0
  | c :: rest => c.utf8Size + octets rest

@[simp] theorem octets_nil : octets [] = 0 := rfl

@[simp] theorem octets_cons (c : Char) (cs : List Char) :
    octets (c :: cs) = c.utf8Size + octets cs := rfl

@[simp] theorem octets_append (cs ds : List Char) :
    octets (cs ++ ds) = octets cs + octets ds := by
  induction cs with
  | nil => simp
  | cons c cs ih => simp [ih, Nat.add_assoc]

theorem octets_eq_utf8ByteSize (cs : List Char) : octets cs = (String.ofList cs).utf8ByteSize := by
  induction cs with
  | nil => simp
  | cons c cs ih =>
    rw [octets_cons, ih, show c :: cs = [c] ++ cs from rfl, String.ofList_append,
      String.utf8ByteSize_append]
    simp

/-- The octets of a text are the octets of its characters. -/
@[simp] theorem octets_toList (s : String) : octets s.toList = s.utf8ByteSize := by
  rw [octets_eq_utf8ByteSize, String.ofList_toList]

end ShaderGraph.Text
