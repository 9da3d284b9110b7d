/-!
# SHA-256

The hash of octets: 256 bits that stand for a text in build records. A message
is padded to whole blocks of sixteen words, and each block stirs a state of
eight words in 64 rounds.
-/

namespace ShaderGraph.Digest

/-- The state between blocks. -/
structure HashState where
  a : UInt32
  b : UInt32
  c : UInt32
  d : UInt32
  e : UInt32
  f : UInt32
  g : UInt32
  h : UInt32

/-- The state before the first block. -/
def HashState.start : HashState :=
  ⟨0x6a09e667, 0xbb67ae85, 0x3c6ef372, 0xa54ff53a, 0x510e527f, 0x9b05688c, 0x1f83d9ab,
    0x5be0cd19⟩

/-- The constants of the rounds. -/
def roundConstants : List UInt32 :=
  [0x428a2f98, 0x71374491, 0xb5c0fbcf, 0xe9b5dba5, 0x3956c25b, 0x59f111f1, 0x923f82a4,
   0xab1c5ed5, 0xd807aa98, 0x12835b01, 0x243185be, 0x550c7dc3, 0x72be5d74, 0x80deb1fe,
   0x9bdc06a7, 0xc19bf174, 0xe49b69c1, 0xefbe4786, 0x0fc19dc6, 0x240ca1cc, 0x2de92c6f,
   0x4a7484aa, 0x5cb0a9dc, 0x76f988da, 0x983e5152, 0xa831c66d, 0xb00327c8, 0xbf597fc7,
   0xc6e00bf3, 0xd5a79147, 0x06ca6351, 0x14292967, 0x27b70a85, 0x2e1b2138, 0x4d2c6dfc,
   0x53380d13, 0x650a7354, 0x766a0abb, 0x81c2c92e, 0x92722c85, 0xa2bfe8a1, 0xa81a664b,
   0xc24b8b70, 0xc76c51a3, 0xd192e819, 0xd6990624, 0xf40e3585, 0x106aa070, 0x19a4c116,
   0x1e376c08, 0x2748774c, 0x34b0bcb5, 0x391c0cb3, 0x4ed8aa4a, 0x5b9cca4f, 0x682e6ff3,
   0x748f82ee, 0x78a5636f, 0x84c87814, 0x8cc70208, 0x90befffa, 0xa4506ceb, 0xbef9a3f7,
   0xc67178f2]

/-- Turn a word to the right. -/
def rotr (x : UInt32) (n : UInt32) : UInt32 := (x >>> n) ||| (x <<< (32 - n))

/-- The next word of a schedule. -/
def nextWord (words : Array UInt32) (t : Nat) : UInt32 :=
  let x := words.getD (t - 15) 0
  let y := words.getD (t - 2) 0
  let s0 := rotr x 7 ^^^ rotr x 18 ^^^ (x >>> 3)
  let s1 := rotr y 17 ^^^ rotr y 19 ^^^ (y >>> 10)
  words.getD (t - 16) 0 + s0 + words.getD (t - 7) 0 + s1

/-- The words that a block of sixteen gives to the 64 rounds. -/
def schedule (block : List UInt32) : List UInt32 :=
  ((List.range 48).foldl (fun words k => words.push (nextWord words (k + 16)))
    block.toArray).toList

/-- One round. -/
def HashState.round (s : HashState) (constant word : UInt32) : HashState :=
  let s1 := rotr s.e 6 ^^^ rotr s.e 11 ^^^ rotr s.e 25
  let choice := (s.e &&& s.f) ^^^ ((s.e ^^^ 0xffffffff) &&& s.g)
  let t1 := s.h + s1 + choice + constant + word
  let s0 := rotr s.a 2 ^^^ rotr s.a 13 ^^^ rotr s.a 22
  let majority := (s.a &&& s.b) ^^^ (s.a &&& s.c) ^^^ (s.b &&& s.c)
  ⟨t1 + s0 + majority, s.a, s.b, s.c, s.d + t1, s.e, s.f, s.g⟩

/-- Add two states word by word. -/
def HashState.add (s t : HashState) : HashState :=
  ⟨s.a + t.a, s.b + t.b, s.c + t.c, s.d + t.d, s.e + t.e, s.f + t.f, s.g + t.g, s.h + t.h⟩

/-- Stir in a block. -/
def HashState.absorb (s : HashState) (block : List UInt32) : HashState :=
  s.add ((roundConstants.zip (schedule block)).foldl (fun s k => s.round k.1 k.2) s)

/-- The octets of a number, `count` of them, most significant first. -/
def bigEndian (count n : Nat) : List UInt8 :=
  (List.range count).map fun k => UInt8.ofNat (n / Nat.pow 256 (count - 1 - k))

/-- A message with its padding: a mark, zeros, and its length in bits. -/
def padded (message : List UInt8) : List UInt8 :=
  let zeros := (119 - message.length % 64) % 64
  message ++ 0x80 :: (List.replicate zeros 0 ++ bigEndian 8 (8 * message.length))

/-- The words that octets make, four by four. -/
def wordsOf : List UInt8 → List UInt32
  | a :: b :: c :: d :: rest =>
    ((a.toUInt32 <<< 24) ||| (b.toUInt32 <<< 16) ||| (c.toUInt32 <<< 8) ||| d.toUInt32)
      :: wordsOf rest
  | _ => []

/-- Words in blocks of sixteen. -/
def blocksOf (words : List UInt32) : List (List UInt32) :=
  match words with
  | [] => []
  | w :: rest => (w :: rest.take 15) :: blocksOf (rest.drop 15)
termination_by words.length
decreasing_by
  simp only [List.length_drop, List.length_cons]
  omega

/-- The words of a state. -/
def HashState.words (s : HashState) : List UInt32 := [s.a, s.b, s.c, s.d, s.e, s.f, s.g, s.h]

/-- The hash of a message. -/
def sha256 (message : List UInt8) : List UInt8 :=
  let final := (blocksOf (wordsOf (padded message))).foldl HashState.absorb .start
  final.words.flatMap fun w => bigEndian 4 w.toNat

/-- Octets in lower-case hexadecimal digits. -/
def hexText (octets : List UInt8) : String :=
  String.ofList (octets.flatMap fun b =>
    [Nat.digitChar (b.toNat / 16), Nat.digitChar (b.toNat % 16)])

end ShaderGraph.Digest
