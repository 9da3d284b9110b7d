import ShaderGraph.Dict
import ShaderGraph.Template.Token

/-!
# Template segments

The shape of a template: text, values of defines, and conditionals on defines
with a branch for each outcome. `parse` reads it from the tokens with a stack
of open conditionals, one token at a time, so it stops at the first token that
nothing can follow up to a template, and says there what could have stood
instead.
-/

namespace ShaderGraph.Template

/-- A range of octets in a template text. -/
structure Span where
  start : Nat
  stop : Nat
deriving DecidableEq, Repr

/-- A part of a template. -/
inductive Segment where
  /-- Text that stands for itself. -/
  | text (content : String)
  /-- The value of a define, with the range of its tag. -/
  | interp (name : String) (span : Span)
  /-- Two branches of which a define picks one, with the range from the opening
  tag to the end of the closing tag. -/
  | cond (name : String) (span : Span) (thenPart elsePart : List Segment)
deriving Repr

end ShaderGraph.Template

/-- A parsed body template. -/
structure ShaderGraph.Template where
  segments : List ShaderGraph.Template.Segment
deriving Repr

namespace ShaderGraph.Template

/-! ## Faults -/

/-- Where in a template the reading stood when it met a fault: that fixes what
could have come next. -/
inductive Place where
  /-- Outside of every conditional. -/
  | top
  /-- In the first branch of the innermost open conditional. -/
  | inThen
  /-- In the second branch of the innermost open conditional. -/
  | inElse
deriving DecidableEq, Repr

/-- What can come next, besides text and further tags. -/
def Place.expected : Place → String
  | .top => "something else, or end of input"
  | .inThen => "something else, '\x7b\x7belse\x7d\x7d', or '\x7b\x7b/if\x7d\x7d'"
  | .inElse => "something else, or '\x7b\x7b/if\x7d\x7d'"

/-- A fault in a template text: a message and the octet range it is about. -/
structure Fault where
  message : String
  span : Span
deriving DecidableEq, Repr

/-- A token that cannot stand where it stands. -/
def Fault.unexpected (found : Lexeme) (place : Place) : Fault :=
  ⟨"found '" ++ found.token.display ++ "' expected " ++ place.expected, ⟨found.start, found.stop⟩⟩

/-- A text of `length` octets that ends inside a conditional. -/
def Fault.unfinished (length : Nat) (place : Place) : Fault :=
  ⟨"found end of input expected " ++ place.expected, ⟨length, length⟩⟩

/-! ## Reading -/

/-- A conditional whose closing tag has not come yet. -/
structure OpenIf where
  name : String
  /-- The octet its opening tag starts at. -/
  start : Nat
  /-- The segments before it in its own block, last first. -/
  before : List Segment
  /-- The first branch, once the second has begun. -/
  thenPart : Option (List Segment)

/-- The reading of a template so far: the open conditionals, innermost first,
and the segments of the innermost block, last first. -/
structure Reading where
  opened : List OpenIf
  block : List Segment

/-- The reading of no token. -/
def Reading.start : Reading := ⟨[], []⟩

/-- Add a segment to the innermost block. -/
def Reading.push (r : Reading) (s : Segment) : Reading := { r with block := s :: r.block }

/-- Where the reading stands. -/
def Reading.place (r : Reading) : Place :=
  match r.opened with
  | [] => .top
  | o :: _ => if o.thenPart.isNone then .inThen else .inElse

/-- Read one more token. -/
def Reading.step (r : Reading) (l : Lexeme) : Except Fault Reading :=
  match l.token with
  | .text content => .ok (r.push (.text content))
  | .brace => .ok (r.push (.text "\x7b"))
  | .interp name => .ok (r.push (.interp name ⟨l.start, l.stop⟩))
  | .openIf name => .ok ⟨⟨name, l.start, r.block, none⟩ :: r.opened, []⟩
  | .elseMark =>
    match r.opened with
    | ⟨name, start, before, none⟩ :: outer =>
      .ok ⟨⟨name, start, before, some r.block.reverse⟩ :: outer, []⟩
    | _ => .error (.unexpected l r.place)
  | .closeIf =>
    match r.opened with
    | ⟨name, start, before, thenPart⟩ :: outer =>
      let segment := match thenPart with
        | none => Segment.cond name ⟨start, l.stop⟩ r.block.reverse []
        | some branch => Segment.cond name ⟨start, l.stop⟩ branch r.block.reverse
      .ok ⟨outer, segment :: before⟩
    | [] => .error (.unexpected l r.place)
  | .openTag => .error (.unexpected l r.place)

/-- Read tokens in order, up to the first that cannot stand where it stands. -/
def Reading.steps (r : Reading) : List Lexeme → Except Fault Reading
  | [] => .ok r
  | l :: rest =>
    match r.step l with
    | .error f => .error f
    | .ok r' => r'.steps rest

/-- End the reading of a text of `length` octets. -/
def Reading.finish (r : Reading) (length : Nat) : Except Fault Template :=
  match r.opened with
  | [] => .ok ⟨r.block.reverse⟩
  | _ :: _ => .error (.unfinished length r.place)

/-- The template that a token list spells, where the text has `length`
octets. -/
def ofLexemes (tokens : List Lexeme) (length : Nat) : Except Fault Template :=
  match Reading.start.steps tokens with
  | .error f => .error f
  | .ok r => r.finish length

/-- The template that a text spells. -/
def parse (source : String) : Except Fault Template :=
  ofLexemes (lex source) source.utf8ByteSize

/-! ## Names -/

mutual

/-- The define names in a segment, both branches of a conditional included. -/
def Segment.names : Segment → List String
  | .text _ => []
  | .interp name _ => [name]
  | .cond name _ thenPart elsePart => name :: (namesOf thenPart ++ namesOf elsePart)

/-- The define names in segments, in order. -/
def namesOf : List Segment → List String
  | [] => []
  | s :: rest => s.names ++ namesOf rest

end

/-- The names of the defines that a template refers to, each once, in order. -/
def referenced (t : Template) : List String :=
  (Dict.ofList ((namesOf t.segments).map (·, ()))).keys

end ShaderGraph.Template
