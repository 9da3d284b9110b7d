import ShaderGraph.Json.Record
import ShaderGraph.Template.Segment

/-!
# Rendering templates

A template is rendered with a dictionary of defines. Only the branch that a
conditional takes is looked at, so the other may refer to defines that are not
there.

A `BodyCompiler` is what a build sees of templates: it turns the body of a node
type into a function from defines to text.
-/

namespace ShaderGraph.Template

open ShaderGraph.Json

/-- Values by define name. -/
abbrev Defines := Dict Value

/-- Why a body gives no text. -/
inductive BodyError where
  /-- The template text has faults. -/
  | malformed (faults : List Fault)
  /-- A value is wanted of a define that is not there. -/
  | undefinedDefine (name : String)
  /-- A compiler's own reason. -/
  | other (message : String)
deriving DecidableEq, Repr

/-- A fault with its range. -/
def Fault.describe (f : Fault) : String :=
  f.message ++ " (at " ++ toString f.span.start ++ ".." ++ toString f.span.stop ++ ")"

/-- The wording of a body error. -/
def BodyError.message : BodyError → String
  | .malformed [] => "template syntax error"
  | .malformed faults => "template syntax error: " ++ "; ".intercalate (faults.map Fault.describe)
  | .undefinedDefine name => "template uses undefined define '" ++ name ++ "'"
  | .other message => message

/-- The text that a value stands for: texts as they are, null as nothing, and
everything else as JSON. -/
def valueText : Value → String
  | .string s => s
  | .null => ""
  | v => v.text

/-- Whether a define that may be absent counts as true. -/
def isTruthy : Option Value → Bool
  | none => false
  | some v => v.isTruthy

mutual

/-- The text of a segment. -/
def Segment.render (defines : Defines) : Segment → Except BodyError String
  | .text content => .ok content
  | .interp name _ =>
    match defines.find? name with
    | some v => .ok (valueText v)
    | none => .error (.undefinedDefine name)
  | .cond name _ thenPart elsePart =>
    if isTruthy (defines.find? name) then renderAll defines thenPart
    else renderAll defines elsePart

/-- The text of segments one after the other. -/
def renderAll (defines : Defines) : List Segment → Except BodyError String
  | [] => .ok ""
  | s :: rest =>
    match s.render defines with
    | .error e => .error e
    | .ok text =>
      match renderAll defines rest with
      | .error e => .error e
      | .ok more => .ok (text ++ more)

end

/-- The text of a template. -/
def render (t : Template) (defines : Defines) : Except BodyError String :=
  renderAll defines t.segments

/-! ## Body compilers -/

/-- A body that waits for its defines. -/
abbrev Body := Defines → Except BodyError String

/-- Turns the body of a node type, given with its tag, into a `Body`. -/
structure BodyCompiler where
  compile : (tag body : String) → Except BodyError Body

/-- The template that a body spells. -/
def compile (source : String) : Except BodyError Template :=
  match parse source with
  | .error f => .error (.malformed [f])
  | .ok t => .ok t

/-- Bodies are templates. -/
def BodyCompiler.template : BodyCompiler where
  compile _ body :=
    match Template.compile body with
    | .error e => .error e
    | .ok t => .ok t.render

end ShaderGraph.Template
