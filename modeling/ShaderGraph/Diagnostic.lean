/-!
# Diagnostics

What a build tells its user, apart from its result: an error that ended it or a
warning beside it.
-/

namespace ShaderGraph

/-- How grave a diagnostic is. -/
inductive Level where
  | error
  | warning
deriving DecidableEq, Repr

/-- The word for a level. -/
def Level.text : Level → String
  | .error => "error"
  | .warning => "warning"

/-- A message with what it is about. -/
structure Diagnostic where
  /-- The stable code of the message. -/
  code : Option String
  level : Level
  message : String
  /-- What could be done about it. -/
  hint : Option String
  /-- The node it is about. -/
  node : Option String
deriving DecidableEq, Repr

/-- A diagnostic as it is shown. -/
def Diagnostic.text (d : Diagnostic) : String :=
  d.level.text
    ++ (match d.code with
      | some code => "[" ++ code ++ "]"
      | none => "")
    ++ ": " ++ d.message
    ++ (match d.hint with
      | some hint => "\n  hint: " ++ hint
      | none => "")

end ShaderGraph
