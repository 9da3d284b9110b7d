import ShaderGraph.Program

/-!
# Command-line arguments

One graph file, any number of library files, and options for what to write and
how. Arguments are taken from left to right; the first that is wrong, or that
asks for help or the version, decides. After `--` every argument is a file.
-/

namespace ShaderGraph.Command

/-- What to write. -/
inductive Stage where
  /-- The program text. -/
  | shader
  /-- The node ids in order, one a line. -/
  | order
  /-- A drawing of the graph. -/
  | dot
  /-- The build record. -/
  | buildInfo
deriving DecidableEq, Repr

/-- The stage of the given name. -/
def Stage.ofText? : String → Option Stage
  | "shader" => some .shader
  | "order" => some .order
  | "dot" => some .dot
  | "build-info" => some .buildInfo
  | _ => none

/-- What a run is asked to do. -/
structure Options where
  graph : String
  libraries : List String
  output : Option String
  stage : Stage
  entry : String
  /-- Spaces for one level of indentation. -/
  indent : Nat
  comments : Bool
  verbose : Bool
deriving DecidableEq, Repr

/-- The layout of program text that the options ask for. -/
def Options.layout (o : Options) : Layout :=
  { entry := o.entry
    indent := String.ofList (List.replicate o.indent ' ')
    comments := o.comments }

/-- What the arguments come to. -/
inductive Request where
  | run (options : Options)
  | help
  | version
  | usage
deriving DecidableEq, Repr

/-- Why no options come of the arguments. -/
inductive Stop where
  | help
  | version
  | usage
deriving DecidableEq, Repr

/-- The request that a stop comes to. -/
def Stop.request : Stop → Request
  | .help => .help
  | .version => .version
  | .usage => .usage

/-- The arguments taken so far. What is `none` has not been given. -/
structure Given where
  graph : Option String := none
  libraries : List String := []
  output : Option String := none
  stage : Option Stage := none
  entry : Option String := none
  indent : Option Nat := none
  noComments : Bool := false
  verbose : Bool := false
deriving DecidableEq, Repr

/-- A whole number of at most 64 bits, perhaps with a plus sign. -/
def natOf? (s : String) : Option Nat :=
  let digits := match s.toList with
    | '+' :: rest => rest
    | cs => cs
  if digits.isEmpty || !digits.all Char.isDigit then none else
  let n := digits.foldl (fun n d => n * 10 + (d.toNat - '0'.toNat)) 0
  if n < Nat.pow 2 64 then some n else none

/-- Fill a place that can be filled only once. -/
def once {α : Type} (old : Option α) (new : Option α) : Except Stop (Option α) :=
  match old, new with
  | none, some x => .ok (some x)
  | _, _ => .error .usage

/-- A file name; there is none without a character. -/
def fileName? (s : String) : Option String := if s = "" then none else some s

namespace Given

/-- Take a file for the graph. -/
def addGraph (g : Given) (file : String) : Except Stop Given := do
  return { g with graph := ← once g.graph (fileName? file) }

/-- Take a library file. -/
def addLibrary (g : Given) (file : String) : Except Stop Given :=
  match fileName? file with
  | some name => .ok { g with libraries := g.libraries ++ [name] }
  | none => .error .usage

/-- Take the file to write. -/
def setOutput (g : Given) (file : String) : Except Stop Given := do
  return { g with output := ← once g.output (fileName? file) }

/-- The options that have a value, by name. -/
def valued? : String → Option (Given → String → Except Stop Given)
  | "library" => some addLibrary
  | "output" => some setOutput
  | "emit" => some fun g v => do return { g with stage := ← once g.stage (Stage.ofText? v) }
  | "entry" => some fun g v => do return { g with entry := ← once g.entry (some v) }
  | "indent" => some fun g v => do return { g with indent := ← once g.indent (natOf? v) }
  | _ => none

/-- Take an option without a value. -/
def setFlag (g : Given) : String → Except Stop Given
  | "no-comments" => if g.noComments then .error .usage else .ok { g with noComments := true }
  | "verbose" => if g.verbose then .error .usage else .ok { g with verbose := true }
  | "help" => .error .help
  | "version" => .error .version
  | _ => .error .usage

/-- The letters that stand for options. -/
def letter? : Char → Option String
  | 'l' => some "library"
  | 'o' => some "output"
  | 'h' => some "help"
  | 'V' => some "version"
  | _ => none

end Given

/-- Whether an argument is an option, and not a value. -/
def isOption (arg : String) : Bool :=
  match arg.toList with
  | '-' :: _ :: _ => true
  | _ => false

/-- An option still waiting for its value. -/
abbrev Waiting := Given → String → Except Stop Given

/-- Take an option written out, after its dashes. -/
def takeLong (g : Given) (cs : List Char) : Except Stop (Given × Option Waiting) :=
  let name := String.ofList (cs.takeWhile (· != '='))
  let value := match cs.dropWhile (· != '=') with
    | _ :: v => some (String.ofList v)
    | [] => none
  match Given.valued? name, value with
  | some set, some v => (set g v).map (·, none)
  | some set, none => .ok (g, some set)
  | none, some _ => .error .usage
  | none, none => (g.setFlag name).map (·, none)

/-- Take options written as letters, after their dash. A value may follow its
letter at once or after an equals sign. -/
def takeShort (g : Given) : List Char → Except Stop (Given × Option Waiting)
  | [] => .ok (g, none)
  | c :: rest =>
    match Given.letter? c with
    | none => .error .usage
    | some name =>
      match Given.valued? name with
      | some set =>
        match rest with
        | [] => .ok (g, some set)
        | '=' :: v => (set g (String.ofList v)).map (·, none)
        | v => (set g (String.ofList v)).map (·, none)
      | none =>
        match g.setFlag name with
        | .error s => .error s
        | .ok g => takeShort g rest

/-- Take one argument that no option waits for. -/
def takeArgument (g : Given) (arg : String) : Except Stop (Given × Option Waiting) :=
  match arg.toList with
  | '-' :: '-' :: cs => takeLong g cs
  | '-' :: c :: cs => takeShort g (c :: cs)
  | _ => (g.addGraph arg).map (·, none)

/-- Take arguments in order. `waiting` is an option whose value comes next, and
`plain` tells whether only files are left. -/
def takeAll (g : Given) (waiting : Option Waiting) (plain : Bool) :
    List String → Except Stop Given
  | [] => if waiting.isSome then .error .usage else .ok g
  | arg :: rest =>
    match waiting with
    | some set =>
      if isOption arg then .error .usage else
      match set g arg with
      | .error s => .error s
      | .ok g => takeAll g none plain rest
    | none =>
      if plain then
        match g.addGraph arg with
        | .error s => .error s
        | .ok g => takeAll g none true rest
      else if arg = "--" then takeAll g none true rest
      else
        match takeArgument g arg with
        | .error s => .error s
        | .ok (g, waiting) => takeAll g waiting false rest

/-- The options that the taken arguments come to; a graph is required. -/
def Given.options? (g : Given) : Option Options :=
  g.graph.map fun graph =>
    { graph := graph
      libraries := g.libraries
      output := g.output
      stage := g.stage.getD .shader
      entry := g.entry.getD Layout.standard.entry
      indent := g.indent.getD 4
      comments := !g.noComments
      verbose := g.verbose }

/-- What arguments ask for. -/
def Request.ofArguments (args : List String) : Request :=
  match takeAll {} none false args with
  | .error s => s.request
  | .ok g =>
    match g.options? with
    | some options => .run options
    | none => .usage

end ShaderGraph.Command
