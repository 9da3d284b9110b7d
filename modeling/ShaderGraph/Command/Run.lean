import ShaderGraph.Build
import ShaderGraph.Command.Arguments
import ShaderGraph.Graph.Dot
import ShaderGraph.Provenance

/-!
# Runs of the command

A run loads the libraries and the graph, makes the text of the chosen stage and
delivers it to the output file or to standard output. It exits with 0 if the
text was delivered, with 1 if the graph is at fault, and with 2 on wrong
arguments and unusable files. An indentation that is wider than any text can be
breaks the run off. What the run does to files and to standard output goes
through a `Disk`, so the same run works on a model of a file system.
-/

namespace ShaderGraph.Command

open ShaderGraph.Template

/-- The files that a run sees, and standard output. -/
structure Disk (m : Type → Type) where
  read : (path : String) → m (Except FileFault String)
  write : (path text : String) → m (Except FileFault Unit)
  print : (text : String) → m (Except FileFault Unit)

/-- The files of a file tree. Standard output takes every text. -/
def Disk.ofTree : Disk (StateM FileTree) where
  read path := do
    return (← get).read path >>= textOf
  write path text := do
    match (← get).write path text.toUTF8 with
    | .error fault => return .error fault
    | .ok tree => set tree; return .ok ()
  print _ := return .ok ()

/-- What a run leaves, besides the files it has written. -/
structure Result where
  exit : Nat
  /-- What has been printed. -/
  stdout : String
  stderr : String
deriving DecidableEq, Repr

/-- The name that messages start with. -/
def programName : String := "sgc"

/-- A line of standard error. -/
def note (message : String) : String := programName ++ ": " ++ message ++ "\n"

/-- The line of standard error about a failure without a code. -/
def failureNote (message : String) : String := note ("error: " ++ message)

/-- The text of the stage that the options ask for, and warnings. -/
def Options.emit (o : Options) (lib : Library) (graphText : String)
    (nodes : List Node) : Except BuildError (String × List Diagnostic) :=
  match o.stage with
  | .shader => (build lib .template o.layout nodes).map fun s => (s.source, s.warnings)
  | .order => (checkedOrder lib nodes).map fun order =>
    (String.join (order.map fun n => n.id ++ "\n"), [])
  | .dot => (checkedGraph lib nodes).map fun g => (g.dot, [])
  | .buildInfo => .ok ((provenance graphText lib).text, [])

/-- The most octets that a text can have. -/
def textLimit : Nat := Nat.pow 2 63 - 1

/-- Whether the indentation, which only program text has, is wider than any text
can be. -/
def Options.overflows (o : Options) : Bool := o.stage == .shader && textLimit < o.indent

/-- What is said when a run breaks off. -/
def overflowText : String := "\nthread 'main' panicked:\ncapacity overflow\n"

section

variable {m : Type → Type} [Monad m] (disk : Disk m)

/-- Load library files in order. -/
def loadLibraries (lib : Library) : List String → m (Except LibraryError Library)
  | [] => return .ok lib
  | path :: rest => do
    match lib.loadContent path (← disk.read path) with
    | .error e => return .error e
    | .ok (lib, _) => loadLibraries lib rest

/-- Deliver a text to the output file, or to standard output. -/
def deliver (output : Option String) (text warnings : String) : m Result := do
  match output with
  | none =>
    match ← disk.print text with
    | .error fault => return ⟨2, "", warnings ++ failureNote fault.message⟩
    | .ok () => return ⟨0, text, warnings⟩
  | some path =>
    match ← disk.write path text with
    | .error fault =>
      return ⟨2, "", warnings ++ failureNote (SourceError.unreadable path fault).message⟩
    | .ok () => return ⟨0, "", warnings⟩

/-- Run with options. -/
def runOptions (o : Options) : m Result := do
  match ← loadLibraries disk .empty o.libraries with
  | .error e => return ⟨2, "", failureNote e.message⟩
  | .ok lib =>
    match ← disk.read o.graph with
    | .error fault =>
      return ⟨2, "", failureNote (SourceError.unreadable o.graph fault).message⟩
    | .ok graphText =>
      match loadNodes graphText o.graph with
      | .error e => return ⟨1, "", failureNote e.message⟩
      | .ok nodes =>
        if o.overflows then return ⟨101, "", overflowText⟩ else
        match o.emit lib graphText nodes with
        | .error e => return ⟨1, "", note e.diagnostic.text⟩
        | .ok (text, warnings) =>
          deliver disk o.output text (String.join (warnings.map fun d => note d.text))

end

/-- How the command is used, in one line. -/
def usageLine : String := "Usage: " ++ programName ++ " [OPTIONS] <GRAPH>"

/-- What is said about wrong arguments. -/
def usageText : String :=
  "error: the arguments are not understood\n\n" ++ usageLine
    ++ "\n\nFor more information, try '--help'.\n"

/-- What is said about the command when asked for help. -/
def helpText : String :=
  "Shader Graph Compiler — compiles JSON node graphs into shader programs\n\n" ++ usageLine
    ++ "\n\nArguments:\n"
    ++ "  <GRAPH>  Input graph file (JSON array of node instances)\n\nOptions:\n"
    ++ "  -l, --library <LIBRARY>  Node type library file (repeatable)\n"
    ++ "  -o, --output <OUTPUT>    Output file path (default: stdout)\n"
    ++ "      --emit <EMIT>        Output stage [default: shader]"
    ++ " [possible values: shader, order, dot, build-info]\n"
    ++ "      --entry <ENTRY>      Entry point signature wrapped around the node blocks"
    ++ " [default: \"void main(void)\"]\n"
    ++ "      --indent <INDENT>    Spaces per indentation level [default: 4]\n"
    ++ "      --no-comments        Omit `// node <id>, <type>` comments\n"
    ++ "      --verbose            Print compiler passes and timing\n"
    ++ "  -h, --help               Print help\n"
    ++ "  -V, --version            Print version\n"

/-- Answer a question about the command, whether or not anyone listens. -/
def answer {m : Type → Type} [Monad m] (disk : Disk m) (text : String) : m Result := do
  let _ ← disk.print text
  return ⟨0, text, ""⟩

/-- Run the command. -/
def run {m : Type → Type} [Monad m] (disk : Disk m) (args : List String) : m Result :=
  match Request.ofArguments args with
  | .run options => runOptions disk options
  | .help => answer disk helpText
  | .version => answer disk (programName ++ " " ++ compilerVersion ++ "\n")
  | .usage => return ⟨2, "", usageText⟩

end ShaderGraph.Command
