import ShaderGraph.Files
import ShaderGraph.Library.NodeType

/-!
# Node type libraries

A library holds node types by tag, each with the file it came from. Types are
checked before they are added: the tag is free and not the reserved one, and
the names of the sockets are distinct identifiers. A file is added as a whole or
not at all.
-/

namespace ShaderGraph

open ShaderGraph.Json ShaderGraph.Template

/-- The tag of nodes that bridge a shader variable; no library type has it. -/
def externalTag : String := "external"

/-- Why a type or a file cannot be added to a library. -/
inductive LibraryError where
  /-- The file gives no types. -/
  | source (error : SourceError)
  /-- The tag has a type already. -/
  | duplicateType (tag first second : String)
  /-- The tag is the reserved one. -/
  | reservedTag (file : String)
  /-- The name of a socket is not an identifier. -/
  | invalidSocketName (tag socket file : String)
  /-- Two sockets have one name. -/
  | duplicateSocket (tag socket file : String)
deriving DecidableEq, Repr

/-- The wording of a library error. -/
def LibraryError.message : LibraryError → String
  | .source error => error.message
  | .duplicateType tag first second =>
    "duplicate node type '" ++ tag ++ "': first defined in " ++ first ++ ", redefined in " ++ second
  | .reservedTag file =>
    file ++ ": '" ++ externalTag ++ "' is reserved for external nodes and cannot be a library type"
  | .invalidSocketName tag socket file =>
    file ++ ": type '" ++ tag ++ "' has port name " ++ Text.quote socket
      ++ ", which is not an identifier"
  | .duplicateSocket tag socket file =>
    file ++ ": type '" ++ tag ++ "' declares port '" ++ socket ++ "' more than once"

/-- The fault behind a library error, if it has one. -/
def LibraryError.cause? : LibraryError → Option String
  | .source error => some error.cause
  | _ => none

/-- A node type and the file it came from. -/
structure Registered where
  type : NodeType
  origin : String
deriving DecidableEq

/-- Node types by tag. -/
structure Library where
  types : Dict Registered
deriving DecidableEq

namespace Library

/-- The library without types. -/
def empty : Library := ⟨.empty⟩

/-- The type with the given tag. -/
def lookup? (lib : Library) (tag : String) : Option NodeType :=
  (lib.types.find? tag).map (·.type)

/-- The number of types. -/
def size (lib : Library) : Nat := lib.types.size

/-- The tags in order. -/
def tags (lib : Library) : List String := lib.types.keys

/-! ## Checks -/

/-- Check socket names in order; `seen` holds the names before them. -/
def checkSockets (tag origin : String) : (seen : List String) → List Socket →
    Except LibraryError Unit
  | _, [] => .ok ()
  | seen, socket :: rest =>
    if !isIdentifier socket.name then .error (.invalidSocketName tag socket.name origin)
    else if seen.contains socket.name then .error (.duplicateSocket tag socket.name origin)
    else checkSockets tag origin (socket.name :: seen) rest

/-- Check that a type can be added. -/
def check (lib : Library) (tag : String) (type : NodeType) (origin : String) :
    Except LibraryError Unit :=
  if tag = externalTag then .error (.reservedTag origin)
  else match lib.types.find? tag with
    | some first => .error (.duplicateType tag first.origin origin)
    | none => checkSockets tag origin [] type.sockets

/-- Check that each of several types can be added. -/
def checkAll (lib : Library) (origin : String) : List (String × NodeType) →
    Except LibraryError Unit
  | [] => .ok ()
  | (tag, type) :: rest =>
    match lib.check tag type origin with
    | .error e => .error e
    | .ok () => lib.checkAll origin rest

/-! ## Additions -/

/-- Add a type without a check. -/
def add (lib : Library) (tag : String) (type : NodeType) (origin : String) : Library :=
  ⟨lib.types.insert tag ⟨type, origin⟩⟩

/-- Add types without a check. -/
def addAll (lib : Library) (origin : String) (types : List (String × NodeType)) : Library :=
  types.foldl (fun lib e => lib.add e.1 e.2 origin) lib

/-- Add a type. -/
def insert (lib : Library) (tag : String) (type : NodeType) (origin : String) :
    Except LibraryError Library :=
  match lib.check tag type origin with
  | .error e => .error e
  | .ok () => .ok (lib.add tag type origin)

/-- The shape of a library file. -/
def fileSchema : Schema (Dict NodeType) where
  title := "struct LibraryFile"
  blank := .empty
  fields := [.of "types" true (dict (record NodeType.schema)) (fun _ v => v)]

/-- The types in the text of a library file. -/
def parseFile (text : String) : Except ReadError (Dict NodeType) :=
  readDocument (record fileSchema) text

/-- Add the types of a library text, all of them or none, and count them. -/
def load (lib : Library) (text origin : String) : Except LibraryError (Library × Nat) :=
  match parseFile text with
  | .error e => .error (.source (.malformed origin e))
  | .ok types =>
    match lib.checkAll origin types.entries with
    | .error e => .error e
    | .ok () => .ok (lib.addAll origin types.entries, types.size)

/-- The file name given to library texts that come from no file. -/
def memoryOrigin : String := "<memory>"

/-- The library of one text. -/
def ofText (text : String) : Except LibraryError Library :=
  (empty.load text memoryOrigin).map (·.1)

/-- Add the types of a library file whose content has been looked up. -/
def loadContent (lib : Library) (path : String) (content : Except FileFault String) :
    Except LibraryError (Library × Nat) :=
  match content with
  | .error fault => .error (.source (.unreadable path fault))
  | .ok text => lib.load text path

/-! ## Writing -/

/-- A library as a value. -/
def toValue (lib : Library) : Value :=
  .object [("types", .object (lib.types.entries.map fun e => (e.1, e.2.type.toValue)))]

/-- The text of a library file with the library's types, in order and without
blanks. It does not depend on the files the types came from. -/
def canonicalText (lib : Library) : String := lib.toValue.text

end Library

end ShaderGraph
