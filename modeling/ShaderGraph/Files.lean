import ShaderGraph.Json.Failure

/-!
# Files

Why a file cannot be read or written, and a model of a file system: a working
directory with named files and directories in it. A path is followed component
by component from the working directory. Outside of it nothing is known but that
the places above it are directories.
-/

namespace ShaderGraph

open ShaderGraph.Json

/-- Why a file operation failed. -/
inductive FileFault where
  | notFound
  | isDirectory
  | notDirectory
  | notUtf8
  /-- The path holds the character that ends a name. -/
  | nulInName
  /-- The path, or a name on it, is longer than the system allows. -/
  | nameTooLong
  /-- Another reason, in the words of the system. -/
  | other (message : String)
deriving DecidableEq, Repr

/-- The wording of a file fault. -/
def FileFault.message : FileFault → String
  | .notFound => "No such file or directory (os error 2)"
  | .isDirectory => "Is a directory (os error 21)"
  | .notDirectory => "Not a directory (os error 20)"
  | .notUtf8 => "stream did not contain valid UTF-8"
  | .nulInName => "file name contained an unexpected NUL byte"
  | .nameTooLong => "File name too long (os error 36)"
  | .other message => message

/-- Why a source file gives no data. -/
inductive SourceError where
  /-- The file cannot be read. -/
  | unreadable (path : String) (fault : FileFault)
  /-- The file's text is not what it should be. -/
  | malformed (file : String) (error : ReadError)
deriving DecidableEq, Repr

/-- The fault behind a source error. -/
def SourceError.cause : SourceError → String
  | .unreadable _ fault => fault.message
  | .malformed _ error => error.message

/-- The wording of a source error. -/
def SourceError.message : SourceError → String
  | .unreadable path fault => path ++ ": " ++ fault.message
  | .malformed file error =>
    file ++ ":" ++ toString error.position.line ++ ":" ++ toString error.position.column
      ++ ": " ++ error.message

/-! ## File trees -/

/-- What stands at a place in a file tree. -/
inductive Entry where
  | file (content : ByteArray)
  | directory

instance : DecidableEq Entry
  | .file a, .file b => decidable_of_iff (a.data = b.data)
      ⟨fun h => congrArg _ (ByteArray.ext h), fun h => congrArg _ (Entry.file.inj h)⟩
  | .directory, .directory => isTrue rfl
  | .file _, .directory | .directory, .file _ => isFalse nofun

/-- The places of a working directory that hold something, each given by the
names on the way to it. A place on the way to another is a directory. -/
structure FileTree where
  entries : List (List String × Entry)

namespace FileTree

/-- The entry at a place; the working directory itself is one. -/
def entry? (t : FileTree) (place : List String) : Option Entry :=
  if place.isEmpty then some .directory else
  match t.entries.find? (·.1 == place) with
  | some e => some e.2
  | none => if t.entries.any (fun e => place.isPrefixOf e.1) then some .directory else none

/-- Whether a name on a path stays at a place or goes up from it. -/
def staysOrRises (name : String) : Bool := name = "" ∨ name = "." ∨ name = ".."

/-- The fault of a name that nothing has: no entry has more than 255 octets in
its name. -/
def missing (name : String) : FileFault :=
  if name.utf8ByteSize ≤ 255 then .notFound else .nameTooLong

/-- The fault of a path that leaves the working directory and goes on with the
given names: it leads to a directory above, or to nothing. -/
def outside (names : List String) : FileFault :=
  match names.find? (!staysOrRises ·) with
  | none => .isDirectory
  | some name => missing name

/-- Follow the names of a path from a place that is a directory. -/
def walk (t : FileTree) (place : List String) : List String → Except FileFault (List String)
  | [] => .ok place
  | name :: rest =>
    if name = "" ∨ name = "." then t.walk place rest
    else if name = ".." then
      if place.isEmpty then .error (outside rest) else t.walk place.dropLast rest
    else
      let next := place ++ [name]
      match t.entry? next with
      | some .directory => t.walk next rest
      | some (.file _) => if rest.isEmpty then .ok next else .error .notDirectory
      | none => if rest.isEmpty ∧ missing name = .notFound then .ok next else .error (missing name)

/-- The names on a path. -/
def namesOn (path : String) : List String := (path.toList.splitOn '/').map String.ofList

/-- The place that a path leads to. A path has fewer than 4096 octets. -/
def resolve (t : FileTree) (path : String) : Except FileFault (List String) :=
  if path.toList.contains '\x00' then .error .nulInName
  else if 4096 ≤ path.utf8ByteSize then .error .nameTooLong else
  match namesOn path with
  | [""] => .error .notFound
  | "" :: name :: rest => .error (outside (name :: rest))
  | names => t.walk [] names

/-- The place that a path leads to when a file is to be put there. A slash at the
end of a path means a directory, so no file can have it; what stands before the
last name must be there. -/
def resolveNew (t : FileTree) (path : String) : Except FileFault (List String) :=
  let names := path.toList.reverse.dropWhile (· == '/')
  if names.length = path.length ∨ names.isEmpty ∨ 4096 ≤ path.utf8ByteSize then t.resolve path
  else
  match t.resolve (String.ofList (names.dropWhile (· != '/')).reverse ++ ".") with
  | .error fault => .error fault
  | .ok _ => .error .isDirectory

/-- The octets of a file. -/
def read (t : FileTree) (path : String) : Except FileFault ByteArray :=
  match t.resolve path with
  | .error fault => .error fault
  | .ok place =>
    match t.entry? place with
    | none => .error .notFound
    | some .directory => .error .isDirectory
    | some (.file content) => .ok content

/-- Put an entry at a place, over what was there. -/
def set (t : FileTree) (place : List String) (e : Entry) : FileTree :=
  ⟨(place, e) :: t.entries.filter (·.1 != place)⟩

/-- Replace or create a file. -/
def write (t : FileTree) (path : String) (content : ByteArray) : Except FileFault FileTree :=
  match t.resolveNew path with
  | .error fault => .error fault
  | .ok place =>
    match t.entry? place with
    | some .directory => .error .isDirectory
    | _ => .ok (t.set place (.file content))

end FileTree

/-- The text of octets, if they are one. -/
def textOf (content : ByteArray) : Except FileFault String :=
  match String.fromUTF8? content with
  | some text => .ok text
  | none => .error .notUtf8

end ShaderGraph
