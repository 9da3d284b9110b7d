import ShaderGraph.BuildError
import ShaderGraph.Dict

/-!
# Storage names

Every input of every node is stored in a variable of the program, named after
the node and the input. Different inputs can come out with one name, since both
parts may hold underscores; `StorageNames` remembers who has which name and
refuses the second. A caller holds one table and registers inputs in it one
after the other, whether or not a call before has failed.
-/

namespace ShaderGraph

/-- The storage variable of an input of a node. -/
def storageName (node input : String) : String := "inp_" ++ node ++ "_" ++ input

/-- The inputs that have a storage name, by name. -/
structure StorageNames where
  owners : Dict InputRef
deriving DecidableEq

namespace StorageNames

/-- No names. -/
def empty : StorageNames := ⟨.empty⟩

/-- The input that has the given name. -/
def owner? (names : StorageNames) (name : String) : Option InputRef := names.owners.find? name

/-- The number of names. -/
def size (names : StorageNames) : Nat := names.owners.size

/-- Give an input its name. An input may be registered again. -/
def register (names : StorageNames) (node input : String) :
    Except BuildError (StorageNames × String) :=
  let name := storageName node input
  match names.owners.find? name with
  | none => .ok (⟨names.owners.insert name (node, input)⟩, name)
  | some owner =>
    if owner = (node, input) then .ok (names, name)
    else .error (.nameCollision name owner (node, input))

/-! ## Tables in use -/

/-- Work on a table in place, which may fail. -/
abbrev Update := ExceptT BuildError (StateM StorageNames)

/-- What the work comes to, and the table after it. -/
def Update.perform {α : Type} (work : Update α) (names : StorageNames) :
    Except BuildError α × StorageNames := work.run.run names

/-- Give an input its name in the table as it is now. -/
def registerNow (node input : String) : Update String := do
  let name := storageName node input
  match (← get).owner? name with
  | none =>
    modify fun names => ⟨names.owners.insert name (node, input)⟩
    return name
  | some owner =>
    if owner = (node, input) then return name
    else throw (.nameCollision name owner (node, input))

/-- A call that registers an input, with its answer. -/
structure Call where
  ref : InputRef
  answer : Except BuildError String

/-- Register inputs one after the other: the calls with their answers, and the
table after them. -/
def registerEach (names : StorageNames) : List InputRef → List Call × StorageNames
  | [] => ([], names)
  | ref :: rest =>
    let (answer, names') := (registerNow ref.1 ref.2).perform names
    let (calls, last) := names'.registerEach rest
    (⟨ref, answer⟩ :: calls, last)

end StorageNames

end ShaderGraph
