import ShaderGraph.Library

/-!
# Libraries in use

A caller holds one library and changes it by calls. Such a call works on the
library in place: when it fails, what it has changed up to there stays changed.
-/

namespace ShaderGraph.Library

/-- Work on a library in place, which may fail. -/
abbrev Update := ExceptT LibraryError (StateM Library)

/-- What the work comes to, and the library after it. -/
def Update.perform {α : Type} (work : Update α) (lib : Library) :
    Except LibraryError α × Library := work.run.run lib

/-- Check that a type can be added to the library as it is now. -/
def checkNow (tag : String) (type : NodeType) (origin : String) : Update Unit := do
  match (← get).check tag type origin with
  | .error e => throw e
  | .ok () => return ()

/-- Put a type into the library. -/
def putNow (tag : String) (type : NodeType) (origin : String) : Update Unit :=
  modify (·.add tag type origin)

/-- Add a type. -/
def insertNow (tag : String) (type : NodeType) (origin : String) : Update Unit := do
  checkNow tag type origin
  putNow tag type origin

/-- Add the types of a library text and count them: check all of them, then put
them in one by one. -/
def loadNow (text origin : String) : Update Nat := do
  match parseFile text with
  | .error e => throw (.source (.malformed origin e))
  | .ok types =>
    types.entries.forM fun e => checkNow e.1 e.2 origin
    types.entries.forM fun e => putNow e.1 e.2 origin
    return types.size

/-- Take the library of one text, which is made apart, in place of the one held. -/
def replaceNow (text : String) : Update Nat := do
  match (loadNow text memoryOrigin).perform .empty with
  | (.error e, _) => throw e
  | (.ok count, lib) =>
    set lib
    return count

/-- What a caller can ask of a library. -/
inductive Call where
  /-- Start over with no types. -/
  | create
  | insert (tag : String) (type : NodeType) (origin : String)
  | load (text origin : String)
  | replace (text : String)

/-- A call as work on the library; the answer counts the types that came with
it. -/
def Call.update : Call → Update Nat
  | .create => do
    set empty
    return 0
  | .insert tag type origin => do
    insertNow tag type origin
    return 1
  | .load text origin => loadNow text origin
  | .replace text => replaceNow text

/-- The library after calls, of which any may fail. -/
def afterCalls (lib : Library) (calls : List Call) : Library :=
  calls.foldl (fun lib call => (call.update.perform lib).2) lib

end ShaderGraph.Library
