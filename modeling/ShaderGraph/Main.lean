import ShaderGraph.Command.Run

/-!
# The command

Runs the command on the files of the system.
-/

open ShaderGraph

/-- The fault behind an error of the system. -/
def faultOf : IO.Error → FileFault
  | .noFileOrDirectory .. => .notFound
  | .inappropriateType _ code _ => if code = 21 then .isDirectory else .notDirectory
  | .permissionDenied _ code details =>
    .other (details ++ " (os error " ++ toString code ++ ")")
  | e => .other (toString e)

/-- Turn an error of the system into a fault. -/
def attempt {α : Type} (action : IO α) : IO (Except FileFault α) := do
  match ← action.toBaseIO with
  | .ok x => return .ok x
  | .error e => return .error (faultOf e)

/-- The files of the system. -/
def systemDisk : Command.Disk IO where
  read path := do
    return (← attempt (IO.FS.readBinFile path)) >>= textOf
  write path text := attempt (IO.FS.writeBinFile path text.toUTF8)
  print text := attempt do
    let out ← IO.getStdout
    out.putStr text
    out.flush

/-- Run the command with the arguments it was given. -/
def main (args : List String) : IO UInt32 := do
  let result ← Command.run systemDisk args
  (← IO.getStderr).putStr result.stderr
  return UInt32.ofNat result.exit
