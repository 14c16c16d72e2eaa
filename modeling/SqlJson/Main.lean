import SqlJson.Command

/-!
# The program

Reads the settings and the input, and prints what `Command.run` says.
-/

namespace SqlJson.Command

/-- The text of a file, if it can be read. -/
def readFile? (path : String) : IO (Option String) := do
  try
    return some (← IO.FS.readFile path)
  catch _ => return none

/-- Reads what is left of a stream, after what is in `before`. -/
partial def readAll (stream : IO.FS.Stream) (before : String) : IO String := do
  let line ← stream.getLine
  if line.isEmpty then return before else readAll stream (before ++ line)

/-- Carries out the command with given arguments, and gives the status it ends with. -/
def perform (args : List String) : IO UInt32 := do
  let request := (parse args).bind (·.request?)
  let file ← match request.bind (·.configFile) with
    | some path => readFile? path
    | none => pure none
  let needsInput := request.any fun request => request.expressions.isEmpty
  let input ← if needsInput then readAll (← IO.getStdin) "" else pure ""
  let result := run (fun _ => file) args input
  IO.print result.output
  return UInt32.ofNat result.status

end SqlJson.Command

def main (args : List String) : IO UInt32 := SqlJson.Command.perform args
