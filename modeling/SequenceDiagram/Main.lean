import SequenceDiagram.CommandLine.Run

namespace SequenceDiagram

/-!
# The command line program

The surroundings of a command are the standard streams and the files of the machine.
-/

/-- What an action gives, if it does not fail. -/
def attempt {α : Type} (action : IO α) : IO (Option α) := do
  match ← action.toBaseIO with
  | .ok a => return some a
  | .error _ => return none

/-- The rest of a stream, behind what was read of it. -/
partial def readAll (stream : IO.FS.Stream) (read : String) : IO String := do
  let line ← stream.getLine
  if line.isEmpty then return read else readAll stream (read ++ line)

/-- The machine that the program runs on. -/
def machine : Host IO where
  standardInput := attempt do readAll (← IO.getStdin) ""
  textOfFile path := attempt (IO.FS.readFile path)
  saveFile path text := return (← attempt (IO.FS.writeFile path text)).isSome
  print := IO.print
  report := IO.eprintln

end SequenceDiagram

/-- Runs the command that the arguments ask for. -/
def main (arguments : List String) : IO UInt32 := do
  return (← SequenceDiagram.runCommandLine SequenceDiagram.machine arguments).toUInt32
