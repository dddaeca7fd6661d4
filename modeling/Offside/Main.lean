import Offside.CommandLine

/-!
# The program

Reads the file that the arguments name, and writes what the command answers.
-/

/-- Runs the command. -/
def main (arguments : List String) : IO UInt32 := do
  let contents ←
    match arguments with
    | [path] =>
      try pure (some (← IO.FS.readBinFile path))
      catch _ => pure none
    | _ => pure none
  let outcome := Offside.CommandLine.run arguments fun _ => contents
  IO.print outcome.stdout
  IO.eprint outcome.stderr
  return outcome.code
