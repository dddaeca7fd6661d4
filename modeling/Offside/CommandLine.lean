import Offside.Diagnostic.Render
import Offside.Program.Print
import Offside.Source

/-!
# The command line

The command takes one file and prints its program in canonical form. What it answers is a
function of its arguments and of what the files hold (`CommandLine.run`); reading the file
and writing the answer is left to the caller.
-/

namespace Offside

namespace CommandLine

/-- What the command answers. -/
structure Outcome where
  /-- The exit code. -/
  code : UInt32
  /-- What goes to the standard output. -/
  stdout : String
  /-- What goes to the standard error. -/
  stderr : String

/-- How the command is called. -/
def usage : String :=
  "Usage: tran <file.tran>\n"

/-- The last component of a path that names a file; the whole path if there is none. -/
def fileName (path : String) : String :=
  match ((path.splitOn "/").filter fun part => part != "" && part != ".").getLast? with
  | none | some ".." => path
  | some name => name

/-- The answer for a file with the text `source`. A failure that cannot be rendered ends the
command with the code of an abort. -/
def answer (path source : String) : Outcome :=
  match parseSource source with
  | .ok program => ⟨0, program.print, ""⟩
  | .error d =>
    match d.render source (fileName path) with
    | some rendered => ⟨1, "", rendered⟩
    | none => ⟨101, "", ""⟩

/-- The answer for the arguments, where `read` gives what can be read under a path. A file
that cannot be read, or that is not UTF-8, fails silently. -/
def run (arguments : List String) (read : String → Option ByteArray) : Outcome :=
  match arguments with
  | [path] =>
    match (read path).bind String.fromUTF8? with
    | some source => answer path source
    | none => ⟨1, "", ""⟩
  | _ => ⟨2, "", usage⟩

end CommandLine

end Offside
