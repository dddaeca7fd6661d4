import Offside.Stmt.Print
import Offside.Token.Basic
import Offside.Unicode.WhiteSpace

/-!
# Events

Reading a source notes what it has done as it goes: how much text and how many tokens there
are, each token, and each statement and declaration once it is complete. The events up to a
failure are kept.
-/

namespace Offside

/-- How fine-grained an event is. -/
inductive Level where
  /-- Once per stage or declaration. -/
  | debug
  /-- Once per token or statement. -/
  | trace
deriving DecidableEq

/-- The name of the level. -/
def Level.name : Level → String
  | debug => "DEBUG"
  | trace => "TRACE"

/-- Something noted while a source is read. -/
inductive Event where
  /-- A text of so many UTF-8 bytes is about to be scanned. -/
  | scanning (bytes : Nat)
  /-- A token has been emitted. -/
  | token (token : Token)
  /-- The text has become so many tokens. -/
  | scanned (tokens : Nat)
  /-- So many tokens are about to be parsed. -/
  | parsing (tokens : Nat)
  /-- A call for its own sake is complete. -/
  | callStatement (call : Call)
  /-- An assignment, of a call too, is complete. -/
  | assignment (statement : Stmt)
  /-- An interface is complete. -/
  | interfaceEnd (name : String) (methods : Nat)
  /-- A class is complete. -/
  | classEnd (name : String) (constructors methods members : Nat)
  /-- A program is complete. -/
  | parsed (classes interfaces : Nat)
deriving DecidableEq

namespace Event

/-- How fine-grained the event is. -/
def level : Event → Level
  | token _ | callStatement _ | assignment _ => .trace
  | _ => .debug

/-- The event in words. -/
def message : Event → String
  | scanning bytes => "Lexing " ++ toString bytes ++ " bytes"
  | token t => "token " ++ toString t
  | scanned tokens => "Lexed " ++ toString tokens ++ " tokens"
  | parsing tokens => "Parsing " ++ toString tokens ++ " tokens"
  | callStatement c => "Parsed call statement " ++ c.print
  | assignment s =>
    "Parsed assignment " ++ String.ofList (Unicode.trimEnd s.print.toList)
  | interfaceEnd name methods =>
    "Parsed interface " ++ name ++ " (" ++ toString methods ++ " methods)"
  | classEnd name constructors methods members =>
    "Parsed class " ++ name ++ " (" ++ toString constructors ++ " constructors, " ++
      toString methods ++ " methods, " ++ toString members ++ " members)"
  | parsed classes interfaces =>
    "Parsed " ++ toString classes ++ " classes and " ++ toString interfaces ++ " interfaces"

end Event

end Offside
