import Offside.Parse.Parser
import Offside.Token.Scanner

/-!
# From source text to program

`parseSource` scans and parses a text. `trace` does the same and returns what is noted on the
way, up to a failure if there is one.
-/

namespace Offside

/-- Parses all of `tokens`, with what is noted on the way. -/
def traceTokens (tokens : List Token) : List Event × Except Diagnostic Program :=
  let (outcome, p) := (Parser.ofList tokens).run Parse.program
  let events := .parsing tokens.length :: p.state.events.toList
  match outcome with
  | .error d => (events, .error d)
  | .ok program =>
    (events ++ [.parsed program.classes.length program.interfaces.length], .ok program)

/-- The program that `tokens` are. -/
def parseTokens (tokens : List Token) : Except Diagnostic Program :=
  (traceTokens tokens).2

/-- The program that `source` is. -/
def parseSource (source : String) : Except Diagnostic Program := do
  parseTokens (← tokenize source)

/-- What is noted while `source` is scanned and parsed, and the outcome. -/
def trace (source : String) : List Event × Except Diagnostic Program :=
  let s := (Scanner.initial.scan source.toList).finish
  let scanned := .scanning source.utf8ByteSize :: s.tokens.toList.map .token
  match s.result with
  | .error d => (scanned, .error d)
  | .ok tokens =>
    let (events, outcome) := traceTokens tokens
    (scanned ++ .scanned tokens.length :: events, outcome)

end Offside
