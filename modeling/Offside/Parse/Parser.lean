import Offside.Program.Parse

/-!
# A parser that is driven step by step

A `Parser` is a stream of tokens, with what has been noted and the levels of nesting that are
open. Any production can be run on it (`Parser.run`), and levels can be opened and closed by hand.
-/

namespace Offside

/-- A stream of tokens that is being parsed. -/
structure Parser where
  /-- What productions read from and write to. -/
  state : Parse.State

namespace Parser

/-- A parser of all of `tokens`, with no level open. -/
def ofList (tokens : List Token) : Parser :=
  ⟨⟨Stream.ofList tokens, #[], 0⟩⟩

/-- The levels of nesting that are open. -/
def depth (p : Parser) : Nat :=
  p.state.depth

/-- Runs a production. -/
def run {α : Type} (p : Parser) (production : Nested → Parse α) : Except Diagnostic α × Parser :=
  match production .productions p.state with
  | .ok a s => (.ok a, ⟨s⟩)
  | .error d s => (.error d, ⟨s⟩)

/-- Reads items of a production that keeps those before a failure. -/
def gather {α : Type} (p : Parser) (production : Nested → Parse.Gather α) :
    List α × Option Diagnostic × Parser :=
  match production .productions p.state with
  | (items, .ok () s) => (items, none, ⟨s⟩)
  | (items, .error d s) => (items, some d, ⟨s⟩)

/-- Opens so many levels of nesting, as far as the limit allows. -/
def enter (p : Parser) : Nat → Option Diagnostic × Parser
  | 0 => (none, p)
  | levels + 1 =>
    match Parse.enterNesting p.state with
    | .ok () s => enter ⟨s⟩ levels
    | .error d s => (some d, ⟨s⟩)

/-- Closes so many levels of nesting, as far as any are open. -/
def leave (p : Parser) : Nat → Parser
  | 0 => p
  | levels + 1 => leave ⟨p.state.leaveNesting⟩ levels

end Parser

end Offside
