import Offside.Diagnostic.Basic
import Offside.Event
import Offside.Token.Stream

/-!
# Parsers

A parser reads from the head of a stream of tokens and either returns a value or fails with a
diagnostic. It never takes a token back: alternatives are told apart by looking ahead, and on
failure the state is left as it was when the failure was found, so the position of a
diagnostic can be compared with what is left (`Parse.unexpected`).

The levels of nesting that are open are counted in the state. What is read in a level of its own
(`Parse.within`) opens it first, and closes it again however the reading ends.
-/

namespace Offside

/-- The most levels of nesting, of bodies and expressions together. -/
def maxNesting : Nat :=
  128

/-- The diagnostic for a stream whose head is of none of the expected kinds. -/
def Stream.unexpected (s : Stream) (expected : List Kind) : Diagnostic :=
  match s.tokens with
  | [] => ⟨.prematureEnd (Kind.describe expected), s.position⟩
  | t :: _ => ⟨.unexpectedToken (Kind.describe expected) t.kind.name, s.position⟩

namespace Parse

/-- What a parser reads from and writes to. -/
structure State where
  /-- The tokens still to be read. -/
  stream : Stream
  /-- What has been noted so far, in order. -/
  events : Array Event
  /-- How many levels of nesting are open. -/
  depth : Nat

end Parse

/-- A parser for values of type `α`. -/
abbrev Parse (α : Type) := EStateM Diagnostic Parse.State α

namespace Parse

variable {α : Type}

/-- Looks at the stream and changes nothing. -/
def look (view : Stream → α) : Parse α :=
  fun s => .ok (view s.stream) s

/-- The kind of the head, if there is one. -/
def nextKind? : Parse (Option Kind) :=
  look fun s => s.kind? 0

/-- Whether the stream begins with the given kinds. -/
def nextAre (kinds : List Kind) : Parse Bool :=
  look fun s => s.startsWith kinds

/-- Where the stream stands. -/
def position : Parse Position :=
  look Stream.position

/-- Fails for `cause`, which shows at `position`. -/
def fail (cause : Cause) (position : Position) : Parse α :=
  throw ⟨cause, position⟩

/-- Fails for `cause`, which shows where the stream stands. -/
def failHere (cause : Cause) : Parse α := do
  fail cause (← position)

/-- Fails because the head is of none of the expected kinds. -/
def unexpected (expected : List Kind) : Parse α :=
  fun s => .error (s.stream.unexpected expected) s

/-- Notes an event. -/
def note (event : Event) : Parse Unit :=
  fun s => .ok () { s with events := s.events.push event }

/-- Takes the head if it is of the given kind. -/
def take? (kind : Kind) : Parse (Option Token) :=
  fun s =>
    match s.stream.take? kind with
    | some (t, rest) => .ok (some t) { s with stream := rest }
    | none => .ok none s

/-- Takes the head if it is of the given kind, and says whether it was. -/
def accept (kind : Kind) : Parse Bool := do
  return (← take? kind).isSome

/-- Takes the head, which has to be of the given kind. -/
def expect (kind : Kind) : Parse Token := do
  match ← take? kind with
  | some t => return t
  | none => unexpected [kind]

/-- Takes a name. -/
def word : Parse String := do
  return (← expect .word).text

/-- Takes the head if its kind means something, and returns what it means. -/
def takeMeaning? (meaning? : Kind → Option α) : Parse (Option α) :=
  fun s =>
    match s.stream.tokens with
    | [] => .ok none s
    | t :: rest =>
      match meaning? t.kind with
      | some a => .ok (some a) { s with stream := { s.stream with tokens := rest } }
      | none => .ok none s

/-- Takes all line ends at the head. -/
def skipNewlines : Parse Unit :=
  fun s =>
    let rest := s.stream.tokens.dropWhile fun t => t.kind == .newline
    .ok () { s with stream := { s.stream with tokens := rest } }

/-- Takes a line end, and all that follow it. -/
def newlines : Parse Unit := do
  discard (expect .newline)
  skipNewlines

/-- Ends a line: takes its line end, or leaves the end of the block that stands in for it. -/
def lineEnd : Parse Unit := do
  if ← accept .newline then return
  else if ← nextAre [.dedent] then return
  else unexpected [.newline, .dedent]

/-! ## Levels of nesting -/

/-- Fails because there is no level of nesting left. -/
def tooDeep : Parse α :=
  failHere (.nestingTooDeep maxNesting)

/-- Opens a level of nesting, if there is one left. -/
def enterNesting : Parse Unit :=
  fun s => if s.depth < maxNesting then .ok () { s with depth := s.depth + 1 } else tooDeep s

/-- The state with a level of nesting closed, if one is open. -/
def State.leaveNesting (s : State) : State :=
  { s with depth := s.depth - 1 }

/-- The outcome, whatever it is, with a level of nesting closed. -/
def leaving : EStateM.Result Diagnostic State α → EStateM.Result Diagnostic State α
  | .ok a s => .ok a s.leaveNesting
  | .error d s => .error d s.leaveNesting

/-- Reads in a level of nesting of its own. -/
def within (production : Parse α) : Parse α := do
  enterNesting
  fun s => leaving (production s)

end Parse

end Offside
