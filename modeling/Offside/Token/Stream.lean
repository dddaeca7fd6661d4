import Offside.Token.Basic

/-!
# Streams of tokens

A `Stream` holds the tokens still to be read. Alternatives are told apart by looking ahead,
which changes nothing, and `Stream.take?` removes the head only if it has the kind asked for.
A stream that has been read to its end still stands somewhere: at the position of its last
token (`Stream.position`).
-/

namespace Offside

/-- Tokens still to be read. -/
structure Stream where
  /-- The tokens, head first. -/
  tokens : List Token
  /-- Where the stream stands once no token is left. -/
  last : Position

namespace Stream

/-- The stream of all of `tokens`. -/
def ofList (tokens : List Token) : Stream :=
  ⟨tokens, (tokens.getLast?.map Token.position).getD Position.start⟩

/-- Whether fewer than `index + 1` tokens are left. -/
def doneAt (s : Stream) (index : Nat) : Bool :=
  decide (s.tokens.length ≤ index)

/-- Whether no token is left. -/
def done (s : Stream) : Bool :=
  s.tokens.isEmpty

/-- The number of tokens left. -/
def size (s : Stream) : Nat :=
  s.tokens.length

/-- The token `index` places behind the head. -/
def peek? (s : Stream) (index : Nat) : Option Token :=
  s.tokens[index]?

/-- The kind of the token `index` places behind the head. -/
def kind? (s : Stream) (index : Nat) : Option Kind :=
  (s.peek? index).map Token.kind

/-- Whether the tokens left begin with the given kinds, in order. -/
def startsWith (s : Stream) (kinds : List Kind) : Bool :=
  (s.tokens.take kinds.length).map Token.kind == kinds

/-- Whether the head has the given kind. -/
def nextIs (s : Stream) (kind : Kind) : Bool :=
  s.startsWith [kind]

/-- The head and the stream behind it, if the head has the given kind. -/
def take? (s : Stream) (kind : Kind) : Option (Token × Stream) :=
  match s.tokens with
  | [] => none
  | t :: rest => if t.kind = kind then some (t, { s with tokens := rest }) else none

/-- The position of the head, or of the last token of all once none is left. -/
def position (s : Stream) : Position :=
  match s.tokens with
  | [] => s.last
  | t :: _ => t.position

theorem take?_eq_some_iff {s s' : Stream} {kind : Kind} {t : Token} :
    s.take? kind = some (t, s') ↔
      s.tokens = t :: s'.tokens ∧ s'.last = s.last ∧ t.kind = kind := by
  rcases s with ⟨_ | ⟨u, rest⟩, last⟩
  · simp [take?]
  · rcases s' with ⟨tokens', last'⟩
    by_cases h : u.kind = kind
    · simp only [take?, h, if_true, Option.some.injEq, Prod.mk.injEq, Stream.mk.injEq,
        List.cons.injEq]
      constructor
      · rintro ⟨rfl, rfl, rfl⟩
        exact ⟨⟨rfl, rfl⟩, rfl, h⟩
      · rintro ⟨⟨rfl, rfl⟩, rfl, _⟩
        exact ⟨rfl, rfl, rfl⟩
    · simp only [take?, h, if_false, reduceCtorEq, List.cons.injEq, false_iff, not_and]
      rintro ⟨rfl, _⟩ _
      exact h

theorem nextIs_iff {s : Stream} {kind : Kind} :
    s.nextIs kind = true ↔ s.kind? 0 = some kind := by
  rcases s with ⟨_ | ⟨u, rest⟩, last⟩ <;> simp [nextIs, startsWith, kind?, peek?]

theorem done_iff {s : Stream} : s.done = true ↔ s.kind? 0 = none := by
  rcases s with ⟨_ | ⟨u, rest⟩, last⟩ <;> simp [done, kind?, peek?]

end Stream

end Offside
