import Offside.Text.Position
import Offside.Token.Kind

/-!
# Tokens

A token is a kind at a position, with the text it carries if its kind carries any. Tokens
need not come from a text: a literal without a value reads as the empty text.
-/

namespace Offside

/-- One lexeme of the source, or a change of layout. -/
structure Token where
  /-- What the token is. -/
  kind : Kind
  /-- Where it starts. -/
  position : Position
  /-- The text of a name or a literal, without its quotes. -/
  value : Option String
deriving DecidableEq

namespace Token

/-- A token without a text of its own. -/
def plain (kind : Kind) (position : Position) : Token :=
  ⟨kind, position, none⟩

/-- The token of a word: a reserved word carries no text. -/
def ofWord (text : String) (position : Position) : Token :=
  match Kind.reserved? text with
  | some kind => plain kind position
  | none => ⟨.word, position, some text⟩

/-- The text of the token, empty if it carries none. -/
def text (t : Token) : String :=
  t.value.getD ""

/-- Written as the kind, the text in parentheses if there is one, and the position. -/
instance : ToString Token where
  toString t :=
    match t.value with
    | some value => t.kind.name ++ "(" ++ value ++ ") at " ++ toString t.position
    | none => t.kind.name ++ " at " ++ toString t.position

end Token

end Offside
