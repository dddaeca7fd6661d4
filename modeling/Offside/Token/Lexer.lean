import Offside.Text.Reader
import Offside.Token.Scanner

/-!
# A scanner that is driven step by step

A `Lexer` is a scanner with the text it has still to read. Characters can be looked at,
skipped, and tokens added by hand; `Lexer.lex` then scans what is left. Where there is no
character, the lexer reports `endOfInput` in its place.
-/

namespace Offside

/-- Stands for the character that is missing past the end of a text. -/
def endOfInput : Char :=
  '\x1a'

/-- A text that is being scanned. -/
structure Lexer where
  /-- The text still to be read. -/
  reader : Reader
  /-- What has been read. -/
  scanner : Scanner

namespace Lexer

/-- A lexer at the start of `source`. -/
def ofString (source : String) : Lexer :=
  ⟨.ofString source, .initial⟩

/-- The character `distance` places ahead. -/
def peek (l : Lexer) (distance : Nat) : Char :=
  (l.reader.peek? distance).getD endOfInput

/-- Skips a character, and returns it; at the end of the text nothing moves. -/
def advance (l : Lexer) : Char × Lexer :=
  match l.reader.next? with
  | none => (endOfInput, l)
  | some (c, reader) => (c, ⟨reader, l.scanner.enter c l.scanner.mode⟩)

/-- Adds a token to those emitted so far. -/
def push (l : Lexer) (t : Token) : Lexer :=
  { l with scanner := l.scanner.push t }

/-- All tokens, once the rest of the text is scanned. -/
def lex (l : Lexer) : Except Diagnostic (List Token) :=
  (l.scanner.scan l.reader.rest).finish.result

theorem lex_ofString (source : String) : (ofString source).lex = tokenize source :=
  rfl

end Lexer

end Offside
