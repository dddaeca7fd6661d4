import Offside.Diagnostic.Basic
import Offside.Token.Basic
import Offside.Unicode.Number
import Offside.Unicode.WhiteSpace

/-!
# From characters to tokens

A `Scanner` reads a text one character at a time. Between two characters all it knows is its
`Mode`: inside a word, in the margin of a line, behind a `<` that an equals sign may extend.
`Scanner.step` consumes exactly one character, `Scanner.scan` folds it over a text, so that
scanning a text in two parts is scanning the whole (`Scanner.scan_append`), and
`Scanner.finish` closes what is open at the end.

Lexemes are as long as they can be: a lexeme ends with the first character that cannot
continue it, and that character is then read as if it stood after a gap (`Scanner.begin`).

Layout becomes tokens. The margin of a line counts one level per tab and one per four spaces,
a tab drops the spaces before it that make no full four, and carriage returns count for
nothing. If the line is not blank, one `indent` or `dedent` token is emitted for each level of
difference to the last line that was not blank (`Scanner.indentTo`).

Parentheses are matched here. The positions of the open ones are kept, innermost first, so
that at the end the outermost open one can be blamed.
-/

namespace Offside

/-- The number of spaces that make one level of layout. -/
def spacesPerIndent : Nat :=
  4

/-- What a scanner is in the middle of. -/
inductive Mode where
  /-- Between two lexemes. -/
  | gap
  /-- In the margin of a line, so many levels deep and so many spaces past the last level. -/
  | margin (level spaces : Nat)
  /-- In a word that started at `start` and reads `text` so far. -/
  | word (start : Position) (text : String)
  /-- In a number; `dotted` says whether it has had its dot. -/
  | number (start : Position) (text : String) (dotted : Bool)
  /-- Behind a dot that a digit would make a number. -/
  | dot (start : Position)
  /-- Behind a symbol that an equals sign would make the kind `extended`. -/
  | operator (start : Position) (symbol : Char) (extended : Kind)
  /-- In a comment. -/
  | comment (start : Position)
  /-- Behind a comment, on the line it ends on. -/
  | afterComment
  /-- In a string literal. -/
  | string (start : Position) (text : String)
  /-- Behind a backslash in a string literal. -/
  | escape (start : Position) (text : String)
  /-- Behind the quote that opens a character literal. -/
  | openQuote (start : Position)
  /-- Behind the character of a character literal. -/
  | closeQuote (start : Position) (value : Char)
  /-- At the end of the road: nothing that follows is read. -/
  | stopped (diagnostic : Diagnostic)

/-- A text read so far. -/
structure Scanner where
  /-- Where the next character stands. -/
  position : Position
  /-- What the scanner is in the middle of. -/
  mode : Mode
  /-- The level of the last line that is not blank. -/
  level : Nat
  /-- Where the open parentheses stand, innermost first. -/
  parens : List Position
  /-- The tokens so far, in order. -/
  tokens : Array Token

namespace Scanner

/-- Nothing is read yet. The margin of the first line is not measured. -/
def initial : Scanner :=
  ⟨Position.start, .gap, 0, [], #[]⟩

/-- Consumes `c` and goes on in `mode`. -/
def enter (s : Scanner) (c : Char) (mode : Mode) : Scanner :=
  { s with position := s.position.advance c, mode := mode }

/-- Emits a token. -/
def push (s : Scanner) (t : Token) : Scanner :=
  { s with tokens := s.tokens.push t }

/-- Emits a token that carries no text. -/
def pushPlain (s : Scanner) (kind : Kind) (position : Position) : Scanner :=
  s.push (Token.plain kind position)

/-- Gives up for a cause that shows at `position`. -/
def stop (s : Scanner) (cause : Cause) (position : Position) : Scanner :=
  { s with mode := .stopped ⟨cause, position⟩ }

/-- Emits `count` tokens of layout at the start of the line. -/
def pushLayout (s : Scanner) (kind : Kind) : Nat → Scanner
  | 0 => s
  | count + 1 => (s.pushPlain kind ⟨s.position.line, 1⟩).pushLayout kind count

/-- Takes the level of layout to `level`. -/
def indentTo (s : Scanner) (level : Nat) : Scanner :=
  { (s.pushLayout .indent (level - s.level)).pushLayout .dedent (s.level - level) with
    level := level }

/-- What a symbol is that no second character can extend. -/
def single? : Char → Option Kind
  | ':' => some .colon
  | ',' => some .comma
  | '+' => some .plus
  | '-' => some .minus
  | '*' => some .times
  | '/' => some .divide
  | '%' => some .modulo
  | _ => none

/-- What a symbol is with an equals sign after it. -/
def extended? : Char → Option Kind
  | '=' => some .equal
  | '!' => some .notEqual
  | '<' => some .lessThanEqual
  | '>' => some .greaterThanEqual
  | _ => none

/-- What a symbol is without the equals sign that could extend it. -/
def alone? : Char → Option Kind
  | '=' => some .assign
  | '<' => some .lessThan
  | '>' => some .greaterThan
  | _ => none

/-- Reads `c` as a symbol. -/
def beginSymbol (s : Scanner) (c : Char) : Scanner :=
  if c = '"' then s.enter c (.string s.position "")
  else if c = '\'' then s.enter c (.openQuote s.position)
  else if c = '(' then
    ({ s with parens := s.position :: s.parens }.pushPlain .leftParen s.position).enter c .gap
  else if c = ')' then
    match s.parens with
    | [] => s.stop .unbalancedParentheses s.position
    | _ :: rest => ({ s with parens := rest }.pushPlain .rightParen s.position).enter c .gap
  else if c = '.' then s.enter c (.dot s.position)
  else
    match extended? c, single? c with
    | some kind, _ => s.enter c (.operator s.position c kind)
    | none, some kind => (s.pushPlain kind s.position).enter c .gap
    | none, none => s.stop (.unrecognisedCharacter c) s.position

/-- Reads `c` where no lexeme is open. -/
def begin (s : Scanner) (c : Char) : Scanner :=
  if Unicode.isAlphabetic c then s.enter c (.word s.position (String.singleton c))
  else if c = '\n' then (s.pushPlain .newline s.position).enter c (.margin 0 0)
  else if c = '{' then s.enter c (.comment s.position)
  else if c.isDigit then s.enter c (.number s.position (String.singleton c) false)
  else if Unicode.isWhiteSpace c then s.enter c .gap
  else s.beginSymbol c

/-- Reads one character. -/
def step (s : Scanner) (c : Char) : Scanner :=
  match s.mode with
  | .gap => s.begin c
  | .margin level spaces =>
    if c = ' ' then
      if spaces + 1 = spacesPerIndent then s.enter c (.margin (level + 1) 0)
      else s.enter c (.margin level (spaces + 1))
    else if c = '\t' then s.enter c (.margin (level + 1) 0)
    else if c = '\r' then s.enter c (.margin level spaces)
    else if c = '\n' then s.begin c
    else (s.indentTo level).begin c
  | .word start text =>
    if Unicode.isAlphanumeric c then s.enter c (.word start (text.push c))
    else (s.push (Token.ofWord text start)).begin c
  | .number start text dotted =>
    if c.isDigit then s.enter c (.number start (text.push c) dotted)
    else if c = '.' ∧ dotted = false then s.enter c (.number start (text.push c) true)
    else (s.push ⟨.number, start, some text⟩).begin c
  | .dot start =>
    if c.isDigit then s.enter c (.number start (".".push c) true)
    else (s.pushPlain .dot start).begin c
  | .operator start symbol extended =>
    if c = '=' then (s.pushPlain extended start).enter c .gap
    else
      match alone? symbol with
      | some kind => (s.pushPlain kind start).begin c
      | none => s.stop (.malformedOperator symbol) start
  | .comment start => if c = '}' then s.enter c .afterComment else s.enter c (.comment start)
  | .afterComment =>
    if c = '\n' then s.begin c
    else if Unicode.isWhiteSpace c then s.enter c .afterComment
    else s.stop .codeAfterComment s.position
  | .string start text =>
    if c = '"' then (s.push ⟨.quotedString, start, some text⟩).enter c .gap
    else if c = '\\' then s.enter c (.escape start (text.push c))
    else s.enter c (.string start (text.push c))
  | .escape start text => s.enter c (.string start (text.push c))
  | .openQuote start =>
    if c = '\n' then s.stop .unterminatedCharacter start else s.enter c (.closeQuote start c)
  | .closeQuote start value =>
    if c = '\'' then
      (s.push ⟨.quotedCharacter, start, some (String.singleton value)⟩).enter c .gap
    else s.stop .unterminatedCharacter start
  | .stopped _ => s

/-- Reads a text. -/
def scan (s : Scanner) (text : List Char) : Scanner :=
  text.foldl step s

/-- Ends the lexeme that is open when the text ends. -/
def endLexeme (s : Scanner) : Scanner :=
  match s.mode with
  | .word start text => s.push (Token.ofWord text start)
  | .number start text _ => s.push ⟨.number, start, some text⟩
  | .dot start => s.pushPlain .dot start
  | .operator start symbol _ =>
    match alone? symbol with
    | some kind => s.pushPlain kind start
    | none => s.stop (.malformedOperator symbol) start
  | .comment start => s.stop .unterminatedComment start
  | .string start _ => s.stop .unterminatedString start
  | .escape start _ => s.stop .unterminatedString start
  | .openQuote start => s.stop .unterminatedCharacter start
  | .closeQuote start _ => s.stop .unterminatedCharacter start
  | .gap | .margin _ _ | .afterComment | .stopped _ => s

/-- Why the scanner gave up, if it did. -/
def failure? (s : Scanner) : Option Diagnostic :=
  match s.mode with
  | .stopped d => some d
  | _ => none

/-- Ends the blocks that are open when the text ends, and asks for their parentheses. -/
def endBlocks (s : Scanner) : Scanner :=
  let s := s.indentTo 0
  match s.parens.getLast? with
  | none => s
  | some outermost => s.stop .unbalancedParentheses outermost

/-- Ends the text. -/
def finish (s : Scanner) : Scanner :=
  let s := s.endLexeme
  match s.failure? with
  | some _ => s
  | none => s.endBlocks

/-- The tokens, unless the scanner gave up. -/
def result (s : Scanner) : Except Diagnostic (List Token) :=
  match s.failure? with
  | some d => .error d
  | none => .ok s.tokens.toList

theorem scan_append (s : Scanner) (u v : List Char) : s.scan (u ++ v) = (s.scan u).scan v :=
  List.foldl_append

theorem scan_stopped (s : Scanner) {d : Diagnostic} (h : s.mode = .stopped d) :
    ∀ text : List Char, s.scan text = s
  | [] => rfl
  | c :: text => by
    rw [scan, List.foldl_cons, step, h]
    exact scan_stopped s h text

end Scanner

/-- The tokens of a source text. -/
def tokenize (source : String) : Except Diagnostic (List Token) :=
  (Scanner.initial.scan source.toList).finish.result

end Offside
