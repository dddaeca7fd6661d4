/-!
# Kinds of tokens

A token is layout (`newline`, `indent`, `dedent`), a reserved word, a literal or a name, or
punctuation. `Kind.name` is how messages spell a kind, and `Kind.reserved?` says which words
are kept from use as names.
-/

namespace Offside

/-- What a token is, apart from where it stands and what it spells. -/
inductive Kind where
  /-- The end of a line. -/
  | newline
  /-- The start of a deeper block. -/
  | indent
  /-- The end of a block. -/
  | dedent
  /-- The reserved word `class`. -/
  | kwClass
  /-- The reserved word `interface`. -/
  | kwInterface
  /-- The reserved word `implements`. -/
  | kwImplements
  /-- The reserved word `construct`. -/
  | kwConstruct
  /-- The reserved word `private`. -/
  | kwPrivate
  /-- The reserved word `shared`. -/
  | kwShared
  /-- The reserved word `if`. -/
  | kwIf
  /-- The reserved word `else`. -/
  | kwElse
  /-- The reserved word `loop`. -/
  | kwLoop
  /-- The reserved word `new`. -/
  | kwNew
  /-- Any other word. -/
  | word
  /-- A numeric literal. -/
  | number
  /-- A literal between double quotes. -/
  | quotedString
  /-- A literal between single quotes. -/
  | quotedCharacter
  /-- An opening parenthesis. -/
  | leftParen
  /-- A closing parenthesis. -/
  | rightParen
  /-- A colon. -/
  | colon
  /-- A full stop. -/
  | dot
  /-- A comma. -/
  | comma
  /-- The symbol `=`. -/
  | assign
  /-- The symbol `==`. -/
  | equal
  /-- The symbol `!=`. -/
  | notEqual
  /-- The symbol `<`. -/
  | lessThan
  /-- The symbol `<=`. -/
  | lessThanEqual
  /-- The symbol `>`. -/
  | greaterThan
  /-- The symbol `>=`. -/
  | greaterThanEqual
  /-- The symbol `+`. -/
  | plus
  /-- The symbol `-`. -/
  | minus
  /-- The symbol `*`. -/
  | times
  /-- The symbol `/`. -/
  | divide
  /-- The symbol `%`. -/
  | modulo
deriving DecidableEq

namespace Kind

/-- How messages spell a kind. -/
def name : Kind → String
  | newline => "NEWLINE"
  | indent => "INDENT"
  | dedent => "DEDENT"
  | kwClass => "CLASS"
  | kwInterface => "INTERFACE"
  | kwImplements => "IMPLEMENTS"
  | kwConstruct => "CONSTRUCT"
  | kwPrivate => "PRIVATE"
  | kwShared => "SHARED"
  | kwIf => "IF"
  | kwElse => "ELSE"
  | kwLoop => "LOOP"
  | kwNew => "NEW"
  | word => "WORD"
  | number => "NUMBER"
  | quotedString => "QUOTEDSTRING"
  | quotedCharacter => "QUOTEDCHARACTER"
  | leftParen => "LPAREN"
  | rightParen => "RPAREN"
  | colon => "COLON"
  | dot => "DOT"
  | comma => "COMMA"
  | assign => "ASSIGN"
  | equal => "EQUAL"
  | notEqual => "NOTEQUAL"
  | lessThan => "LESSTHAN"
  | lessThanEqual => "LESSTHANEQUAL"
  | greaterThan => "GREATERTHAN"
  | greaterThanEqual => "GREATERTHANEQUAL"
  | plus => "PLUS"
  | minus => "MINUS"
  | times => "TIMES"
  | divide => "DIVIDE"
  | modulo => "MODULO"

/-- Every kind, once. -/
def all : List Kind :=
  [newline, indent, dedent, kwClass, kwInterface, kwImplements, kwConstruct, kwPrivate, kwShared,
    kwIf, kwElse, kwLoop, kwNew, word, number, quotedString, quotedCharacter, leftParen,
    rightParen, colon, dot, comma, assign, equal, notEqual, lessThan, lessThanEqual, greaterThan,
    greaterThanEqual, plus, minus, times, divide, modulo]

/-- The kind that is spelled `name`. -/
def ofName? (name : String) : Option Kind :=
  all.find? fun k => k.name == name

/-- Whether tokens of this kind carry their text: all other kinds have one spelling. -/
def carriesValue : Kind → Bool
  | word | number | quotedString | quotedCharacter => true
  | _ => false

/-- The reserved words. -/
def reservedWords : List (String × Kind) :=
  [("class", kwClass), ("interface", kwInterface), ("implements", kwImplements),
    ("construct", kwConstruct), ("private", kwPrivate), ("shared", kwShared), ("if", kwIf),
    ("else", kwElse), ("loop", kwLoop), ("new", kwNew)]

/-- The kind of `text`, if it is a reserved word. -/
def reserved? (text : String) : Option Kind :=
  reservedWords.lookup text

/-- The kinds listed for a message: a single one by its name alone. -/
def describe : List Kind → String
  | [kind] => kind.name
  | kinds => "one of " ++ ", ".intercalate (kinds.map name)

theorem mem_all (k : Kind) : k ∈ all := by
  cases k <;> simp [all]

end Kind

end Offside
