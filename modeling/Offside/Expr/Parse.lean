import Offside.Expr.Print
import Offside.Parse.Repeat

/-!
# Reading expressions

```
Expression = Term (("+" | "-") Term)*
Term       = Factor (("*" | "/" | "%") Factor)*
Factor     = NUMBER | QUOTEDSTRING | QUOTEDCHARACTER | "(" Expression ")"
           | "new" WORD "(" Arguments ")" | Call | WORD
Call       = (WORD ".")? WORD "(" Arguments ")"
Arguments  = (Expression ("," Expression)*)?
Condition  = Call | WORD | Expression CompareOperator Expression
```

An expression is a sum in a level of nesting of its own. The productions take the parser for an
expression as an argument; the knot is tied together with that of the statements
(`Nested.productions`).
-/

namespace Offside

open Parse

/-- The operators between terms. -/
def MathOp.additive? : Kind → Option MathOp
  | .plus => some .add
  | .minus => some .subtract
  | _ => none

/-- The operators between factors. -/
def MathOp.multiplicative? : Kind → Option MathOp
  | .times => some .multiply
  | .divide => some .divide
  | .modulo => some .modulo
  | _ => none

/-- The operators between the two sides of a comparison. -/
def CompareOp.ofKind? : Kind → Option CompareOp
  | .equal => some .equal
  | .notEqual => some .notEqual
  | .lessThan => some .lessThan
  | .lessThanEqual => some .lessThanEqual
  | .greaterThan => some .greaterThan
  | .greaterThanEqual => some .greaterThanEqual
  | _ => none

namespace Parse

variable (expression : Parse Expr)

/-- The values of a call, behind its opening parenthesis and up to its closing one. -/
def arguments : Parse (List Expr) := do
  if ← accept .rightParen then return []
  else
    let values ← commaSeparated expression
    discard (expect .rightParen)
    return values

/-- A method's name and the values in parentheses behind it. -/
def callOn (receiver : Option String) : Parse Call := do
  let method ← word
  discard (expect .leftParen)
  return ⟨receiver, method, ← arguments expression⟩

/-- A call, if the next tokens start one. -/
def call? : Parse (Option Call) := do
  if ← nextAre [.word, .dot, .word, .leftParen] then
    let receiver ← word
    discard (expect .dot)
    return some (← callOn expression (some receiver))
  else if ← nextAre [.word, .leftParen] then return some (← callOn expression none)
  else return none

/-- A character literal, which needs a character. -/
def character : Parse Expr := do
  let start ← position
  match (← expect .quotedCharacter).text.toList with
  | c :: _ => return .character c
  | [] => fail .unterminatedCharacter start

/-- The kinds that can start a factor, as messages list them. -/
def factorStarts : List Kind :=
  [.number, .word, .quotedString, .quotedCharacter, .leftParen, .kwNew]

/-- An operand of the tightest operators. -/
def factor : Parse Expr := do
  match ← nextKind? with
  | some .number => return .number (← expect .number).text
  | some .quotedString => return .string (← expect .quotedString).text
  | some .quotedCharacter => character
  | some .leftParen =>
    discard (expect .leftParen)
    let inner ← expression
    discard (expect .rightParen)
    return inner
  | some .kwNew =>
    discard (expect .kwNew)
    let typeName ← word
    discard (expect .leftParen)
    return .new typeName (← arguments expression)
  | some .word =>
    match ← call? expression with
    | some c => return c.toExpr
    | none => return .var (← word)
  | _ => unexpected factorStarts

/-- Factors with multiplicative operators between them. -/
def term : Parse Expr :=
  leftAssociative .math (takeMeaning? MathOp.multiplicative?) (factor expression)

/-- Terms with additive operators between them. -/
def sum : Parse Expr :=
  leftAssociative .math (takeMeaning? MathOp.additive?) (term expression)

/-- A condition; what is compared with nothing has to be a call or a variable. -/
def condition : Parse Expr := do
  let start ← position
  let left ← expression
  match ← takeMeaning? CompareOp.ofKind? with
  | some op => return .compare op left (← expression)
  | none =>
    match left with
    | .call _ _ _ | .var _ => return left
    | _ => fail (.expectedBooleanExpression left.print) start

end Parse

end Offside
