import Offside.Text.Position
import Offside.Text.Quoted

/-!
# Diagnostics

A diagnostic is a cause at a position. The wording of a cause is a function of it
(`Cause.message`, `Cause.tip?`), so a text is never compared to tell two causes apart.
-/

namespace Offside

/-- Why a text is not a program. -/
inductive Cause where
  /-- A character that starts no lexeme. -/
  | unrecognisedCharacter (character : Char)
  /-- A comment without its closing brace. -/
  | unterminatedComment
  /-- A lexeme on the line on which a comment ends. -/
  | codeAfterComment
  /-- A string literal without its closing quote. -/
  | unterminatedString
  /-- A character literal that is not one character between quotes. -/
  | unterminatedCharacter
  /-- A symbol that exists only with an equals sign after it. -/
  | malformedOperator (operator : Char)
  /-- A parenthesis without its partner. -/
  | unbalancedParentheses
  /-- A token of another kind than the grammar allows here. -/
  | unexpectedToken (expected found : String)
  /-- No token where the grammar demands one. -/
  | prematureEnd (expected : String)
  /-- A variable declaration outside the top level of a method or constructor body. -/
  | localsOutsideMethod
  /-- A condition that is no comparison, call or variable. -/
  | expectedBooleanExpression (found : String)
  /-- A colon after a parameter list with nothing returned. -/
  | missingReturnDeclaration
  /-- More levels of nesting than the limit. -/
  | nestingTooDeep (limit : Nat)
deriving DecidableEq

namespace Cause

/-- The name of the cause, without its details. -/
def name : Cause → String
  | unrecognisedCharacter _ => "UnrecognisedCharacter"
  | unterminatedComment => "UnterminatedComment"
  | codeAfterComment => "CodeAfterComment"
  | unterminatedString => "UnterminatedString"
  | unterminatedCharacter => "UnterminatedCharacter"
  | malformedOperator _ => "MalformedOperator"
  | unbalancedParentheses => "UnbalancedParentheses"
  | unexpectedToken _ _ => "UnexpectedToken"
  | prematureEnd _ => "PrematureEnd"
  | localsOutsideMethod => "LocalsOutsideMethod"
  | expectedBooleanExpression _ => "ExpectedBooleanExpression"
  | missingReturnDeclaration => "MissingReturnDeclaration"
  | nestingTooDeep _ => "NestingTooDeep"

/-- What went wrong, in words. -/
def message : Cause → String
  | unrecognisedCharacter c => "unrecognized character " ++ Text.quoteCharacter c
  | unterminatedComment => "unterminated comment"
  | codeAfterComment => "code found after end of comment"
  | unterminatedString => "unterminated string literal"
  | unterminatedCharacter => "unterminated character literal"
  | malformedOperator c =>
    "malformed operator `" ++ c.toString ++ "`, expected `" ++ c.toString ++ "=`"
  | unbalancedParentheses => "unbalanced parentheses"
  | unexpectedToken expected found => "expected " ++ expected ++ " but found " ++ found
  | prematureEnd expected => "expected " ++ expected ++ " but found none"
  | localsOutsideMethod => "locals outside method/constructor"
  | expectedBooleanExpression found => "expected a boolean expression but found " ++ found
  | missingReturnDeclaration => "expected a return declaration after COLON"
  | nestingTooDeep limit => "nesting deeper than " ++ toString limit ++ " levels"

/-- What to do about it, where there is something to say. -/
def tip? : Cause → Option String
  | unrecognisedCharacter c =>
    some ("`" ++ Text.escapeCharacter c ++ "` is not part of the language")
  | unterminatedComment => some "close the comment with `\x7d`"
  | codeAfterComment => some "move the code after the comment onto its own line"
  | unterminatedString => some "close the string with `\"`"
  | unterminatedCharacter => some "a character literal holds exactly one character, like 'x'"
  | malformedOperator c => some ("did you mean `" ++ c.toString ++ "=`?")
  | unbalancedParentheses => some "this parenthesis is never matched"
  | unexpectedToken _ _ => none
  | prematureEnd _ => some "the file ends in the middle of a declaration"
  | localsOutsideMethod => some "declare locals at the top level of a method or constructor body"
  | expectedBooleanExpression _ =>
    some "conditions must be a comparison, a method call or a variable"
  | missingReturnDeclaration =>
    some "list at least one return after `:` or remove the `:`"
  | nestingTooDeep _ => some "split the expression or block into smaller methods"

end Cause

/-- A cause, and where in the source it shows. -/
structure Diagnostic where
  /-- What went wrong. -/
  cause : Cause
  /-- Where. -/
  position : Position
deriving DecidableEq

namespace Diagnostic

/-- The name of what went wrong. -/
def name (d : Diagnostic) : String :=
  d.cause.name

/-- What went wrong, without the position. -/
def message (d : Diagnostic) : String :=
  d.cause.message

/-- Written as the message with line and column behind it. -/
instance : ToString Diagnostic where
  toString d :=
    d.message ++ " (line " ++ toString d.position.line ++ ", column " ++
      toString d.position.column ++ ")"

end Diagnostic

end Offside
