import Offside.Unicode.DefaultIgnorable
import Offside.Unicode.GraphemeExtend
import Offside.Unicode.Unprintable

/-!
# Characters shown in messages

A message shows a character in one of two forms. `quoteCharacter` puts it between single
quotes and spells out what a reader could not see there (`isHidden`): controls, format
characters, characters that are ignored by default, marks that need another character to
stand on. `escapeCharacter` uses printable ASCII alone. Both write a code point as `\u` with
its hexadecimal digits in braces.
-/

namespace Offside.Text

/-- The code point of `c` in lower-case hexadecimal digits, braced. -/
def codePointEscape (c : Char) : String :=
  "\\u\x7b" ++ String.ofList (Nat.toDigits 16 c.toNat) ++ "\x7d"

/-- The short escapes that both forms share. -/
def shortEscape? : Char → Option String
  | '\t' => some "\\t"
  | '\r' => some "\\r"
  | '\n' => some "\\n"
  | '\'' => some "\\'"
  | '\\' => some "\\\\"
  | _ => none

/-- Whether `c` cannot be seen where it stands alone. -/
def isHidden (c : Char) : Bool :=
  Unicode.isCombining c || Unicode.isDefaultIgnorable c || Unicode.isUnprintable c

/-- Inside single quotes `c` stands for itself if it can be seen there. -/
def quotedBody (c : Char) : String :=
  match shortEscape? c with
  | some escape => escape
  | none =>
    if c = '\x00' then "\\0"
    else if isHidden c then codePointEscape c
    else String.singleton c

/-- The character `c` between single quotes. -/
def quoteCharacter (c : Char) : String :=
  "'" ++ quotedBody c ++ "'"

/-- The character `c` in printable ASCII; the double quote is escaped here too. -/
def escapeCharacter (c : Char) : String :=
  match shortEscape? c with
  | some escape => escape
  | none =>
    if c = '"' then "\\\""
    else if ' ' ≤ c ∧ c ≤ '~' then String.singleton c
    else codePointEscape c

end Offside.Text
