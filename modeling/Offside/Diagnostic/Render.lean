import Offside.Diagnostic.Basic
import Offside.Unicode.WhiteSpace

/-!
# Diagnostics shown under their line

`Diagnostic.render` writes a diagnostic as a heading, the place, and, if the source has the
line, the line itself between a gutter and a row with a caret:

```
Error: UnexpectedToken: expected one of CONSTRUCT, PRIVATE, SHARED, WORD but found NOTEQUAL
-> main:2:2
  |
2 | !=
  | ^
```

The line is shown without the spaces and tabs in front of it, so the caret moves left by
their number. A field that a line is padded to is at most `maxFieldWidth` wide; a caret
further right cannot be drawn, and then there is no rendering at all.
-/

namespace Offside

/-- The widest field that text can be padded to. -/
def maxFieldWidth : Nat :=
  65535

/-- The lines of `text`, without their line feeds; there is always at least one. -/
def linesOf (text : List Char) : List (List Char) :=
  text.splitOn '\n'

/-- Whether `c` is dropped in front of a shown line. -/
def isMargin (c : Char) : Bool :=
  c == ' ' || c == '\t'

/-- Fills up on the left with `fill` until `text` is `width` characters wide. -/
def padLeft (fill : Char) (width : Nat) (text : List Char) : List Char :=
  List.replicate (width - text.length) fill ++ text

namespace Diagnostic

/-- The first line: what went wrong, with the tip in parentheses if there is one. -/
def heading (d : Diagnostic) : String :=
  "Error: " ++ d.name ++ ": " ++ d.message ++
    match d.cause.tip? with
    | some tip => " (" ++ tip ++ ")\n"
    | none => "\n"

/-- The second line: the file with line and column. -/
def place (d : Diagnostic) (file : String) : String :=
  "-> " ++ file ++ ":" ++ toString d.position ++ "\n"

/-- How far right of the gutter the caret stands, if `line` is shown without its margin. -/
def caretWidth (d : Diagnostic) (line : List Char) : Nat :=
  max 1 (d.position.column - (line.takeWhile isMargin).length)

/-- The empty gutter, the line and the caret below it. -/
def excerpt (d : Diagnostic) (line : List Char) : List Char :=
  let number := (toString d.position.line).toList
  let gutter := padLeft ' ' (number.length + 2) ['|']
  gutter ++ '\n' ::
    (number ++ [' ', '|', ' '] ++ Unicode.trimEnd (line.dropWhile isMargin) ++ '\n' ::
      (gutter ++ ' ' :: (padLeft '-' (d.caretWidth line) ['^'] ++ ['\n'])))

/-- The diagnostic as it is shown for `source`, which was read from `file`. -/
def render (d : Diagnostic) (source file : String) : Option String :=
  match (linesOf source.toList)[d.position.line - 1]? with
  | none => some (d.heading ++ d.place file)
  | some line =>
    if d.caretWidth line ≤ maxFieldWidth then
      some (d.heading ++ d.place file ++ String.ofList (d.excerpt line))
    else none

end Diagnostic

end Offside
