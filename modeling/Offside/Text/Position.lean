/-!
# Positions in a text

Lines and columns are counted from one, and columns count characters. `Position.advance`
moves a position over one character; only a line feed starts a new line.
-/

namespace Offside

/-- A line and a column of a text. -/
structure Position where
  /-- Lines from one; a line feed ends a line. -/
  line : Nat
  /-- Characters of the line from one. -/
  column : Nat
deriving DecidableEq

namespace Position

/-- Where every text starts. -/
def start : Position :=
  ⟨1, 1⟩

/-- The position behind `c`, if `c` stands at `p`. -/
def advance (p : Position) (c : Char) : Position :=
  if c = '\n' then ⟨p.line + 1, 1⟩ else ⟨p.line, p.column + 1⟩

/-- The position behind all of `text`. -/
def advanceAll (p : Position) (text : List Char) : Position :=
  text.foldl advance p

/-- Written as the line, a colon and the column. -/
instance : ToString Position :=
  ⟨fun p => toString p.line ++ ":" ++ toString p.column⟩

theorem advanceAll_append (p : Position) (u v : List Char) :
    p.advanceAll (u ++ v) = (p.advanceAll u).advanceAll v :=
  List.foldl_append

theorem advance_of_ne {p : Position} {c : Char} (h : c ≠ '\n') :
    p.advance c = ⟨p.line, p.column + 1⟩ :=
  if_neg h

theorem advance_newline (p : Position) : p.advance '\n' = ⟨p.line + 1, 1⟩ :=
  rfl

end Position

end Offside
