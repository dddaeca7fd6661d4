/-!
# Reading a text character by character

A `Reader` is the part of a text that is still to come, with the number of characters
behind it. Looking ahead never fails: past the end there is no character, and a reader at
the end stays where it is.
-/

namespace Offside

/-- The rest of a text, and how far into the text it starts. -/
structure Reader where
  /-- The characters still to come. -/
  rest : List Char
  /-- The number of characters already read. -/
  offset : Nat

namespace Reader

/-- A reader at the start of `text`. -/
def ofString (text : String) : Reader :=
  ⟨text.toList, 0⟩

/-- Whether fewer than `distance + 1` characters are left. -/
def atEnd (r : Reader) (distance : Nat) : Bool :=
  decide (r.rest.length ≤ distance)

/-- The character `distance` places ahead. -/
def peek? (r : Reader) (distance : Nat) : Option Char :=
  r.rest[distance]?

/-- The next character, and the reader behind it. -/
def next? : Reader → Option (Char × Reader)
  | ⟨[], _⟩ => none
  | ⟨c :: rest, offset⟩ => some (c, ⟨rest, offset + 1⟩)

theorem peek?_eq_none_iff {r : Reader} {distance : Nat} :
    r.peek? distance = none ↔ r.atEnd distance = true := by
  simp [peek?, atEnd]

theorem next?_eq_none_iff {r : Reader} : r.next? = none ↔ r.atEnd 0 = true := by
  rcases r with ⟨_ | ⟨c, rest⟩, offset⟩ <;> simp [next?, atEnd]

end Reader

end Offside
