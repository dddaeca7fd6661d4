import Offside.Unicode.Ranges

/-!
# White space

The property `White_Space`. It decides what may stand between two lexemes, and what is
trimmed off the end of a line (`trimEnd`). The layout of a line is measured in spaces and
tabs only, a smaller set.
-/

namespace Offside.Unicode

/-- The code points with the property `White_Space`. -/
def whiteSpaceRanges : Ranges := [
  (0x0009, 0x000D), (0x0020, 0x0020), (0x0085, 0x0085), (0x00A0, 0x00A0), (0x1680, 0x1680),
  (0x2000, 0x200A), (0x2028, 0x2029), (0x202F, 0x202F), (0x205F, 0x205F), (0x3000, 0x3000)]

/-- Whether `c` may separate two lexemes; the line feed is one of these too. -/
def isWhiteSpace (c : Char) : Bool :=
  whiteSpaceRanges.contains c.toNat

/-- Drops the white space at the end of `text`. -/
def trimEnd (text : List Char) : List Char :=
  (text.reverse.dropWhile isWhiteSpace).reverse

end Offside.Unicode
