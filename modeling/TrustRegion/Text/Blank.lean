/-
Module: TrustRegion.Text.Blank
Purpose: The blanks of the Unicode standard, which have the property `White_Space`: spaces, tabs and
  the ends of lines, paragraphs and pages.
Main exports: isBlank, trimmed
-/
import TrustRegion.Text.Ranges

namespace TrustRegion.Text

/-- The blanks, ascending. -/
def blankRanges : CodeRanges :=
  #[(0x9, 0xd), (0x20, 0x20), (0x85, 0x85), (0xa0, 0xa0), (0x1680, 0x1680), (0x2000, 0x200a),
   (0x2028, 0x2029), (0x202f, 0x202f), (0x205f, 0x205f), (0x3000, 0x3000)]

/-- Whether a character is a blank. -/
def isBlank (c : Char) : Bool :=
  blankRanges.covers c

/-- A text without the blanks at its ends. -/
def trimmed (s : List Char) : List Char :=
  ((s.dropWhile isBlank).reverse.dropWhile isBlank).reverse

end TrustRegion.Text
