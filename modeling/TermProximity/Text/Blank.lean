import TermProximity.Text.Ranges

/-!
# Blank characters — the characters that only separate

The class is the property White_Space of Unicode 17.0: spaces, tabs and line ends of every script.
-/

namespace TermProximity.Text

/-- The code points with the property White_Space. -/
def blankRanges : Ranges :=
  [(0x9, 0xD), (0x20, 0x20), (0x85, 0x85), (0xA0, 0xA0), (0x1680, 0x1680), (0x2000, 0x200A),
   (0x2028, 0x2029), (0x202F, 0x202F), (0x205F, 0x205F), (0x3000, 0x3000)]

/-- A blank character: one with the property White_Space. -/
def isBlank (c : Char) : Bool := blankRanges.contains c.toNat

/-- Text is blank when it holds nothing but blank characters, as the empty text does. -/
def isBlankText (text : String) : Bool := text.toList.all isBlank

end TermProximity.Text
