import ModelLoading.Text.Ranges

/-!
# Blank characters

The Unicode property White_Space. `trim` removes blank characters from both ends of a text, and a
text is blank when nothing is left of it.
-/

namespace ModelLoading.Text

/-- White space. -/
def blankRanges : Ranges := [
  (0x09, 0x0D), (0x20, 0x20), (0x85, 0x85), (0xA0, 0xA0), (0x1680, 0x1680), (0x2000, 0x200A),
  (0x2028, 0x2029), (0x202F, 0x202F), (0x205F, 0x205F), (0x3000, 0x3000)
]

/-- Whether a character is white space. -/
def isBlank (c : Char) : Bool := blankRanges.contains c

/-- A text without the white space at its ends. -/
def trim (s : List Char) : List Char :=
  ((s.dropWhile isBlank).reverse.dropWhile isBlank).reverse

/-- Whether a text holds nothing but white space. -/
def allBlank (s : String) : Bool := s.toList.all isBlank

end ModelLoading.Text
