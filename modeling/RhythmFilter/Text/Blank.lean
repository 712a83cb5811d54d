import RhythmFilter.Text.CodeRange

/-!
# Blank characters

A blank is a character of the property White_Space: the spaces of every width, tabs, line and
paragraph breaks. Filter texts are cut at blanks and mod filters are read without them.
-/

namespace RhythmFilter.Text

def blankRanges : List CodeRange := [
  (0x9, 0xD), (0x20, 0x20), (0x85, 0x85), (0xA0, 0xA0), (0x1680, 0x1680), (0x2000, 0x200A),
  (0x2028, 0x2029), (0x202F, 0x202F), (0x205F, 0x205F), (0x3000, 0x3000)]

def isBlank (c : Char) : Bool := covers blankRanges c.toNat

/-- The text without its blanks, wherever they stand. -/
def squeeze (s : List Char) : List Char := s.filter fun c => !isBlank c

/-- The text without the blanks at its two ends. -/
def trim (s : List Char) : List Char :=
  ((s.dropWhile isBlank).reverse.dropWhile isBlank).reverse

theorem squeeze_append (s t : List Char) : squeeze (s ++ t) = squeeze s ++ squeeze t := by
  simp [squeeze]

end RhythmFilter.Text
