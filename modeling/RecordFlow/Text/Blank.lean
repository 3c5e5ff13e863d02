/-
# Blank characters and trimming

The Unicode property `White_Space` decides what is cut off at the ends of a text: the code of an
embedded expression, a line of a report, a pending entry of a session. The scanner's own separators
between tokens are a smaller set and are not defined here.
-/

import RecordFlow.Text.Ranges

namespace RecordFlow.Text

/-- The code points with the property `White_Space`, in increasing order. -/
def blankRanges : Ranges :=
  [ (0x9, 0xD), (0x20, 0x20), (0x85, 0x85), (0xA0, 0xA0), (0x1680, 0x1680), (0x2000, 0x200A),
    (0x2028, 0x2029), (0x202F, 0x202F), (0x205F, 0x205F), (0x3000, 0x3000) ]

/-- A character that trimming removes. -/
def isBlank (c : Char) : Bool := blankRanges.contains c

/-- The characters without the blanks at their end. -/
def trimEnd (cs : List Char) : List Char := (cs.reverse.dropWhile isBlank).reverse

/-- The characters without the blanks at their beginning and at their end. -/
def trim (cs : List Char) : List Char := trimEnd (cs.dropWhile isBlank)

end RecordFlow.Text
