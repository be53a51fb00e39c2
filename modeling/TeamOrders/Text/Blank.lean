import TeamOrders.Text.Range

/-!
# Blank characters

White space in the sense of the character database: 25 characters, of which core's
`Char.isWhitespace` knows four.
-/

namespace TeamOrders.Text

/-- The white space characters. -/
def blankRanges : List CodeRange := [
  (0x9, 0xD), (0x20, 0x20), (0x85, 0x85), (0xA0, 0xA0), (0x1680, 0x1680), (0x2000, 0x200A),
  (0x2028, 0x2029), (0x202F, 0x202F), (0x205F, 0x205F), (0x3000, 0x3000)]

def isBlank (c : Char) : Bool := inRanges blankRanges c

end TeamOrders.Text
