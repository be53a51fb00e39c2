/-!
# Ranges of code points

The properties of characters that comments are read with (blank, digit, letter, case) are given as
lists of closed ranges. Letters, numbers and case are those of version 17 of the character database,
decimal digits and words those of version 16. This module holds the look-up; every table stands in
the module named for its property.
-/

namespace TeamOrders.Text

/-- A closed range of code points. -/
abbrev CodeRange := Nat × Nat

def inRanges (ranges : List CodeRange) (c : Char) : Bool :=
  ranges.any fun range => range.1 ≤ c.toNat && c.toNat ≤ range.2

end TeamOrders.Text
