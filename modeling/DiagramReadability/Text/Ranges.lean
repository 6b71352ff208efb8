/-!
# Sets of characters given by ranges

A character class of Unicode is a table of ranges.  A table ascends, so a search for a code point
ends at the first range that starts beyond it.
-/

namespace DiagramReadability.Text

/-- Ascending, disjoint ranges of code points, both ends included. -/
abbrev CharRanges := List (Nat × Nat)

def CharRanges.holds : CharRanges → Nat → Bool
  | [], _ => false
  | (first, last) :: rest, n =>
      if n < first then false
      else if n ≤ last then true
      else CharRanges.holds rest n

end DiagramReadability.Text
