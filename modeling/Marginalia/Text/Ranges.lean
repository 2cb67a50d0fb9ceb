/-!
# Sets of code points given by ranges

A character class of the Unicode standard is kept as an ascending list of ranges of code
points, both ends included.
-/

namespace Marginalia.Text

/-- Ascending, disjoint ranges of code points, both ends included. -/
abbrev Ranges := List (Nat × Nat)

/-- Whether some range of the set holds `n`. The ranges ascend, so the first one that starts
beyond `n` ends the search. -/
def Ranges.holds : Ranges → Nat → Bool
  | [], _ => false
  | (low, high) :: rest, n => if n < low then false else n ≤ high || holds rest n

end Marginalia.Text
