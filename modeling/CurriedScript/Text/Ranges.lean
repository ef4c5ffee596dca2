/-!
# Sets of characters as ranges

A set is a list of closed ranges of code points in ascending order. A lookup
stops at the first range that does not end below the code point.
-/

namespace CurriedScript.Text

/-- Closed ranges of code points, ascending and disjoint. -/
abbrev Ranges := List (Nat × Nat)

def Ranges.has : Ranges → Nat → Bool
  | [], _ => false
  | (low, high) :: rest, n => if n ≤ high then low ≤ n else has rest n

end CurriedScript.Text
