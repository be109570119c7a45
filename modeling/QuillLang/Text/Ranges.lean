/-
# Sets of code points

A property of characters is kept as a list of closed ranges in increasing
order, so a search can stop at the first range that starts too late.
-/

namespace QuillLang

/-- Closed ranges of code points, in increasing order. -/
abbrev Ranges := List (Nat × Nat)

namespace Ranges

/-- Whether a code point lies in one of the ranges. -/
def has : Ranges → Nat → Bool
  | [], _ => false
  | (first, last) :: rest, n => if n < first then false else n ≤ last || has rest n

end Ranges

end QuillLang
