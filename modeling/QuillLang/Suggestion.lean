/-
# Suggestions for misspelt names

The distance of two texts is the least number of single-character insertions,
deletions and substitutions that turn one into the other.  It is computed row
by row: a row holds the distances of one text's prefix to every prefix of the
other, and only the row before it is needed.

Names that are near a misspelt one, case aside, are suggested in a hint.
-/
import QuillLang.Text.Lowercase

namespace QuillLang

namespace Distance

/-- The rest of a row, given the entry to its left and the row above from the entry diagonally
above on. -/
def rowFrom (c : Char) : (left : Nat) → List Char → (above : List Nat) → List Nat
  | left, d :: ds, diagonal :: up :: above =>
    let entry := min (min (up + 1) (left + 1)) (diagonal + if c = d then 0 else 1)
    entry :: rowFrom c entry ds (up :: above)
  | _, _, _ => []

/-- The row below, for one more character of the first text; `count` is their number now. -/
def nextRow (t : List Char) (c : Char) (count : Nat) (above : List Nat) : List Nat :=
  count :: rowFrom c count t above

/-- The row for the whole first text, given the row for `count` characters of it. -/
def lastRow (t : List Char) : (s : List Char) → (count : Nat) → (row : List Nat) → List Nat
  | [], _, row => row
  | c :: s, count, row => lastRow t s (count + 1) (nextRow t c (count + 1) row)

/-- The distance from a text to one that is not longer. -/
def toShorter (s t : List Char) : Nat :=
  ((lastRow t s 0 (List.range (t.length + 1))).getLast?).getD 0

end Distance

/-- The distance of two texts. -/
def distance (s t : List Char) : Nat :=
  if s.length < t.length then Distance.toShorter t s else Distance.toShorter s t

namespace Suggestion

/-- A name and how far it is from the misspelt one. -/
structure Scored where
  name : String
  distance : Nat
deriving DecidableEq, Repr

/-- The nearer first; at equal distance, by code points. -/
def before (a b : Scored) : Bool :=
  a.distance < b.distance || (a.distance = b.distance && a.name ≤ b.name)

/-- The candidate with its distance, if it is near enough and not the name itself.  Names whose
lengths differ by more than the distance allowed are not compared. -/
def score? (maxDistance : Int) (name candidate : String) : Option Scored :=
  let gap : Nat := max candidate.length name.length - min candidate.length name.length
  if candidate = name || maxDistance < gap then none
  else
    let d := distance (Text.lower name.toList) (Text.lower candidate.toList)
    if d ≤ maxDistance then some ⟨candidate, d⟩ else none

/-- So many from the front, or, for a negative number, all but so many from the back. -/
def front {α : Type} (xs : List α) (count : Int) : List α :=
  if 0 ≤ count then xs.take count.toNat else xs.take (xs.length - count.natAbs)

/-- The names nearest to a misspelt one, at most `count` of them. -/
def similar (name : String) (candidates : List String) (maxDistance : Int := 2)
    (count : Int := 3) : List String :=
  let scored := candidates.filterMap (score? maxDistance name)
  (front (scored.mergeSort before) count).map (·.name)

def inQuotes (s : String) : String := "'" ++ s ++ "'"

/-- Names in a sentence: the last one after an "or". -/
def enumerate : List String → Option String
  | [] => none
  | [s] => some (inQuotes s)
  | s :: t :: rest =>
    let names := (s :: t :: rest).dropLast.map inQuotes
    some (", ".intercalate names ++ " or " ++ inQuotes ((t :: rest).getLastD t))

/-- A hint that names what may have been meant, if anything is near. -/
def hint? (name : String) (candidates : List String) : Option String :=
  (enumerate (similar name candidates)).map fun names => "did you mean " ++ names ++ "?"

end Suggestion

end QuillLang
