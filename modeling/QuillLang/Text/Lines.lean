/-
# Lines of a text

Two notions of line live side by side.  `split` breaks a text at every line
boundary a text viewer knows; `lineFrom` looks only for line feeds.  Faults of
the token reader show the second, all other faults the first.
-/

namespace QuillLang.Lines

/-- A single character that ends a line. -/
def isBreak (c : Char) : Bool :=
  c = '\n' || c = '\r' || c = '\x0b' || c = '\x0c' || c = '\x1c' || c = '\x1d' || c = '\x1e' ||
    c = '\u0085' || c = '\u2028' || c = '\u2029'

/-- Put one more character on the first line. -/
def push (c : Char) : List (List Char) → List (List Char)
  | [] => [[c]]
  | line :: lines => (c :: line) :: lines

/-- The lines of a text.  A carriage return and a line feed are one break, and a break at the
very end starts no further line. -/
def split : List Char → List (List Char)
  | [] => []
  | '\r' :: '\n' :: cs => [] :: split cs
  | c :: cs => if isBreak c then [] :: split cs else push c (split cs)

/-- The line with a given number, counted from one. -/
def nth? (lines : List (List Char)) (number : Int) : Option (List Char) :=
  if 1 ≤ number then lines[(number - 1).toNat]? else none

/-- The text from an offset up to the first line feed at or after it. -/
def lineFrom (source : List Char) (start : Nat) : List Char :=
  (source.drop start).takeWhile (· ≠ '\n')

end QuillLang.Lines
