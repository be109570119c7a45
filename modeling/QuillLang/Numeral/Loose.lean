/-
# Integers as people type them

Blanks may stand around an integer, underscores between its digits, and the
digits and blanks may be of any script.
-/
import QuillLang.Numeral
import QuillLang.Text.Digits

namespace QuillLang.Numeral

/-- Digits with single underscores between them. -/
def looseDigits : List Char → Option (List Nat)
  | [] => none
  | [c] => (Text.digit? c).map ([·])
  | c :: '_' :: cs => do
    let d ← Text.digit? c
    let ds ← looseDigits cs
    return d :: ds
  | c :: cs => do
    let d ← Text.digit? c
    let ds ← looseDigits cs
    return d :: ds

/-- A text without the blanks around it. -/
def trim (cs : List Char) : List Char :=
  ((cs.dropWhile Text.isBlank).reverse.dropWhile Text.isBlank).reverse

/-- The integer that a text stands for; `none` if it stands for none. -/
def readLoose? (cs : List Char) : Option (Except DigitLimit Int) :=
  let (negative, cs) := sign (trim cs)
  (looseDigits cs).map fun ds =>
    if ds.length ≤ maxDigits then .ok (signed negative (ds.foldl (fun n d => 10 * n + d) 0))
    else .error (.reading ds.length)

end QuillLang.Numeral
