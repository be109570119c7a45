/-
# Integers in decimal digits

Integers are unbounded, but they are read from and written as text only up to
`maxDigits` digits.  A sign is not counted; leading zeros are.
-/

namespace QuillLang

/-- The most digits an integer may have in text. -/
def maxDigits : Nat := 4300

/-- An integer could not be read from its digits, or not be written. -/
inductive DigitLimit where
  | reading (digits : Nat)
  | writing
deriving DecidableEq, Repr

def DigitLimit.message : DigitLimit → String
  | .reading digits =>
    "Exceeds the limit (4300 digits) for integer string conversion: value has " ++
      Nat.repr digits ++ " digits; use sys.set_int_max_str_digits() to increase the limit"
  | .writing =>
    "Exceeds the limit (4300 digits) for integer string conversion; " ++
      "use sys.set_int_max_str_digits() to increase the limit"

namespace Numeral

/-- The value of a digit. -/
def digit (c : Char) : Nat := c.toNat - '0'.toNat

/-- The number that a row of digits stands for. -/
def ofDigits (cs : List Char) : Nat := cs.foldl (fun n c => 10 * n + digit c) 0

/-- A sign and what follows it: whether it is a minus. -/
def sign : List Char → Bool × List Char
  | '-' :: cs => (true, cs)
  | '+' :: cs => (false, cs)
  | cs => (false, cs)

/-- The integer with the given sign and size. -/
def signed (negative : Bool) (n : Nat) : Int := if negative then -(n : Int) else n

/-- The integer that signed digits stand for, if there are not too many of them. -/
def read (cs : List Char) : Except DigitLimit Int :=
  let (negative, digits) := sign cs
  if digits.length ≤ maxDigits then .ok (signed negative (ofDigits digits))
  else .error (.reading digits.length)

/-- The text of an integer, whatever its size. -/
def text (n : Int) : String := (if n < 0 then "-" else "") ++ Nat.repr n.natAbs

/-- The text of an integer, unless it has too many digits. -/
def text? (n : Int) : Option String :=
  if (Nat.repr n.natAbs).length ≤ maxDigits then some (text n) else none

end Numeral

end QuillLang
