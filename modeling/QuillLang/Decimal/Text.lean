/-
# Decimals as text

`plain` writes every digit down to the place of the exponent.  `scientific`
does the same for values that are not too small and have no positive
exponent, and gives all others one digit before the point and an exponent.
`read?` reads both.
-/
import QuillLang.Decimal
import QuillLang.Numeral

namespace QuillLang.Decimal

def signText (d : Decimal) : List Char := if d.negative then ['-'] else []

/-- Digits with a point before the last `places`, and zeros in front so that one digit stands
before the point. -/
def withPoint (digits : List Char) (places : Nat) : List Char :=
  let padded := List.replicate (places + 1 - digits.length) '0' ++ digits
  padded.take (padded.length - places) ++ '.' :: padded.drop (padded.length - places)

/-- The digits of a decimal whose exponent is not positive. -/
def positional (d : Decimal) : List Char :=
  let digits := Nat.toDigits 10 d.coefficient
  if d.exponent = 0 then digits else withPoint digits (-d.exponent).toNat

/-- The digits of a decimal whose exponent is positive; a zero is a single one. -/
def integral (d : Decimal) : List Char :=
  if d.isZero then ['0']
  else Nat.toDigits 10 d.coefficient ++ List.replicate d.exponent.toNat '0'

/-- The value in full, without an exponent. -/
def plain (d : Decimal) : String :=
  String.ofList (d.signText ++ if 0 < d.exponent then d.integral else d.positional)

/-- An exponent with its sign. -/
def exponentText (e : Int) : List Char :=
  'E' :: (if e < 0 then '-' else '+') :: Nat.toDigits 10 e.natAbs

/-- One digit before the point, the others after it, and an exponent. -/
def normalized (d : Decimal) : List Char :=
  match Nat.toDigits 10 d.coefficient with
  | [] => exponentText d.adjusted
  | [c] => c :: exponentText d.adjusted
  | c :: cs => c :: '.' :: cs ++ exponentText d.adjusted

/-- The value in full if its exponent is not positive and its first digit is not beyond the
sixth place after the point; with an exponent otherwise. -/
def scientific (d : Decimal) : String :=
  String.ofList <| d.signText ++
    if d.exponent ≤ 0 && -6 ≤ d.adjusted then d.positional else d.normalized

/-! ## Reading -/

/-- The exponent at the end of a number; an absent one is zero. -/
def readExponent? : List Char → Option Int
  | [] => some 0
  | c :: cs =>
    if c = 'E' || c = 'e' then
      let (negative, digits) := Numeral.sign cs
      if digits.isEmpty || !digits.all Char.isDigit then none
      else some (Numeral.signed negative (Numeral.ofDigits digits))
    else none

/-- The digits after a point, and the text after them; no point is no digits. -/
def readFraction : List Char → List Char × List Char
  | '.' :: cs => (cs.takeWhile Char.isDigit, cs.dropWhile Char.isDigit)
  | cs => ([], cs)

/-- The decimal that a text stands for: sign, digits, point and digits, exponent, of which all
but some digits may be missing. -/
def read? (cs : List Char) : Option Decimal :=
  let (negative, cs) := Numeral.sign cs
  let whole := cs.takeWhile Char.isDigit
  let (fraction, cs) := readFraction (cs.dropWhile Char.isDigit)
  if whole.isEmpty && fraction.isEmpty then none
  else (readExponent? cs).map fun e =>
    { negative
      coefficient := Numeral.ofDigits (whole ++ fraction)
      exponent := e - fraction.length }

end QuillLang.Decimal
