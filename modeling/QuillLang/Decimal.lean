/-
# Decimals

A decimal is a sign, a coefficient and an exponent, and stands for
`± coefficient · 10 ^ exponent`.  Decimals of one value may differ in their
exponent, which fixes how many places are written, and zero has a sign.

Sums and products are exact as long as they are in range.  The precision is so
large that no coefficient ever reaches it, but exponents have bounds that a
program can come to: a result that is too large is none, and one with too small
an exponent is rounded to the least exponent, possibly to zero.
-/

namespace QuillLang

/-- A power of ten. -/
def tenTo (n : Nat) : Nat := Nat.pow 10 n

/-- A power of two. -/
def twoTo (n : Nat) : Nat := Nat.pow 2 n

/-- The integer nearest to `num / den`; of two equally near ones the even. -/
def roundHalfEven (num : Int) (den : Nat) : Int :=
  let q := num / (den : Int)
  let r := num % (den : Int)
  if 2 * r < den then q
  else if 2 * r > den then q + 1
  else if q % 2 = 0 then q
  else q + 1

/-- Why an operation on decimals has no result. -/
inductive Signal where
  /-- The result is too large. -/
  | overflow
  /-- The operation is not defined for its operands. -/
  | invalid
  /-- An operand of a quotient is no number. -/
  | notNumber
  /-- An operand of a quotient is infinite. -/
  | infinite
deriving DecidableEq, Repr

structure Decimal where
  negative : Bool
  coefficient : Nat
  exponent : Int
deriving DecidableEq, Repr, Inhabited

namespace Decimal

/-- The coefficient with its sign. -/
def signed (d : Decimal) : Int := if d.negative then -(d.coefficient : Int) else d.coefficient

/-- The value in units of `10 ^ e`, for `e` not above the exponent. -/
def units (d : Decimal) (e : Int) : Int :=
  if d.coefficient = 0 then 0 else d.signed * tenTo (d.exponent - e).toNat

/-- The decimal of a given value in units of `10 ^ exponent`; `zeroSign` decides for zero. -/
def ofUnits (value : Int) (exponent : Int) (zeroSign : Bool) : Decimal :=
  { negative := if value = 0 then zeroSign else value < 0
    coefficient := value.natAbs
    exponent }

def neg (a : Decimal) : Decimal := { a with negative := !a.negative }

/-- The sum keeps the smaller exponent; it is a negative zero only if both operands are. -/
def sum (a b : Decimal) : Decimal :=
  let e := min a.exponent b.exponent
  ofUnits (a.units e + b.units e) e (a.negative && b.negative)

/-- The product has the sum of the exponents, and its sign also when it is zero. -/
def product (a b : Decimal) : Decimal :=
  { negative := a.negative != b.negative
    coefficient := a.coefficient * b.coefficient
    exponent := a.exponent + b.exponent }

def isZero (a : Decimal) : Bool := a.coefficient == 0

/-- How many digits the coefficient has; a zero has one. -/
def digitCount (d : Decimal) : Nat := (Nat.toDigits 10 d.coefficient).length

/-- The exponent of the first digit. -/
def adjusted (d : Decimal) : Int := d.exponent + d.digitCount - 1

/-! ## The range of results -/

/-- The greatest exponent of a first digit, and of a zero. -/
def greatestExponent : Int := 999999999999999999

/-- The least exponent. -/
def leastExponent : Int := -1999999999999999997

/-- A zero with its exponent moved into the range. -/
def clamped (d : Decimal) : Decimal :=
  { d with exponent := max leastExponent (min d.exponent greatestExponent) }

/-- The decimal of the least exponent that is nearest to one of a smaller exponent, the even one
of two.  A coefficient with fewer digits than are cut off is rounded to zero. -/
def flushed (d : Decimal) : Decimal :=
  let places := (leastExponent - d.exponent).toNat
  { d with
    coefficient :=
      if d.digitCount < places then 0 else (roundHalfEven d.coefficient (tenTo places)).toNat
    exponent := leastExponent }

/-- The result of an operation that has an exact result.  A coefficient does not get long enough
to be too large with an exponent that is not positive. -/
def finish (d : Decimal) : Except Signal Decimal :=
  if d.isZero then .ok d.clamped
  else if 0 < d.exponent && greatestExponent < d.adjusted then .error .overflow
  else if d.exponent < leastExponent then .ok d.flushed
  else .ok d

def add (a b : Decimal) : Except Signal Decimal := (a.sum b).finish

def mul (a b : Decimal) : Except Signal Decimal := (a.product b).finish

/-! ## Order by value -/

/-- The order of the values, whatever the exponents and the signs of zeros. -/
def order (a b : Decimal) : Ordering :=
  let e := min a.exponent b.exponent
  compare (a.units e) (b.units e)

/-- The size of a number that no double-precision number is near: from the midpoint between
the largest one and the next power of two on. -/
def overflowBound : Nat := twoTo 1024 - twoTo 970

/-- Whether the value is too large for a double-precision number.  Exponents are limited first,
so that no power of ten is larger than it has to be. -/
def overflows (d : Decimal) : Bool :=
  let places := (-d.exponent).toNat
  if 0 ≤ d.exponent then overflowBound ≤ d.coefficient * tenTo (min d.exponent 309).toNat
  else places ≤ Nat.log2 d.coefficient && overflowBound * tenTo places ≤ d.coefficient

end Decimal

end QuillLang
