/-
# Division of decimals

A quotient is rounded to a fixed number of places, the scale, and a quotient
half way between two neighbours goes to the even one.  With a negative scale
the quotient is first taken to the nearest double-precision number, multiplied
by the nearest one to `10 ^ scale` in that precision, and then rounded; so
there is no such quotient if one of the numbers is too large for that
precision, or if the exponent of the result is out of bounds.
-/
import QuillLang.Decimal

namespace QuillLang

/-! ## Double precision -/

namespace Binary64

/-- The exponent of the highest power of two that is not above `num / den`, both positive. -/
def magnitude (num den : Nat) : Int :=
  let guess : Int := Nat.log2 num - Nat.log2 den
  if num * twoTo (-guess).toNat < den * twoTo guess.toNat then guess - 1 else guess

/-- The double-precision number nearest to `num / den`, again as a fraction: 53 binary digits,
or as many as reach down to `2 ^ -1074`. -/
def nearest (num den : Nat) : Nat × Nat :=
  if num = 0 then (0, 1)
  else
    let e := max (magnitude num den - 52) (-1074)
    let mantissa := (roundHalfEven (num * twoTo (-e).toNat) (den * twoTo e.toNat)).toNat
    (mantissa * twoTo e.toNat, twoTo (-e).toNat)

/-- The product in double precision. -/
def mul (x y : Nat × Nat) : Nat × Nat := nearest (x.1 * y.1) (x.2 * y.2)

/-- The double-precision number nearest to `10 ^ -n`, which is zero from some point on. -/
def tenToMinus (n : Nat) : Nat × Nat := if n < 400 then nearest 1 (tenTo n) else (0, 1)

end Binary64

/-- Why there is no quotient with a negative scale. -/
inductive QuotientLimit where
  /-- The scale is too large for double precision. -/
  | scale
  /-- The quotient is too large for double precision. -/
  | size
  /-- The exponent of the result is too large. -/
  | exponent
deriving DecidableEq, Repr

namespace Decimal

/-- The size of `a / b` in units of `10 ^ -scale`, as a fraction. -/
def quotient (a b : Decimal) (scale : Int) : Nat × Nat :=
  let shift := a.exponent - b.exponent + scale
  if a.isZero then (0, 1)
  else (a.coefficient * tenTo shift.toNat, b.coefficient * tenTo (-shift).toNat)

/-- The largest exponent that a quotient may be given. -/
def maxShift : Nat := 3999999999999999996

/-- The size of `a / b` in units of `10 ^ places`, in double precision. -/
def binaryQuotient (a b : Decimal) (places : Nat) : Except QuotientLimit (Nat × Nat) :=
  let (num, den) := a.quotient b 0
  if overflowBound ≤ places then .error .scale
  else if overflowBound * den ≤ num then .error .size
  else if maxShift < places then .error .exponent
  else .ok (Binary64.mul (Binary64.nearest num den) (Binary64.tenToMinus places))

/-- The decimal with `scale` places whose size is nearest to a fraction of its last place. -/
def ofSize (scale : Int) (negative : Bool) (size : Nat × Nat) : Decimal :=
  let units := roundHalfEven size.1 size.2
  ofUnits (if negative then -units else units) (-scale) false

/-- The quotient with `scale` places; `b` is not zero.  With a negative scale the exponent may be
beyond the greatest one, but then double precision has left nothing of the size. -/
def div (scale : Int) (a b : Decimal) : Except QuotientLimit Decimal :=
  let negative := a.negative != b.negative
  if 0 ≤ scale then .ok (ofSize scale negative (a.quotient b scale))
  else (a.binaryQuotient b (-scale).toNat).map fun size =>
    let q := ofSize scale negative size
    if q.isZero then q.clamped else q

end Decimal

end QuillLang
