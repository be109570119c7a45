/-
# Numbers and what is no number

The contents of a decimal value: a decimal, an infinite number, or no number at
all.  A program cannot make the last two by itself, but an embedding program may
hand them in.

No number is equal to nothing, itself included, and has no order.  It is quiet or
signalling: an operation on a quiet one gives it again, and one on a signalling
one is not defined, nor is comparing it.
-/
import QuillLang.Decimal.Text

namespace QuillLang

/-- What stands in the place of a number. -/
structure NaN where
  negative : Bool := false
  signaling : Bool := false
  payload : Nat := 0
  /-- The number of the object that the embedding program has for it.  What an operation gives
  is an object of its own. -/
  object : Option Nat := none
deriving DecidableEq, Repr

def NaN.text (n : NaN) : String :=
  (if n.negative then "-" else "") ++ (if n.signaling then "sNaN" else "NaN") ++
    if n.payload = 0 then "" else Nat.repr n.payload

inductive Number where
  | finite (d : Decimal)
  | infinite (negative : Bool)
  | nan (n : NaN)
deriving DecidableEq, Repr

namespace Number

def isSignaling : Number → Bool
  | nan n => n.signaling
  | _ => false

def isZero : Number → Bool
  | finite d => d.isZero
  | _ => false

def isNegative : Number → Bool
  | finite d => d.negative
  | infinite negative => negative
  | nan n => n.negative

/-- The decimal, if it is one. -/
def decimal : Number → Except Signal Decimal
  | finite d => .ok d
  | infinite _ => .error .infinite
  | nan _ => .error .notNumber

/-! ## Comparison -/

/-- The order of the values, if both are numbers. -/
def order? : Number → Number → Option Ordering
  | finite a, finite b => some (a.order b)
  | infinite s, infinite t => some (compare t s)
  | infinite s, finite _ => some (if s then .lt else .gt)
  | finite _, infinite t => some (if t then .gt else .lt)
  | nan _, _ | _, nan _ => none

/-- Whether two have the same value; one that is signalling cannot be compared. -/
def equal? (a b : Number) : Option Bool :=
  if a.isSignaling || b.isSignaling then none else some (a.order? b == some .eq)

/-- Whether two are one object and no number, which are the objects that differ from themselves
by value. -/
def isSame : Number → Number → Bool
  | nan m, nan n => m.object.isSome && m.object == n.object
  | _, _ => false

/-! ## Arithmetic -/

/-- An operation with an operand that is no number gives it again. -/
def spread (n : NaN) (other : Number) : Except Signal Number :=
  if n.signaling || other.isSignaling then .error .invalid
  else .ok (.nan { n with object := none })

def neg : Number → Number
  | finite d => .finite d.neg
  | infinite negative => .infinite !negative
  | nan n => .nan n

def add : Number → Number → Except Signal Number
  | nan m, b => spread m b
  | a, nan n => spread n a
  | finite a, finite b => (a.add b).map .finite
  | infinite s, infinite t => if s = t then .ok (.infinite s) else .error .invalid
  | infinite s, finite _ | finite _, infinite s => .ok (.infinite s)

def sub (a b : Number) : Except Signal Number := a.add b.neg

def mul : Number → Number → Except Signal Number
  | nan m, b => spread m b
  | a, nan n => spread n a
  | finite a, finite b => (a.mul b).map .finite
  | a, b =>
    if a.isZero || b.isZero then .error .invalid
    else .ok (.infinite (a.isNegative != b.isNegative))

/-! ## Text -/

def infinityText (negative : Bool) : String := if negative then "-Infinity" else "Infinity"

/-- The value in full, without an exponent. -/
def plain : Number → String
  | finite d => d.plain
  | infinite negative => infinityText negative
  | nan n => n.text

/-- The value with an exponent where a decimal is written with one. -/
def scientific : Number → String
  | finite d => d.scientific
  | infinite negative => infinityText negative
  | nan n => n.text

end Number

end QuillLang
