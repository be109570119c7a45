/-
# Operators on values

What a binary operator makes of two values.  Equality is defined for values of
all kinds; the order only within a kind that has one; arithmetic on two integers
or two decimals.  A sum with a string is the two texts one after the other.
-/
import QuillLang.Eval.Error

namespace QuillLang

/-- The order of two values of one ordered kind; a decimal that is no number has none. -/
def Value.order? : Value → Value → Option Ordering
  | .boolean a, .boolean b => some (compare a b)
  | .character a, .character b => some (compare a b)
  | .string a, .string b => some (compare a b)
  | .integer a, .integer b => some (compare a b)
  | .decimal a, .decimal b => a.order? b
  | _, _ => none

namespace Operator

/-- Whether a comparison holds of two values in a given order. -/
def holds (op : Operator) (o : Ordering) : Bool :=
  match op with
  | .lt => o.isLT
  | .le => o.isLE
  | .gt => o.isGT
  | .ge => o.isGE
  | _ => false

/-- The result of an ordering comparison. -/
def compareValues (op : Operator) (place : Place) (l r : Value) : Except Halt Value :=
  if l.kind ≠ r.kind then .error (.located place (.incomparable l.kind r.kind))
  else if !l.kind.isOrdered then .error (.located place (.unordered l.kind))
  else match l.order? r with
    | none => .error (.signal .invalid)
    | some o => .ok (.boolean (op.holds o))

/-- Whether two values are equal. -/
def equalValues (l r : Value) : Except Halt Bool :=
  match l.equal? r with
  | none => .error (.signal .invalid)
  | some b => .ok b

/-- Arithmetic on integers; the quotient is cut off toward zero. -/
def onIntegers (op : Operator) (a b : Int) : Except EvalCause Value :=
  match op with
  | .add => .ok (.integer (a + b))
  | .sub => .ok (.integer (a - b))
  | .mul => .ok (.integer (a * b))
  | _ => if b = 0 then .error .divideByZero else .ok (.integer (a.tdiv b))

/-- The quotient of two decimals, with `scale` places. -/
def divideDecimals (scale : Int) (place : Place) (a b : Number) : Except Halt Value :=
  if b.isSignaling then .error (.signal .invalid)
  else if b.isZero then .error (.located place .divideByZero)
  else match a.decimal, b.decimal with
    | .error s, _ => .error (.signal s)
    | _, .error s => .error (.signal s)
    | .ok a, .ok b =>
      match Decimal.div scale a b with
      | .ok d => .ok (.decimal (.finite d))
      | .error limit => .error (.quotient limit)

/-- Arithmetic on decimals. -/
def onDecimals (scale : Int) (op : Operator) (place : Place) (a b : Number) : Except Halt Value :=
  let result (r : Except Signal Number) : Except Halt Value := (r.map .decimal).mapError .signal
  match op with
  | .add => result (a.add b)
  | .sub => result (a.sub b)
  | .mul => result (a.mul b)
  | _ => divideDecimals scale place a b

def arithmetic (scale : Int) (op : Operator) (place : Place) (l r : Value) : Except Halt Value :=
  match l, r with
  | .integer a, .integer b => (op.onIntegers a b).mapError (.located place)
  | .decimal a, .decimal b => op.onDecimals scale place a b
  | _, _ => .error (.located place (.operands op l.kind r.kind))

/-- Two texts one after the other, unless one has an integer too long to be written. -/
def concatenate (l r : Value) : Except Halt Value :=
  match l.text?, r.text? with
  | some a, some b => .ok (.string (a ++ b))
  | _, _ => .error (.digits .writing)

/-- What an operator other than the two logical ones makes of two values at a place. -/
def apply (scale : Int) (op : Operator) (place : Place) (l r : Value) : Except Halt Value :=
  match op with
  | .eq => (equalValues l r).map .boolean
  | .ne => (equalValues l r).map fun b => .boolean !b
  | .lt | .le | .gt | .ge => op.compareValues place l r
  | .add =>
    if l.kind = .string || r.kind = .string then concatenate l r
    else op.arithmetic scale place l r
  | _ => op.arithmetic scale place l r

end Operator

/-! ## Members of strings -/

namespace Value

/-- The part of a string between two bounds. -/
def slice (s : String) (start stop : Value) : Except Halt Value :=
  match start, stop with
  | .integer a, .integer b =>
    if 0 ≤ a && a ≤ b && b ≤ s.length then
      .ok (.string (String.ofList ((s.toList.take b.toNat).drop a.toNat)))
    else match Numeral.text? a, Numeral.text? b with
      | some _, some _ => .error (.error { cause := .sliceRange a b s.length })
      | _, _ => .error (.digits .writing)
  | _, _ => .error (.error { cause := .sliceBounds start.kind stop.kind })

/-- A method call on a string. -/
def callString (s : String) (name : String) (args : List Value) : Except Halt Value :=
  match name, args with
  | "slice", [start, stop] => slice s start stop
  | "length", [] => .ok (.integer s.length)
  | name, args => .error (.error { cause := .noMethod .string name args.length })

end Value

end QuillLang
