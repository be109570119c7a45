/-
# Errors of a running program

Each error knows its cause, down to the kinds of the values that did not fit.
Some causes arise in a value, which does not know where in a program it is
used; their errors have no place and no code until the call they arose in
gives them its own.
-/
import QuillLang.Decimal.Division
import QuillLang.Fault
import QuillLang.Scope
import QuillLang.Tree
import QuillLang.Value

namespace QuillLang

inductive EvalCause where
  | undefinedVariable (name : String)
  | undefinedFunction (name : String) (arity : Nat)
  | noField (kind : Kind) (name : String)
  | noMethod (kind : Kind) (name : String) (arity : Nat)
  | duplicate (key : Duplicate)
  | argumentCount (name : String) (expected actual : Nat)
  | stackOverflow
  | invalidTarget
  | missingMain
  | mainResult (actual : Kind)
  | wrongKind (expected actual : Kind)
  | incomparable (left right : Kind)
  | unordered (kind : Kind)
  | operands (op : Operator) (left right : Kind)
  | divideByZero
  | sliceBounds (start stop : Kind)
  | sliceRange (start stop : Int) (length : Nat)
  | returnOutside
  /-- An error of the embedding program. -/
  | outside (message : String)
deriving DecidableEq, Repr

namespace EvalCause

def message : EvalCause → String
  | undefinedVariable name => "Undefined variable '" ++ name ++ "'"
  | undefinedFunction name arity =>
    "Undefined function '" ++ name ++ "' taking " ++ Nat.repr arity ++ " argument(s)"
  | noField kind name => kind.title ++ " value has no field '" ++ name ++ "'"
  | noMethod kind name arity =>
    kind.title ++ " value has no method '" ++ name ++ "' taking " ++ Nat.repr arity ++
      " argument(s)"
  | duplicate key => key.message
  | argumentCount name expected actual =>
    "Method '" ++ name ++ "' expects " ++ Nat.repr expected ++ " argument(s), got " ++
      Nat.repr actual
  | stackOverflow => "Stack overflow"
  | invalidTarget => "The left side of an assignment must be a variable or field"
  | missingMain => "Program has no zero-argument 'main' method"
  | mainResult actual => "'main' must return an Integer, got " ++ actual.title
  | wrongKind expected actual =>
    "Expected " ++ expected.title ++ " value, got " ++ actual.title
  | incomparable left right => "Cannot compare " ++ left.title ++ " with " ++ right.title
  | unordered kind => kind.title ++ " values are not ordered"
  | operands op left right =>
    "Operator '" ++ op.lexeme ++ "' needs two Integer or two Decimal values, got " ++ left.title ++
      " and " ++ right.title
  | divideByZero => "Divide by zero"
  | sliceBounds _ _ => "String slice bounds must be integers"
  | sliceRange start stop length =>
    "String slice [" ++ Numeral.text start ++ ", " ++ Numeral.text stop ++
      ") out of range for length " ++ Nat.repr length
  | returnOutside => "RETURN outside of a method"
  | outside message => message

/-- The code of an error with this cause, where the cause alone decides it. -/
def code? : EvalCause → Option Code
  | undefinedVariable _ | undefinedFunction .. | missingMain => some .unresolvedMember
  | argumentCount .. => some .argumentCount
  | divideByZero => some .divideByZero
  | stackOverflow | invalidTarget | mainResult _ | wrongKind .. | incomparable .. | unordered _
  | operands .. | returnOutside => some .kindMismatch
  | noField .. | noMethod .. | duplicate _ | sliceBounds .. | sliceRange .. | outside _ => none

end EvalCause

structure EvalError where
  cause : EvalCause
  place : Place := none
  code : Option Code := none
deriving DecidableEq, Repr

namespace EvalError

/-- Give an error that has no place the place of the call it arose in. -/
def relocate (place : Place) (e : EvalError) : EvalError :=
  match e.place with
  | some _ => e
  | none => ⟨e.cause, place, some .unresolvedMember⟩

/-- The error as it is reported. -/
def fault (e : EvalError) : Fault :=
  { stage := .evaluation
    message := e.cause.message
    location := e.place
    code := e.code.map Code.text }

end EvalError

/-- Why a run stopped before its end: an error of the program, an integer too long to be
written, a quotient that its precision does not allow, an operation on decimals that has no
result, a limit on running methods that cannot be kept, a function called from outside with too
few arguments, or no fuel left. -/
inductive Halt where
  | error (e : EvalError)
  | digits (limit : DigitLimit)
  | quotient (limit : QuotientLimit)
  | signal (s : Signal)
  | depth
  | missingArgument
  | outOfFuel
deriving DecidableEq, Repr

/-- An error with a cause, at a place. -/
def Halt.located (place : Place) (cause : EvalCause) : Halt := .error ⟨cause, place, cause.code?⟩

end QuillLang
