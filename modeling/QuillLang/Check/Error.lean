/-
# Errors found before a program runs

Each error knows its cause: the names and types that matter, and for a name
that is not bound also the names that are, from which the hint is made.
-/
import QuillLang.Binding
import QuillLang.Decimal.Text
import QuillLang.Fault
import QuillLang.Suggestion
import QuillLang.Tree

namespace QuillLang

inductive CheckCause where
  | mismatch (reason : Ty.Mismatch)
  | needsType (name : String)
  | groupNotBinary
  | undefinedVariable (name : String) (visible : List String)
  | undefinedFunction (name : String) (arity : Nat) (visible : List String)
  | operand (op : Operator) (found : Ty)
  | invalidTarget
  | notIterable (found : Ty)
  | noField (type : Ty) (name : String) (fields : List String)
  | noMethod (type : Ty) (name : String) (arity : Nat) (methods : List String)
  | invalidReturn (reason : Ty.Mismatch)
  | duplicateVariable (name : String)
  | duplicateMethod (name : String) (arity : Nat)
  | integerRange (value : Int)
  | decimalRange (value : Decimal)
  | unknownType (name : String)
  | returnOutside
  | missingMain
  | emptyBranch
  | emptyLoop
  | notACall
deriving DecidableEq, Repr

namespace CheckCause

def message : CheckCause → String
  | mismatch reason => reason.message
  | needsType name => "Declaration of '" ++ name ++ "' needs a type or an initial value"
  | groupNotBinary => "Parenthesized expression must be a binary expression"
  | undefinedVariable name _ => "Undefined variable '" ++ name ++ "'"
  | undefinedFunction name arity _ =>
    "Undefined function '" ++ name ++ "' taking " ++ Nat.repr arity ++ " argument(s)"
  | operand op found =>
    "Operator '" ++ op.lexeme ++ "' needs Integer or Decimal operands, found " ++ found.name
  | invalidTarget => "The left side of an assignment must be a variable or field"
  | notIterable found =>
    "FOR loops iterate over " ++ Ty.integerIterable.name ++ ", found " ++ found.name
  | noField type name _ => "Type " ++ type.name ++ " has no field '" ++ name ++ "'"
  | noMethod type name arity _ =>
    "Type " ++ type.name ++ " has no method '" ++ name ++ "' taking " ++ Nat.repr arity ++
      " argument(s)"
  | invalidReturn reason => "Invalid return value: " ++ reason.message
  | duplicateVariable name => (Duplicate.ofVariable name).message
  | duplicateMethod name arity =>
    "Method '" ++ name ++ "' with " ++ Nat.repr arity ++ " parameter(s) is already defined"
  | integerRange value =>
    "Integer literal " ++ Numeral.text value ++ " is outside the 32-bit range"
  | decimalRange value => "Decimal literal " ++ value.scientific ++ " is too large"
  | unknownType name => "Unknown type '" ++ name ++ "'"
  | returnOutside => "RETURN outside of a method"
  | missingMain => "Program has no zero-argument 'main' method"
  | emptyBranch => "IF statement must have a non-empty body"
  | emptyLoop => "FOR statement must have a non-empty body"
  | notACall => "Expression statements must be function calls"

def code : CheckCause → Code
  | mismatch _ | needsType _ | groupNotBinary => .typeMismatch
  | undefinedVariable .. => .undefinedVariable
  | undefinedFunction .. => .undefinedFunction
  | operand .. => .incompatibleOperands
  | invalidTarget => .invalidTarget
  | notIterable _ => .notIterable
  | noField .. | noMethod .. => .memberNotFound
  | invalidReturn _ => .returnMismatch
  | duplicateVariable _ | duplicateMethod .. => .redefinition
  | integerRange _ | decimalRange _ => .literalRange
  | unknownType _ => .unknownType
  | returnOutside => .returnOutside
  | missingMain => .missingMain
  | emptyBranch | emptyLoop => .emptyBlock
  | notACall => .notACall

/-- What may have been meant by a name that is not bound. -/
def hint? : CheckCause → Option String
  | undefinedVariable name visible | undefinedFunction name _ visible =>
    Suggestion.hint? name visible
  | noField _ name fields => Suggestion.hint? name fields
  | noMethod _ name _ methods => Suggestion.hint? name methods
  | unknownType name => Suggestion.hint? name (Ty.named.map Ty.name)
  | _ => none

end CheckCause

/-- A cause and the place of the node it was found at. -/
structure CheckError where
  cause : CheckCause
  place : Place
deriving DecidableEq, Repr

/-- The type of a name. -/
def Ty.resolve (name : String) (place : Place := none) : Except CheckError Ty :=
  match Ty.ofName? name with
  | some t => .ok t
  | none => .error ⟨.unknownType name, place⟩

/-- Go on only if a type may stand where another is asked for. -/
def Ty.require (target actual : Ty) (place : Place := none) : Except CheckError Unit :=
  match target.mismatch? actual with
  | none => .ok ()
  | some reason => .error ⟨.mismatch reason, place⟩

/-- The error as it is reported. -/
def CheckError.fault (source : String) (e : CheckError) : Fault :=
  { stage := .check
    message := e.cause.message
    location := e.place
    sourceLine := e.place.bind (sourceLine? source)
    code := some e.cause.code.text
    hint := e.cause.hint? }

end QuillLang
