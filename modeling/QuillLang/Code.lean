/-
# Fault codes

Every kind of fault has a code of the form `Edddd`.  The hundreds tell the
family: 01 types and names, 02 tokens and syntax, 03 program structure,
04 evaluation.
-/

namespace QuillLang

/-- What a fault code stands for. -/
inductive Code where
  | typeMismatch
  | undefinedVariable
  | undefinedFunction
  | incompatibleOperands
  | invalidTarget
  | notIterable
  | memberNotFound
  | returnMismatch
  | redefinition
  | literalRange
  | unknownType
  | unexpectedToken
  | unterminatedLiteral
  | unexpectedCharacter
  | invalidEscape
  | returnOutside
  | missingMain
  | emptyBlock
  | notACall
  | kindMismatch
  | divideByZero
  | argumentCount
  | unresolvedMember
deriving DecidableEq, Repr

namespace Code

/-- All codes, in the order of their texts. -/
def all : List Code :=
  [typeMismatch, undefinedVariable, undefinedFunction, incompatibleOperands, invalidTarget,
    notIterable, memberNotFound, returnMismatch, redefinition, literalRange, unknownType,
    unexpectedToken, unterminatedLiteral, unexpectedCharacter, invalidEscape, returnOutside,
    missingMain, emptyBlock, notACall, kindMismatch, divideByZero, argumentCount,
    unresolvedMember]

/-- The code as it is printed. -/
def text : Code → String
  | typeMismatch => "E0101"
  | undefinedVariable => "E0102"
  | undefinedFunction => "E0103"
  | incompatibleOperands => "E0105"
  | invalidTarget => "E0106"
  | notIterable => "E0109"
  | memberNotFound => "E0110"
  | returnMismatch => "E0111"
  | redefinition => "E0112"
  | literalRange => "E0113"
  | unknownType => "E0114"
  | unexpectedToken => "E0201"
  | unterminatedLiteral => "E0206"
  | unexpectedCharacter => "E0208"
  | invalidEscape => "E0209"
  | returnOutside => "E0302"
  | missingMain => "E0309"
  | emptyBlock => "E0310"
  | notACall => "E0311"
  | kindMismatch => "E0401"
  | divideByZero => "E0402"
  | argumentCount => "E0403"
  | unresolvedMember => "E0404"

/-- The code in words. -/
def description : Code → String
  | typeMismatch => "type mismatch"
  | undefinedVariable => "undefined variable"
  | undefinedFunction => "undefined function"
  | incompatibleOperands => "incompatible types in operation"
  | invalidTarget => "invalid assignment target"
  | notIterable => "not iterable"
  | memberNotFound => "member not found"
  | returnMismatch => "return type mismatch"
  | redefinition => "redefinition"
  | literalRange => "literal out of range"
  | unknownType => "unknown type"
  | unexpectedToken => "unexpected token"
  | unterminatedLiteral => "unterminated literal"
  | unexpectedCharacter => "unexpected character"
  | invalidEscape => "invalid escape sequence"
  | returnOutside => "return outside method"
  | missingMain => "missing main"
  | emptyBlock => "empty block"
  | notACall => "expression statement is not a call"
  | kindMismatch => "runtime type mismatch"
  | divideByZero => "divide by zero"
  | argumentCount => "wrong number of arguments"
  | unresolvedMember => "unresolved member"

end Code

end QuillLang
