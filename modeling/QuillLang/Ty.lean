/-
# Types

Nine types have names that a program may write.  An embedding program may add
types of its own, which a program meets but cannot name.

A value of one type may stand where another is asked for in two cases beside
equality: `Any` takes every type, and `Comparable` takes the types whose
values can be ordered.
-/

namespace QuillLang

inductive Ty where
  | nil
  | any
  | boolean
  | integer
  | decimal
  | character
  | string
  | comparable
  | integerIterable
  /-- A type of the embedding program. -/
  | outside (name : String)
deriving DecidableEq, Repr

namespace Ty

/-- The types that a program may name. -/
def named : List Ty :=
  [nil, any, boolean, integer, decimal, character, string, comparable, integerIterable]

def name : Ty → String
  | nil => "Nil"
  | any => "Any"
  | boolean => "Boolean"
  | integer => "Integer"
  | decimal => "Decimal"
  | character => "Character"
  | string => "String"
  | comparable => "Comparable"
  | integerIterable => "IntegerIterable"
  | outside name => name

/-- The name of the type's values on the host. -/
def hostName : Ty → String
  | nil => "None"
  | any => "object"
  | boolean => "bool"
  | integer => "int"
  | decimal => "Decimal"
  | character => "str"
  | string => "str"
  | comparable => "Comparable"
  | integerIterable => "Iterable[int]"
  | outside name => name

/-- The type as it is listed. -/
def describe (t : Ty) : String := "Type(" ++ t.name ++ ")"

/-- The type with a given name. -/
def ofName? (s : String) : Option Ty := named.find? (·.name = s)

/-- Whether values of the type can be ordered. -/
def isComparable : Ty → Bool
  | integer | decimal | character | string | comparable => true
  | nil | any | boolean | integerIterable | outside _ => false

/-- Why a type may not stand where another is asked for. -/
inductive Mismatch where
  | notComparable (actual : Ty)
  | notAssignable (actual target : Ty)
deriving DecidableEq, Repr

def Mismatch.message : Mismatch → String
  | .notComparable actual => "Type " ++ actual.name ++ " is not comparable"
  | .notAssignable actual target =>
    "Type " ++ actual.name ++ " is not assignable to " ++ target.name

/-- The reason why `actual` may not stand where `target` is asked for, if there is one. -/
def mismatch? (target actual : Ty) : Option Mismatch :=
  match target with
  | any => none
  | comparable => if actual.isComparable then none else some (.notComparable actual)
  | target => if actual = target then none else some (.notAssignable actual target)

end Ty

end QuillLang
