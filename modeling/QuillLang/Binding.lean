/-
# Bindings

What a name is bound to before a program runs: a variable with its type, or a
function with the types of its parameters and its result.  A binding knows
where it comes from.
-/
import QuillLang.Scope
import QuillLang.Ty

namespace QuillLang

/-- Where a binding was made: at a node of the program, in the language itself, or outside. -/
inductive Origin where
  | node (id : Nat)
  | builtin
  | outside
deriving DecidableEq, Repr

structure Variable where
  name : String
  /-- The name of the variable on the host. -/
  runtimeName : String
  type : Ty
  origin : Origin
deriving DecidableEq, Repr

structure Signature where
  name : String
  /-- The name of the function on the host. -/
  runtimeName : String
  parameters : List Ty
  result : Ty
  origin : Origin
deriving DecidableEq, Repr

/-- Texts with a comma and a blank between them. -/
def commaSeparated (texts : List String) : String := ", ".intercalate texts

def Variable.describe (v : Variable) : String := "Variable(" ++ v.name ++ ": " ++ v.type.name ++ ")"

namespace Signature

def arity (s : Signature) : Nat := s.parameters.length

def key (s : Signature) : FunctionKey := (s.name, s.arity)

def describe (s : Signature) : String :=
  "Function(" ++ s.name ++ "(" ++ commaSeparated (s.parameters.map Ty.name) ++ "): " ++
    s.result.name ++ ")"

end Signature

/-- One level of scope before a program runs. -/
abbrev StaticFrame := Frame Variable Signature

/-- The one function of the language itself. -/
def printSignature : Signature := ⟨"print", "builtins.print", [.any], .nil, .builtin⟩

def sliceSignature : Signature :=
  ⟨"slice", "slice", [.string, .integer, .integer], .string, .builtin⟩

def lengthSignature : Signature := ⟨"length", "len", [.string], .integer, .builtin⟩

/-- The functions of the language itself. -/
def builtins : List Signature := [printSignature]

/-- The methods of strings; the first parameter is the receiver. -/
def stringMembers : StaticFrame :=
  { functions := [sliceSignature, lengthSignature].map fun s => (s.key, s) }

/-- What an embedding program makes visible before a program runs: frames around the program,
and the members of its own types. -/
structure StaticOutside where
  frames : Chain Variable Signature := []
  types : List (String × StaticFrame) := []

/-- The fields and methods of a type. -/
def StaticOutside.members (o : StaticOutside) : Ty → StaticFrame
  | .string => stringMembers
  | .outside name => (o.types.lookup name).getD {}
  | _ => {}

end QuillLang
