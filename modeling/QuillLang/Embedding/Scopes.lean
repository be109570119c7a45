/-
# Scopes of an embedding program

An embedding program builds the scopes it lends by hand.  The functions it
defines give a constant or hand back their last argument.
-/
import QuillLang.Embedding
import QuillLang.Scope.Forest

namespace QuillLang

/-- Scopes with values in them. -/
abbrev Scopes := Forest Cell Function

/-- The function that gives one value whatever its arguments. -/
def Native.constant (v : Value) : Native := fun _ records => (.ok v, records)

/-- The function that gives its last argument. -/
def Native.last : Native := fun args records =>
  match args.getLast? with
  | some v => (.ok v, records)
  | none => (.error .missingArgument, records)

/-- A variable under a name of its own on the host. -/
structure NewVariable where
  name : String
  runtimeName : String := name
  type : Ty
  value : Value

/-- A function with its types, and what it gives if that is a constant. -/
structure NewFunction where
  name : String
  runtimeName : String := name
  parameters : List Ty
  result : Ty
  constant : Option Value := none

namespace Scopes

/-- The scope of a program before it is checked: printing does nothing yet. -/
def analysisFrame : RunFrame :=
  { functions :=
      [(printSignature.key,
        { toSignature := printSignature, body := .native (Native.constant .nil) })] }

/-- Define a variable in a scope. -/
def define (t : Scopes) (i : Nat) (x : NewVariable) : Except Duplicate (Variable × Scopes) := do
  let v : Variable := ⟨x.name, x.runtimeName, x.type, .outside⟩
  let t ← t.defineVariable i x.name { toVariable := v, value := x.value }
  return (v, t)

/-- Define a function in a scope. -/
def defineNew (t : Scopes) (i : Nat) (f : NewFunction) :
    Except Duplicate (Signature × Scopes) := do
  let s : Signature := ⟨f.name, f.runtimeName, f.parameters, f.result, .outside⟩
  let native := match f.constant with
    | some v => Native.constant v
    | none => Native.last
  let t ← t.defineFunction i s.key { toSignature := s, body := .native native }
  return (s, t)

/-- The variable that a name means in a scope. -/
def cell? (t : Scopes) (i : Nat) (name : String) : Option Cell :=
  Chain.findVariable? (t.chain i) name

/-- Give the variable that a name means a value. -/
def assign (t : Scopes) (i : Nat) (name : String) (v : Value) : Scopes :=
  t.modifyVariable i name fun c => { c with value := v }

/-- The function of a name and a number of arguments in a scope. -/
def findFunction? (t : Scopes) (i : Nat) (key : FunctionKey) : Option Function :=
  Chain.findFunction? (t.chain i) key

/-- Whether a name is bound to a variable in the scope itself. -/
def hasVariable (t : Scopes) (i : Nat) (name : String) : Bool :=
  ((t.frame? i).bind (·.findVariable? name)).isSome

/-- Whether a name is bound to a function in the scope itself. -/
def hasFunction (t : Scopes) (i : Nat) (key : FunctionKey) : Bool :=
  ((t.frame? i).bind (·.findFunction? key)).isSome

end Scopes

end QuillLang
