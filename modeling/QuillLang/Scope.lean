/-
# Scopes

A frame is one level of scope.  It holds variables by name and functions by
name and number of parameters, each in the order of their definition; the two
do not interfere.  A chain lists frames from the innermost outward, and the
first frame that has a key decides.
-/

namespace QuillLang

/-- Functions are told apart by name and number of parameters. -/
abbrev FunctionKey := String × Nat

/-- One level of scope. -/
structure Frame (ν φ : Type) where
  vars : List (String × ν) := []
  functions : List (FunctionKey × φ) := []

/-- A key that a frame has already. -/
inductive Duplicate where
  | ofVariable (name : String)
  | ofFunction (key : FunctionKey)
deriving DecidableEq, Repr

def Duplicate.message : Duplicate → String
  | .ofVariable name => "Variable '" ++ name ++ "' is already defined in this scope"
  | .ofFunction key =>
    "Function '" ++ key.1 ++ "/" ++ Nat.repr key.2 ++ "' is already defined in this scope"

namespace Frame

variable {ν φ : Type}

def findVariable? (f : Frame ν φ) (name : String) : Option ν := f.vars.lookup name

def findFunction? (f : Frame ν φ) (key : FunctionKey) : Option φ := f.functions.lookup key

/-- Define a variable, unless the frame has one of that name. -/
def defineVariable (f : Frame ν φ) (name : String) (v : ν) : Except Duplicate (Frame ν φ) :=
  match f.findVariable? name with
  | some _ => .error (.ofVariable name)
  | none => .ok { f with vars := f.vars ++ [(name, v)] }

/-- Define a function, unless the frame has one of that key. -/
def defineFunction (f : Frame ν φ) (key : FunctionKey) (g : φ) : Except Duplicate (Frame ν φ) :=
  match f.findFunction? key with
  | some _ => .error (.ofFunction key)
  | none => .ok { f with functions := f.functions ++ [(key, g)] }

/-- Change the variable of a name, if the frame has it. -/
def modifyVariable? (f : Frame ν φ) (name : String) (change : ν → ν) : Option (Frame ν φ) :=
  match f.findVariable? name with
  | none => none
  | some _ =>
    some { f with vars := f.vars.map fun (x, v) => (x, if x = name then change v else v) }

/-- The names of variables, then of functions. -/
def names (f : Frame ν φ) : List String := f.vars.map (·.1) ++ f.functions.map (·.1.1)

end Frame

/-- Frames from the innermost outward. -/
abbrev Chain (ν φ : Type) := List (Frame ν φ)

namespace Chain

variable {ν φ : Type}

/-- The variable of a name in the innermost frame that has one. -/
def findVariable? (c : Chain ν φ) (name : String) : Option ν := c.findSome? (·.findVariable? name)

/-- The function of a key in the innermost frame that has one. -/
def findFunction? (c : Chain ν φ) (key : FunctionKey) : Option φ :=
  c.findSome? (·.findFunction? key)

/-- Change the variable of a name in the innermost frame that has one. -/
def modifyVariable? (c : Chain ν φ) (name : String) (change : ν → ν) : Option (Chain ν φ) :=
  match c with
  | [] => none
  | f :: fs =>
    match f.modifyVariable? name change with
    | some f => some (f :: fs)
    | none => (modifyVariable? fs name change).map (f :: ·)

/-- Every name that can be seen, each once, from the innermost frame outward. -/
def visibleNames (c : Chain ν φ) : List String := (c.flatMap Frame.names).eraseDups

end Chain

end QuillLang
