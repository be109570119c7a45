/-
# The state of checking

Checking walks over a tree with the scopes around the current point, the
facts found so far and the result type of the method it is in.  The state
outlives an error: what was defined and found before stays.
-/
import QuillLang.Check.Error
import QuillLang.Check.Model

namespace QuillLang

structure Checker where
  outside : StaticOutside := {}
  /-- The innermost scope. -/
  scope : StaticFrame
  /-- The scopes around it. -/
  enclosing : Chain Variable Signature
  model : Model := {}
  returnType : Option Ty := none

/-- Why checking stopped: an error of the program, or a second fact for one node. -/
inductive CheckFailure where
  | error (e : CheckError)
  | resolved (node : NodeClass) (slot : Slot)
deriving DecidableEq, Repr

abbrev Check := EStateM CheckFailure Checker

namespace Checker

/-- The scope of a program before any of its declarations. -/
def builtinFrame : StaticFrame := { functions := builtins.map fun s => (s.key, s) }

/-- A checker with nothing declared yet. -/
def start (outside : StaticOutside) : Checker :=
  { outside, scope := builtinFrame, enclosing := outside.frames }

def chain (c : Checker) : Chain Variable Signature := c.scope :: c.enclosing

end Checker

namespace Check

def fail {α : Type} (cause : CheckCause) (place : Place) : Check α :=
  throw (.error ⟨cause, place⟩)

def ofExcept {α : Type} : Except CheckError α → Check α
  | .ok a => pure a
  | .error e => throw (.error e)

/-- Go on only if a type may stand where another is asked for. -/
def require (target actual : Ty) (place : Place) : Check Unit :=
  ofExcept (target.require actual place)

/-- The type of a name. -/
def resolveType (name : String) (place : Place) : Check Ty := ofExcept (Ty.resolve name place)

def resolveTypes (place : Place) : List String → Check (List Ty)
  | [] => pure []
  | name :: names => do
    let t ← resolveType name place
    let ts ← resolveTypes place names
    return t :: ts

/-! ## Facts -/

/-- Note the type of an expression. -/
def noteType (e : Expr Mark) (t : Ty) : Check Ty := do
  let c ← get
  match Model.write? c.model.types ⟨e.tag, e.nodeClass, t⟩ with
  | some types =>
    set { c with model := { c.model with types } }
    return t
  | none => throw (.resolved e.nodeClass .ofType)

/-- Note the variable of a node. -/
def noteVariable (mark : Mark) (node : NodeClass) (v : Variable) : Check Unit := do
  let c ← get
  match Model.write? c.model.vars ⟨mark, node, v⟩ with
  | some vars => set { c with model := { c.model with vars } }
  | none => throw (.resolved node .ofVariable)

/-- Note the function of a node. -/
def noteFunction (mark : Mark) (node : NodeClass) (s : Signature) : Check Unit := do
  let c ← get
  match Model.write? c.model.functions ⟨mark, node, s⟩ with
  | some functions => set { c with model := { c.model with functions } }
  | none => throw (.resolved node .ofFunction)

/-! ## Scopes -/

/-- Define a variable in the innermost scope. -/
def defineVariable (name : String) (type : Ty) (mark : Mark) : Check Variable := do
  let c ← get
  let v : Variable := ⟨name, name, type, .node mark.id⟩
  match c.scope.defineVariable name v with
  | .ok scope =>
    set { c with scope }
    return v
  | .error _ => fail (.duplicateVariable name) mark.place

/-- Define a method in the innermost scope. -/
def defineMethod (s : Signature) (place : Place) : Check Unit := do
  let c ← get
  match c.scope.defineFunction s.key s with
  | .ok scope => set { c with scope }
  | .error _ => fail (.duplicateMethod s.name s.arity) place

/-- Check a block in a scope of its own. -/
def inScope {α : Type} (act : Check α) : Check α := fun c =>
  match act { c with scope := {}, enclosing := c.chain } with
  | .ok a d => .ok a { d with scope := c.scope, enclosing := c.enclosing }
  | .error e d => .error e { d with scope := c.scope, enclosing := c.enclosing }

/-- Check the body of a method with a given result type. -/
def returning {α : Type} (t : Ty) (act : Check α) : Check α := fun c =>
  match act { c with returnType := some t } with
  | .ok a d => .ok a { d with returnType := c.returnType }
  | .error e d => .error e { d with returnType := c.returnType }

end Check

end QuillLang
