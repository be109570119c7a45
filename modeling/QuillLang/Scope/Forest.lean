/-
# Trees of scopes

Scopes are numbered as they are made, and each may name an earlier one as its
parent.  What can be seen from a scope is its chain: the scope itself, its
parent, the parent of that, and so on.
-/
import QuillLang.Scope

namespace QuillLang

/-- A scope and the number of its parent. -/
structure Forest.Node (ν φ : Type) where
  parent : Option Nat
  frame : Frame ν φ

/-- Scopes by number. -/
structure Forest (ν φ : Type) where
  nodes : List (Forest.Node ν φ) := []

namespace Forest

variable {ν φ : Type}

/-- The number of scopes. -/
def size (t : Forest ν φ) : Nat := t.nodes.length

/-- Add a scope; its number is the second part. -/
def add (t : Forest ν φ) (parent : Option Nat) (frame : Frame ν φ) : Forest ν φ × Nat :=
  ({ nodes := t.nodes ++ [⟨parent, frame⟩] }, t.size)

/-- The scope that is meant by a number; a negative one counts back from the latest. -/
def number? (t : Forest ν φ) (i : Int) : Option Nat :=
  let i := if i < 0 then i + t.size else i
  if 0 ≤ i && i < t.size then some i.toNat else none

def frame? (t : Forest ν φ) (i : Nat) : Option (Frame ν φ) := t.nodes[i]?.map (·.frame)

/-- The frames from a scope outward.  A parent always comes before its children. -/
def chain (t : Forest ν φ) (i : Nat) : Chain ν φ :=
  match t.nodes[i]? with
  | none => []
  | some node =>
    node.frame ::
      match node.parent with
      | none => []
      | some j => if j < i then chain t j else []
termination_by i

/-- Put another frame in place of a scope's. -/
def setFrame (t : Forest ν φ) (i : Nat) (f : Frame ν φ) : Forest ν φ :=
  { nodes := t.nodes.modify i fun node => { node with frame := f } }

/-- Define a variable in a scope. -/
def defineVariable (t : Forest ν φ) (i : Nat) (name : String) (v : ν) :
    Except Duplicate (Forest ν φ) :=
  match t.frame? i with
  | none => .ok t
  | some f => (f.defineVariable name v).map (t.setFrame i)

/-- Define a function in a scope. -/
def defineFunction (t : Forest ν φ) (i : Nat) (key : FunctionKey) (g : φ) :
    Except Duplicate (Forest ν φ) :=
  match t.frame? i with
  | none => .ok t
  | some f => (f.defineFunction key g).map (t.setFrame i)

/-- Change the variable that a name means in a scope. -/
def modifyVariable (t : Forest ν φ) (i : Nat) (name : String) (change : ν → ν) : Forest ν φ :=
  match t.nodes[i]? with
  | none => t
  | some node =>
    match node.frame.modifyVariable? name change with
    | some f => t.setFrame i f
    | none =>
      match node.parent with
      | none => t
      | some j => if j < i then modifyVariable t j name change else t
termination_by i

end Forest

end QuillLang
