/-
# The model of a program

What checking finds out about the nodes of a tree is kept beside it, by the
number of the node: the type of each expression, the variable of each access
and declaration, the function of each call and method.  A fact is written
once; a second one for the same node is refused.
-/
import QuillLang.Binding
import QuillLang.Tree

namespace QuillLang

/-- The kinds of fact. -/
inductive Slot where
  | ofType
  | ofVariable
  | ofFunction
deriving DecidableEq, Repr

def Slot.name : Slot → String
  | .ofType => "type"
  | .ofVariable => "variable"
  | .ofFunction => "function"

/-- A fact about a node. -/
structure Entry (β : Type) where
  mark : Mark
  node : NodeClass
  fact : β
deriving Repr

/-- The facts about a tree, the latest first. -/
structure Model where
  types : List (Entry Ty) := []
  vars : List (Entry Variable) := []
  functions : List (Entry Signature) := []

namespace Model

/-- The fact about a node in a list of facts. -/
def fact? {β : Type} (entries : List (Entry β)) (id : Nat) : Option β :=
  (entries.find? (·.mark.id = id)).map (·.fact)

def typeOf? (m : Model) (id : Nat) : Option Ty := fact? m.types id

def variableOf? (m : Model) (id : Nat) : Option Variable := fact? m.vars id

def functionOf? (m : Model) (id : Nat) : Option Signature := fact? m.functions id

/-- The number of facts. -/
def size (m : Model) : Nat := m.types.length + m.vars.length + m.functions.length

/-- One more fact, unless the node has one already. -/
def write? {β : Type} (entries : List (Entry β)) (e : Entry β) : Option (List (Entry β)) :=
  if (fact? entries e.mark.id).isSome then none else some (e :: entries)

end Model

end QuillLang
