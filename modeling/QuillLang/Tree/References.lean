/-
# Uses of names

The variables, fields, functions and methods that a tree refers to, each use
before those in its receiver and its arguments.
-/
import QuillLang.Tree

namespace QuillLang

/-- What a name is used for. -/
inductive Use where
  | var
  | field
  | function
  | method
deriving DecidableEq, Repr

/-- Whether the name is one of a receiver's. -/
def Use.isMember : Use → Bool
  | .field | .method => true
  | .var | .function => false

/-- A use of a name. -/
structure Reference (α : Type) where
  tag : α
  use : Use
  name : String
deriving Repr

/-- The class of the node that uses the name. -/
def Reference.nodeClass {α : Type} (r : Reference α) : NodeClass :=
  match r.use with
  | .var | .field => .access
  | .function | .method => .functionCall

variable {α : Type}

mutual

def Expr.references : Expr α → List (Reference α)
  | .nil _ | .boolean _ _ | .character _ _ | .string _ _ | .integer _ _ | .decimal _ _ => []
  | .group _ e => e.references
  | .binary _ _ l r => l.references ++ r.references
  | .var t x => [⟨t, .var, x⟩]
  | .field t e x => ⟨t, .field, x⟩ :: e.references
  | .call t f es => ⟨t, .function, f⟩ :: Expr.referencesAll es
  | .invoke t e f es => ⟨t, .method, f⟩ :: (e.references ++ Expr.referencesAll es)

def Expr.referencesAll : List (Expr α) → List (Reference α)
  | [] => []
  | e :: es => e.references ++ Expr.referencesAll es

end

def Expr.references? : Option (Expr α) → List (Reference α)
  | none => []
  | some e => e.references

mutual

def Stmt.references : Stmt α → List (Reference α)
  | .expr _ e => e.references
  | .declare _ _ _ e => Expr.references? e
  | .assign _ l e => l.references ++ e.references
  | .branch _ c t e => c.references ++ Stmt.referencesAll t ++ Stmt.referencesAll e
  | .forIn _ _ e b => e.references ++ Stmt.referencesAll b
  | .loop _ c b => c.references ++ Stmt.referencesAll b
  | .ret _ e => e.references

def Stmt.referencesAll : List (Stmt α) → List (Reference α)
  | [] => []
  | s :: ss => s.references ++ Stmt.referencesAll ss

end

def Field.references (f : Field α) : List (Reference α) := Expr.references? f.value

def Method.references (m : Method α) : List (Reference α) := Stmt.referencesAll m.body

def Program.references (p : Program α) : List (Reference α) :=
  p.fields.flatMap Field.references ++ p.methods.flatMap Method.references

end QuillLang
