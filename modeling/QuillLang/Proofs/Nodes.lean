/-
# The nodes of a program

A statement or an expression belongs to a program if it stands somewhere in
it, at any depth.  The rules go from a node to its parts, so a walk over the
tree carries the fact along.  With a model at hand, the program also tells
which variables it declares and with which types.
-/
import QuillLang.Proofs.Typing

namespace QuillLang

namespace Program

/-- A statement of a program. -/
inductive HasStmt (p : Program Mark) : Stmt Mark → Prop where
  | body {d : Method Mark} {s : Stmt Mark} : d ∈ p.methods → s ∈ d.body → p.HasStmt s
  | thenBody {m : Mark} {c : Expr Mark} {thenBody elseBody : List (Stmt Mark)} {s : Stmt Mark} :
      p.HasStmt (.branch m c thenBody elseBody) → s ∈ thenBody → p.HasStmt s
  | elseBody {m : Mark} {c : Expr Mark} {thenBody elseBody : List (Stmt Mark)} {s : Stmt Mark} :
      p.HasStmt (.branch m c thenBody elseBody) → s ∈ elseBody → p.HasStmt s
  | forBody {m : Mark} {x : String} {e : Expr Mark} {body : List (Stmt Mark)} {s : Stmt Mark} :
      p.HasStmt (.forIn m x e body) → s ∈ body → p.HasStmt s
  | loopBody {m : Mark} {c : Expr Mark} {body : List (Stmt Mark)} {s : Stmt Mark} :
      p.HasStmt (.loop m c body) → s ∈ body → p.HasStmt s

/-- An expression of a program. -/
inductive HasExpr (p : Program Mark) : Expr Mark → Prop where
  | fieldValue {f : Field Mark} {e : Expr Mark} :
      f ∈ p.fields → f.value = some e → p.HasExpr e
  | alone {m : Mark} {e : Expr Mark} : p.HasStmt (.expr m e) → p.HasExpr e
  | initial {m : Mark} {x : String} {t : Option String} {e : Expr Mark} :
      p.HasStmt (.declare m x t (some e)) → p.HasExpr e
  | target {m : Mark} {l e : Expr Mark} : p.HasStmt (.assign m l e) → p.HasExpr l
  | assigned {m : Mark} {l e : Expr Mark} : p.HasStmt (.assign m l e) → p.HasExpr e
  | condition {m : Mark} {c : Expr Mark} {thenBody elseBody : List (Stmt Mark)} :
      p.HasStmt (.branch m c thenBody elseBody) → p.HasExpr c
  | items {m : Mark} {x : String} {e : Expr Mark} {body : List (Stmt Mark)} :
      p.HasStmt (.forIn m x e body) → p.HasExpr e
  | loopCondition {m : Mark} {c : Expr Mark} {body : List (Stmt Mark)} :
      p.HasStmt (.loop m c body) → p.HasExpr c
  | result {m : Mark} {e : Expr Mark} : p.HasStmt (.ret m e) → p.HasExpr e
  | inner {m : Mark} {e : Expr Mark} : p.HasExpr (.group m e) → p.HasExpr e
  | left {m : Mark} {op : Operator} {l r : Expr Mark} :
      p.HasExpr (.binary m op l r) → p.HasExpr l
  | right {m : Mark} {op : Operator} {l r : Expr Mark} :
      p.HasExpr (.binary m op l r) → p.HasExpr r
  | fieldReceiver {m : Mark} {e : Expr Mark} {x : String} :
      p.HasExpr (.field m e x) → p.HasExpr e
  | argument {m : Mark} {f : String} {es : List (Expr Mark)} {e : Expr Mark} :
      p.HasExpr (.call m f es) → e ∈ es → p.HasExpr e
  | receiver {m : Mark} {e : Expr Mark} {f : String} {es : List (Expr Mark)} :
      p.HasExpr (.invoke m e f es) → p.HasExpr e
  | memberArgument {m : Mark} {e a : Expr Mark} {f : String} {es : List (Expr Mark)} :
      p.HasExpr (.invoke m e f es) → a ∈ es → p.HasExpr a

/-- The variables that a program declares, with the types that a model gives them: fields, local
declarations, parameters and loop variables. -/
inductive Declares (p : Program Mark) (M : Model) : Variable → Prop where
  | field {f : Field Mark} {t : Ty} :
      f ∈ p.fields → M.variableOf? f.tag.id = some (.ofNode f.tag.id f.name t) →
      p.Declares M (.ofNode f.tag.id f.name t)
  | here {m : Mark} {x : String} {n : Option String} {e : Option (Expr Mark)} {t : Ty} :
      p.HasStmt (.declare m x n e) → M.variableOf? m.id = some (.ofNode m.id x t) →
      p.Declares M (.ofNode m.id x t)
  | parameter {d : Method Mark} {s : Signature} {x : String} {t : Ty} :
      d ∈ p.methods → M.functionOf? d.tag.id = some s → (x, t) ∈ d.parameters.zip s.parameters →
      p.Declares M (.ofNode d.tag.id x t)
  | loop {m : Mark} {x : String} {e : Expr Mark} {body : List (Stmt Mark)} :
      p.HasStmt (.forIn m x e body) → p.Declares M (.ofNode m.id x .integer)

end Program

end QuillLang
