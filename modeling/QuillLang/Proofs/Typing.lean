/-
# Typing rules

What it means for a tree to be well typed, given as rules and apart from the
walk over the tree that finds it out.  The rules read two things besides the
tree: what an embedding program lends (`o`), and a model (`M`), which must hold
the fact that each rule establishes about its node.  Nothing is written.

A chain of scopes stands to the left of an expression.  A statement has the
innermost scope and the chain around it apart, since it may add to the
innermost one; the scope after it stands to its right.
-/
import QuillLang.Check.Rules
import Mathlib.Data.List.Forall2

namespace QuillLang

/-- The variable that a node declares. -/
def Variable.ofNode (id : Nat) (name : String) (type : Ty) : Variable :=
  ⟨name, name, type, .node id⟩

/-- The signature of a method whose type names are resolved. -/
def Method.signature (d : Method Mark) (types : List Ty) (result : Ty) : Signature :=
  ⟨d.name, d.name, types, result, .node d.tag.id⟩

/-- The result type that a method names, else `Nil`. -/
def resultType? : Option String → Option Ty
  | none => some .nil
  | some name => Ty.ofName? name

/-- The type of a binary expression with operands of given types. -/
inductive Operator.Combines : Operator → Ty → Ty → Ty → Prop where
  | logical {op : Operator} :
      op.isLogical = true → Combines op .boolean .boolean .boolean
  | comparison {op : Operator} {l r : Ty} :
      op.isComparison = true → l.isComparable = true → r.isComparable = true →
      l.mismatch? r = none → Combines op l r .boolean
  | text {l r : Ty} : l = .string ∨ r = .string → Combines .add l r .string
  | arithmetic {op : Operator} {t : Ty} :
      op.isLogical = false → op.isComparison = false → t = .integer ∨ t = .decimal →
      Combines op t t t

/-! ## Expressions

One rule for each form of expression.  What is left over of arguments or parameters is not looked
at here, since a function is only found with the right number of both. -/

mutual

/-- An expression has a type in a chain of scopes. -/
inductive HasType (o : StaticOutside) (M : Model) (Γ : Chain Variable Signature) :
    Expr Mark → Ty → Prop where
  | nil {m : Mark} : M.typeOf? m.id = some .nil → HasType o M Γ (.nil m) .nil
  | boolean {m : Mark} {b : Bool} :
      M.typeOf? m.id = some .boolean → HasType o M Γ (.boolean m b) .boolean
  | character {m : Mark} {s : String} :
      M.typeOf? m.id = some .character → HasType o M Γ (.character m s) .character
  | string {m : Mark} {s : String} :
      M.typeOf? m.id = some .string → HasType o M Γ (.string m s) .string
  | integer {m : Mark} {n : Int} :
      fitsInteger n = true → M.typeOf? m.id = some .integer →
      HasType o M Γ (.integer m n) .integer
  | decimal {m : Mark} {d : Decimal} :
      d.overflows = false → M.typeOf? m.id = some .decimal →
      HasType o M Γ (.decimal m d) .decimal
  | group {m : Mark} {e : Expr Mark} {t : Ty} :
      e.isBinary = true → HasType o M Γ e t → M.typeOf? m.id = some t →
      HasType o M Γ (.group m e) t
  | binary {m : Mark} {op : Operator} {l r : Expr Mark} {lt rt t : Ty} :
      HasType o M Γ l lt → HasType o M Γ r rt → op.Combines lt rt t →
      M.typeOf? m.id = some t → HasType o M Γ (.binary m op l r) t
  | var {m : Mark} {x : String} {v : Variable} :
      Chain.findVariable? Γ x = some v → M.variableOf? m.id = some v →
      M.typeOf? m.id = some v.type → HasType o M Γ (.var m x) v.type
  | field {m : Mark} {e : Expr Mark} {x : String} {t : Ty} {v : Variable} :
      HasType o M Γ e t → (o.members t).findVariable? x = some v →
      M.variableOf? m.id = some v → M.typeOf? m.id = some v.type →
      HasType o M Γ (.field m e x) v.type
  | call {m : Mark} {f : String} {es : List (Expr Mark)} {s : Signature} :
      Chain.findFunction? Γ (f, es.length) = some s → TakesArguments o M Γ es s.parameters →
      M.functionOf? m.id = some s → M.typeOf? m.id = some s.result →
      HasType o M Γ (.call m f es) s.result
  | invoke {m : Mark} {e : Expr Mark} {f : String} {es : List (Expr Mark)} {t : Ty}
      {s : Signature} :
      HasType o M Γ e t → (o.members t).findFunction? (f, es.length + 1) = some s →
      TakesArguments o M Γ es s.parameters.tail → M.functionOf? m.id = some s →
      M.typeOf? m.id = some s.result → HasType o M Γ (.invoke m e f es) s.result

/-- Arguments may stand for parameters of given types.  What is left over on one side is not
looked at. -/
inductive TakesArguments (o : StaticOutside) (M : Model) (Γ : Chain Variable Signature) :
    List (Expr Mark) → List Ty → Prop where
  | noArgument {ts : List Ty} : TakesArguments o M Γ [] ts
  | noParameter {es : List (Expr Mark)} : TakesArguments o M Γ es []
  | more {e : Expr Mark} {es : List (Expr Mark)} {t actual : Ty} {ts : List Ty} :
      HasType o M Γ e actual → t.mismatch? actual = none → TakesArguments o M Γ es ts →
      TakesArguments o M Γ (e :: es) (t :: ts)

end

theorem HasType.typeOf {o : StaticOutside} {M : Model} {Γ : Chain Variable Signature}
    {e : Expr Mark} {t : Ty} (h : HasType o M Γ e t) : M.typeOf? e.tag.id = some t := by
  cases h <;> assumption

/-- The type that a declaration gives its variable: the one it names, else its value's. -/
inductive DeclaresType (o : StaticOutside) (M : Model) (Γ : Chain Variable Signature) :
    Option String → Option (Expr Mark) → Ty → Prop where
  | named {name : String} {t : Ty} :
      Ty.ofName? name = some t → DeclaresType o M Γ (some name) none t
  | both {name : String} {e : Expr Mark} {t actual : Ty} :
      Ty.ofName? name = some t → HasType o M Γ e actual → t.mismatch? actual = none →
      DeclaresType o M Γ (some name) (some e) t
  | inferred {e : Expr Mark} {t : Ty} :
      HasType o M Γ e t → DeclaresType o M Γ none (some e) t

/-! ## Statements

A declaration is the only statement after which the scope is another one.  The bodies of loops and
branches begin with a scope of their own, which is dropped at their end. -/

mutual

/-- A statement is well typed in a method of a given result type, if any. -/
inductive StmtOk (o : StaticOutside) (M : Model) (ret : Option Ty) :
    StaticFrame → Chain Variable Signature → Stmt Mark → StaticFrame → Prop where
  | expr {f : StaticFrame} {Γ : Chain Variable Signature} {m : Mark} {e : Expr Mark} {t : Ty} :
      Check.isCall e = true → HasType o M (f :: Γ) e t → StmtOk o M ret f Γ (.expr m e) f
  | declare {f g : StaticFrame} {Γ : Chain Variable Signature} {m : Mark} {x : String}
      {typeName : Option String} {value : Option (Expr Mark)} {t : Ty} :
      DeclaresType o M (f :: Γ) typeName value t →
      f.defineVariable x (.ofNode m.id x t) = .ok g →
      M.variableOf? m.id = some (.ofNode m.id x t) →
      StmtOk o M ret f Γ (.declare m x typeName value) g
  | assign {f : StaticFrame} {Γ : Chain Variable Signature} {m : Mark} {l e : Expr Mark}
      {target actual : Ty} :
      Check.isTarget l = true → HasType o M (f :: Γ) l target → HasType o M (f :: Γ) e actual →
      target.mismatch? actual = none → StmtOk o M ret f Γ (.assign m l e) f
  | branch {f g h : StaticFrame} {Γ : Chain Variable Signature} {m : Mark} {c : Expr Mark}
      {thenBody elseBody : List (Stmt Mark)} :
      HasType o M (f :: Γ) c .boolean → thenBody ≠ [] →
      BlockOk o M ret {} (f :: Γ) thenBody g → BlockOk o M ret {} (f :: Γ) elseBody h →
      StmtOk o M ret f Γ (.branch m c thenBody elseBody) f
  | forIn {f g : StaticFrame} {Γ : Chain Variable Signature} {m : Mark} {x : String}
      {e : Expr Mark} {body : List (Stmt Mark)} :
      HasType o M (f :: Γ) e .integerIterable → body ≠ [] →
      BlockOk o M ret { vars := [(x, .ofNode m.id x .integer)] } (f :: Γ) body g →
      StmtOk o M ret f Γ (.forIn m x e body) f
  | loop {f g : StaticFrame} {Γ : Chain Variable Signature} {m : Mark} {c : Expr Mark}
      {body : List (Stmt Mark)} :
      HasType o M (f :: Γ) c .boolean → BlockOk o M ret {} (f :: Γ) body g →
      StmtOk o M ret f Γ (.loop m c body) f
  | ret {f : StaticFrame} {Γ : Chain Variable Signature} {m : Mark} {e : Expr Mark}
      {t actual : Ty} :
      ret = some t → HasType o M (f :: Γ) e actual → t.mismatch? actual = none →
      StmtOk o M ret f Γ (.ret m e) f

/-- The statements of a block are well typed one after the other. -/
inductive BlockOk (o : StaticOutside) (M : Model) (ret : Option Ty) :
    StaticFrame → Chain Variable Signature → List (Stmt Mark) → StaticFrame → Prop where
  | nil {f : StaticFrame} {Γ : Chain Variable Signature} : BlockOk o M ret f Γ [] f
  | cons {f g h : StaticFrame} {Γ : Chain Variable Signature} {s : Stmt Mark}
      {ss : List (Stmt Mark)} :
      StmtOk o M ret f Γ s g → BlockOk o M ret g Γ ss h → BlockOk o M ret f Γ (s :: ss) h

end

/-! ## Declarations

A method is bound before its body is typed, and the methods after it are not. -/

/-- The scope of a method's parameters. -/
def parameterFrame (id : Nat) : List (String × Ty) → StaticFrame → Except Duplicate StaticFrame
  | [], f => .ok f
  | (x, t) :: ps, f =>
    match f.defineVariable x (.ofNode id x t) with
    | .ok g => parameterFrame id ps g
    | .error key => .error key

inductive FieldsOk (o : StaticOutside) (M : Model) :
    StaticFrame → List (Field Mark) → StaticFrame → Prop where
  | nil {f : StaticFrame} : FieldsOk o M f [] f
  | cons {f g h : StaticFrame} {d : Field Mark} {ds : List (Field Mark)} {t : Ty} :
      DeclaresType o M (f :: o.frames) d.typeName d.value t →
      f.defineVariable d.name (.ofNode d.tag.id d.name t) = .ok g →
      M.variableOf? d.tag.id = some (.ofNode d.tag.id d.name t) →
      FieldsOk o M g ds h → FieldsOk o M f (d :: ds) h

/-- A method is well typed: `f` is the scope before it and `g` the scope with it, in which its
body is checked. -/
structure MethodOk (o : StaticOutside) (M : Model) (f : StaticFrame) (d : Method Mark)
    (types : List Ty) (result : Ty) (g : StaticFrame) : Prop where
  resolvesResult : resultType? d.returnType = some result
  resolvesTypes : List.Forall₂ (fun name t => Ty.ofName? name = some t) d.parameterTypes types
  bound : f.defineFunction (d.signature types result).key (d.signature types result) = .ok g
  noted : M.functionOf? d.tag.id = some (d.signature types result)
  body : ∃ inner last, parameterFrame d.tag.id (d.parameters.zip types) {} = .ok inner ∧
    BlockOk o M (some result) inner (g :: o.frames) d.body last

inductive MethodsOk (o : StaticOutside) (M : Model) :
    StaticFrame → List (Method Mark) → StaticFrame → Prop where
  | nil {f : StaticFrame} : MethodsOk o M f [] f
  | cons {f g h : StaticFrame} {d : Method Mark} {ds : List (Method Mark)} {types : List Ty}
      {result : Ty} :
      MethodOk o M f d types result g → MethodsOk o M g ds h → MethodsOk o M f (d :: ds) h

/-- A program is well typed: its fields, then its methods, and a `main` that gives an integer. -/
structure ProgramOk (o : StaticOutside) (M : Model) (p : Program Mark) (f g : StaticFrame) :
    Prop where
  fields : FieldsOk o M Checker.builtinFrame p.fields f
  methods : MethodsOk o M f p.methods g
  main : ∃ s, Chain.findFunction? (g :: o.frames) ("main", 0) = some s ∧ s.result = .integer

end QuillLang
