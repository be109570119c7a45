/-
# The rules of checking

One rule for every form of expression, statement and declaration.  The first
violation stops the walk.  A function is looked up before its arguments are
checked, and a method is bound before its body, so it may call itself.
-/
import QuillLang.Check.Basic

namespace QuillLang

/-- Integer literals must fit into 32 bits with a sign. -/
def fitsInteger (n : Int) : Bool := -2147483648 ≤ n && n ≤ 2147483647

namespace Check

/-! ## Expressions -/

/-- The type of a binary expression, given those of its operands. -/
def operation (place : Place) (op : Operator) (l r : Ty) (lp rp : Place) : Check Ty :=
  if op.isLogical then do
    require .boolean l lp
    require .boolean r rp
    return .boolean
  else if op.isComparison then do
    require .comparable l lp
    require .comparable r rp
    require l r rp
    return .boolean
  else if op = .add && (l = .string || r = .string) then return .string
  else if l = .integer || l = .decimal then do
    require l r rp
    return l
  else fail (.operand op l) place

mutual

/-- The type of an expression. -/
def expr : Expr Mark → Check Ty
  | .nil m => noteType (.nil m) .nil
  | .boolean m b => noteType (.boolean m b) .boolean
  | .character m s => noteType (.character m s) .character
  | .string m s => noteType (.string m s) .string
  | .integer m n =>
    if fitsInteger n then noteType (.integer m n) .integer else fail (.integerRange n) m.place
  | .decimal m d =>
    if d.overflows then fail (.decimalRange d) m.place else noteType (.decimal m d) .decimal
  | .group m e =>
    if e.isBinary then do
      let t ← expr e
      noteType (.group m e) t
    else fail .groupNotBinary m.place
  | .binary m op l r => do
    let lt ← expr l
    let rt ← expr r
    let t ← operation m.place op lt rt l.tag.place r.tag.place
    noteType (.binary m op l r) t
  | .var m x => do
    let c ← get
    match Chain.findVariable? c.chain x with
    | none => fail (.undefinedVariable x (Chain.visibleNames c.chain)) m.place
    | some v =>
      noteVariable m .access v
      noteType (.var m x) v.type
  | .field m e x => do
    let t ← expr e
    let c ← get
    let members := c.outside.members t
    match members.findVariable? x with
    | none => fail (.noField t x (members.vars.map (·.1))) m.place
    | some v =>
      noteVariable m .access v
      noteType (.field m e x) v.type
  | .call m f es => do
    let c ← get
    match Chain.findFunction? c.chain (f, es.length) with
    | none => fail (.undefinedFunction f es.length (Chain.visibleNames c.chain)) m.place
    | some s =>
      arguments es s.parameters
      noteFunction m .functionCall s
      noteType (.call m f es) s.result
  | .invoke m e f es => do
    let t ← expr e
    let c ← get
    let members := c.outside.members t
    match members.findFunction? (f, es.length + 1) with
    | none => fail (.noMethod t f es.length (members.functions.map (·.1.1))) m.place
    | some s =>
      arguments es s.parameters.tail
      noteFunction m .functionCall s
      noteType (.invoke m e f es) s.result

/-- Arguments against the types of the parameters. -/
def arguments : List (Expr Mark) → List Ty → Check Unit
  | e :: es, t :: ts => do
    let actual ← expr e
    require t actual e.tag.place
    arguments es ts
  | _, _ => pure ()

end

/-! ## Statements -/

/-- The type that a declaration gives its variable: the one it names, else its value's. -/
def declaredType (place : Place) (name : String) (typeName : Option String)
    (value : Option (Expr Mark)) : Check Ty :=
  match typeName, value with
  | some typeName, none => resolveType typeName place
  | some typeName, some e => do
    let declared ← resolveType typeName place
    let actual ← expr e
    require declared actual e.tag.place
    return declared
  | none, some e => expr e
  | none, none => fail (.needsType name) place

/-- A declaration of a variable. -/
def declare (mark : Mark) (node : NodeClass) (name : String) (typeName : Option String)
    (value : Option (Expr Mark)) : Check Unit := do
  let t ← declaredType mark.place name typeName value
  let v ← defineVariable name t mark
  noteVariable mark node v

/-- Whether an expression is a call. -/
def isCall {α : Type} : Expr α → Bool
  | .call .. | .invoke .. => true
  | _ => false

/-- Whether an expression can be assigned to. -/
def isTarget {α : Type} : Expr α → Bool
  | .var .. | .field .. => true
  | _ => false

mutual

def stmt : Stmt Mark → Check Unit
  | .expr m e =>
    if isCall e then do
      let _ ← expr e
      return ()
    else fail .notACall m.place
  | .declare m x t e => declare m .declaration x t e
  | .assign m l e =>
    if isTarget l then do
      let target ← expr l
      let actual ← expr e
      require target actual e.tag.place
    else fail .invalidTarget m.place
  | .branch m c t e => do
    let actual ← expr c
    require .boolean actual c.tag.place
    if t.isEmpty then fail .emptyBranch m.place
    else
      inScope (block t)
      inScope (block e)
  | .forIn m x e b => do
    let actual ← expr e
    if actual = .integerIterable then
      if b.isEmpty then fail .emptyLoop m.place
      else inScope do
        let _ ← defineVariable x .integer m
        block b
    else fail (.notIterable actual) e.tag.place
  | .loop _ c b => do
    let actual ← expr c
    require .boolean actual c.tag.place
    inScope (block b)
  | .ret m e => do
    let c ← get
    match c.returnType with
    | none => fail .returnOutside m.place
    | some t =>
      let actual ← expr e
      match t.mismatch? actual with
      | none => return ()
      | some reason => fail (.invalidReturn reason) e.tag.place

def block : List (Stmt Mark) → Check Unit
  | [] => pure ()
  | s :: ss => do
    stmt s
    block ss

end

/-! ## Declarations -/

def field (f : Field Mark) : Check Unit := declare f.tag .field f.name f.typeName f.value

/-- The result type that a method names, else `Nil`. -/
def resultType (place : Place) : Option String → Check Ty
  | some name => resolveType name place
  | none => pure .nil

/-- Define the parameters of a method. -/
def parameters (mark : Mark) : List (String × Ty) → Check Unit
  | [] => pure ()
  | (x, t) :: ps => do
    let _ ← defineVariable x t mark
    parameters mark ps

def method (m : Method Mark) : Check Unit := do
  let result ← resultType m.tag.place m.returnType
  let types ← resolveTypes m.tag.place m.parameterTypes
  let s : Signature := ⟨m.name, m.name, types, result, .node m.tag.id⟩
  defineMethod s m.tag.place
  noteFunction m.tag .method s
  returning result <| inScope do
    parameters m.tag (m.parameters.zip types)
    block m.body

def fields : List (Field Mark) → Check Unit
  | [] => pure ()
  | f :: fs => do
    field f
    fields fs

def methods : List (Method Mark) → Check Unit
  | [] => pure ()
  | m :: ms => do
    method m
    methods ms

/-- The place of the program's own `main`, else that of the program. -/
def mainPlace (p : Program Mark) : Place :=
  match p.methods.find? fun m => m.name = "main" && m.parameters.isEmpty with
  | some m => m.tag.place
  | none => p.tag.place

/-- A program: its fields, its methods, and a `main` that takes nothing and gives an integer. -/
def program (p : Program Mark) : Check Unit := do
  fields p.fields
  methods p.methods
  let c ← get
  match Chain.findFunction? c.chain ("main", 0) with
  | none => fail .missingMain none
  | some s => require .integer s.result (mainPlace p)

end Check

/-! ## Entry points -/

namespace Checker

/-- Run a check and keep the state it leaves. -/
def run {α : Type} (c : Checker) (act : Check α) : Except CheckFailure α × Checker :=
  match act c with
  | .ok a c => (.ok a, c)
  | .error e c => (.error e, c)

/-- Check a program from a fresh start. -/
def check (c : Checker) (p : Program Mark) : Except CheckFailure Model × Checker :=
  match Check.program p (start c.outside) with
  | .ok () c => (.ok c.model, c)
  | .error e c => (.error e, c)

end Checker

end QuillLang
