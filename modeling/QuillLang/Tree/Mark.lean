/-
# Numbering the nodes of a tree

Every node of a tree gets the next free number, a parent before its children
and the children in the order they are read, so the nodes of a subtree hold an
interval of numbers and no number is used twice.
-/
import QuillLang.Tree

namespace QuillLang

mutual

/-- Number an expression from `n` on; the second part is the next free number. -/
def Expr.mark : Expr Place → (n : Nat) → Expr Mark × Nat
  | .nil p, n => (.nil ⟨n, p⟩, n + 1)
  | .boolean p b, n => (.boolean ⟨n, p⟩ b, n + 1)
  | .character p s, n => (.character ⟨n, p⟩ s, n + 1)
  | .string p s, n => (.string ⟨n, p⟩ s, n + 1)
  | .integer p i, n => (.integer ⟨n, p⟩ i, n + 1)
  | .decimal p d, n => (.decimal ⟨n, p⟩ d, n + 1)
  | .group p e, n =>
    let (e, k) := e.mark (n + 1)
    (.group ⟨n, p⟩ e, k)
  | .binary p op l r, n =>
    let (l, k) := l.mark (n + 1)
    let (r, k) := r.mark k
    (.binary ⟨n, p⟩ op l r, k)
  | .var p x, n => (.var ⟨n, p⟩ x, n + 1)
  | .field p e x, n =>
    let (e, k) := e.mark (n + 1)
    (.field ⟨n, p⟩ e x, k)
  | .call p f args, n =>
    let (args, k) := Expr.markAll args (n + 1)
    (.call ⟨n, p⟩ f args, k)
  | .invoke p e f args, n =>
    let (e, k) := e.mark (n + 1)
    let (args, k) := Expr.markAll args k
    (.invoke ⟨n, p⟩ e f args, k)

/-- Number expressions one after the other. -/
def Expr.markAll : List (Expr Place) → (n : Nat) → List (Expr Mark) × Nat
  | [], n => ([], n)
  | e :: es, n =>
    let (e, k) := e.mark n
    let (es, k) := Expr.markAll es k
    (e :: es, k)

end

/-- Number an expression that may be missing. -/
def Expr.mark? : Option (Expr Place) → (n : Nat) → Option (Expr Mark) × Nat
  | none, n => (none, n)
  | some e, n =>
    let (e, k) := e.mark n
    (some e, k)

mutual

/-- Number a statement. -/
def Stmt.mark : Stmt Place → (n : Nat) → Stmt Mark × Nat
  | .expr p e, n =>
    let (e, k) := e.mark (n + 1)
    (.expr ⟨n, p⟩ e, k)
  | .declare p x t e, n =>
    let (e, k) := Expr.mark? e (n + 1)
    (.declare ⟨n, p⟩ x t e, k)
  | .assign p l e, n =>
    let (l, k) := l.mark (n + 1)
    let (e, k) := e.mark k
    (.assign ⟨n, p⟩ l e, k)
  | .branch p c t e, n =>
    let (c, k) := c.mark (n + 1)
    let (t, k) := Stmt.markAll t k
    let (e, k) := Stmt.markAll e k
    (.branch ⟨n, p⟩ c t e, k)
  | .forIn p x e b, n =>
    let (e, k) := e.mark (n + 1)
    let (b, k) := Stmt.markAll b k
    (.forIn ⟨n, p⟩ x e b, k)
  | .loop p c b, n =>
    let (c, k) := c.mark (n + 1)
    let (b, k) := Stmt.markAll b k
    (.loop ⟨n, p⟩ c b, k)
  | .ret p e, n =>
    let (e, k) := e.mark (n + 1)
    (.ret ⟨n, p⟩ e, k)

/-- Number statements one after the other. -/
def Stmt.markAll : List (Stmt Place) → (n : Nat) → List (Stmt Mark) × Nat
  | [], n => ([], n)
  | s :: ss, n =>
    let (s, k) := s.mark n
    let (ss, k) := Stmt.markAll ss k
    (s :: ss, k)

end

def Field.mark (f : Field Place) (n : Nat) : Field Mark × Nat :=
  let (e, k) := Expr.mark? f.value (n + 1)
  (⟨⟨n, f.tag⟩, f.name, f.typeName, e⟩, k)

def Method.mark (m : Method Place) (n : Nat) : Method Mark × Nat :=
  let (body, k) := Stmt.markAll m.body (n + 1)
  (⟨⟨n, m.tag⟩, m.name, m.parameters, m.parameterTypes, m.returnType, body⟩, k)

def Field.markAll : List (Field Place) → (n : Nat) → List (Field Mark) × Nat
  | [], n => ([], n)
  | f :: fs, n =>
    let (f, k) := f.mark n
    let (fs, k) := Field.markAll fs k
    (f :: fs, k)

def Method.markAll : List (Method Place) → (n : Nat) → List (Method Mark) × Nat
  | [], n => ([], n)
  | m :: ms, n =>
    let (m, k) := m.mark n
    let (ms, k) := Method.markAll ms k
    (m :: ms, k)

/-- Number a whole program. -/
def Program.mark (p : Program Place) (n : Nat) : Program Mark × Nat :=
  let (fields, k) := Field.markAll p.fields (n + 1)
  let (methods, k) := Method.markAll p.methods k
  (⟨⟨n, p.tag⟩, fields, methods⟩, k)

end QuillLang
