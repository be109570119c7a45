/-
# The numbers of nodes

Numbering a tree gives its nodes, listed from parents to children and from
left to right, consecutive numbers.  So a number tells a node, and with it the
variable that is declared there under a given name.  Places and literals stay as
they are (`MarksOf`).
-/
import QuillLang.Proofs.Nodes
import QuillLang.Tree.Mark
import Mathlib.Data.List.Nodup

namespace QuillLang

/-- A node of a tree below the root. -/
inductive Node (α : Type) where
  | field (f : Field α)
  | method (d : Method α)
  | stmt (s : Stmt α)
  | expr (e : Expr α)

namespace Node

variable {α : Type}

def tag : Node α → α
  | field f => f.tag
  | method d => d.tag
  | stmt s => s.tag
  | expr e => e.tag

end Node

section

variable {α : Type}

/-! ## All nodes of a tree

The nodes are listed in the order in which numbering comes to them: a node before its parts, and
the parts from left to right. -/

mutual

/-- An expression and its parts. -/
def Expr.nodes : Expr α → List (Node α)
  | .nil t => [.expr (.nil t)]
  | .boolean t b => [.expr (.boolean t b)]
  | .character t s => [.expr (.character t s)]
  | .string t s => [.expr (.string t s)]
  | .integer t n => [.expr (.integer t n)]
  | .decimal t d => [.expr (.decimal t d)]
  | .group t e => .expr (.group t e) :: e.nodes
  | .binary t op l r => .expr (.binary t op l r) :: (l.nodes ++ r.nodes)
  | .var t x => [.expr (.var t x)]
  | .field t e x => .expr (.field t e x) :: e.nodes
  | .call t f es => .expr (.call t f es) :: Expr.nodesOf es
  | .invoke t e f es => .expr (.invoke t e f es) :: (e.nodes ++ Expr.nodesOf es)

/-- Expressions and their parts. -/
def Expr.nodesOf : List (Expr α) → List (Node α)
  | [] => []
  | e :: es => e.nodes ++ Expr.nodesOf es

end

/-- The parts of an expression that may be missing. -/
def Expr.nodes? : Option (Expr α) → List (Node α)
  | none => []
  | some e => e.nodes

mutual

/-- A statement and its parts. -/
def Stmt.nodes : Stmt α → List (Node α)
  | .expr t e => .stmt (.expr t e) :: e.nodes
  | .declare t x n e => .stmt (.declare t x n e) :: Expr.nodes? e
  | .assign t l e => .stmt (.assign t l e) :: (l.nodes ++ e.nodes)
  | .branch t c a b => .stmt (.branch t c a b) :: (c.nodes ++ (Stmt.nodesOf a ++ Stmt.nodesOf b))
  | .forIn t x e b => .stmt (.forIn t x e b) :: (e.nodes ++ Stmt.nodesOf b)
  | .loop t c b => .stmt (.loop t c b) :: (c.nodes ++ Stmt.nodesOf b)
  | .ret t e => .stmt (.ret t e) :: e.nodes

/-- Statements and their parts. -/
def Stmt.nodesOf : List (Stmt α) → List (Node α)
  | [] => []
  | s :: ss => s.nodes ++ Stmt.nodesOf ss

end

def Field.nodes (f : Field α) : List (Node α) := .field f :: Expr.nodes? f.value

def Method.nodes (d : Method α) : List (Node α) := .method d :: Stmt.nodesOf d.body

/-- All nodes of a program but the program itself. -/
def Program.nodes (p : Program α) : List (Node α) :=
  p.fields.flatMap Field.nodes ++ p.methods.flatMap Method.nodes

/-- A node and its parts. -/
def Node.nodes : Node α → List (Node α)
  | .field f => f.nodes
  | .method d => d.nodes
  | .stmt s => s.nodes
  | .expr e => e.nodes

theorem Expr.mem_nodes_self (e : Expr α) : Node.expr e ∈ e.nodes := by
  cases e <;> exact List.mem_cons_self

theorem Node.mem_nodes_self (x : Node α) : x ∈ x.nodes := by
  cases x with
  | field f => exact List.mem_cons_self
  | method d => exact List.mem_cons_self
  | stmt s => cases s <;> exact List.mem_cons_self
  | expr e => exact e.mem_nodes_self

theorem Expr.nodes_subset_nodesOf {e : Expr α} {es : List (Expr α)} (h : e ∈ es) :
    e.nodes ⊆ Expr.nodesOf es := by
  induction es with
  | nil => cases h
  | cons e' es ih =>
      rcases List.mem_cons.mp h with rfl | h
      · exact List.subset_append_left _ _
      · exact List.subset_append_of_subset_right _ (ih h)

theorem Stmt.nodes_subset_nodesOf {s : Stmt α} {ss : List (Stmt α)} (h : s ∈ ss) :
    s.nodes ⊆ Stmt.nodesOf ss := by
  induction ss with
  | nil => cases h
  | cons s' ss ih =>
      rcases List.mem_cons.mp h with rfl | h
      · exact List.subset_append_left _ _
      · exact List.subset_append_of_subset_right _ (ih h)

end

/-! ## Consecutive numbers

Each of the functions that number a tree is given the next free number and hands on the one after
its last.  So the numbers of parts that follow each other are consecutive, and no two nodes share
one. -/

/-- Nodes have the numbers from `n` up to `k`, one after the other. -/
def Numbered (ns : List (Node Mark)) (n k : Nat) : Prop :=
  ∃ len, k = n + len ∧ ns.map (·.tag.id) = List.range' n len

namespace Numbered

variable {as bs : List (Node Mark)} {n k l : Nat}

theorem nil : Numbered [] n n := ⟨0, rfl, rfl⟩

theorem append (ha : Numbered as n k) (hb : Numbered bs k l) : Numbered (as ++ bs) n l := by
  obtain ⟨i, rfl, ha⟩ := ha
  obtain ⟨j, rfl, hb⟩ := hb
  refine ⟨i + j, Nat.add_assoc n i j, ?_⟩
  rw [List.map_append, ha, hb, List.range'_append_1]

theorem cons {x : Node Mark} (hx : x.tag.id = n) (ha : Numbered as (n + 1) k) :
    Numbered (x :: as) n k := by
  obtain ⟨i, rfl, ha⟩ := ha
  refine ⟨i + 1, by omega, ?_⟩
  rw [List.map_cons, ha, hx, List.range'_succ]

theorem singleton {x : Node Mark} (hx : x.tag.id = n) : Numbered [x] n (n + 1) := cons hx nil

/-- A number tells a node. -/
theorem eq_of_id (h : Numbered as n k) {x y : Node Mark} (hx : x ∈ as) (hy : y ∈ as)
    (hid : x.tag.id = y.tag.id) : x = y := by
  obtain ⟨i, -, h⟩ := h
  have hnd : (as.map (·.tag.id)).Nodup := h ▸ List.nodup_range'
  exact List.inj_on_of_nodup_map hnd hx hy hid

end Numbered

mutual

theorem Expr.mark_numbered : ∀ (e : Expr Place) (n : Nat),
    Numbered (e.mark n).1.nodes n (e.mark n).2
  | .nil _, _ => .singleton rfl
  | .boolean _ _, _ => .singleton rfl
  | .character _ _, _ => .singleton rfl
  | .string _ _, _ => .singleton rfl
  | .integer _ _, _ => .singleton rfl
  | .decimal _ _, _ => .singleton rfl
  | .group _ e, n => .cons rfl (e.mark_numbered (n + 1))
  | .binary _ _ l r, n => .cons rfl (.append (l.mark_numbered (n + 1)) (r.mark_numbered _))
  | .var _ _, _ => .singleton rfl
  | .field _ e _, n => .cons rfl (e.mark_numbered (n + 1))
  | .call _ _ es, n => .cons rfl (Expr.markAll_numbered es (n + 1))
  | .invoke _ e _ es, n =>
      .cons rfl (.append (e.mark_numbered (n + 1)) (Expr.markAll_numbered es _))

theorem Expr.markAll_numbered : ∀ (es : List (Expr Place)) (n : Nat),
    Numbered (Expr.nodesOf (Expr.markAll es n).1) n (Expr.markAll es n).2
  | [], _ => .nil
  | e :: es, n => .append (e.mark_numbered n) (Expr.markAll_numbered es _)

end

theorem Expr.mark?_numbered : ∀ (e : Option (Expr Place)) (n : Nat),
    Numbered (Expr.nodes? (Expr.mark? e n).1) n (Expr.mark? e n).2
  | none, _ => .nil
  | some e, n => e.mark_numbered n

mutual

theorem Stmt.mark_numbered : ∀ (s : Stmt Place) (n : Nat),
    Numbered (s.mark n).1.nodes n (s.mark n).2
  | .expr _ e, n => .cons rfl (e.mark_numbered (n + 1))
  | .declare _ _ _ e, n => .cons rfl (Expr.mark?_numbered e (n + 1))
  | .assign _ l e, n => .cons rfl (.append (l.mark_numbered (n + 1)) (e.mark_numbered _))
  | .branch _ c a b, n =>
      .cons rfl (.append (c.mark_numbered (n + 1))
        (.append (Stmt.markAll_numbered a _) (Stmt.markAll_numbered b _)))
  | .forIn _ _ e b, n => .cons rfl (.append (e.mark_numbered (n + 1)) (Stmt.markAll_numbered b _))
  | .loop _ c b, n => .cons rfl (.append (c.mark_numbered (n + 1)) (Stmt.markAll_numbered b _))
  | .ret _ e, n => .cons rfl (e.mark_numbered (n + 1))

theorem Stmt.markAll_numbered : ∀ (ss : List (Stmt Place)) (n : Nat),
    Numbered (Stmt.nodesOf (Stmt.markAll ss n).1) n (Stmt.markAll ss n).2
  | [], _ => .nil
  | s :: ss, n => .append (s.mark_numbered n) (Stmt.markAll_numbered ss _)

end

theorem Field.markAll_numbered : ∀ (fs : List (Field Place)) (n : Nat),
    Numbered ((Field.markAll fs n).1.flatMap Field.nodes) n (Field.markAll fs n).2
  | [], _ => .nil
  | f :: fs, n =>
      .append (.cons rfl (Expr.mark?_numbered f.value (n + 1))) (Field.markAll_numbered fs _)

theorem Method.markAll_numbered : ∀ (ds : List (Method Place)) (n : Nat),
    Numbered ((Method.markAll ds n).1.flatMap Method.nodes) n (Method.markAll ds n).2
  | [], _ => .nil
  | d :: ds, n =>
      .append (.cons rfl (Stmt.markAll_numbered d.body (n + 1))) (Method.markAll_numbered ds _)

/-- The nodes of a numbered program have consecutive numbers. -/
theorem Program.mark_numbered (p : Program Place) (n : Nat) :
    Numbered (p.mark n).1.nodes (n + 1) (p.mark n).2 :=
  .append (Field.markAll_numbered p.fields (n + 1)) (Method.markAll_numbered p.methods _)

/-! ## What numbering leaves as it is

All but the tags is copied.  Of this only the place of a node and the decimal of a literal are
needed elsewhere. -/

/-- The decimal that a node is the literal of. -/
def Node.decimal? {α : Type} : Node α → Option Decimal
  | .expr (.decimal _ d) => some d
  | _ => none

/-- A numbered node keeps its place and its decimal. -/
structure Node.Marks (x : Node Place) (y : Node Mark) : Prop where
  place : y.tag.place = x.tag
  decimal : y.decimal? = x.decimal?

/-- Every numbered node comes from a node that it keeps the place and the decimal of. -/
def MarksOf (ns : List (Node Place)) (ms : List (Node Mark)) : Prop := ∀ y ∈ ms, ∃ x ∈ ns, x.Marks y

namespace MarksOf

variable {ns ns' : List (Node Place)} {ms ms' : List (Node Mark)}

theorem nil : MarksOf [] [] := fun _ hy => absurd hy List.not_mem_nil

theorem append (h : MarksOf ns ms) (h' : MarksOf ns' ms') : MarksOf (ns ++ ns') (ms ++ ms') := by
  intro y hy
  rcases List.mem_append.mp hy with hy | hy
  · obtain ⟨x, hx, hxy⟩ := h y hy
    exact ⟨x, List.mem_append_left _ hx, hxy⟩
  · obtain ⟨x, hx, hxy⟩ := h' y hy
    exact ⟨x, List.mem_append_right _ hx, hxy⟩

theorem singleton {x : Node Place} {y : Node Mark} (hplace : y.tag.place = x.tag)
    (hdecimal : y.decimal? = x.decimal?) : MarksOf [x] [y] := by
  intro z hz
  obtain rfl := List.mem_singleton.mp hz
  exact ⟨x, List.mem_cons_self, hplace, hdecimal⟩

theorem cons {x : Node Place} {y : Node Mark} (hplace : y.tag.place = x.tag)
    (hdecimal : y.decimal? = x.decimal?) (h : MarksOf ns ms) : MarksOf (x :: ns) (y :: ms) :=
  append (singleton hplace hdecimal) h

end MarksOf

mutual

theorem Expr.mark_marksOf : ∀ (e : Expr Place) (n : Nat), MarksOf e.nodes (e.mark n).1.nodes
  | .nil _, _ => .singleton rfl rfl
  | .boolean _ _, _ => .singleton rfl rfl
  | .character _ _, _ => .singleton rfl rfl
  | .string _ _, _ => .singleton rfl rfl
  | .integer _ _, _ => .singleton rfl rfl
  | .decimal _ _, _ => .singleton rfl rfl
  | .group _ e, n => .cons rfl rfl (e.mark_marksOf (n + 1))
  | .binary _ _ l r, n => .cons rfl rfl (.append (l.mark_marksOf (n + 1)) (r.mark_marksOf _))
  | .var _ _, _ => .singleton rfl rfl
  | .field _ e _, n => .cons rfl rfl (e.mark_marksOf (n + 1))
  | .call _ _ es, n => .cons rfl rfl (Expr.markAll_marksOf es (n + 1))
  | .invoke _ e _ es, n =>
      .cons rfl rfl (.append (e.mark_marksOf (n + 1)) (Expr.markAll_marksOf es _))

theorem Expr.markAll_marksOf : ∀ (es : List (Expr Place)) (n : Nat),
    MarksOf (Expr.nodesOf es) (Expr.nodesOf (Expr.markAll es n).1)
  | [], _ => .nil
  | e :: es, n => .append (e.mark_marksOf n) (Expr.markAll_marksOf es _)

end

theorem Expr.mark?_marksOf : ∀ (e : Option (Expr Place)) (n : Nat),
    MarksOf (Expr.nodes? e) (Expr.nodes? (Expr.mark? e n).1)
  | none, _ => .nil
  | some e, n => e.mark_marksOf n

mutual

theorem Stmt.mark_marksOf : ∀ (s : Stmt Place) (n : Nat), MarksOf s.nodes (s.mark n).1.nodes
  | .expr _ e, n => .cons rfl rfl (e.mark_marksOf (n + 1))
  | .declare _ _ _ e, n => .cons rfl rfl (Expr.mark?_marksOf e (n + 1))
  | .assign _ l e, n => .cons rfl rfl (.append (l.mark_marksOf (n + 1)) (e.mark_marksOf _))
  | .branch _ c a b, n =>
      .cons rfl rfl (.append (c.mark_marksOf (n + 1))
        (.append (Stmt.markAll_marksOf a _) (Stmt.markAll_marksOf b _)))
  | .forIn _ _ e b, n =>
      .cons rfl rfl (.append (e.mark_marksOf (n + 1)) (Stmt.markAll_marksOf b _))
  | .loop _ c b, n => .cons rfl rfl (.append (c.mark_marksOf (n + 1)) (Stmt.markAll_marksOf b _))
  | .ret _ e, n => .cons rfl rfl (e.mark_marksOf (n + 1))

theorem Stmt.markAll_marksOf : ∀ (ss : List (Stmt Place)) (n : Nat),
    MarksOf (Stmt.nodesOf ss) (Stmt.nodesOf (Stmt.markAll ss n).1)
  | [], _ => .nil
  | s :: ss, n => .append (s.mark_marksOf n) (Stmt.markAll_marksOf ss _)

end

theorem Field.markAll_marksOf : ∀ (fs : List (Field Place)) (n : Nat),
    MarksOf (fs.flatMap Field.nodes) ((Field.markAll fs n).1.flatMap Field.nodes)
  | [], _ => .nil
  | f :: fs, n =>
      .append (.cons rfl rfl (Expr.mark?_marksOf f.value (n + 1))) (Field.markAll_marksOf fs _)

theorem Method.markAll_marksOf : ∀ (ds : List (Method Place)) (n : Nat),
    MarksOf (ds.flatMap Method.nodes) ((Method.markAll ds n).1.flatMap Method.nodes)
  | [], _ => .nil
  | d :: ds, n =>
      .append (.cons rfl rfl (Stmt.markAll_marksOf d.body (n + 1))) (Method.markAll_marksOf ds _)

/-- The nodes of a numbered program come from those of the program. -/
theorem Program.mark_marksOf (p : Program Place) (n : Nat) : MarksOf p.nodes (p.mark n).1.nodes :=
  .append (Field.markAll_marksOf p.fields (n + 1)) (Method.markAll_marksOf p.methods _)

/-! ## Statements are nodes

A statement can be reached from a program step by step, from a block to the statements directly
inside.  Each step stays within the list of nodes. -/

mutual

theorem Expr.stmt_notMem_nodes {s : Stmt Mark} : ∀ e : Expr Mark, Node.stmt s ∉ e.nodes
  | .nil _ | .boolean _ _ | .character _ _ | .string _ _ | .integer _ _ | .decimal _ _
  | .var _ _ => by simp [Expr.nodes]
  | .group _ e | .field _ e _ => by
      simp [Expr.nodes, e.stmt_notMem_nodes]
  | .binary _ _ l r => by
      simp [Expr.nodes, l.stmt_notMem_nodes, r.stmt_notMem_nodes]
  | .call _ _ es => by
      simp [Expr.nodes, Expr.stmt_notMem_nodesOf es]
  | .invoke _ e _ es => by
      simp [Expr.nodes, e.stmt_notMem_nodes, Expr.stmt_notMem_nodesOf es]

theorem Expr.stmt_notMem_nodesOf {s : Stmt Mark} :
    ∀ es : List (Expr Mark), Node.stmt s ∉ Expr.nodesOf es
  | [] => by simp [Expr.nodesOf]
  | e :: es => by
      simp [Expr.nodesOf, e.stmt_notMem_nodes, Expr.stmt_notMem_nodesOf es]

end

theorem Expr.stmt_notMem_nodes? {s : Stmt Mark} : ∀ e : Option (Expr Mark),
    Node.stmt s ∉ Expr.nodes? e
  | none => by simp [Expr.nodes?]
  | some e => e.stmt_notMem_nodes

/-- The statements directly inside a statement. -/
def Stmt.inner {α : Type} : Stmt α → List (Stmt α)
  | .branch _ _ a b => a ++ b
  | .forIn _ _ _ b => b
  | .loop _ _ b => b
  | _ => []

theorem Stmt.mem_nodes_self (s : Stmt Mark) : Node.stmt s ∈ s.nodes := by
  cases s <;> simp [Stmt.nodes]

theorem Stmt.mem_nodesOf {s : Stmt Mark} : ∀ {ss : List (Stmt Mark)}, s ∈ ss →
    Node.stmt s ∈ Stmt.nodesOf ss
  | s' :: ss, h => by
      rcases List.mem_cons.mp h with rfl | h
      · exact List.mem_append_left _ s.mem_nodes_self
      · exact List.mem_append_right _ (Stmt.mem_nodesOf h)

mutual

theorem Stmt.inner_mem_nodes {s s' : Stmt Mark} (hs : s ∈ s'.inner) :
    ∀ S : Stmt Mark, Node.stmt s' ∈ S.nodes → Node.stmt s ∈ S.nodes
  | .expr _ e, h => by
      simp only [Stmt.nodes, List.mem_cons, e.stmt_notMem_nodes, or_false] at h
      cases h; cases hs
  | .declare _ _ _ e, h => by
      simp only [Stmt.nodes, List.mem_cons, Expr.stmt_notMem_nodes?, or_false] at h
      cases h; cases hs
  | .assign _ l e, h => by
      simp only [Stmt.nodes, List.mem_cons, List.mem_append, Expr.stmt_notMem_nodes,
        or_false] at h
      cases h; cases hs
  | .branch _ c a b, h => by
      simp only [Stmt.nodes, List.mem_cons, List.mem_append, c.stmt_notMem_nodes, false_or] at h ⊢
      refine .inr ?_
      rcases h with h | h | h
      · cases h
        exact (List.mem_append.mp hs).imp Stmt.mem_nodesOf Stmt.mem_nodesOf
      · exact .inl (Stmt.inner_mem_nodesOf hs a h)
      · exact .inr (Stmt.inner_mem_nodesOf hs b h)
  | .forIn _ _ e b, h => by
      simp only [Stmt.nodes, List.mem_cons, List.mem_append, e.stmt_notMem_nodes, false_or] at h ⊢
      rcases h with h | h
      · cases h
        exact .inr (Stmt.mem_nodesOf hs)
      · exact .inr (Stmt.inner_mem_nodesOf hs b h)
  | .loop _ c b, h => by
      simp only [Stmt.nodes, List.mem_cons, List.mem_append, c.stmt_notMem_nodes, false_or] at h ⊢
      rcases h with h | h
      · cases h
        exact .inr (Stmt.mem_nodesOf hs)
      · exact .inr (Stmt.inner_mem_nodesOf hs b h)
  | .ret _ e, h => by
      simp only [Stmt.nodes, List.mem_cons, e.stmt_notMem_nodes, or_false] at h
      cases h; cases hs

theorem Stmt.inner_mem_nodesOf {s s' : Stmt Mark} (hs : s ∈ s'.inner) :
    ∀ ss : List (Stmt Mark), Node.stmt s' ∈ Stmt.nodesOf ss → Node.stmt s ∈ Stmt.nodesOf ss
  | [], h => by cases h
  | S :: ss, h => by
      rcases List.mem_append.mp h with h | h
      · exact List.mem_append_left _ (Stmt.inner_mem_nodes hs S h)
      · exact List.mem_append_right _ (Stmt.inner_mem_nodesOf hs ss h)

end

namespace Program

variable {p : Program Mark} {M : Model}

theorem mem_nodes_field {f : Field Mark} (hf : f ∈ p.fields) : Node.field f ∈ p.nodes :=
  List.mem_append_left _ (List.mem_flatMap.mpr ⟨f, hf, List.mem_cons_self⟩)

theorem mem_nodes_method {d : Method Mark} (hd : d ∈ p.methods) : Node.method d ∈ p.nodes :=
  List.mem_append_right _ (List.mem_flatMap.mpr ⟨d, hd, List.mem_cons_self⟩)

theorem inner_mem_nodes {s s' : Stmt Mark} (hs' : Node.stmt s' ∈ p.nodes) (hs : s ∈ s'.inner) :
    Node.stmt s ∈ p.nodes := by
  rcases List.mem_append.mp hs' with h | h
  · obtain ⟨f, -, h⟩ := List.mem_flatMap.mp h
    simp [Field.nodes, Expr.stmt_notMem_nodes?] at h
  · obtain ⟨d, hd, h⟩ := List.mem_flatMap.mp h
    have h : Node.stmt s' ∈ Stmt.nodesOf d.body := by simpa [Method.nodes] using h
    refine List.mem_append_right _ (List.mem_flatMap.mpr ⟨d, hd, ?_⟩)
    exact List.mem_cons_of_mem _ (Stmt.inner_mem_nodesOf hs d.body h)

theorem HasStmt.mem_nodes {s : Stmt Mark} (h : p.HasStmt s) : Node.stmt s ∈ p.nodes := by
  induction h with
  | body hd hs =>
      refine List.mem_append_right _ (List.mem_flatMap.mpr ⟨_, hd, ?_⟩)
      exact List.mem_cons_of_mem _ (Stmt.mem_nodesOf hs)
  | thenBody _ hs ih => exact inner_mem_nodes ih (List.mem_append_left _ hs)
  | elseBody _ hs ih => exact inner_mem_nodes ih (List.mem_append_right _ hs)
  | forBody _ hs ih => exact inner_mem_nodes ih hs
  | loopBody _ hs ih => exact inner_mem_nodes ih hs

end Program

/-! ## Declarations

A node declares the variable of its own number, and a method one for each parameter.  Since a
number tells a node and parameters have different names, number and name tell a variable. -/

/-- The variables that a node declares. -/
inductive Node.Declares (M : Model) : Node Mark → Variable → Prop where
  | field {f : Field Mark} {t : Ty} :
      M.variableOf? f.tag.id = some (.ofNode f.tag.id f.name t) →
      Declares M (.field f) (.ofNode f.tag.id f.name t)
  | here {m : Mark} {x : String} {n : Option String} {e : Option (Expr Mark)} {t : Ty} :
      M.variableOf? m.id = some (.ofNode m.id x t) →
      Declares M (.stmt (.declare m x n e)) (.ofNode m.id x t)
  | parameter {d : Method Mark} {s : Signature} {x : String} {t : Ty} :
      d.parameters.Nodup → M.functionOf? d.tag.id = some s →
      (x, t) ∈ d.parameters.zip s.parameters →
      Declares M (.method d) (.ofNode d.tag.id x t)
  | loop {m : Mark} {x : String} {e : Expr Mark} {body : List (Stmt Mark)} :
      Declares M (.stmt (.forIn m x e body)) (.ofNode m.id x .integer)

namespace Program

variable {p : Program Mark} {M : Model}

theorem Declares.exists_node (hnd : ∀ d ∈ p.methods, d.parameters.Nodup) {v : Variable}
    (h : p.Declares M v) : ∃ x ∈ p.nodes, v.origin = .node x.tag.id ∧ x.Declares M v := by
  cases h with
  | field hf hv => exact ⟨_, mem_nodes_field hf, rfl, .field hv⟩
  | here hs hv => exact ⟨_, hs.mem_nodes, rfl, .here hv⟩
  | parameter hd hs hx => exact ⟨_, mem_nodes_method hd, rfl, .parameter (hnd _ hd) hs hx⟩
  | loop hs => exact ⟨_, hs.mem_nodes, rfl, .loop⟩

/-- In a list of distinct names every name has one type. -/
theorem zip_right_unique {xs : List String} {ts : List Ty} (hnd : xs.Nodup) {x : String} {t u : Ty}
    (ht : (x, t) ∈ xs.zip ts) (hu : (x, u) ∈ xs.zip ts) : t = u := by
  obtain ⟨i, hi, hget⟩ := List.getElem_of_mem ht
  obtain ⟨j, hj, hget'⟩ := List.getElem_of_mem hu
  simp only [List.getElem_zip, Prod.mk.injEq] at hget hget'
  have hij : i = j := (List.Nodup.getElem_inj_iff hnd).mp (hget.1.trans hget'.1.symm)
  subst hij
  exact hget.2.symm.trans hget'.2

/-- A program declares one variable of a name at a node. -/
theorem Declares.unique {n k : Nat} (hnum : Numbered p.nodes n k)
    (hnd : ∀ d ∈ p.methods, d.parameters.Nodup) {u v : Variable} (hu : p.Declares M u)
    (hv : p.Declares M v) (hname : u.name = v.name) (horigin : u.origin = v.origin) : u = v := by
  obtain ⟨x, hx, hux, hxu⟩ := hu.exists_node hnd
  obtain ⟨y, hy, hvy, hyv⟩ := hv.exists_node hnd
  have hid : x.tag.id = y.tag.id := by
    rw [hux, hvy] at horigin
    exact Origin.node.inj horigin
  obtain rfl := hnum.eq_of_id hx hy hid
  cases hxu with
  | field h =>
      cases hyv with
      | field h' => exact Option.some.inj (h.symm.trans h')
  | here h =>
      cases hyv with
      | here h' => exact Option.some.inj (h.symm.trans h')
  | loop =>
      cases hyv
      rfl
  | @parameter d s z t hdistinct h hmem =>
      cases hyv with
      | @parameter _ s' z' t' _ h' hmem' =>
          obtain rfl : s = s' := Option.some.inj (h.symm.trans h')
          obtain rfl : z = z' := hname
          rw [zip_right_unique hdistinct hmem hmem']

end Program

end QuillLang
