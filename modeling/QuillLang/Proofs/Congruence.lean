/-
# Relations that the rules keep

Much of what is said of runs compares two actions, or says something of each
single one: that recording leaves no mark, that every scope is put back, that
the blocks of a caller do not matter.  Such statements differ in the relation
and agree in how it is carried from expression to expression, from statement
to statement and into the bodies of methods.  This is done here once and for
all: a relation that holds of the actions which the rules are made of, and is
kept by the ways to put them together, holds of every rule (`Congruence.rules`).

There are two relations at each depth, since a declaration does more than any
other statement: it leaves a variable behind in its block.  The end of the
block takes the variable away, so what relates declarations inside a block
(`decl`) comes down to what relates the rest (`rel`) outside.
-/
import QuillLang.Proofs.Outcome
import QuillLang.Proofs.Scopes

namespace QuillLang

/-- Whether an event is the start or the end of a method. -/
def Event.crosses : Event → Bool
  | .enter _ | .leave _ => true
  | .value .. | .call .. | .write .. => false

/-- Whether a statement is a declaration. -/
def Stmt.isDeclaration {α : Type} : Stmt α → Bool
  | .declare .. => true
  | _ => false

namespace Exec

/-- The function that a name means. -/
def callee (key : FunctionKey) (place : Place) : Exec Function := do
  let s ← get
  match Chain.findFunction? s.chain key with
  | some g => return g
  | none => fail (.undefinedFunction key.1 key.2) place

theorem callee_bind {α : Type} (key : FunctionKey) (place : Place) (f : Function → Exec α)
    (s : State) :
    (callee key place >>= f) s =
      match Chain.findFunction? s.chain key with
      | some g => f g s
      | none => fail (.undefinedFunction key.1 key.2) place s := by
  rw [callee, bind_assoc, get_bind]
  cases Chain.findFunction? s.chain key with
  | none => rfl
  | some g => rfl

theorem form_call (m : Machine) (n depth : Nat) (t : Mark) (f : String) (es : List (Expr Mark)) :
    form m (n + 1) depth (.call t f es) =
      arguments m n depth es >>= fun args =>
        callee (f, args.length) t.place >>= fun g =>
          note m (.call t.id g) >>= fun _ => invoke m n depth g args := by
  simp only [form]
  refine congrArg (arguments m n depth es >>= ·) (funext fun args => funext fun s => ?_)
  rw [callee_bind, get_bind]
  cases Chain.findFunction? s.chain (f, args.length) with
  | none => rfl
  | some g => rfl

/-- Give the variable that a name means the value of an action. -/
def assigning (m : Machine) (x : String) (place : Place) (act : Exec Value) : Exec Unit := do
  let cell ← lookup x place
  let v ← act
  assign m cell x v

/-- Give a field of a value the value of an action. -/
def assigningField (m : Machine) (r : Value) (x : String) (place : Place) (act : Exec Value) :
    Exec Unit := do
  let cell ← relocating place (lookupField r x)
  let v ← act
  assignField m r cell x v

theorem stmt_assign_var (m : Machine) (n depth : Nat) (t u : Mark) (x : String) (e : Expr Mark) :
    stmt m (n + 1) depth (.assign t (.var u x) e) =
      assigning m x u.place (expr m n depth e) >>= fun _ => pure .next := by
  simp only [stmt, assigning, bind_assoc]

theorem stmt_assign_field (m : Machine) (n depth : Nat) (t u : Mark) (r e : Expr Mark)
    (x : String) :
    stmt m (n + 1) depth (.assign t (.field u r x) e) =
      expr m n depth r >>= fun receiver =>
        assigningField m receiver x u.place (expr m n depth e) >>= fun _ => pure .next := by
  simp only [stmt, assigningField, bind_assoc]

/-- Run the body of a method in a frame of its own, from where it is entered to where it is
left. -/
def entering {α : Type} (m : Machine) (depth : Nat) (frame : RunFrame) (act : Exec α) : Exec α :=
  noting m (.leave (depth + 1)) <| inMethod frame do
    note m (.enter (depth + 1))
    act

end Exec

/-- The frame of a method call holds variables only. -/
theorem bindParameters_functions {mark : Mark} :
    ∀ {ps : List (String × Ty × Value)} {g frame : RunFrame},
      bindParameters mark ps g = .ok frame → frame.functions = g.functions
  | [], _, _, h => by cases h; rfl
  | (x, t, v) :: ps, g, frame, h => by
      obtain ⟨g', hg', h⟩ := except_bind_eq_ok.mp h
      have hfun : frame.functions = g'.functions := bindParameters_functions h
      obtain ⟨-, rfl⟩ := Frame.defineVariable_eq_ok hg'
      exact hfun

/-- Relations between the actions on two machines that are kept by all that rules do: `rel`
between actions that define nothing, `decl` between actions that may define variables.  Functions
that are called may be known to be of some kind. -/
structure Congruence (m m' : Machine) where
  rel : (depth : Nat) → {α : Type} → Exec α → Exec α → Prop
  decl : (depth : Nat) → {α : Type} → Exec α → Exec α → Prop
  Callee : Function → Prop
  scale : m'.scale = m.scale
  pure : ∀ {d : Nat} {α : Type} (a : α), rel d (pure a) (pure a)
  throw : ∀ {d : Nat} {α : Type} (h : Halt), rel d (throw h : Exec α) (throw h : Exec α)
  bind : ∀ {d : Nat} {α β : Type} {x y : Exec α} {f g : α → Exec β},
    rel d x y → (∀ a, rel d (f a) (g a)) → rel d (x >>= f) (y >>= g)
  note : ∀ {d : Nat} {e : Event}, e.crosses = false → rel d (Exec.note m e) (Exec.note m' e)
  lookup : ∀ {d : Nat} (x : String) (place : Place),
    rel d (Exec.lookup x place) (Exec.lookup x place)
  lookupField : ∀ {d : Nat} (r : Value) (x : String),
    rel d (Exec.lookupField r x) (Exec.lookupField r x)
  relocating : ∀ {d : Nat} {α : Type} {x y : Exec α} (place : Place),
    rel d x y → rel d (Exec.relocating place x) (Exec.relocating place y)
  callee : ∀ {d : Nat} {α : Type} {f g : Function → Exec α} (key : FunctionKey) (place : Place),
    (∀ h, Callee h → rel d (f h) (g h)) →
      rel d (Exec.callee key place >>= f) (Exec.callee key place >>= g)
  print : ∀ {d : Nat} (v : Value), rel d (Exec.print v) (Exec.print v)
  native : ∀ {d : Nat} {h : Function} {g : Native} (vs : List Value), Callee h →
    h.body = .native g → rel d (Exec.native g vs) (Exec.native g vs)
  callMember : ∀ {d : Nat} (r : Value) (f : String) (vs : List Value),
    rel d (Exec.callMember m r f vs) (Exec.callMember m' r f vs)
  /-- A variable is looked up before the value that it gets is computed. -/
  assigning : ∀ {n n' d : Nat} {e : Expr Mark} (x : String) (place : Place),
    rel d (Exec.expr m n d e) (Exec.expr m' n' d e) →
      rel d (Exec.assigning m x place (Exec.expr m n d e))
        (Exec.assigning m' x place (Exec.expr m' n' d e))
  assigningField : ∀ {n n' d : Nat} {e : Expr Mark} (r : Value) (x : String) (place : Place),
    rel d (Exec.expr m n d e) (Exec.expr m' n' d e) →
      rel d (Exec.assigningField m r x place (Exec.expr m n d e))
        (Exec.assigningField m' r x place (Exec.expr m' n' d e))
  /-- A method runs only if the limit on running methods is not reached. -/
  limited : ∀ {d : Nat} {α : Type} {x y : Exec α} (place : Place),
    ((d : Int) < m.maxDepth → rel d x y) →
      rel d (if m.maxDepth ≤ d then Exec.fail .stackOverflow place else x)
        (if m'.maxDepth ≤ d then Exec.fail .stackOverflow place else y)
  entering : ∀ {d : Nat} {α : Type} {x y : Exec α} {frame : RunFrame},
    (d : Int) < m.maxDepth → frame.functions = [] → decl (d + 1) x y →
      rel d (Exec.entering m d frame x) (Exec.entering m' d frame y)
  inBlock : ∀ {d : Nat} {α : Type} {x y : Exec α} {frame : RunFrame}, frame.functions = [] →
    decl d x y → rel d (Exec.inBlock frame x) (Exec.inBlock frame y)
  decl_of_rel : ∀ {d : Nat} {α : Type} {x y : Exec α}, rel d x y → decl d x y
  decl_bind : ∀ {d : Nat} {α β : Type} {x y : Exec α} {f g : α → Exec β},
    decl d x y → (∀ a, decl d (f a) (g a)) → decl d (x >>= f) (y >>= g)
  define : ∀ {d : Nat} (c : Cell) (place : Place),
    decl d (Exec.define m c place) (Exec.define m' c place)

namespace Congruence

variable {m m' : Machine} (C : Congruence m m') {d : Nat}

theorem fail {α : Type} (cause : EvalCause) (place : Place) :
    C.rel d (Exec.fail cause place : Exec α) (Exec.fail cause place : Exec α) := C.throw _

theorem ofExcept {α : Type} (r : Except Halt α) :
    C.rel d (Exec.ofExcept r) (Exec.ofExcept r) := by
  cases r with
  | ok a => exact C.pure a
  | error h => exact C.throw h

theorem requireBoolean (v : Value) (place : Place) :
    C.rel d (Exec.requireBoolean v place) (Exec.requireBoolean v place) := by
  cases v with
  | boolean b => exact C.pure b
  | _ => exact C.fail _ _

theorem requireIterable (v : Value) (place : Place) :
    C.rel d (Exec.requireIterable v place) (Exec.requireIterable v place) := by
  cases v with
  | iterable items => exact C.pure items
  | _ => exact C.fail _ _

theorem noteFrame : ∀ cs, C.rel d (Exec.noteFrame m cs) (Exec.noteFrame m' cs)
  | [] => C.pure ()
  | (_, _) :: cs => C.bind (C.note rfl) fun _ => noteFrame cs

/-! ## The rules with given fuels

The rules call each other with less fuel, so the relation is shown for all of them at once, from
one fuel to the next.  The two machines need not start with the same fuel: one may have more to
spare. -/

/-- The relation holds of every rule, with fuel `n` on one machine and `n'` on the other. -/
structure At (n n' : Nat) : Prop where
  expr : ∀ d e, C.rel d (Exec.expr m n d e) (Exec.expr m' n' d e)
  form : ∀ d e, C.rel d (Exec.form m n d e) (Exec.form m' n' d e)
  arguments : ∀ d es, C.rel d (Exec.arguments m n d es) (Exec.arguments m' n' d es)
  invoke : ∀ d f vs, C.Callee f → C.rel d (Exec.invoke m n d f vs) (Exec.invoke m' n' d f vs)
  stmt : ∀ d st, st.isDeclaration = false → C.rel d (Exec.stmt m n d st) (Exec.stmt m' n' d st)
  declare : ∀ d st, C.decl d (Exec.stmt m n d st) (Exec.stmt m' n' d st)
  initial : ∀ d e, C.rel d (Exec.initial m n d e) (Exec.initial m' n' d e)
  block : ∀ d ss, C.decl d (Exec.block m n d ss) (Exec.block m' n' d ss)
  iterate : ∀ d t x body vs,
    C.rel d (Exec.iterate m n d t x body vs) (Exec.iterate m' n' d t x body vs)
  repeating : ∀ d c body,
    C.rel d (Exec.repeating m n d c body) (Exec.repeating m' n' d c body)

namespace At

variable {C} {n n' : Nat} (ih : C.At n n')

include ih

/-- A condition is computed, and what it decides follows. -/
theorem condition {α : Type} (c : Expr Mark) {f g : Bool → Exec α}
    (hf : ∀ b, C.rel d (f b) (g b)) :
    C.rel d (Exec.expr m n d c >>= fun v => Exec.requireBoolean v c.tag.place >>= f)
      (Exec.expr m' n' d c >>= fun v => Exec.requireBoolean v c.tag.place >>= g) :=
  C.bind (ih.expr d c) fun v => C.bind (C.requireBoolean v _) hf

theorem binary_succ (t : Mark) (op : Operator) (l r : Expr Mark) :
    C.rel d (Exec.form m (n + 1) d (.binary t op l r))
      (Exec.form m' (n' + 1) d (.binary t op l r)) := by
  cases op with
  | and =>
      simp only [Exec.form]
      refine ih.condition l fun b => ?_
      cases b with
      | true => exact ih.condition r fun _ => C.pure _
      | false => exact C.pure _
  | or =>
      simp only [Exec.form]
      refine ih.condition l fun b => ?_
      cases b with
      | true => exact C.pure _
      | false => exact ih.condition r fun _ => C.pure _
  | _ =>
      simp only [Exec.form, C.scale]
      exact C.bind (ih.expr d l) fun _ => C.bind (ih.expr d r) fun _ => C.ofExcept _

theorem form_succ (d : Nat) (e : Expr Mark) :
    C.rel d (Exec.form m (n + 1) d e) (Exec.form m' (n' + 1) d e) := by
  cases e with
  | group t e => exact ih.expr d e
  | binary t op l r => exact ih.binary_succ t op l r
  | var t x => exact C.bind (C.lookup x _) fun _ => C.pure _
  | field t e x =>
      exact C.bind (ih.expr d e) fun v =>
        C.bind (C.relocating _ (C.lookupField v x)) fun _ => C.pure _
  | call t f es =>
      rw [Exec.form_call, Exec.form_call]
      exact C.bind (ih.arguments d es) fun vs => C.callee _ _ fun g hg =>
        C.bind (C.note rfl) fun _ => ih.invoke d g vs hg
  | invoke t e f es =>
      exact C.bind (ih.expr d e) fun v => C.bind (ih.arguments d es) fun vs =>
        C.relocating _ (C.callMember v f vs)
  | _ => exact C.pure _

theorem arguments_succ (d : Nat) (es : List (Expr Mark)) :
    C.rel d (Exec.arguments m (n + 1) d es) (Exec.arguments m' (n' + 1) d es) := by
  cases es with
  | nil => exact C.pure _
  | cons e es =>
      exact C.bind (ih.expr d e) fun _ => C.bind (ih.arguments d es) fun _ => C.pure _

theorem invoke_succ (d : Nat) (f : Function) (vs : List Value) (hf : C.Callee f) :
    C.rel d (Exec.invoke m (n + 1) d f vs) (Exec.invoke m' (n' + 1) d f vs) := by
  simp only [Exec.invoke]
  cases hbody : f.body with
  | print =>
      cases vs with
      | nil => exact C.throw _
      | cons v vs => exact C.bind (C.print v) fun _ => C.pure _
  | native g => exact C.native vs hf hbody
  | method e =>
      dsimp only
      split
      · exact C.fail _ _
      · refine C.limited _ fun hdepth => ?_
        cases hframe : bindParameters e.tag (e.parameters.zip (f.parameters.zip vs)) {} with
        | error key => exact C.fail _ _
        | ok frame =>
            have hsilent : frame.functions = [] := bindParameters_functions hframe
            refine C.bind (C.entering hdepth hsilent ?_) fun flow => ?_
            · exact C.decl_bind (C.decl_of_rel (C.noteFrame frame.vars)) fun _ =>
                ih.block (d + 1) e.body
            · cases flow <;> exact C.pure _

theorem stmt_succ (d : Nat) (st : Stmt Mark) (hst : st.isDeclaration = false) :
    C.rel d (Exec.stmt m (n + 1) d st) (Exec.stmt m' (n' + 1) d st) := by
  cases st with
  | expr t e => exact C.bind (ih.expr d e) fun _ => C.pure _
  | declare t x typeName e => cases hst
  | assign t target e =>
      cases target with
      | var u x =>
          rw [Exec.stmt_assign_var, Exec.stmt_assign_var]
          exact C.bind (C.assigning x _ (ih.expr d e)) fun _ => C.pure _
      | field u r x =>
          rw [Exec.stmt_assign_field, Exec.stmt_assign_field]
          exact C.bind (ih.expr d r) fun receiver =>
            C.bind (C.assigningField receiver x _ (ih.expr d e)) fun _ => C.pure _
      | _ => exact C.fail _ _
  | branch t c thenBody elseBody =>
      exact ih.condition c fun b => C.inBlock rfl (ih.block d _)
  | forIn t x e body =>
      exact C.bind (ih.expr d e) fun v =>
        C.bind (C.requireIterable v _) fun items => ih.iterate d t x body items
  | loop t c body => exact ih.repeating d c body
  | ret t e => exact C.bind (ih.expr d e) fun _ => C.pure _

theorem declare_succ (d : Nat) (st : Stmt Mark) :
    C.decl d (Exec.stmt m (n + 1) d st) (Exec.stmt m' (n' + 1) d st) := by
  cases hst : st.isDeclaration with
  | false => exact C.decl_of_rel (ih.stmt_succ d st hst)
  | true =>
      cases st with
      | declare t x typeName e =>
          exact C.decl_bind (C.decl_of_rel (ih.initial d e)) fun _ =>
            C.decl_bind (C.define _ _) fun _ => C.decl_of_rel (C.pure _)
      | _ => cases hst

theorem block_succ (d : Nat) (ss : List (Stmt Mark)) :
    C.decl d (Exec.block m (n + 1) d ss) (Exec.block m' (n' + 1) d ss) := by
  cases ss with
  | nil => exact C.decl_of_rel (C.pure _)
  | cons st ss =>
      refine C.decl_bind (ih.declare d st) fun flow => ?_
      cases flow with
      | next => exact ih.block d ss
      | ret v => exact C.decl_of_rel (C.pure _)

theorem iterate_succ (d : Nat) (t : Mark) (x : String) (body : List (Stmt Mark))
    (vs : List Value) :
    C.rel d (Exec.iterate m (n + 1) d t x body vs) (Exec.iterate m' (n' + 1) d t x body vs) := by
  cases vs with
  | nil => exact C.pure _
  | cons v vs =>
      refine C.bind (C.inBlock rfl ?_) fun flow => ?_
      · exact C.decl_bind (C.decl_of_rel (C.note rfl)) fun _ => ih.block d body
      · cases flow with
        | next => exact ih.iterate d t x body vs
        | ret v => exact C.pure _

theorem repeating_succ (d : Nat) (c : Expr Mark) (body : List (Stmt Mark)) :
    C.rel d (Exec.repeating m (n + 1) d c body) (Exec.repeating m' (n' + 1) d c body) := by
  refine ih.condition c fun b => ?_
  cases b with
  | false => exact C.pure _
  | true =>
      refine C.bind (C.inBlock rfl (ih.block d body)) fun flow => ?_
      cases flow with
      | next => exact ih.repeating d c body
      | ret v => exact C.pure _

/-- With more fuel the relation goes on to hold of every rule. -/
theorem succ : C.At (n + 1) (n' + 1) where
  expr d e := C.bind (ih.form d e) fun _ => C.bind (C.note rfl) fun _ => C.pure _
  form := ih.form_succ
  arguments := ih.arguments_succ
  invoke := ih.invoke_succ
  stmt := ih.stmt_succ
  declare := ih.declare_succ
  initial d e := match e with
    | none => C.pure _
    | some e => ih.expr d e
  block := ih.block_succ
  iterate := ih.iterate_succ
  repeating := ih.repeating_succ

/-- The fields of a program are related if the rules are. -/
theorem fields (d : Nat) : ∀ fs, C.decl d (Exec.fields m n d fs) (Exec.fields m' n' d fs)
  | [] => C.decl_of_rel (C.pure ())
  | f :: fs =>
      C.decl_bind (C.decl_bind (C.decl_of_rel (ih.initial d f.value)) fun _ => C.define _ _)
        fun _ => fields d fs

end At

/-- The relation holds of every rule, by induction on the fuel. -/
theorem rules (n : Nat) : C.At n n := by
  induction n with
  | zero =>
      constructor
      case declare | block => intros; exact C.decl_of_rel (C.throw _)
      all_goals intros; exact C.throw _
  | succ n ih => exact ih.succ

theorem fields (fuel d : Nat) (fs : List (Field Mark)) :
    C.decl d (Exec.fields m fuel d fs) (Exec.fields m' fuel d fs) := (C.rules fuel).fields d fs

end Congruence

end QuillLang
