/-
# Checking keeps to its scopes

A check enters a scope for every block and every method and leaves it at the end,
also where an error ends it.  So after any node, the scopes around the current one
are what they were, and so is the result type that returns are held against.  The
current scope has gained one variable by a field or a declaration, or one function
by a method, and nothing by any other node (`Node.check_keeps_scopes`).

Leaving a block puts back the scopes that were there before it.  This hides
nothing: no rule touches a scope around the one it is in, so it would be enough to
take the scope of the block away (`Check.inScope_eq_nested`).
-/
import QuillLang.Check.Rules
import QuillLang.Proofs.Congruence
import QuillLang.Proofs.Numbering
import QuillLang.Proofs.Outcome
import QuillLang.Proofs.Scopes

namespace QuillLang

/-! ## What is the same after an action

Most actions leave all but the facts as it was, a declaration changes the innermost scope too.
Both relations are carried from step to step in the same way, by reflexivity and transitivity, and
over errors as well. -/

/-- Two states of checking with the same things around the current scope. -/
structure Checker.Around (c d : Checker) : Prop where
  outside : d.outside = c.outside
  enclosing : d.enclosing = c.enclosing
  returnType : d.returnType = c.returnType

/-- Two states of checking that differ in nothing but their facts. -/
structure Checker.Settled (c d : Checker) : Prop extends Checker.Around c d where
  scope : d.scope = c.scope

instance : Std.Refl Checker.Around := ⟨fun _ => ⟨rfl, rfl, rfl⟩⟩

instance : Std.Refl Checker.Settled := ⟨fun _ => ⟨⟨rfl, rfl, rfl⟩, rfl⟩⟩

instance : Trans Checker.Around Checker.Around Checker.Around where
  trans h h' := ⟨h'.outside.trans h.outside, h'.enclosing.trans h.enclosing,
    h'.returnType.trans h.returnType⟩

instance : Trans Checker.Settled Checker.Settled Checker.Settled where
  trans h h' := ⟨Trans.trans h.toAround h'.toAround, h'.scope.trans h.scope⟩

/-- However an action ends, the states before and after it are related. -/
def Preserves (R : Checker → Checker → Prop) {α : Type} (act : Check α) : Prop :=
  ∀ c, Ends (act c) (fun _ d => R c d) fun _ d => R c d

namespace Preserves

variable {R : Checker → Checker → Prop} {α β : Type}

theorem pure [Std.Refl R] (a : α) : Preserves R (Pure.pure a) := fun c => Std.Refl.refl c

theorem throw [Std.Refl R] (e : CheckFailure) :
    Preserves R (MonadExcept.throw e : Check α) := fun c => Std.Refl.refl c

theorem fail [Std.Refl R] (cause : CheckCause) (place : Place) :
    Preserves R (Check.fail cause place : Check α) := throw _

theorem bind [Trans R R R] {x : Check α} {f : α → Check β} (hx : Preserves R x)
    (hf : ∀ a, Preserves R (f a)) : Preserves R (x >>= f) := by
  intro c
  have hrun := hx c
  show Ends (EStateM.bind x f c) _ _
  unfold EStateM.bind
  cases h : x c with
  | error e d => exact hrun.error_of h
  | ok a d =>
      have hd := hrun.ok_of h
      exact (hf a d).imp (fun _ _ h' => Trans.trans hd h') fun _ _ h' => Trans.trans hd h'

theorem get {f : Checker → Check α} (hf : ∀ c, Preserves R (f c)) :
    Preserves R (MonadState.get >>= f) := by
  intro c
  rw [get_bind]
  exact hf c c

/-- What settles an action keeps what is around it. -/
theorem around {act : Check α} (h : Preserves Checker.Settled act) :
    Preserves Checker.Around act :=
  fun c => (h c).imp (fun _ _ h => h.toAround) fun _ _ h => h.toAround

theorem ofExcept [Std.Refl R] (r : Except CheckError α) : Preserves R (Check.ofExcept r) := by
  cases r with
  | ok a => exact pure a
  | error e => exact throw _

theorem require [Std.Refl R] (target actual : Ty) (place : Place) :
    Preserves R (Check.require target actual place) := ofExcept _

/-! ## Facts -/

theorem noteType (e : Expr Mark) (t : Ty) :
    Preserves Checker.Settled (Check.noteType e t) := by
  intro c
  rw [Check.noteType, get_bind]
  cases Model.write? c.model.types ⟨e.tag, e.nodeClass, t⟩ with
  | some types => exact ⟨⟨rfl, rfl, rfl⟩, rfl⟩
  | none => exact Std.Refl.refl c

theorem noteVariable (mark : Mark) (node : NodeClass) (v : Variable) :
    Preserves Checker.Settled (Check.noteVariable mark node v) := by
  intro c
  rw [Check.noteVariable, get_bind]
  cases Model.write? c.model.vars ⟨mark, node, v⟩ with
  | some vars => exact ⟨⟨rfl, rfl, rfl⟩, rfl⟩
  | none => exact Std.Refl.refl c

theorem noteFunction (mark : Mark) (node : NodeClass) (s : Signature) :
    Preserves Checker.Settled (Check.noteFunction mark node s) := by
  intro c
  rw [Check.noteFunction, get_bind]
  cases Model.write? c.model.functions ⟨mark, node, s⟩ with
  | some functions => exact ⟨⟨rfl, rfl, rfl⟩, rfl⟩
  | none => exact Std.Refl.refl c

/-! ## Scopes

At the end of a block its own scope is gone, so whatever was declared in it, the block as a whole
changes no scope. -/

theorem inScope {act : Check α} (h : Preserves Checker.Around act) :
    Preserves Checker.Settled (Check.inScope act) := by
  intro c
  have hact := h { c with scope := {}, enclosing := c.chain }
  unfold Check.inScope
  cases hr : act { c with scope := {}, enclosing := c.chain } with
  | ok a d =>
      have hd := hact.ok_of hr
      exact ⟨⟨hd.outside, rfl, hd.returnType⟩, rfl⟩
  | error e d =>
      have hd := hact.error_of hr
      exact ⟨⟨hd.outside, rfl, hd.returnType⟩, rfl⟩

theorem returning {act : Check α} (t : Ty) (h : Preserves Checker.Settled act) :
    Preserves Checker.Settled (Check.returning t act) := by
  intro c
  have hact := h { c with returnType := some t }
  unfold Check.returning
  cases hr : act { c with returnType := some t } with
  | ok a d =>
      have hd := hact.ok_of hr
      exact ⟨⟨hd.outside, hd.enclosing, rfl⟩, hd.scope⟩
  | error e d =>
      have hd := hact.error_of hr
      exact ⟨⟨hd.outside, hd.enclosing, rfl⟩, hd.scope⟩

end Preserves

/-! ## Expressions -/

namespace Check

theorem operation_settles (place : Place) (op : Operator) (l r : Ty) (lp rp : Place) :
    Preserves Checker.Settled (operation place op l r lp rp) := by
  unfold operation
  split
  · exact .bind (.require _ _ _) fun _ => .bind (.require _ _ _) fun _ => .pure _
  · split
    · exact .bind (.require _ _ _) fun _ => .bind (.require _ _ _) fun _ =>
        .bind (.require _ _ _) fun _ => .pure _
    · split
      · exact .pure _
      · split
        · exact .bind (.require _ _ _) fun _ => .pure _
        · exact .fail _ _

mutual

theorem expr_settles : ∀ e : Expr Mark, Preserves Checker.Settled (expr e)
  | .nil m | .boolean m b | .character m s | .string m s => by
      unfold expr
      exact .noteType _ _
  | .integer m n => by
      unfold expr
      split
      · exact .noteType _ _
      · exact .fail _ _
  | .decimal m d => by
      unfold expr
      split
      · exact .fail _ _
      · exact .noteType _ _
  | .group m e => by
      unfold expr
      split
      · exact .bind (expr_settles e) fun t => .noteType _ _
      · exact .fail _ _
  | .binary m op l r => by
      unfold expr
      exact .bind (expr_settles l) fun lt => .bind (expr_settles r) fun rt =>
        .bind (operation_settles _ _ _ _ _ _) fun t => .noteType _ _
  | .var m x => by
      unfold expr
      refine .get fun c => ?_
      split
      · exact .fail _ _
      · exact .bind (.noteVariable _ _ _) fun _ => .noteType _ _
  | .field m e x => by
      unfold expr
      refine .bind (expr_settles e) fun t => .get fun c => ?_
      dsimp only
      split
      · exact .fail _ _
      · exact .bind (.noteVariable _ _ _) fun _ => .noteType _ _
  | .call m f es => by
      unfold expr
      refine .get fun c => ?_
      split
      · exact .fail _ _
      · next s _ =>
          exact .bind (arguments_settle es s.parameters) fun _ =>
            .bind (.noteFunction _ _ _) fun _ => .noteType _ _
  | .invoke m e f es => by
      unfold expr
      refine .bind (expr_settles e) fun t => .get fun c => ?_
      dsimp only
      split
      · exact .fail _ _
      · next s _ =>
          exact .bind (arguments_settle es s.parameters.tail) fun _ =>
            .bind (.noteFunction _ _ _) fun _ => .noteType _ _

theorem arguments_settle : ∀ (es : List (Expr Mark)) (ts : List Ty),
    Preserves Checker.Settled (arguments es ts)
  | [], _ => by
      unfold arguments
      exact .pure ()
  | e :: es, [] => by
      unfold arguments
      exact .pure ()
  | e :: es, t :: ts => by
      unfold arguments
      exact .bind (expr_settles e) fun actual => .bind (.require _ _ _) fun _ =>
        arguments_settle es ts

end

/-! ## Declarations

A declaration binds its name as the last thing that can fail because of the program.  A fact is
written after that, and to refuse it would come too late to undo the binding. -/

theorem declaredType_settles (place : Place) (name : String) (typeName : Option String)
    (value : Option (Expr Mark)) :
    Preserves Checker.Settled (declaredType place name typeName value) := by
  unfold declaredType
  cases typeName with
  | some typeName =>
      cases value with
      | none => exact .ofExcept _
      | some e =>
          exact .bind (.ofExcept _) fun declared => .bind (expr_settles e) fun actual =>
            .bind (.require _ _ _) fun _ => .pure _
  | none =>
      cases value with
      | some e => exact expr_settles e
      | none => exact .fail _ _

end Check

/-- A scope has one more variable, with a name that it did not have. -/
def Frame.GainsVariable (f g : StaticFrame) (x : String) : Prop :=
  ∃ v : Variable, v.name = x ∧ f.vars.lookup x = none ∧ g = { f with vars := f.vars ++ [(x, v)] }

/-- A scope has one more function, with a key that it did not have. -/
def Frame.GainsFunction (f g : StaticFrame) (key : FunctionKey) : Prop :=
  ∃ s : Signature, s.key = key ∧ f.functions.lookup key = none ∧
    g = { f with functions := f.functions ++ [(key, s)] }

namespace Check

theorem defineVariable_ends (x : String) (t : Ty) (m : Mark) (c : Checker) :
    Ends (defineVariable x t m c)
      (fun _ d => c.Around d ∧ Frame.GainsVariable c.scope d.scope x)
      fun _ d => c.Settled d := by
  rw [defineVariable, get_bind]
  cases h : c.scope.defineVariable x (⟨x, x, t, .node m.id⟩ : Variable) with
  | error key => exact Std.Refl.refl c
  | ok g =>
      obtain ⟨hnone, rfl⟩ := Frame.defineVariable_eq_ok h
      exact ⟨⟨rfl, rfl, rfl⟩, _, rfl, hnone, rfl⟩

theorem defineMethod_ends (s : Signature) (place : Place) (c : Checker) :
    Ends (defineMethod s place c)
      (fun _ d => c.Around d ∧ Frame.GainsFunction c.scope d.scope s.key)
      fun _ d => c.Settled d := by
  rw [defineMethod, get_bind]
  cases h : c.scope.defineFunction s.key s with
  | error key => exact Std.Refl.refl c
  | ok g =>
      obtain ⟨hnone, rfl⟩ := Frame.defineFunction_eq_ok h
      exact ⟨⟨rfl, rfl, rfl⟩, s, rfl, hnone, rfl⟩

/-- A declaration that succeeds gives the current scope its variable.  One that an error of the
program stops gives it none. -/
theorem declare_ends (m : Mark) (node : NodeClass) (x : String) (typeName : Option String)
    (value : Option (Expr Mark)) (c : Checker) :
    Ends (declare m node x typeName value c)
      (fun _ d => c.Around d ∧ Frame.GainsVariable c.scope d.scope x)
      fun e d => c.Around d ∧ (d.scope = c.scope ∨
        (∃ n slot, e = .resolved n slot) ∧ Frame.GainsVariable c.scope d.scope x) := by
  have htype := declaredType_settles m.place x typeName value c
  refine Ends.bind (htype.imp (fun _ _ h => h) fun _ _ h => ⟨h.toAround, .inl h.scope⟩) ?_
  intro t c₁ h₁
  have hdefine := defineVariable_ends x t m c₁
  rw [h₁.scope] at hdefine
  refine Ends.bind (hdefine.imp (fun _ _ h => h) fun _ _ h =>
    ⟨Trans.trans h₁.toAround h.toAround, .inl (h.scope.trans h₁.scope)⟩) ?_
  rintro v c₂ ⟨h₂, hgains⟩
  have haround : c.Around c₂ := Trans.trans h₁.toAround h₂
  rw [noteVariable, get_bind]
  cases Model.write? c₂.model.vars ⟨m, node, v⟩ with
  | some vars => exact ⟨⟨haround.outside, haround.enclosing, haround.returnType⟩, hgains⟩
  | none => exact ⟨haround, .inr ⟨⟨_, _, rfl⟩, hgains⟩⟩

theorem declare_around (m : Mark) (node : NodeClass) (x : String) (typeName : Option String)
    (value : Option (Expr Mark)) :
    Preserves Checker.Around (declare m node x typeName value) :=
  fun c => (declare_ends m node x typeName value c).imp (fun _ _ h => h.1) fun _ _ h => h.1

theorem defineVariable_around (x : String) (t : Ty) (m : Mark) :
    Preserves Checker.Around (defineVariable x t m) :=
  fun c => (defineVariable_ends x t m c).imp (fun _ _ h => h.1) fun _ _ h => h.toAround

theorem declaration_around {s : Stmt Mark} (h : s.isDeclaration = true) :
    Preserves Checker.Around (stmt s) := by
  cases s with
  | declare m x typeName value =>
      unfold stmt
      exact declare_around m .declaration x typeName value
  | _ => cases h

/-! ## Statements

Only declarations change the scope that they are in.  A method does too: it is bound before its
body is checked, so the binding stays if the body is refused. -/

mutual

theorem stmt_settles : ∀ s : Stmt Mark, s.isDeclaration = false →
    Preserves Checker.Settled (stmt s)
  | .expr m e, _ => by
      unfold stmt
      split
      · exact .bind (expr_settles e) fun _ => .pure ()
      · exact .fail _ _
  | .assign m l e, _ => by
      unfold stmt
      split
      · exact .bind (expr_settles l) fun target => .bind (expr_settles e) fun actual =>
          .require _ _ _
      · exact .fail _ _
  | .branch m c t e, _ => by
      unfold stmt
      refine .bind (expr_settles c) fun actual => .bind (.require _ _ _) fun _ => ?_
      split
      · exact .fail _ _
      · exact .bind (.inScope (block_around t)) fun _ => .inScope (block_around e)
  | .forIn m x e b, _ => by
      unfold stmt
      refine .bind (expr_settles e) fun actual => ?_
      split
      · split
        · exact .fail _ _
        · exact .inScope (.bind (defineVariable_around x .integer m) fun _ => block_around b)
      · exact .fail _ _
  | .loop m c b, _ => by
      unfold stmt
      exact .bind (expr_settles c) fun actual => .bind (.require _ _ _) fun _ =>
        .inScope (block_around b)
  | .ret m e, _ => by
      unfold stmt
      refine .get fun c => ?_
      split
      · exact .fail _ _
      · refine .bind (expr_settles e) fun actual => ?_
        split
        · exact .pure ()
        · exact .fail _ _

theorem block_around : ∀ ss : List (Stmt Mark), Preserves Checker.Around (block ss)
  | [] => by
      unfold block
      exact .pure ()
  | s :: ss => by
      unfold block
      refine .bind ?_ fun _ => block_around ss
      cases hs : s.isDeclaration with
      | true => exact declaration_around hs
      | false => exact (stmt_settles s hs).around

end

theorem parameters_around (m : Mark) (ps : List (String × Ty)) :
    Preserves Checker.Around (parameters m ps) := by
  induction ps with
  | nil => exact .pure ()
  | cons p ps ih => exact .bind (defineVariable_around p.1 p.2 m) fun _ => ih

/-- The body of a method or of a loop, and any other block if there are no parameters. -/
theorem body_around (m : Mark) (ps : List (String × Ty)) (ss : List (Stmt Mark)) :
    Preserves Checker.Around (do parameters m ps; block ss) :=
  .bind (parameters_around m ps) fun _ => block_around ss

theorem resolveTypes_ends (place : Place) (names : List String) (c : Checker) :
    Ends (resolveTypes place names c) (fun ts d => ts.length = names.length ∧ d = c)
      fun _ d => d = c := by
  induction names with
  | nil => exact ⟨rfl, rfl⟩
  | cons name names ih =>
      have hname : Ends (resolveType name place c) (fun _ d => d = c) fun _ d => d = c := by
        unfold resolveType
        cases Ty.resolve name place with
        | ok t => exact rfl
        | error e => exact rfl
      refine Ends.bind hname ?_
      rintro t d rfl
      refine Ends.bind ih ?_
      rintro ts d' ⟨hlen, rfl⟩
      exact ⟨congrArg (· + 1) hlen, rfl⟩

theorem resultType_settles (place : Place) (typeName : Option String) :
    Preserves Checker.Settled (resultType place typeName) := by
  cases typeName with
  | some name => exact .ofExcept _
  | none => exact .pure _

/-- A method that succeeds gives the current scope its function, and may have done so when it
fails. -/
theorem method_ends (d : Method Mark) (c : Checker) :
    Ends (method d c)
      (fun _ c' => c.Around c' ∧
        Frame.GainsFunction c.scope c'.scope (d.name, d.parameterTypes.length))
      fun _ c' => c.Around c' ∧ (c'.scope = c.scope ∨
        Frame.GainsFunction c.scope c'.scope (d.name, d.parameterTypes.length)) := by
  have hresult := resultType_settles d.tag.place d.returnType c
  refine Ends.bind (hresult.imp (fun _ _ h => h) fun _ _ h => ⟨h.toAround, .inl h.scope⟩) ?_
  intro result c₀ h₁
  have htypes := resolveTypes_ends d.tag.place d.parameterTypes c₀
  refine Ends.bind (htypes.imp (fun _ _ h => h) ?_) ?_
  · rintro e _ rfl
    exact ⟨h₁.toAround, .inl h₁.scope⟩
  rintro types c₁ ⟨hlen, rfl⟩
  have hdefine := defineMethod_ends ⟨d.name, d.name, types, result, .node d.tag.id⟩ d.tag.place c₁
  rw [h₁.scope, show (Signature.key ⟨d.name, d.name, types, result, .node d.tag.id⟩) = _ from
    congrArg (Prod.mk d.name) hlen] at hdefine
  refine Ends.bind (hdefine.imp (fun _ _ h => h) fun _ _ h =>
    ⟨Trans.trans h₁.toAround h.toAround, .inl (h.scope.trans h₁.scope)⟩) ?_
  rintro _ c₂ ⟨h₂, hgains⟩
  -- the function is bound, and what is left to do keeps to scopes of its own
  have hrest : Preserves Checker.Settled (do
      noteFunction d.tag .method ⟨d.name, d.name, types, result, .node d.tag.id⟩
      returning result <| inScope do
        parameters d.tag (d.parameters.zip types)
        block d.body) :=
    .bind (.noteFunction _ _ _) fun _ => .returning result (.inScope (body_around _ _ _))
  have haround : c.Around c₂ := Trans.trans h₁.toAround h₂
  refine (hrest c₂).imp (fun _ _ h => ?_) fun _ _ h => ?_
  · exact ⟨Trans.trans haround h.toAround, h.scope ▸ hgains⟩
  · exact ⟨Trans.trans haround h.toAround, .inr (h.scope ▸ hgains)⟩

/-! ## Blocks that only lose their own scope

To put back the scopes from before a block could hide that the block has changed them.  It does
not, and so it would be the same to take away the innermost scope. -/

/-- A block in a scope of its own, at the end of which this scope is taken away and all others
stay as the block leaves them. -/
def nested {α : Type} (act : Check α) : Check α := fun c =>
  match act { c with scope := {}, enclosing := c.chain } with
  | .ok a d => .ok a { d with scope := d.enclosing.headD {}, enclosing := d.enclosing.tail }
  | .error e d => .error e { d with scope := d.enclosing.headD {}, enclosing := d.enclosing.tail }

theorem inScope_eq_nested {α : Type} {act : Check α} (h : Preserves Checker.Around act) :
    inScope act = nested act := by
  funext c
  have hact := h { c with scope := {}, enclosing := c.chain }
  unfold inScope nested
  cases hr : act { c with scope := {}, enclosing := c.chain } with
  | ok a d =>
      dsimp only
      rw [(hact.ok_of hr).enclosing]
      rfl
  | error e d =>
      dsimp only
      rw [(hact.error_of hr).enclosing]
      rfl

end Check

/-! ## Nodes -/

namespace Node

/-- Check a node. -/
def check : Node Mark → Check Unit
  | .field f => Check.field f
  | .method d => Check.method d
  | .stmt s => Check.stmt s
  | .expr e => do let _ ← Check.expr e

/-- What a node that is checked with success does to the current scope. -/
def Binds : Node Mark → StaticFrame → StaticFrame → Prop
  | .field f, k, k' => Frame.GainsVariable k k' f.name
  | .stmt (.declare _ x _ _), k, k' => Frame.GainsVariable k k' x
  | .method d, k, k' => Frame.GainsFunction k k' (d.name, d.parameterTypes.length)
  | .stmt _, k, k' | .expr _, k, k' => k' = k

/-- What a node may have done to the current scope when its check fails.  An error of the program
leaves the scope as it was, unless it is one in the body of a method.  A second fact for one node is
refused only after the node has bound its name. -/
def MayBind (node : Node Mark) (k k' : StaticFrame) : CheckFailure → Prop
  | .error _ => k' = k ∨ (∃ d, node = .method d) ∧ node.Binds k k'
  | .resolved .. => k' = k ∨ node.Binds k k'

theorem MayBind.unchanged {node : Node Mark} {k k' : StaticFrame} {e : CheckFailure}
    (h : k' = k) : node.MayBind k k' e := by
  cases e <;> exact .inl h

theorem MayBind.refused {node : Node Mark} {k k' : StaticFrame} {e : CheckFailure}
    (h : k' = k ∨ (∃ n slot, e = .resolved n slot) ∧ node.Binds k k') : node.MayBind k k' e := by
  rcases h with h | ⟨⟨n, slot, rfl⟩, h⟩
  · exact .unchanged h
  · exact .inr h

theorem MayBind.method {d : Method Mark} {k k' : StaticFrame} {e : CheckFailure}
    (h : k' = k ∨ (Node.method d).Binds k k') : (Node.method d).MayBind k k' e := by
  cases e with
  | error e => exact h.imp_right fun h => ⟨⟨d, rfl⟩, h⟩
  | resolved n slot => exact h

/-- However the check of a node ends, the scopes around the current one are the same after it, and
so is the result type of returns.  The current scope has gained one variable by a field or a
declaration that succeeds, and none by one that fails; one function by a method that succeeds, and
at most one by a method that fails; and nothing by any other node.  Blocks do not touch the scopes
around them, either, while they are checked. -/
theorem check_keeps_scopes (node : Node Mark) (c : Checker) :
    Ends (node.check c)
      (fun _ d => c.Around d ∧ node.Binds c.scope d.scope)
      (fun e d => c.Around d ∧ node.MayBind c.scope d.scope e) ∧
    ∀ m ps ss, Check.inScope (do Check.parameters m ps; Check.block ss) =
      Check.nested (do Check.parameters m ps; Check.block ss) := by
  refine ⟨?_, fun m ps ss => Check.inScope_eq_nested (Check.body_around m ps ss)⟩
  cases node with
  | expr e =>
      have hexpr := Preserves.bind (Check.expr_settles e) fun _ => .pure ()
      exact (hexpr c).imp (fun _ _ h => ⟨h.toAround, h.scope⟩)
        fun _ _ h => ⟨h.toAround, .unchanged h.scope⟩
  | field f =>
      exact (Check.declare_ends f.tag .field f.name f.typeName f.value c).imp (fun _ _ h => h)
        fun _ _ h => ⟨h.1, .refused h.2⟩
  | method d =>
      exact (Check.method_ends d c).imp (fun _ _ h => h) fun _ _ h => ⟨h.1, .method h.2⟩
  | stmt s =>
      cases hs : s.isDeclaration with
      | true =>
          cases s with
          | declare m x typeName value =>
              rw [check, Check.stmt]
              exact (Check.declare_ends m .declaration x typeName value c).imp (fun _ _ h => h)
                fun _ _ h => ⟨h.1, .refused h.2⟩
          | _ => cases hs
      | false =>
          have hbinds : ∀ k, (Node.stmt s).Binds k k := by
            intro k
            cases s with
            | declare m x typeName value => cases hs
            | _ => rfl
          exact (Check.stmt_settles s hs c).imp
            (fun _ _ h => ⟨h.toAround, h.scope ▸ hbinds _⟩)
            fun _ _ h => ⟨h.toAround, .unchanged h.scope⟩

end Node

end QuillLang
