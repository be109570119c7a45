/-
# What is accepted alone is accepted anywhere

A program that is accepted where nothing is lent to it is accepted inside every
embedding program, and checking finds out the same about it: each node has the
same type, the same variable and the same function
(`Checker.check_within`).

A name that means something in the scopes of the program means the same with
more scopes around them, and definitions look at the innermost scope only.  So
a check that succeeds does so step by step in the same way (`Lifts`).  This is
not so for a check that fails: it may have missed a name that an embedding
program lends.
-/
import QuillLang.Proofs.Checked
import QuillLang.Proofs.Soundness

namespace QuillLang

/-- The state of checking, inside an embedding program. -/
def Checker.within (c : Checker) (o : StaticOutside) : Checker :=
  { c with outside := o, enclosing := c.enclosing ++ o.frames }

theorem Checker.within_chain (c : Checker) (o : StaticOutside) :
    (c.within o).chain = c.chain ++ o.frames := rfl

theorem Chain.findVariable?_append {ν φ : Type} {c : Chain ν φ} {x : String} {v : ν}
    (h : findVariable? c x = some v) (around : Chain ν φ) :
    findVariable? (c ++ around) x = some v := by
  unfold findVariable? at h ⊢
  rw [List.findSome?_append, h, Option.some_or]

theorem Chain.findFunction?_append {ν φ : Type} {c : Chain ν φ} {key : FunctionKey} {f : φ}
    (h : findFunction? c key = some f) (around : Chain ν φ) :
    findFunction? (c ++ around) key = some f := by
  unfold findFunction? at h ⊢
  rw [List.findSome?_append, h, Option.some_or]

/-- A check that succeeds where nothing is lent succeeds inside an embedding program, with the
same result and the same changes. -/
def Lifts (o : StaticOutside) {α : Type} (act : Check α) : Prop :=
  ∀ c a d, c.outside = {} → act c = .ok a d →
    d.outside = {} ∧ act (c.within o) = .ok a (d.within o)

namespace Lifts

variable {o : StaticOutside} {α β : Type}

theorem pure (a : α) : Lifts o (Pure.pure a) := by
  rintro c _ _ hc ⟨⟩
  exact ⟨hc, rfl⟩

theorem fail (cause : CheckCause) (place : Place) : Lifts o (Check.fail cause place : Check α) := by
  rintro c a d _ ⟨⟩

theorem ofExcept (r : Except CheckError α) : Lifts o (Check.ofExcept r) := by
  cases r with
  | ok a => exact pure a
  | error e => rintro c a d _ ⟨⟩

theorem bind {x : Check α} {f : α → Check β} (hx : Lifts o x) (hf : ∀ a, Lifts o (f a)) :
    Lifts o (x >>= f) := by
  intro c b e hc h
  obtain ⟨a, d, hx', hf'⟩ := bind_eq_ok.mp h
  obtain ⟨hd, hx'⟩ := hx c a d hc hx'
  obtain ⟨he, hf'⟩ := hf a d b e hd hf'
  exact ⟨he, bind_eq_ok.mpr ⟨a, d.within o, hx', hf'⟩⟩

/-- An action that looks at the state. -/
theorem get {f : Checker → Check α}
    (hf : ∀ c a d, c.outside = {} → f c c = .ok a d →
      d.outside = {} ∧ f (c.within o) (c.within o) = .ok a (d.within o)) :
    Lifts o (MonadState.get >>= f) := by
  intro c a d hc h
  rw [get_bind] at h ⊢
  exact hf c a d hc h

/-! ## Facts and definitions

These steps look at the model and at the innermost scope, and both are the same inside an embedding
program. -/

theorem noteType (e : Expr Mark) (t : Ty) : Lifts o (Check.noteType e t) := by
  refine get fun c a d hc h => ?_
  cases hw : Model.write? c.model.types ⟨e.tag, e.nodeClass, t⟩ with
  | none => rw [hw] at h; cases h
  | some types =>
      rw [hw] at h
      cases h
      rw [show Model.write? (c.within o).model.types ⟨e.tag, e.nodeClass, t⟩ = some types from hw]
      exact ⟨hc, rfl⟩

theorem noteVariable (m : Mark) (node : NodeClass) (v : Variable) :
    Lifts o (Check.noteVariable m node v) := by
  refine get fun c a d hc h => ?_
  cases hw : Model.write? c.model.vars ⟨m, node, v⟩ with
  | none => rw [hw] at h; cases h
  | some vars =>
      rw [hw] at h
      cases h
      rw [show Model.write? (c.within o).model.vars ⟨m, node, v⟩ = some vars from hw]
      exact ⟨hc, rfl⟩

theorem noteFunction (m : Mark) (node : NodeClass) (s : Signature) :
    Lifts o (Check.noteFunction m node s) := by
  refine get fun c a d hc h => ?_
  cases hw : Model.write? c.model.functions ⟨m, node, s⟩ with
  | none => rw [hw] at h; cases h
  | some functions =>
      rw [hw] at h
      cases h
      rw [show Model.write? (c.within o).model.functions ⟨m, node, s⟩ = some functions from hw]
      exact ⟨hc, rfl⟩

theorem defineVariable (x : String) (t : Ty) (m : Mark) :
    Lifts o (Check.defineVariable x t m) := by
  refine get fun c a d hc h => ?_
  cases hw : c.scope.defineVariable x (⟨x, x, t, .node m.id⟩ : Variable) with
  | error key => rw [hw] at h; cases h
  | ok scope =>
      rw [hw] at h
      cases h
      rw [show (c.within o).scope.defineVariable x (⟨x, x, t, .node m.id⟩ : Variable) = .ok scope
        from hw]
      exact ⟨hc, rfl⟩

theorem defineMethod (s : Signature) (place : Place) : Lifts o (Check.defineMethod s place) := by
  refine get fun c a d hc h => ?_
  cases hw : c.scope.defineFunction s.key s with
  | error key => rw [hw] at h; cases h
  | ok scope =>
      rw [hw] at h
      cases h
      rw [show (c.within o).scope.defineFunction s.key s = .ok scope from hw]
      exact ⟨hc, rfl⟩

theorem inScope {act : Check α} (hact : Lifts o act) : Lifts o (Check.inScope act) := by
  intro c a d hc h
  obtain ⟨e, he, rfl⟩ := Check.inScope_ok h
  obtain ⟨hout, he⟩ := hact { c with scope := {}, enclosing := c.chain } a e hc he
  refine ⟨hout, ?_⟩
  unfold Check.inScope
  rw [show act { c.within o with scope := {}, enclosing := (c.within o).chain } =
    .ok a (e.within o) from he]
  rfl

theorem returning {act : Check α} (t : Ty) (hact : Lifts o act) :
    Lifts o (Check.returning t act) := by
  intro c a d hc h
  obtain ⟨e, he, rfl⟩ := Check.returning_ok h
  obtain ⟨hout, he⟩ := hact { c with returnType := some t } a e hc he
  refine ⟨hout, ?_⟩
  unfold Check.returning
  rw [show act { c.within o with returnType := some t } = .ok a (e.within o) from he]
  rfl

/-! ## Names

Looking a name up is where the surroundings could come in.  A name that was found stays found,
since what is lent comes after all scopes of the program; a name that was not found ends the check,
and nothing is claimed then. -/

/-- A variable that is found is found again. -/
theorem findVariable {x : String} {cause : Checker → CheckCause} {place : Place}
    {f : Variable → Check α} (hf : ∀ v, Lifts o (f v)) :
    Lifts o (do
      let c ← MonadState.get
      match Chain.findVariable? c.chain x with
      | none => Check.fail (cause c) place
      | some v => f v) := by
  refine get fun c a d hc h => ?_
  cases hx : Chain.findVariable? c.chain x with
  | none => rw [hx] at h; cases h
  | some v =>
      rw [hx] at h
      rw [c.within_chain, Chain.findVariable?_append hx]
      exact hf v c a d hc h

/-- A function that is found is found again. -/
theorem findFunction {key : FunctionKey} {cause : Checker → CheckCause} {place : Place}
    {f : Signature → Check α} (hf : ∀ s, Lifts o (f s)) :
    Lifts o (do
      let c ← MonadState.get
      match Chain.findFunction? c.chain key with
      | none => Check.fail (cause c) place
      | some s => f s) := by
  refine get fun c a d hc h => ?_
  cases hs : Chain.findFunction? c.chain key with
  | none => rw [hs] at h; cases h
  | some s =>
      rw [hs] at h
      rw [c.within_chain, Chain.findFunction?_append hs]
      exact hf s c a d hc h

/-- Where nothing is lent, no type has fields. -/
theorem field {t : Ty} {x : String} {cause : Checker → CheckCause} {place : Place}
    {f : Variable → Check α} :
    Lifts o (do
      let c ← MonadState.get
      match (c.outside.members t).findVariable? x with
      | none => Check.fail (cause c) place
      | some v => f v) := by
  refine get fun c a d hc h => ?_
  rw [hc, StaticOutside.members_empty_findVariable] at h
  cases h

/-- Where nothing is lent, only strings have methods, and these are the same everywhere. -/
theorem member {t : Ty} {key : FunctionKey} {cause : Checker → CheckCause} {place : Place}
    {f : Signature → Check α} (hf : ∀ s, Lifts o (f s)) :
    Lifts o (do
      let c ← MonadState.get
      match (c.outside.members t).findFunction? key with
      | none => Check.fail (cause c) place
      | some s => f s) := by
  refine get fun c a d hc h => ?_
  rw [hc] at h
  cases hs : (StaticOutside.members {} t).findFunction? key with
  | none => rw [hs] at h; cases h
  | some s =>
      rw [hs] at h
      obtain ⟨rfl, -⟩ := StaticOutside.members_empty_findFunction hs
      rw [show (StaticOutside.members (c.within o).outside .string).findFunction? key = some s
        from hs]
      exact hf s c a d hc h

end Lifts

/-! ## Rules -/

namespace Check

variable {o : StaticOutside}

theorem operation_lifts (place lp rp : Place) (op : Operator) (l r : Ty) :
    Lifts o (operation place op l r lp rp) := by
  unfold operation
  split
  · exact .bind (.ofExcept _) fun _ => .bind (.ofExcept _) fun _ => .pure _
  · split
    · exact .bind (.ofExcept _) fun _ => .bind (.ofExcept _) fun _ =>
        .bind (.ofExcept _) fun _ => .pure _
    · split
      · exact .pure _
      · split
        · exact .bind (.ofExcept _) fun _ => .pure _
        · exact .fail _ _

mutual

theorem expr_lifts : ∀ e : Expr Mark, Lifts o (expr e)
  | .nil m => .noteType _ _
  | .boolean m b => .noteType _ _
  | .character m s => .noteType _ _
  | .string m s => .noteType _ _
  | .integer m n => by
      unfold expr
      split
      · exact .noteType _ _
      · exact .fail _ _
  | .decimal m d => by
      unfold expr
      split
      · exact .fail _ _
      · exact .noteType _ _
  | .group m e => by
      unfold expr
      split
      · exact .bind (expr_lifts e) fun _ => .noteType _ _
      · exact .fail _ _
  | .binary m op l r => by
      unfold expr
      exact .bind (expr_lifts l) fun _ => .bind (expr_lifts r) fun _ =>
        .bind (operation_lifts _ _ _ _ _ _) fun _ => .noteType _ _
  | .var m x => by
      unfold expr
      exact .findVariable fun v =>
        .bind (.noteVariable _ _ _) fun _ => .noteType _ _
  | .field m e x => by
      unfold expr
      refine .bind (expr_lifts e) fun t => ?_
      dsimp only
      exact .field
  | .call m f es => by
      unfold expr
      exact .findFunction fun s =>
        .bind (arguments_lift es s.parameters) fun _ => .bind (.noteFunction _ _ _) fun _ =>
          .noteType _ _
  | .invoke m e f es => by
      unfold expr
      refine .bind (expr_lifts e) fun t => ?_
      dsimp only
      exact .member fun s => .bind (arguments_lift es s.parameters.tail) fun _ =>
        .bind (.noteFunction _ _ _) fun _ => .noteType _ _

theorem arguments_lift : ∀ (es : List (Expr Mark)) (ts : List Ty), Lifts o (arguments es ts)
  | [], _ => by
      unfold arguments
      exact .pure _
  | _ :: _, [] => by
      unfold arguments
      exact .pure _
  | e :: es, t :: ts => by
      unfold arguments
      exact .bind (expr_lifts e) fun _ => .bind (.ofExcept _) fun _ => arguments_lift es ts

end

theorem declare_lifts (mark : Mark) (node : NodeClass) (name : String) (typeName : Option String)
    (value : Option (Expr Mark)) : Lifts o (declare mark node name typeName value) := by
  refine .bind ?_ fun _ => .bind (.defineVariable _ _ _) fun _ => .noteVariable _ _ _
  unfold declaredType
  split
  · exact .ofExcept _
  · exact .bind (.ofExcept _) fun _ => .bind (expr_lifts _) fun _ => .bind (.ofExcept _) fun _ =>
      .pure _
  · exact expr_lifts _
  · exact .fail _ _

mutual

theorem stmt_lifts : ∀ st : Stmt Mark, Lifts o (stmt st)
  | .expr m e => by
      unfold stmt
      split
      · exact .bind (expr_lifts e) fun _ => .pure _
      · exact .fail _ _
  | .declare m x t e => by
      unfold stmt
      exact declare_lifts _ _ _ _ _
  | .assign m l e => by
      unfold stmt
      split
      · exact .bind (expr_lifts l) fun _ => .bind (expr_lifts e) fun _ => .ofExcept _
      · exact .fail _ _
  | .branch m c t e => by
      unfold stmt
      refine .bind (expr_lifts c) fun _ => .bind (.ofExcept _) fun _ => ?_
      split
      · exact .fail _ _
      · exact .bind (.inScope (block_lifts t)) fun _ => .inScope (block_lifts e)
  | .forIn m x e b => by
      unfold stmt
      refine .bind (expr_lifts e) fun _ => ?_
      split
      · split
        · exact .fail _ _
        · exact .inScope (.bind (.defineVariable _ _ _) fun _ => block_lifts b)
      · exact .fail _ _
  | .loop m c b => by
      unfold stmt
      exact .bind (expr_lifts c) fun _ => .bind (.ofExcept _) fun _ => .inScope (block_lifts b)
  | .ret m e => by
      unfold stmt
      refine .get fun c a d hc h => ?_
      rw [show (c.within o).returnType = c.returnType from rfl]
      cases hr : c.returnType with
      | none => rw [hr] at h; cases h
      | some t =>
          rw [hr] at h
          refine Lifts.bind (expr_lifts e) (fun actual => ?_) c a d hc h
          split
          · exact .pure _
          · exact .fail _ _

theorem block_lifts : ∀ ss : List (Stmt Mark), Lifts o (block ss)
  | [] => .pure _
  | s :: ss => by
      unfold block
      exact .bind (stmt_lifts s) fun _ => block_lifts ss

end

theorem resolveTypes_lift (place : Place) : ∀ names, Lifts o (resolveTypes place names)
  | [] => .pure _
  | _ :: names =>
      .bind (.ofExcept _) fun _ => .bind (resolveTypes_lift place names) fun _ => .pure _

theorem parameters_lift (mark : Mark) : ∀ ps, Lifts o (parameters mark ps)
  | [] => .pure _
  | (_, _) :: ps => .bind (.defineVariable _ _ _) fun _ => parameters_lift mark ps

theorem method_lifts (d : Method Mark) : Lifts o (method d) := by
  refine .bind ?_ fun result => .bind (resolveTypes_lift _ _) fun types =>
    .bind (.defineMethod _ _) fun _ => .bind (.noteFunction _ _ _) fun _ =>
      .returning _ (.inScope (.bind (parameters_lift _ _) fun _ => block_lifts d.body))
  cases d.returnType with
  | none => exact .pure _
  | some name => exact .ofExcept _

theorem fields_lift : ∀ fs, Lifts o (fields fs)
  | [] => .pure _
  | _ :: fs => .bind (declare_lifts _ _ _ _ _) fun _ => fields_lift fs

theorem methods_lift : ∀ ds, Lifts o (methods ds)
  | [] => .pure _
  | d :: ds => .bind (method_lifts d) fun _ => methods_lift ds

theorem program_lifts (p : Program Mark) : Lifts o (program p) :=
  .bind (fields_lift p.fields) fun _ => .bind (methods_lift p.methods) fun _ =>
    .findFunction fun _ => .ofExcept _

end Check

/-- A program that is accepted alone has the same model inside every embedding program. -/
theorem Checker.check_within {p : Program Mark} {M : Model}
    (h : ((Checker.start {}).check p).1 = .ok M) (o : StaticOutside) :
    ((Checker.start o).check p).1 = .ok M := by
  unfold Checker.check at h ⊢
  cases hr : Check.program p (Checker.start {}) with
  | error e c =>
      rw [show Check.program p (start (start {}).outside) = .error e c from hr] at h
      cases h
  | ok u c =>
      rw [show Check.program p (start (start {}).outside) = .ok u c from hr] at h
      cases h
      obtain ⟨-, hwithin⟩ := Check.program_lifts (o := o) p _ _ _ rfl hr
      rw [show Check.program p (start (start o).outside) = .ok u (c.within o) from hwithin]
      rfl

end QuillLang
