/-
# What a successful check proves

A check that succeeds leaves a model in which the program is well typed by the
rules of `QuillLang.Proofs.Typing`.  The walk writes the facts one at a time,
and the rules ask for all of them at once; what reconciles the two is that a
fact, once written, stays (`Model.Within`).  So every statement below is about
any later model, and only the program as a whole is about the last one.
-/
import QuillLang.Proofs.Outcome
import QuillLang.Proofs.Typing

namespace QuillLang

/-! ## Facts that stay

Facts are only ever added, and none is written over another, so a model that comes later answers
every question that an earlier one answers, and in the same way. -/

/-- Every fact of one model is a fact of another. -/
structure Model.Within (m n : Model) : Prop where
  types : ∀ id t, m.typeOf? id = some t → n.typeOf? id = some t
  vars : ∀ id v, m.variableOf? id = some v → n.variableOf? id = some v
  functions : ∀ id s, m.functionOf? id = some s → n.functionOf? id = some s

theorem Model.Within.refl (m : Model) : m.Within m :=
  ⟨fun _ _ h => h, fun _ _ h => h, fun _ _ h => h⟩

theorem Model.Within.trans {m n k : Model} (h : m.Within n) (h' : n.Within k) : m.Within k :=
  ⟨fun id t hm => h'.types id t (h.types id t hm), fun id v hm => h'.vars id v (h.vars id v hm),
    fun id s hm => h'.functions id s (h.functions id s hm)⟩

theorem Model.fact?_cons {β : Type} (e : Entry β) (es : List (Entry β)) (id : Nat) :
    fact? (e :: es) id = if e.mark.id = id then some e.fact else fact? es id := by
  by_cases h : e.mark.id = id <;> simp [fact?, h]

/-- A fact is written for a node that has none, and no other fact is touched. -/
theorem Model.write?_eq_some {β : Type} {es es' : List (Entry β)} {e : Entry β}
    (h : write? es e = some es') :
    fact? es' e.mark.id = some e.fact ∧ ∀ id x, fact? es id = some x → fact? es' id = some x := by
  unfold write? at h
  split at h
  · cases h
  · next hnone =>
      cases h
      refine ⟨by simp [fact?_cons], fun id x hx => ?_⟩
      have hne : e.mark.id ≠ id := fun heq => hnone (by simp [heq, hx])
      simp [fact?_cons, hne, hx]

/-! ## The state of the walk

Checking an expression changes nothing but the model.  A declaration adds to the innermost scope as
well, and neither touches the scopes around it. -/

/-- One state of checking comes after another at the same level of scope. -/
structure Checker.Grows (c d : Checker) : Prop where
  outside : d.outside = c.outside
  enclosing : d.enclosing = c.enclosing
  returnType : d.returnType = c.returnType
  model : c.model.Within d.model

/-- One state of checking comes after another, and no name is bound between them. -/
structure Checker.Keeps (c d : Checker) : Prop extends Checker.Grows c d where
  scope : d.scope = c.scope

namespace Checker

theorem Grows.trans {c d e : Checker} (h : c.Grows d) (h' : d.Grows e) : c.Grows e :=
  ⟨h'.outside.trans h.outside, h'.enclosing.trans h.enclosing, h'.returnType.trans h.returnType,
    h.model.trans h'.model⟩

theorem Keeps.refl (c : Checker) : c.Keeps c := ⟨⟨rfl, rfl, rfl, .refl _⟩, rfl⟩

theorem Keeps.trans {c d e : Checker} (h : c.Keeps d) (h' : d.Keeps e) : c.Keeps e :=
  ⟨h.toGrows.trans h'.toGrows, h'.scope.trans h.scope⟩

theorem Keeps.chain {c d : Checker} (h : c.Keeps d) : d.chain = c.chain := by
  simp [Checker.chain, h.scope, h.enclosing]

end Checker

namespace Check

/-! ## Single steps

For each step that the rules are made of, what is known after it has succeeded.  These are the only
lemmas that look at how a step is carried out. -/

theorem ofExcept_ok {α : Type} {r : Except CheckError α} {c d : Checker} {a : α}
    (h : ofExcept r c = .ok a d) : r = .ok a ∧ d = c := by
  cases r with
  | ok b => cases h; exact ⟨rfl, rfl⟩
  | error e => cases h

theorem require_ok {target actual : Ty} {place : Place} {c d : Checker} {u : Unit}
    (h : require target actual place c = .ok u d) : target.mismatch? actual = none ∧ d = c := by
  obtain ⟨hr, hd⟩ := ofExcept_ok h
  refine ⟨?_, hd⟩
  unfold Ty.require at hr
  split at hr
  · assumption
  · cases hr

theorem require_boolean_ok {actual : Ty} {place : Place} {c d : Checker} {u : Unit}
    (h : require .boolean actual place c = .ok u d) : actual = .boolean ∧ d = c := by
  obtain ⟨hm, hd⟩ := require_ok h
  refine ⟨?_, hd⟩
  by_contra hne
  simp [Ty.mismatch?, hne] at hm

theorem resolveType_ok {name : String} {place : Place} {c d : Checker} {t : Ty}
    (h : resolveType name place c = .ok t d) : Ty.ofName? name = some t ∧ d = c := by
  obtain ⟨hr, hd⟩ := ofExcept_ok h
  refine ⟨?_, hd⟩
  unfold Ty.resolve at hr
  split at hr
  · cases hr; assumption
  · cases hr

theorem resolveTypes_ok {place : Place} {c d : Checker} :
    ∀ {names : List String} {ts : List Ty}, resolveTypes place names c = .ok ts d →
      List.Forall₂ (fun name t => Ty.ofName? name = some t) names ts ∧ d = c
  | [], _, h => by cases h; exact ⟨.nil, rfl⟩
  | name :: names, ts, h => by
      rw [resolveTypes] at h
      obtain ⟨t, c₁, ht, h⟩ := bind_eq_ok.mp h
      obtain ⟨us, c₂, hus, h⟩ := bind_eq_ok.mp h
      cases h
      obtain ⟨hname, rfl⟩ := resolveType_ok ht
      obtain ⟨hnames, rfl⟩ := resolveTypes_ok hus
      exact ⟨.cons hname hnames, rfl⟩

theorem noteType_ok {e : Expr Mark} {t u : Ty} {c d : Checker} (h : noteType e t c = .ok u d) :
    u = t ∧ c.Keeps d ∧ d.model.typeOf? e.tag.id = some t := by
  rw [noteType] at h
  obtain ⟨c₁, _, hget, h⟩ := bind_eq_ok.mp h
  cases hget
  cases hw : Model.write? c.model.types ⟨e.tag, e.nodeClass, t⟩ with
  | none => rw [hw] at h; cases h
  | some types =>
      rw [hw] at h
      cases h
      obtain ⟨hnew, hold⟩ := Model.write?_eq_some hw
      exact ⟨rfl, ⟨⟨rfl, rfl, rfl, hold, fun _ _ h => h, fun _ _ h => h⟩, rfl⟩, hnew⟩

theorem noteVariable_ok {m : Mark} {node : NodeClass} {v : Variable} {c d : Checker} {u : Unit}
    (h : noteVariable m node v c = .ok u d) :
    c.Keeps d ∧ d.model.variableOf? m.id = some v := by
  rw [noteVariable] at h
  obtain ⟨c₁, _, hget, h⟩ := bind_eq_ok.mp h
  cases hget
  cases hw : Model.write? c.model.vars ⟨m, node, v⟩ with
  | none => rw [hw] at h; cases h
  | some vars =>
      rw [hw] at h
      cases h
      obtain ⟨hnew, hold⟩ := Model.write?_eq_some hw
      exact ⟨⟨⟨rfl, rfl, rfl, fun _ _ h => h, hold, fun _ _ h => h⟩, rfl⟩, hnew⟩

theorem noteFunction_ok {m : Mark} {node : NodeClass} {s : Signature} {c d : Checker} {u : Unit}
    (h : noteFunction m node s c = .ok u d) :
    c.Keeps d ∧ d.model.functionOf? m.id = some s := by
  rw [noteFunction] at h
  obtain ⟨c₁, _, hget, h⟩ := bind_eq_ok.mp h
  cases hget
  cases hw : Model.write? c.model.functions ⟨m, node, s⟩ with
  | none => rw [hw] at h; cases h
  | some functions =>
      rw [hw] at h
      cases h
      obtain ⟨hnew, hold⟩ := Model.write?_eq_some hw
      exact ⟨⟨⟨rfl, rfl, rfl, fun _ _ h => h, fun _ _ h => h, hold⟩, rfl⟩, hnew⟩

theorem defineVariable_ok {x : String} {t : Ty} {m : Mark} {c d : Checker} {v : Variable}
    (h : defineVariable x t m c = .ok v d) :
    v = .ofNode m.id x t ∧ c.Grows d ∧ c.scope.defineVariable x v = .ok d.scope ∧
      d.model = c.model := by
  rw [defineVariable] at h
  obtain ⟨c₁, _, hget, h⟩ := bind_eq_ok.mp h
  cases hget
  cases hw : c.scope.defineVariable x (⟨x, x, t, .node m.id⟩ : Variable) with
  | error key => simp only [hw] at h; cases h
  | ok scope =>
      simp only [hw] at h
      cases h
      exact ⟨rfl, ⟨rfl, rfl, rfl, .refl _⟩, hw, rfl⟩

theorem defineMethod_ok {s : Signature} {place : Place} {c d : Checker} {u : Unit}
    (h : defineMethod s place c = .ok u d) :
    c.Grows d ∧ c.scope.defineFunction s.key s = .ok d.scope := by
  rw [defineMethod] at h
  obtain ⟨c₁, _, hget, h⟩ := bind_eq_ok.mp h
  cases hget
  cases hw : c.scope.defineFunction s.key s with
  | error key => rw [hw] at h; cases h
  | ok scope =>
      rw [hw] at h
      cases h
      exact ⟨⟨rfl, rfl, rfl, .refl _⟩, rfl⟩

/-- A block is checked in an empty scope of its own, and the scopes around it are as before. -/
theorem inScope_ok {α : Type} {act : Check α} {c d : Checker} {a : α}
    (h : inScope act c = .ok a d) :
    ∃ e, act { c with scope := {}, enclosing := c.chain } = .ok a e ∧
      d = { e with scope := c.scope, enclosing := c.enclosing } := by
  unfold inScope at h
  split at h
  · next b e hact => cases h; exact ⟨e, hact, rfl⟩
  · cases h

theorem returning_ok {α : Type} {t : Ty} {act : Check α} {c d : Checker} {a : α}
    (h : returning t act c = .ok a d) :
    ∃ e, act { c with returnType := some t } = .ok a e ∧
      d = { e with returnType := c.returnType } := by
  unfold returning at h
  split at h
  · next b e hact => cases h; exact ⟨e, hact, rfl⟩
  · cases h

/-! ## Expressions

By induction on the tree.  Every part is well typed in any model after its own check, and the model
at the end comes after all of them. -/

theorem operation_ok {place lp rp : Place} {op : Operator} {l r t : Ty} {c d : Checker}
    (h : operation place op l r lp rp c = .ok t d) : op.Combines l r t ∧ d = c := by
  unfold operation at h
  split at h
  · next hlogical =>
      obtain ⟨_, c₁, runL, h₁⟩ := bind_eq_ok.mp h
      obtain ⟨_, c₂, runR, h₂⟩ := bind_eq_ok.mp h₁
      cases h₂
      obtain ⟨rfl, rfl⟩ := require_boolean_ok runL
      obtain ⟨rfl, rfl⟩ := require_boolean_ok runR
      exact ⟨.logical hlogical, rfl⟩
  · next hlogical =>
      split at h
      · next hcomparison =>
          obtain ⟨_, c₁, runL, h₁⟩ := bind_eq_ok.mp h
          obtain ⟨_, c₂, runR, h₂⟩ := bind_eq_ok.mp h₁
          obtain ⟨_, c₃, runLR, h₃⟩ := bind_eq_ok.mp h₂
          cases h₃
          obtain ⟨hl, rfl⟩ := require_ok runL
          obtain ⟨hr, rfl⟩ := require_ok runR
          obtain ⟨hlr, rfl⟩ := require_ok runLR
          exact ⟨.comparison hcomparison (by simpa [Ty.mismatch?] using hl)
            (by simpa [Ty.mismatch?] using hr) hlr, rfl⟩
      · next hcomparison =>
          split at h
          · next htext =>
              cases h
              simp only [Bool.and_eq_true, Bool.or_eq_true, decide_eq_true_eq] at htext
              obtain ⟨rfl, htext⟩ := htext
              exact ⟨.text htext, rfl⟩
          · split at h
            · next hnumber =>
                obtain ⟨_, c₁, runLR, h₁⟩ := bind_eq_ok.mp h
                cases h₁
                obtain ⟨hlr, rfl⟩ := require_ok runLR
                simp only [Bool.or_eq_true, decide_eq_true_eq] at hnumber
                have hsame : r = l := by
                  rcases hnumber with rfl | rfl <;> simpa [Ty.mismatch?] using hlr
                subst hsame
                exact ⟨.arithmetic (by simpa using hlogical) (by simpa using hcomparison) hnumber,
                  rfl⟩
            · cases h

mutual

/-- An expression that is accepted with a type has that type, in any later model. -/
theorem expr_typed : ∀ (e : Expr Mark) {t : Ty} {c d : Checker}, expr e c = .ok t d →
    c.Keeps d ∧ ∀ M, d.model.Within M → HasType c.outside M c.chain e t
  | .nil m, t, c, d, h => by
      obtain ⟨rfl, hk, ht⟩ := noteType_ok h
      exact ⟨hk, fun M hM => .nil (hM.types _ _ ht)⟩
  | .boolean m b, t, c, d, h => by
      obtain ⟨rfl, hk, ht⟩ := noteType_ok h
      exact ⟨hk, fun M hM => .boolean (hM.types _ _ ht)⟩
  | .character m s, t, c, d, h => by
      obtain ⟨rfl, hk, ht⟩ := noteType_ok h
      exact ⟨hk, fun M hM => .character (hM.types _ _ ht)⟩
  | .string m s, t, c, d, h => by
      obtain ⟨rfl, hk, ht⟩ := noteType_ok h
      exact ⟨hk, fun M hM => .string (hM.types _ _ ht)⟩
  | .integer m n, t, c, d, h => by
      rw [expr] at h
      split at h
      · next hfits =>
          obtain ⟨rfl, hk, ht⟩ := noteType_ok h
          exact ⟨hk, fun M hM => .integer hfits (hM.types _ _ ht)⟩
      · cases h
  | .decimal m n, t, c, d, h => by
      rw [expr] at h
      split at h
      · cases h
      · next hover =>
          obtain ⟨rfl, hk, ht⟩ := noteType_ok h
          exact ⟨hk, fun M hM => .decimal (by simpa using hover) (hM.types _ _ ht)⟩
  | .group m e, t, c, d, h => by
      rw [expr] at h
      split at h
      · next hbinary =>
          obtain ⟨u, c₁, runE, h₁⟩ := bind_eq_ok.mp h
          obtain ⟨hk, he⟩ := expr_typed e runE
          obtain ⟨rfl, hk', ht⟩ := noteType_ok h₁
          exact ⟨hk.trans hk', fun M hM =>
            .group hbinary (he M (hk'.model.trans hM)) (hM.types _ _ ht)⟩
      · cases h
  | .binary m op l r, t, c, d, h => by
      rw [expr] at h
      obtain ⟨lt, c₁, runL, h₁⟩ := bind_eq_ok.mp h
      obtain ⟨rt, c₂, runR, h₂⟩ := bind_eq_ok.mp h₁
      obtain ⟨u, c₃, runOp, h₃⟩ := bind_eq_ok.mp h₂
      obtain ⟨hkl, hl⟩ := expr_typed l runL
      obtain ⟨hkr, hr⟩ := expr_typed r runR
      obtain ⟨hop, rfl⟩ := operation_ok runOp
      obtain ⟨rfl, hk, ht⟩ := noteType_ok h₃
      rw [hkl.outside, hkl.chain] at hr
      exact ⟨(hkl.trans hkr).trans hk, fun M hM =>
        .binary (hl M ((hkr.trans hk).model.trans hM)) (hr M (hk.model.trans hM)) hop
          (hM.types _ _ ht)⟩
  | .var m x, t, c, d, h => by
      rw [expr] at h
      obtain ⟨c₁, _, hget, h⟩ := bind_eq_ok.mp h
      cases hget
      cases hx : Chain.findVariable? c.chain x with
      | none => rw [hx] at h; cases h
      | some v =>
          rw [hx] at h
          obtain ⟨_, c₁, runV, h₁⟩ := bind_eq_ok.mp h
          obtain ⟨hk, hv⟩ := noteVariable_ok runV
          obtain ⟨rfl, hk', ht⟩ := noteType_ok h₁
          exact ⟨hk.trans hk', fun M hM =>
            .var hx ((hk'.model.trans hM).vars _ _ hv) (hM.types _ _ ht)⟩
  | .field m e x, t, c, d, h => by
      rw [expr] at h
      obtain ⟨u, c₁, runE, h₁⟩ := bind_eq_ok.mp h
      obtain ⟨hk, he⟩ := expr_typed e runE
      obtain ⟨c₂, _, hget, h₂⟩ := bind_eq_ok.mp h₁
      cases hget
      rw [hk.outside] at h₂
      cases hx : (c.outside.members u).findVariable? x with
      | none => simp only [hx] at h₂; cases h₂
      | some v =>
          simp only [hx] at h₂
          obtain ⟨_, c₂, runV, h₃⟩ := bind_eq_ok.mp h₂
          obtain ⟨hk', hv⟩ := noteVariable_ok runV
          obtain ⟨rfl, hk'', ht⟩ := noteType_ok h₃
          exact ⟨(hk.trans hk').trans hk'', fun M hM =>
            .field (he M ((hk'.trans hk'').model.trans hM)) hx
              ((hk''.model.trans hM).vars _ _ hv) (hM.types _ _ ht)⟩
  | .call m f es, t, c, d, h => by
      rw [expr] at h
      obtain ⟨c₁, _, hget, h⟩ := bind_eq_ok.mp h
      cases hget
      cases hf : Chain.findFunction? c.chain (f, es.length) with
      | none => rw [hf] at h; cases h
      | some s =>
          rw [hf] at h
          obtain ⟨_, c₁, runEs, h₁⟩ := bind_eq_ok.mp h
          obtain ⟨hk, hes⟩ := arguments_typed es s.parameters runEs
          obtain ⟨_, c₂, runS, h₂⟩ := bind_eq_ok.mp h₁
          obtain ⟨hk', hs⟩ := noteFunction_ok runS
          obtain ⟨rfl, hk'', ht⟩ := noteType_ok h₂
          exact ⟨(hk.trans hk').trans hk'', fun M hM =>
            .call hf (hes M ((hk'.trans hk'').model.trans hM))
              ((hk''.model.trans hM).functions _ _ hs) (hM.types _ _ ht)⟩
  | .invoke m e f es, t, c, d, h => by
      rw [expr] at h
      obtain ⟨u, c₁, runE, h₁⟩ := bind_eq_ok.mp h
      obtain ⟨hk, he⟩ := expr_typed e runE
      obtain ⟨c₂, _, hget, h₂⟩ := bind_eq_ok.mp h₁
      cases hget
      rw [hk.outside] at h₂
      cases hf : (c.outside.members u).findFunction? (f, es.length + 1) with
      | none => simp only [hf] at h₂; cases h₂
      | some s =>
          simp only [hf] at h₂
          obtain ⟨_, c₂, runEs, h₃⟩ := bind_eq_ok.mp h₂
          obtain ⟨hk', hes⟩ := arguments_typed es s.parameters.tail runEs
          obtain ⟨_, c₃, runS, h₄⟩ := bind_eq_ok.mp h₃
          obtain ⟨hk'', hs⟩ := noteFunction_ok runS
          obtain ⟨rfl, hk₃, ht⟩ := noteType_ok h₄
          rw [hk.outside, hk.chain] at hes
          exact ⟨((hk.trans hk').trans hk'').trans hk₃, fun M hM =>
            .invoke (he M (((hk'.trans hk'').trans hk₃).model.trans hM)) hf
              (hes M ((hk''.trans hk₃).model.trans hM))
              ((hk₃.model.trans hM).functions _ _ hs) (hM.types _ _ ht)⟩

theorem arguments_typed : ∀ (es : List (Expr Mark)) (ts : List Ty) {c d : Checker} {u : Unit},
    arguments es ts c = .ok u d →
      c.Keeps d ∧ ∀ M, d.model.Within M → TakesArguments c.outside M c.chain es ts
  | [], ts, c, d, _, h => by
      cases h; exact ⟨.refl c, fun M _ => .noArgument⟩
  | e :: es, [], c, d, _, h => by
      cases h; exact ⟨.refl c, fun M _ => .noParameter⟩
  | e :: es, t :: ts, c, d, _, h => by
      rw [arguments] at h
      obtain ⟨actual, c₁, runE, h₁⟩ := bind_eq_ok.mp h
      obtain ⟨_, c₂, runReq, h₂⟩ := bind_eq_ok.mp h₁
      obtain ⟨hk, he⟩ := expr_typed e runE
      obtain ⟨hr, rfl⟩ := require_ok runReq
      obtain ⟨hk', hes⟩ := arguments_typed es ts h₂
      rw [hk.outside, hk.chain] at hes
      exact ⟨hk.trans hk', fun M hM => .more (he M (hk'.model.trans hM)) hr (hes M hM)⟩

end

/-! ## Statements -/

theorem declaredType_ok {place : Place} {x : String} {typeName : Option String}
    {value : Option (Expr Mark)} {t : Ty} {c d : Checker}
    (h : declaredType place x typeName value c = .ok t d) :
    c.Keeps d ∧ ∀ M, d.model.Within M → DeclaresType c.outside M c.chain typeName value t := by
  cases typeName with
  | none =>
      cases value with
      | none => cases h
      | some e =>
          obtain ⟨hk, he⟩ := expr_typed e h
          exact ⟨hk, fun M hM => .inferred (he M hM)⟩
  | some name =>
      cases value with
      | none =>
          obtain ⟨ht, rfl⟩ := resolveType_ok h
          exact ⟨.refl _, fun M _ => .named ht⟩
      | some e =>
          rw [declaredType] at h
          obtain ⟨u, c₁, runT, h₁⟩ := bind_eq_ok.mp h
          obtain ⟨actual, c₂, runE, h₂⟩ := bind_eq_ok.mp h₁
          obtain ⟨_, c₃, runReq, h₃⟩ := bind_eq_ok.mp h₂
          cases h₃
          obtain ⟨ht, rfl⟩ := resolveType_ok runT
          obtain ⟨hk, he⟩ := expr_typed e runE
          obtain ⟨hr, rfl⟩ := require_ok runReq
          exact ⟨hk, fun M hM => .both ht (he M hM) hr⟩

theorem declare_ok {m : Mark} {node : NodeClass} {x : String} {typeName : Option String}
    {value : Option (Expr Mark)} {c d : Checker} {u : Unit}
    (h : declare m node x typeName value c = .ok u d) :
    c.Grows d ∧ ∃ t, c.scope.defineVariable x (.ofNode m.id x t) = .ok d.scope ∧
      d.model.variableOf? m.id = some (.ofNode m.id x t) ∧
      ∀ M, d.model.Within M → DeclaresType c.outside M c.chain typeName value t := by
  rw [declare] at h
  obtain ⟨t, c₁, runT, h₁⟩ := bind_eq_ok.mp h
  obtain ⟨v, c₂, runV, h₂⟩ := bind_eq_ok.mp h₁
  obtain ⟨hk, ht⟩ := declaredType_ok runT
  obtain ⟨rfl, hg, hdef, _⟩ := defineVariable_ok runV
  obtain ⟨hk', hv⟩ := noteVariable_ok h₂
  rw [hk.scope] at hdef
  refine ⟨(hk.toGrows.trans hg).trans hk'.toGrows, t, ?_, hv, fun M hM => ?_⟩
  · rw [hk'.scope]; exact hdef
  · exact ht M ((hg.model.trans hk'.model).trans hM)

/-- A body that is checked in a scope of its own leaves the scopes around it as they were, and is
well typed in any later model. -/
theorem inScope_typed {act : Check Unit} {c d : Checker} {u : Unit} {f : StaticFrame}
    {body : List (Stmt Mark)} (h : inScope act c = .ok u d)
    (hact : ∀ e, act { c with scope := {}, enclosing := c.chain } = .ok u e →
      Checker.Grows { c with scope := {}, enclosing := c.chain } e ∧ ∀ M, e.model.Within M →
        BlockOk c.outside M c.returnType f c.chain body e.scope) :
    c.Keeps d ∧ ∃ g, ∀ M, d.model.Within M →
      BlockOk c.outside M c.returnType f c.chain body g := by
  obtain ⟨e, he, rfl⟩ := inScope_ok h
  obtain ⟨hg, hbody⟩ := hact e he
  exact ⟨⟨⟨hg.outside, rfl, hg.returnType, hg.model⟩, rfl⟩, e.scope, hbody⟩

/-- The body of a loop over elements begins with the loop variable. -/
theorem loopBody_typed {m : Mark} {x : String} {body : List (Stmt Mark)} {c d : Checker} {u : Unit}
    (hbody : ∀ c₁ d, block body c₁ = .ok u d → c₁.Grows d ∧ ∀ M, d.model.Within M →
      BlockOk c₁.outside M c₁.returnType c₁.scope c₁.enclosing body d.scope)
    (h : (do let _ ← defineVariable x .integer m; block body : Check Unit)
      { c with scope := {}, enclosing := c.chain } = .ok u d) :
    Checker.Grows { c with scope := {}, enclosing := c.chain } d ∧ ∀ M, d.model.Within M →
      BlockOk c.outside M c.returnType { vars := [(x, .ofNode m.id x .integer)] } c.chain body
        d.scope := by
  obtain ⟨v, c₁, runV, h₁⟩ := bind_eq_ok.mp h
  obtain ⟨rfl, hg, hdef, _⟩ := defineVariable_ok runV
  obtain ⟨hg', hblock⟩ := hbody c₁ d h₁
  have hscope : c₁.scope = { vars := [(x, .ofNode m.id x .integer)] } :=
    (Except.ok.inj hdef).symm
  simp only [hscope, hg.outside, hg.returnType, hg.enclosing] at hblock
  exact ⟨hg.trans hg', hblock⟩

mutual

/-- A statement that is accepted is well typed, in any later model. -/
theorem stmt_typed : ∀ (s : Stmt Mark) {c d : Checker} {u : Unit}, stmt s c = .ok u d →
    c.Grows d ∧ ∀ M, d.model.Within M →
      StmtOk c.outside M c.returnType c.scope c.enclosing s d.scope
  | .expr m e, c, d, _, h => by
      rw [stmt] at h
      split at h
      · next hcall =>
          obtain ⟨t, c₁, runE, h₁⟩ := bind_eq_ok.mp h
          cases h₁
          obtain ⟨hk, he⟩ := expr_typed e runE
          refine ⟨hk.toGrows, fun M hM => ?_⟩
          rw [hk.scope]
          exact .expr hcall (he M hM)
      · cases h
  | .declare m x typeName value, c, d, _, h => by
      rw [stmt] at h
      obtain ⟨hg, t, hdef, hv, ht⟩ := declare_ok h
      exact ⟨hg, fun M hM => .declare (ht M hM) hdef (hM.vars _ _ hv)⟩
  | .assign m l e, c, d, _, h => by
      rw [stmt] at h
      split at h
      · next htarget =>
          obtain ⟨target, c₁, runL, h₁⟩ := bind_eq_ok.mp h
          obtain ⟨actual, c₂, runE, h₂⟩ := bind_eq_ok.mp h₁
          obtain ⟨hkl, hl⟩ := expr_typed l runL
          obtain ⟨hke, he⟩ := expr_typed e runE
          obtain ⟨hr, rfl⟩ := require_ok h₂
          rw [hkl.outside, hkl.chain] at he
          have hk := hkl.trans hke
          refine ⟨hk.toGrows, fun M hM => ?_⟩
          rw [hk.scope]
          exact .assign htarget (hl M (hke.model.trans hM)) (he M hM) hr
      · cases h
  | .branch m cond thenBody elseBody, c, d, _, h => by
      rw [stmt] at h
      obtain ⟨actual, c₁, runC, h₁⟩ := bind_eq_ok.mp h
      obtain ⟨_, c₂, runReq, h₂⟩ := bind_eq_ok.mp h₁
      obtain ⟨hk, hc⟩ := expr_typed cond runC
      obtain ⟨rfl, rfl⟩ := require_boolean_ok runReq
      split at h₂
      · cases h₂
      · next hempty =>
          obtain ⟨_, c₃, runT, h₃⟩ := bind_eq_ok.mp h₂
          obtain ⟨hk₁, _, hthen⟩ := inScope_typed runT fun _ => block_typed thenBody
          obtain ⟨hk₂, _, helse⟩ := inScope_typed h₃ fun _ => block_typed elseBody
          simp only [hk.outside, hk.returnType, hk.chain] at hthen
          simp only [hk₁.outside, hk₁.returnType, hk₁.chain, hk.outside, hk.returnType,
            hk.chain] at helse
          have hall := (hk.trans hk₁).trans hk₂
          refine ⟨hall.toGrows, fun M hM => ?_⟩
          rw [hall.scope]
          exact .branch (hc M ((hk₁.trans hk₂).model.trans hM)) (by simpa using hempty)
            (hthen M (hk₂.model.trans hM)) (helse M hM)
  | .forIn m x e body, c, d, _, h => by
      rw [stmt] at h
      obtain ⟨actual, c₁, runE, h₁⟩ := bind_eq_ok.mp h
      obtain ⟨hk, he⟩ := expr_typed e runE
      split at h₁
      · next hiter =>
          subst hiter
          split at h₁
          · cases h₁
          · next hempty =>
              obtain ⟨hk', _, hbody⟩ := inScope_typed h₁ fun _ => loopBody_typed
                fun _ _ => block_typed body
              simp only [hk.outside, hk.returnType, hk.chain] at hbody
              have hall := hk.trans hk'
              refine ⟨hall.toGrows, fun M hM => ?_⟩
              rw [hall.scope]
              exact .forIn (he M (hk'.model.trans hM)) (by simpa using hempty) (hbody M hM)
      · cases h₁
  | .loop m cond body, c, d, _, h => by
      rw [stmt] at h
      obtain ⟨actual, c₁, runC, h₁⟩ := bind_eq_ok.mp h
      obtain ⟨_, c₂, runReq, h₂⟩ := bind_eq_ok.mp h₁
      obtain ⟨hk, hc⟩ := expr_typed cond runC
      obtain ⟨rfl, rfl⟩ := require_boolean_ok runReq
      obtain ⟨hk₁, _, hbody⟩ := inScope_typed h₂ fun _ => block_typed body
      simp only [hk.outside, hk.returnType, hk.chain] at hbody
      have hall := hk.trans hk₁
      refine ⟨hall.toGrows, fun M hM => ?_⟩
      rw [hall.scope]
      exact .loop (hc M (hk₁.model.trans hM)) (hbody M hM)
  | .ret m e, c, d, _, h => by
      rw [stmt] at h
      obtain ⟨c₁, _, hget, h₁⟩ := bind_eq_ok.mp h
      cases hget
      cases hret : c.returnType with
      | none => rw [hret] at h₁; cases h₁
      | some t =>
          simp only [hret] at h₁
          obtain ⟨actual, c₁, runE, h₂⟩ := bind_eq_ok.mp h₁
          obtain ⟨hk, he⟩ := expr_typed e runE
          cases hm : t.mismatch? actual with
          | some reason => simp only [hm] at h₂; cases h₂
          | none =>
              simp only [hm] at h₂
              cases h₂
              refine ⟨hk.toGrows, fun M hM => ?_⟩
              rw [hk.scope]
              exact .ret rfl (he M hM) hm

theorem block_typed : ∀ (ss : List (Stmt Mark)) {c d : Checker} {u : Unit},
    block ss c = .ok u d → c.Grows d ∧ ∀ M, d.model.Within M →
      BlockOk c.outside M c.returnType c.scope c.enclosing ss d.scope
  | [], c, d, _, h => by
      cases h; exact ⟨(Checker.Keeps.refl c).toGrows, fun M _ => .nil⟩
  | s :: ss, c, d, _, h => by
      rw [block] at h
      obtain ⟨_, c₁, runS, h₁⟩ := bind_eq_ok.mp h
      obtain ⟨hg, hs⟩ := stmt_typed s runS
      obtain ⟨hg', hss⟩ := block_typed ss h₁
      rw [hg.outside, hg.returnType, hg.enclosing] at hss
      exact ⟨hg.trans hg', fun M hM => .cons (hs M (hg'.model.trans hM)) (hss M hM)⟩

end

/-! ## Declarations

The scope of the program grows from field to field and from method to method, with what is lent
right around it.  A method is bound before its body is checked, so that it may call itself. -/

theorem fields_typed : ∀ (fs : List (Field Mark)) {c d : Checker} {u : Unit},
    fields fs c = .ok u d → c.enclosing = c.outside.frames →
      c.Grows d ∧ ∀ M, d.model.Within M → FieldsOk c.outside M c.scope fs d.scope
  | [], c, d, _, h, _ => by
      cases h; exact ⟨(Checker.Keeps.refl c).toGrows, fun M _ => .nil⟩
  | f :: fs, c, d, _, h, hout => by
      rw [fields] at h
      obtain ⟨_, c₁, runF, h₁⟩ := bind_eq_ok.mp h
      obtain ⟨hg, t, hdef, hv, ht⟩ := declare_ok runF
      obtain ⟨hg', hfs⟩ := fields_typed fs h₁ (by rw [hg.enclosing, hg.outside, hout])
      rw [hg.outside] at hfs
      simp only [Checker.chain, hout] at ht
      exact ⟨hg.trans hg', fun M hM =>
        .cons (ht M (hg'.model.trans hM)) hdef ((hg'.model.trans hM).vars _ _ hv) (hfs M hM)⟩

theorem resultType_ok {place : Place} {name : Option String} {t : Ty} {c d : Checker}
    (h : resultType place name c = .ok t d) : resultType? name = some t ∧ d = c := by
  cases name with
  | none => cases h; exact ⟨rfl, rfl⟩
  | some name => exact resolveType_ok h

theorem parameters_ok {m : Mark} : ∀ {ps : List (String × Ty)} {c d : Checker} {u : Unit},
    parameters m ps c = .ok u d →
      c.Grows d ∧ parameterFrame m.id ps c.scope = .ok d.scope ∧ d.model = c.model
  | [], c, d, _, h => by
      cases h; exact ⟨(Checker.Keeps.refl c).toGrows, rfl, rfl⟩
  | (x, t) :: ps, c, d, _, h => by
      rw [parameters] at h
      obtain ⟨v, c₁, runV, h₁⟩ := bind_eq_ok.mp h
      obtain ⟨rfl, hg, hdef, hmodel⟩ := defineVariable_ok runV
      obtain ⟨hg', hps, hmodel'⟩ := parameters_ok h₁
      refine ⟨hg.trans hg', ?_, hmodel'.trans hmodel⟩
      simp only [parameterFrame, hdef]
      exact hps

theorem method_typed {m : Method Mark} {c d : Checker} {u : Unit} (h : method m c = .ok u d)
    (hout : c.enclosing = c.outside.frames) :
    c.Grows d ∧ ∃ types result, ∀ M, d.model.Within M →
      MethodOk c.outside M c.scope m types result d.scope := by
  rw [method] at h
  obtain ⟨result, c₁, runR, h₁⟩ := bind_eq_ok.mp h
  obtain ⟨types, c₂, runT, h₂⟩ := bind_eq_ok.mp h₁
  obtain ⟨_, c₃, runD, h₃⟩ := bind_eq_ok.mp h₂
  obtain ⟨_, c₄, runN, h₄⟩ := bind_eq_ok.mp h₃
  obtain ⟨hresult, rfl⟩ := resultType_ok runR
  obtain ⟨htypes, rfl⟩ := resolveTypes_ok runT
  obtain ⟨hgd, hbound⟩ := defineMethod_ok runD
  obtain ⟨hkn, hnoted⟩ := noteFunction_ok runN
  obtain ⟨c₅, hret, hd⟩ := returning_ok h₄
  obtain ⟨c₆, hin, hc₅⟩ := inScope_ok hret
  obtain ⟨_, c₇, runP, h₅⟩ := bind_eq_ok.mp hin
  obtain ⟨hgp, hparams, hmodel⟩ := parameters_ok runP
  obtain ⟨hgb, hbody⟩ := block_typed m.body h₅
  have hg := hgp.trans hgb
  have hscope : d.scope = c₃.scope := by rw [hd, hc₅]; exact hkn.scope
  have hmodel' : d.model = c₆.model := by rw [hd, hc₅]
  have hgd' : c₄.Grows d :=
    ⟨by rw [hd, hc₅]; exact hg.outside, by rw [hd, hc₅], by rw [hd],
      hmodel' ▸ hg.model⟩
  simp only [hgp.outside, hgp.returnType, hgp.enclosing, Checker.chain, hkn.scope, hkn.outside,
    hkn.enclosing, hgd.outside, hgd.enclosing, hout] at hbody
  refine ⟨(hgd.trans hkn.toGrows).trans hgd', types, result, fun M hM => ?_⟩
  exact
    { resolvesResult := hresult
      resolvesTypes := htypes
      bound := hscope ▸ hbound
      noted := (hgd'.model.trans hM).functions _ _ hnoted
      body := ⟨c₇.scope, c₆.scope, hparams, hscope ▸ hbody M (hmodel' ▸ hM)⟩ }

theorem methods_typed : ∀ (ms : List (Method Mark)) {c d : Checker} {u : Unit},
    methods ms c = .ok u d → c.enclosing = c.outside.frames →
      c.Grows d ∧ ∀ M, d.model.Within M → MethodsOk c.outside M c.scope ms d.scope
  | [], c, d, _, h, _ => by
      cases h; exact ⟨(Checker.Keeps.refl c).toGrows, fun M _ => .nil⟩
  | m :: ms, c, d, _, h, hout => by
      rw [methods] at h
      obtain ⟨_, c₁, runM, h₁⟩ := bind_eq_ok.mp h
      obtain ⟨hg, types, result, hm⟩ := method_typed runM hout
      obtain ⟨hg', hms⟩ := methods_typed ms h₁ (by rw [hg.enclosing, hg.outside, hout])
      rw [hg.outside] at hms
      exact ⟨hg.trans hg', fun M hM => .cons (hm M (hg'.model.trans hM)) (hms M hM)⟩

end Check

/-- A program that is accepted is well typed in the model that is found. -/
theorem Checker.check_typed {c d : Checker} {p : Program Mark} {M : Model}
    (h : c.check p = (.ok M, d)) : ∃ f g, ProgramOk c.outside M p f g := by
  unfold Checker.check at h
  split at h
  · next e hp =>
      cases h
      rw [Check.program] at hp
      obtain ⟨_, c₁, runF, h₁⟩ := bind_eq_ok.mp hp
      obtain ⟨_, c₂, runM, h₂⟩ := bind_eq_ok.mp h₁
      obtain ⟨_, _, hget, h₃⟩ := bind_eq_ok.mp h₂
      cases hget
      obtain ⟨hgf, hf⟩ := Check.fields_typed p.fields runF rfl
      obtain ⟨hgm, hm⟩ := Check.methods_typed p.methods runM
        (by rw [hgf.enclosing, hgf.outside]; rfl)
      cases hmain : Chain.findFunction? c₂.chain ("main", 0) with
      | none => rw [hmain] at h₃; cases h₃
      | some s =>
          rw [hmain] at h₃
          obtain ⟨hr, rfl⟩ := Check.require_ok h₃
          have henclosing : d.enclosing = c.outside.frames := by
            rw [hgm.enclosing, hgf.enclosing]; rfl
          rw [hgf.outside] at hm
          refine ⟨c₁.scope, d.scope, hf _ hgm.model, hm _ (.refl _), s, ?_, ?_⟩
          · rw [← henclosing]; exact hmain
          · by_contra hne
            simp [Ty.mismatch?, hne] at hr
  · cases h

end QuillLang
