/-
# A run keeps to its types

A well-typed expression gives a value of its type, and a well-typed statement
leaves a state that agrees with the scopes after it, or else the run stops for
a reason that types do not rule out.  Nothing is lent to the program here.

All rules of a run call each other through the fuel, so the proof is one
induction on it.  `SoundAt n` says the above of every rule with fuel `n`; a
lemma for each rule goes from `n` to `n + 1`.
-/
import QuillLang.Proofs.Agreement

namespace QuillLang

/-! ## Members without an embedding program

No type has fields, and the methods of strings are all there is to call on a receiver. -/

theorem StaticOutside.members_empty_findVariable (t : Ty) (x : String) :
    (StaticOutside.members {} t).findVariable? x = none := by
  cases t <;> rfl

/-- Only strings have methods, and they have two. -/
theorem StaticOutside.members_empty_findFunction {t : Ty} {key : FunctionKey} {s : Signature}
    (h : (StaticOutside.members {} t).findFunction? key = some s) :
    t = .string ∧
      (key = ("slice", 3) ∧ s = sliceSignature ∨ key = ("length", 1) ∧ s = lengthSignature) := by
  cases t with
  | string =>
      refine ⟨rfl, ?_⟩
      obtain ⟨l₁, l₂, hmem, -⟩ := List.lookup_eq_some_iff.mp h
      have hin : (key, s) ∈ stringMembers.functions :=
        hmem ▸ List.mem_append_right _ List.mem_cons_self
      have hin : (key, s) = (sliceSignature.key, sliceSignature) ∨
          (key, s) = (lengthSignature.key, lengthSignature) := by
        simpa [stringMembers] using hin
      exact hin.imp Prod.mk.inj Prod.mk.inj
  | _ => cases h

namespace World

variable {w : World} {G : Globals} {m : Machine} {Γ : List StaticFrame} {s : State}
  {fs : List (FunctionKey × Signature)}

/-! ## Single steps

Each action of the rules, from a state that agrees with the scopes.  What it looks up is there, and
what it changes keeps the agreement. -/

theorem requireBoolean_ends {v : Value} {place : Place} (hv : v.Sound .boolean)
    (hs : w.Agrees G Γ s) :
    Ends (Exec.requireBoolean v place s) (fun _ t => w.Agrees G Γ t) (w.Stopped m) := by
  rcases hv.boolean_cases with rfl | ⟨b, rfl⟩
  · exact hs.stopped (.inl rfl)
  · exact hs

theorem lookup_ends {x : String} {place : Place} {v : Variable} {R : Halt → State → Prop}
    (hs : w.Agrees G Γ s) (hx : Chain.findVariable? (Γ ++ [G.seen fs]) x = some v) :
    Ends (Exec.lookup x place s) (fun c t => t = s ∧ w.Binds v c) R := by
  obtain ⟨c, hc, hb⟩ := hs.findVariable hx
  have hrun : Exec.lookup x place s = .ok c s := by
    unfold Exec.lookup
    rw [get_bind, hc]
    rfl
  rw [hrun]
  exact ⟨rfl, hb⟩

/-- A variable that can be defined is, and that is recorded. -/
theorem define_of_ok {c : Cell} {place : Place} {t : State} (h : s.define c.name c = .ok t) :
    Exec.define m c place s = Exec.note m (.write c.toVariable c.value) t := by
  unfold Exec.define
  rw [get_bind, h]
  rfl

theorem define_ends {f f' : StaticFrame} {c : Cell} {v : Variable} {place : Place}
    {R : Halt → State → Prop} (hs : w.Agrees G (f :: Γ) s)
    (hf : f.defineVariable c.name v = .ok f') (hb : w.Binds v c) :
    Ends (Exec.define m c place s) (fun _ t => w.Agrees G (f' :: Γ) t) R := by
  obtain ⟨t, ht, hagree⟩ := hs.define hf hb
  rw [define_of_ok ht]
  exact hagree.note (by rintro id v ⟨⟩)

theorem assign_ends {c : Cell} {x : String} {v : Variable} {u : Value} {R : Halt → State → Prop}
    (hs : w.Agrees G Γ s) (hx : Chain.findVariable? (Γ ++ [G.seen fs]) x = some v)
    (hu : u.Sound v.type) :
    Ends (Exec.assign m c x u s) (fun _ t => w.Agrees G Γ t) R :=
  Agrees.note (hs.assign hx hu) (by rintro id v ⟨⟩)

theorem inBlock_ends {α : Type} {act : Exec α} {g : RunFrame} {Q : α → State → Prop}
    (h : Ends (act { s with locals := g :: s.locals })
      (fun a t => Q a { t with locals := t.locals.tail }) (w.Stopped m)) :
    Ends (Exec.inBlock g act s) Q (w.Stopped m) := by
  unfold Exec.inBlock
  cases hr : act { s with locals := g :: s.locals } with
  | ok a t => exact h.ok_of hr
  | error e t => exact (h.error_of hr).leave

theorem inMethod_ends {α : Type} {act : Exec α} {g : RunFrame} {Q : α → State → Prop}
    (hs : w.Agrees G Γ s)
    (h : Ends (act { s with locals := [g], suspended := s.locals ++ s.suspended })
      (fun a t => Q a { t with locals := s.locals, suspended := s.suspended }) (w.Stopped m)) :
    Ends (Exec.inMethod g act s) Q (w.Stopped m) := by
  unfold Exec.inMethod
  cases hr : act { s with locals := [g], suspended := s.locals ++ s.suspended } with
  | ok a t => exact h.ok_of hr
  | error e t => exact (h.error_of hr).back hs

theorem noteFrame_ends {R : Halt → State → Prop} :
    ∀ (cs : List (String × Cell)) {s : State}, w.Agrees G Γ s →
      Ends (Exec.noteFrame m cs s) (fun _ t => w.Agrees G Γ t) R
  | [], _, hs => hs
  | (_, c) :: cs, _, hs => by
      refine Ends.bind (hs.note (by rintro id v ⟨⟩)) ?_
      intro _ t ht
      exact noteFrame_ends cs ht

theorem print_ends {v : Value} (hs : w.Agrees G Γ s) :
    Ends (Exec.print v s) (fun _ t => w.Agrees G Γ t) (w.Stopped m) := by
  unfold Exec.print
  cases v.text? with
  | some text => exact ⟨hs.locals, hs.vars, hs.functions, hs.outside, hs.suspended, hs.trace⟩
  | none => exact hs.stopped rfl

/-- A failure with no place of its own may get any. -/
theorem relocating_ends {α : Type} {r : Except Halt α} {place : Place} {Q : α → Prop}
    (hs : w.Agrees G Γ s) (h : Yields r Q (·.Excused fun _ _ _ => False)) :
    Ends (Exec.relocating place (Exec.ofExcept r) s) (fun a t => Q a ∧ w.Agrees G Γ t)
      (w.Stopped m) := by
  cases r with
  | ok a => exact ⟨h, hs⟩
  | error e =>
      cases e with
      | error e =>
          have hcause : e.cause.Excused := by
            rcases h with h | ⟨_, _, _, h⟩
            · exact h
            · exact h.elim
          refine hs.stopped (.inl ?_)
          unfold EvalError.relocate
          split <;> exact hcause
      | digits limit => exact hs.stopped h
      | outOfFuel => exact hs.stopped trivial
      | _ => exact h.elim

/-! ## Parameters

The frame of a call is filled like the scope of the method was, parameter by parameter, with values
of the declared types. -/

/-- Arguments of the types of the parameters fill the frame of a call. -/
theorem bindParameters_agree {mark : Mark} :
    ∀ {ps : List String} {types : List Ty} {args : List Value} {f inner : StaticFrame}
      {g : RunFrame}, w.FrameAgrees f g →
      parameterFrame mark.id (ps.zip types) f = .ok inner → List.Forall₂ Value.Sound args types →
      (∀ b ∈ ps.zip types, w.program.Declares w.model (.ofNode mark.id b.1 b.2)) →
      ∃ frame, bindParameters mark (ps.zip (types.zip args)) g = .ok frame ∧
        w.FrameAgrees inner frame
  | [], _, _, f, inner, g, hfg, hf, _, _ => by
      cases hf
      exact ⟨g, rfl, hfg⟩
  | _ :: _, _, _, f, inner, g, hfg, hf, .nil, _ => by
      cases hf
      exact ⟨g, rfl, hfg⟩
  | x :: ps, t :: types, v :: args, f, inner, g, hfg, hf, .cons hv hargs, hdecl => by
      simp only [List.zip_cons_cons, parameterFrame] at hf
      split at hf
      · next f' hdef =>
          have hb : w.Binds (.ofNode mark.id x t) (Cell.declare mark x t v) :=
            ⟨hdecl (x, t) (by simp), rfl, rfl, hv⟩
          obtain ⟨g', hg', hagree⟩ := hfg.define hdef hb
          obtain ⟨frame, hframe, hinner⟩ :=
            bindParameters_agree hagree hf hargs fun b hb => hdecl b (by simp [hb])
          refine ⟨frame, ?_, hinner⟩
          simp only [List.zip_cons_cons, bindParameters, hg']
          exact hframe
      · cases hf

/-! ## The rules with a given fuel

A statement may end the method, and then the innermost scope is one that nobody looks at any more;
otherwise it is the scope that the check had after the statement. -/

/-- What holds after the body of a method, back in the scopes of its caller. -/
def ReturnOk (w : World) (G : Globals) (R : Ty) (Γ : List StaticFrame) : Flow → State → Prop
  | .next, s => w.Agrees G Γ s
  | .ret v, s => v.Sound R ∧ w.Agrees G Γ s

/-- How a statement may end in a method with results of type `R`: the next one follows in the
scope `f`, or the method returns a value of its type. -/
def FlowOk (w : World) (G : Globals) (R : Ty) (f : StaticFrame) (Γ : List StaticFrame) :
    Flow → State → Prop
  | .next, s => w.Agrees G (f :: Γ) s
  | .ret v, s => v.Sound R ∧ ∃ g, w.Agrees G (g :: Γ) s

/-- Every rule keeps to the types, with fuel `n`. -/
structure SoundAt (w : World) (G : Globals) (m : Machine) (n : Nat) : Prop where
  expr : ∀ {depth : Nat} {Γ : List StaticFrame} {fs : List (FunctionKey × Signature)}
    {e : Expr Mark} {t : Ty} {s : State}, G.Covers fs →
    HasType {} w.model (Γ ++ [G.seen fs]) e t → w.program.HasExpr e → w.Agrees G Γ s →
    Ends (Exec.expr m n depth e s) (fun v s' => v.Sound t ∧ w.Agrees G Γ s') (w.Stopped m)
  form : ∀ {depth : Nat} {Γ : List StaticFrame} {fs : List (FunctionKey × Signature)}
    {e : Expr Mark} {t : Ty} {s : State}, G.Covers fs →
    HasType {} w.model (Γ ++ [G.seen fs]) e t → w.program.HasExpr e → w.Agrees G Γ s →
    Ends (Exec.form m n depth e s) (fun v s' => v.Sound t ∧ w.Agrees G Γ s') (w.Stopped m)
  arguments : ∀ {depth : Nat} {Γ : List StaticFrame} {fs : List (FunctionKey × Signature)}
    {es : List (Expr Mark)} {ts : List Ty} {s : State}, G.Covers fs →
    TakesArguments {} w.model (Γ ++ [G.seen fs]) es ts → es.length = ts.length →
    (∀ e ∈ es, w.program.HasExpr e) → w.Agrees G Γ s →
    Ends (Exec.arguments m n depth es s)
      (fun vs s' => List.Forall₂ Value.Sound vs ts ∧ w.Agrees G Γ s') (w.Stopped m)
  invoke : ∀ {depth : Nat} {Γ : List StaticFrame} {key : FunctionKey} {g : Function}
    {vs : List Value} {s : State}, w.FunctionOk G key g →
    List.Forall₂ Value.Sound vs g.parameters → w.Agrees G Γ s →
    Ends (Exec.invoke m n depth g vs s) (fun v s' => v.Sound g.result ∧ w.Agrees G Γ s')
      (w.Stopped m)
  stmt : ∀ {depth : Nat} {Γ : List StaticFrame} {fs : List (FunctionKey × Signature)} {R : Ty}
    {f f' : StaticFrame} {st : Stmt Mark} {s : State}, G.Covers fs →
    StmtOk {} w.model (some R) f (Γ ++ [G.seen fs]) st f' → w.program.HasStmt st →
    w.Agrees G (f :: Γ) s → Ends (Exec.stmt m n depth st s) (w.FlowOk G R f' Γ) (w.Stopped m)
  initial : ∀ {depth : Nat} {Γ : List StaticFrame} {fs : List (FunctionKey × Signature)}
    {typeName : Option String} {value : Option (Expr Mark)} {t : Ty} {s : State}, G.Covers fs →
    DeclaresType {} w.model (Γ ++ [G.seen fs]) typeName value t →
    (∀ e, value = some e → w.program.HasExpr e) → w.Agrees G Γ s →
    Ends (Exec.initial m n depth value s) (fun v s' => v.Sound t ∧ w.Agrees G Γ s') (w.Stopped m)
  block : ∀ {depth : Nat} {Γ : List StaticFrame} {fs : List (FunctionKey × Signature)} {R : Ty}
    {f f' : StaticFrame} {ss : List (Stmt Mark)} {s : State}, G.Covers fs →
    BlockOk {} w.model (some R) f (Γ ++ [G.seen fs]) ss f' → (∀ st ∈ ss, w.program.HasStmt st) →
    w.Agrees G (f :: Γ) s → Ends (Exec.block m n depth ss s) (w.FlowOk G R f' Γ) (w.Stopped m)
  repeating : ∀ {depth : Nat} {Γ : List StaticFrame} {fs : List (FunctionKey × Signature)} {R : Ty}
    {f g : StaticFrame} {c : Expr Mark} {body : List (Stmt Mark)} {s : State}, G.Covers fs →
    HasType {} w.model (f :: Γ ++ [G.seen fs]) c .boolean → w.program.HasExpr c →
    BlockOk {} w.model (some R) {} (f :: Γ ++ [G.seen fs]) body g →
    (∀ st ∈ body, w.program.HasStmt st) → w.Agrees G (f :: Γ) s →
    Ends (Exec.repeating m n depth c body s) (w.FlowOk G R f Γ) (w.Stopped m)

/-! ## Expressions -/

section

variable {n depth : Nat}

theorem expr_sound (ih : w.SoundAt G m n) (hfs : G.Covers fs) {e : Expr Mark} {t : Ty}
    (he : HasType {} w.model (Γ ++ [G.seen fs]) e t) (hmem : w.program.HasExpr e)
    (hs : w.Agrees G Γ s) :
    Ends (Exec.expr m (n + 1) depth e s) (fun v s' => v.Sound t ∧ w.Agrees G Γ s')
      (w.Stopped m) := by
  simp only [Exec.expr]
  refine Ends.bind (ih.form hfs he hmem hs) ?_
  rintro v s₁ ⟨hv, hs₁⟩
  refine Ends.bind (hs₁.note ?_) fun _ s₂ hs₂ => Ends.pure ⟨hv, hs₂⟩
  rintro id v' ⟨⟩
  exact ⟨e, t, hmem, rfl, he.typeOf, hv⟩

/-- An operator with two operands that are always both computed. -/
theorem form_binary {t : Mark} {op : Operator} {l r : Expr Mark} (hop : op.isLogical = false) :
    Exec.form m (n + 1) depth (.binary t op l r) =
      (Exec.expr m n depth l >>= fun left => Exec.expr m n depth r >>= fun right =>
        Exec.ofExcept (op.apply m.scale t.place left right)) := by
  cases op <;> first | rfl | cases hop

theorem ofExcept_ends {α : Type} {r : Except Halt α} {Q : α → Prop} (hs : w.Agrees G Γ s)
    (h : Yields r Q (·.ExcusedAt m.scale (w.program.MixedAt w.model))) :
    Ends (Exec.ofExcept r s) (fun a t => Q a ∧ w.Agrees G Γ t) (w.Stopped m) := by
  cases r with
  | ok a => exact ⟨h, hs⟩
  | error e => exact ⟨hs.live, hs.trace, h⟩

/-- A condition is computed, and what it decides follows. -/
theorem condition_sound (ih : w.SoundAt G m n) (hfs : G.Covers fs) {c : Expr Mark}
    (hc : HasType {} w.model (Γ ++ [G.seen fs]) c .boolean) (hmem : w.program.HasExpr c)
    (hs : w.Agrees G Γ s) {α : Type} {rest : Bool → Exec α} {Q : α → State → Prop}
    (hrest : ∀ b t, w.Agrees G Γ t → Ends (rest b t) Q (w.Stopped m)) :
    Ends ((Exec.expr m n depth c >>= fun v => Exec.requireBoolean v c.tag.place >>= rest) s)
      Q (w.Stopped m) := by
  refine Ends.bind (ih.expr hfs hc hmem hs) ?_
  rintro v s₁ ⟨hv, hs₁⟩
  exact Ends.bind (requireBoolean_ends hv hs₁) hrest

/-- The second operand of a logical operator decides. -/
theorem logicalRest_sound (ih : w.SoundAt G m n) (hfs : G.Covers fs) {r : Expr Mark}
    (hr : HasType {} w.model (Γ ++ [G.seen fs]) r .boolean) (hmem : w.program.HasExpr r)
    (hs : w.Agrees G Γ s) :
    Ends ((do
        let right ← Exec.requireBoolean (← Exec.expr m n depth r) r.tag.place
        return .boolean right : Exec Value) s)
      (fun v s' => v.Sound .boolean ∧ w.Agrees G Γ s') (w.Stopped m) := by
  refine condition_sound ih hfs hr hmem hs fun b s₁ hs₁ => Ends.pure ⟨?_, hs₁⟩
  exact .of_kind (by simp [Value.Plain, Value.kind]) rfl

theorem logical_sound (ih : w.SoundAt G m n) (hfs : G.Covers fs) {t : Mark} {op : Operator}
    {l r : Expr Mark} (hop : op.isLogical = true)
    (hl : HasType {} w.model (Γ ++ [G.seen fs]) l .boolean)
    (hr : HasType {} w.model (Γ ++ [G.seen fs]) r .boolean)
    (hmem : w.program.HasExpr (.binary t op l r)) (hs : w.Agrees G Γ s) :
    Ends (Exec.form m (n + 1) depth (.binary t op l r) s)
      (fun v s' => v.Sound .boolean ∧ w.Agrees G Γ s') (w.Stopped m) := by
  have hb : ∀ b, (Value.boolean b).Sound .boolean :=
    fun b => .of_kind (by simp [Value.Plain, Value.kind]) rfl
  cases op with
  | and =>
      simp only [Exec.form]
      refine condition_sound ih hfs hl hmem.left hs ?_
      rintro (_ | _) s₁ hs₁
      · exact ⟨hb _, hs₁⟩
      · exact logicalRest_sound ih hfs hr hmem.right hs₁
  | or =>
      simp only [Exec.form]
      refine condition_sound ih hfs hl hmem.left hs ?_
      rintro (_ | _) s₁ hs₁
      · exact logicalRest_sound ih hfs hr hmem.right hs₁
      · exact ⟨hb _, hs₁⟩
  | _ => cases hop

theorem binary_sound (ih : w.SoundAt G m n) (hfs : G.Covers fs) {t : Mark}
    {op : Operator} {l r : Expr Mark} {lt rt u : Ty} (hop : op.isLogical = false)
    (hl : HasType {} w.model (Γ ++ [G.seen fs]) l lt)
    (hr : HasType {} w.model (Γ ++ [G.seen fs]) r rt) (hc : op.Combines lt rt u)
    (hmem : w.program.HasExpr (.binary t op l r)) (hs : w.Agrees G Γ s) :
    Ends (Exec.form m (n + 1) depth (.binary t op l r) s)
      (fun v s' => v.Sound u ∧ w.Agrees G Γ s') (w.Stopped m) := by
  rw [form_binary hop]
  refine Ends.bind (ih.expr hfs hl hmem.left hs) ?_
  rintro vl s₁ ⟨hvl, hs₁⟩
  refine Ends.bind (ih.expr hfs hr hmem.right hs₁) ?_
  rintro vr s₂ ⟨hvr, hs₂⟩
  refine ofExcept_ends hs₂ ((Operator.apply_sound hop hc hvl hvr).imp (fun _ h => h) ?_)
  intro e he
  refine he.imp_left fun he => he.mono ?_
  rintro place lk rk ⟨rfl, hord, rfl, ⟨-, hlk⟩, ⟨-, hrk⟩, hne⟩
  exact ⟨t, op, l, r, hmem, hord, rfl, hl.typeOf, hlk, hrk, hne⟩

theorem call_sound (hG : w.GlobalsOk G) (ih : w.SoundAt G m n) (hfs : G.Covers fs) {t : Mark}
    {f : String} {es : List (Expr Mark)} {sig : Signature}
    (hf : Chain.findFunction? (Γ ++ [G.seen fs]) (f, es.length) = some sig)
    (hes : TakesArguments {} w.model (Γ ++ [G.seen fs]) es sig.parameters)
    (hmem : w.program.HasExpr (.call t f es)) (hs : w.Agrees G Γ s) :
    Ends (Exec.form m (n + 1) depth (.call t f es) s)
      (fun v s' => v.Sound sig.result ∧ w.Agrees G Γ s') (w.Stopped m) := by
  obtain ⟨g, -, hsig, hfun⟩ := hs.findFunction hG hfs hf
  subst hsig
  have hlen : es.length = g.parameters.length := congrArg Prod.snd hfun.key
  simp only [Exec.form]
  refine Ends.bind (ih.arguments hfs hes hlen (fun e he => hmem.argument he) hs) ?_
  rintro vs s₁ ⟨hvs, hs₁⟩
  -- the state has changed, but the functions that are bound have not
  obtain ⟨g', hfind, hsig', hfun'⟩ := hs₁.findFunction hG hfs hf
  have hcount : vs.length = es.length := hvs.length_eq.trans hlen.symm
  refine Ends.bind (Q := fun a t => a = s₁ ∧ t = s₁) ⟨rfl, rfl⟩ ?_
  rintro _ _ ⟨rfl, rfl⟩
  rw [hcount, hfind]
  refine Ends.bind (hs₁.note (by rintro id v ⟨⟩)) ?_
  intro _ s₂ hs₂
  rw [← hsig'] at hvs ⊢
  exact ih.invoke hfun' hvs hs₂

theorem member_sound (ih : w.SoundAt G m n) (hfs : G.Covers fs) {t : Mark} {e : Expr Mark}
    {f : String} {es : List (Expr Mark)} {et : Ty} {sig : Signature}
    (he : HasType {} w.model (Γ ++ [G.seen fs]) e et)
    (hf : (StaticOutside.members {} et).findFunction? (f, es.length + 1) = some sig)
    (hes : TakesArguments {} w.model (Γ ++ [G.seen fs]) es sig.parameters.tail)
    (hmem : w.program.HasExpr (.invoke t e f es)) (hs : w.Agrees G Γ s) :
    Ends (Exec.form m (n + 1) depth (.invoke t e f es) s)
      (fun v s' => v.Sound sig.result ∧ w.Agrees G Γ s') (w.Stopped m) := by
  obtain ⟨rfl, hkey⟩ := StaticOutside.members_empty_findFunction hf
  have hlen : es.length = sig.parameters.tail.length := by
    rcases hkey with ⟨hkey, rfl⟩ | ⟨hkey, rfl⟩ <;>
      simpa [sliceSignature, lengthSignature] using congrArg Prod.snd hkey
  simp only [Exec.form]
  refine Ends.bind (ih.expr hfs he hmem.receiver hs) ?_
  rintro v s₁ ⟨hv, hs₁⟩
  refine Ends.bind (ih.arguments hfs hes hlen (fun e he => hmem.memberArgument he) hs₁) ?_
  rintro vs s₂ ⟨hvs, hs₂⟩
  rcases hv.string_cases with rfl | ⟨text, rfl⟩
  · exact relocating_ends (r := .error (.error { cause := .noMethod .nil f vs.length })) hs₂
      (.inl rfl)
  · refine relocating_ends hs₂ ?_
    rcases hkey with ⟨hkey, rfl⟩ | ⟨hkey, rfl⟩
    · obtain rfl : f = "slice" := congrArg Prod.fst hkey
      cases hvs with
      | cons hstart hvs =>
          cases hvs with
          | cons hstop hvs =>
              cases hvs
              exact Value.slice_sound hstart hstop
    · obtain rfl : f = "length" := congrArg Prod.fst hkey
      cases hvs
      exact .of_kind (by simp [Value.Plain, Value.kind]) rfl

theorem form_sound (hG : w.GlobalsOk G) (ih : w.SoundAt G m n)
    (hfs : G.Covers fs) {e : Expr Mark} {t : Ty}
    (he : HasType {} w.model (Γ ++ [G.seen fs]) e t) (hmem : w.program.HasExpr e)
    (hs : w.Agrees G Γ s) :
    Ends (Exec.form m (n + 1) depth e s) (fun v s' => v.Sound t ∧ w.Agrees G Γ s')
      (w.Stopped m) := by
  cases he with
  | nil => exact ⟨.nil _, hs⟩
  | boolean | character | string | integer | decimal =>
      exact ⟨.of_kind (by simp [Value.Plain, Value.kind]) rfl, hs⟩
  | group _ he => exact ih.expr hfs he hmem.inner hs
  | @binary _ op _ _ _ _ _ hl hr hc =>
      cases hop : op.isLogical with
      | true =>
          cases hc with
          | logical => exact logical_sound ih hfs hop hl hr hmem hs
          | comparison h => rw [op.isLogical_of_isComparison h] at hop; cases hop
          | text => cases hop
          | arithmetic h => rw [hop] at h; cases h
      | false => exact binary_sound ih hfs hop hl hr hc hmem hs
  | var hx =>
      simp only [Exec.form]
      refine Ends.bind (lookup_ends hs hx) ?_
      rintro c _ ⟨rfl, -, hc⟩
      exact ⟨hc.value, hs⟩
  | field _ hx =>
      rw [StaticOutside.members_empty_findVariable] at hx
      cases hx
  | call hf hes => exact call_sound hG ih hfs hf hes hmem hs
  | invoke he hf hes => exact member_sound ih hfs he hf hes hmem hs

theorem arguments_sound (ih : w.SoundAt G m n) (hfs : G.Covers fs) {es : List (Expr Mark)}
    {ts : List Ty} (hes : TakesArguments {} w.model (Γ ++ [G.seen fs]) es ts)
    (hlen : es.length = ts.length) (hmem : ∀ e ∈ es, w.program.HasExpr e)
    (hs : w.Agrees G Γ s) :
    Ends (Exec.arguments m (n + 1) depth es s)
      (fun vs s' => List.Forall₂ Value.Sound vs ts ∧ w.Agrees G Γ s') (w.Stopped m) := by
  cases hes with
  | noArgument =>
      obtain rfl : ts = [] := List.length_eq_zero_iff.mp hlen.symm
      exact ⟨.nil, hs⟩
  | noParameter =>
      obtain rfl : es = [] := List.length_eq_zero_iff.mp hlen
      exact ⟨.nil, hs⟩
  | more he hm hes =>
      simp only [Exec.arguments]
      refine Ends.bind (ih.expr hfs he (hmem _ List.mem_cons_self) hs) ?_
      rintro v s₁ ⟨hv, hs₁⟩
      refine Ends.bind (ih.arguments hfs hes (Nat.succ.inj hlen)
        (fun e he => hmem e (List.mem_cons_of_mem _ he)) hs₁) ?_
      rintro vs s₂ ⟨hvs, hs₂⟩
      exact ⟨.cons (hv.mono hm) hvs, hs₂⟩

/-! ## Calls

A method runs in scopes that agree with those its body was checked in, and these are not the
caller's.  The scope of the program is shared, and may have more functions by then. -/

theorem method_sound (ih : w.SoundAt G m n) {d : Method Mark} {types : List Ty} {result : Ty}
    {vs : List Value} (hd : w.MethodFits G d types result)
    (hvs : List.Forall₂ Value.Sound vs types) (hs : w.Agrees G Γ s) :
    Ends (Exec.invoke m (n + 1) depth (Exec.functionOf d) vs s)
      (fun v s' => v.Sound result ∧ w.Agrees G Γ s') (w.Stopped m) := by
  have hparams : (Exec.functionOf d).parameters = types :=
    congrArg Signature.parameters hd.signature
  have hcount : vs.length = d.parameters.length := hvs.length_eq.trans hd.paired.symm
  obtain ⟨fs, inner, last, hfs, hinner, hbody⟩ := hd.body
  have hdecl : ∀ b ∈ d.parameters.zip types,
      w.program.Declares w.model (.ofNode d.tag.id b.1 b.2) :=
    fun b hb => .parameter hd.mem hd.noted hb
  obtain ⟨frame, hframe, hagree⟩ := bindParameters_agree .empty hinner hvs hdecl
  have hstmts : ∀ st ∈ d.body, w.program.HasStmt st := fun st hst => .body hd.mem hst
  simp only [Exec.invoke, Exec.functionOf] at hparams ⊢
  rw [if_neg (not_not.mpr hcount), hparams, hframe]
  split
  · exact hs.stopped (.inl trivial)
  · refine Ends.bind (Q := w.ReturnOk G result Γ)
      (Ends.noting (inMethod_ends (Q := w.ReturnOk G result Γ) hs ?_) ?_
        fun _ _ h => h.noted (by rintro id v ⟨⟩)) ?_
    · refine Ends.bind ((hs.call hagree).note (by rintro id v ⟨⟩)) ?_
      intro _ s₁ hs₁
      refine Ends.bind (noteFrame_ends frame.vars hs₁) ?_
      intro _ s₂ hs₂
      refine (ih.block (Γ := []) hfs hbody hstmts hs₂).imp ?_ fun _ _ h => h
      rintro (_ | v) s₃ hs₃
      · exact hs.back hs₃
      · obtain ⟨hv, _, hs₃⟩ := hs₃
        exact ⟨hv, hs.back hs₃⟩
    · rintro (_ | v) s₃ hs₃
      · exact hs₃.noted m (by rintro id v ⟨⟩)
      · exact ⟨hs₃.1, hs₃.2.noted m (by rintro id v ⟨⟩)⟩
    · rintro (_ | v) s₃ hs₃
      · exact ⟨.nil _, hs₃⟩
      · exact hs₃

theorem invoke_sound (ih : w.SoundAt G m n) {key : FunctionKey} {g : Function} {vs : List Value}
    (hg : w.FunctionOk G key g) (hvs : List.Forall₂ Value.Sound vs g.parameters)
    (hs : w.Agrees G Γ s) :
    Ends (Exec.invoke m (n + 1) depth g vs s)
      (fun v s' => v.Sound g.result ∧ w.Agrees G Γ s') (w.Stopped m) := by
  cases hg with
  | print =>
      cases hvs with
      | cons hv hvs =>
          simp only [Exec.invoke]
          refine Ends.bind (print_ends hs) fun _ s₁ hs₁ => Ends.pure ⟨.nil _, hs₁⟩
  | method hd =>
      rw [hd.signature] at hvs ⊢
      exact method_sound ih hd hvs hs

/-! ## Statements -/

theorem initial_sound (ih : w.SoundAt G m n) (hfs : G.Covers fs) {typeName : Option String}
    {value : Option (Expr Mark)} {t : Ty}
    (hv : DeclaresType {} w.model (Γ ++ [G.seen fs]) typeName value t)
    (hmem : ∀ e, value = some e → w.program.HasExpr e) (hs : w.Agrees G Γ s) :
    Ends (Exec.initial m (n + 1) depth value s)
      (fun v s' => v.Sound t ∧ w.Agrees G Γ s') (w.Stopped m) := by
  cases hv with
  | named => exact ⟨.nil _, hs⟩
  | both _ he hm =>
      exact (ih.expr hfs he (hmem _ rfl) hs).imp (fun v s' h => ⟨h.1.mono hm, h.2⟩) fun _ _ h => h
  | inferred he => exact ih.expr hfs he (hmem _ rfl) hs

/-- A block of its own leaves the scope around it as it was. -/
theorem inBlock_sound (ih : w.SoundAt G m n) (hfs : G.Covers fs) {R : Ty} {f g : StaticFrame}
    {ss : List (Stmt Mark)} (hss : BlockOk {} w.model (some R) {} (f :: Γ ++ [G.seen fs]) ss g)
    (hmem : ∀ st ∈ ss, w.program.HasStmt st) (hs : w.Agrees G (f :: Γ) s) :
    Ends (Exec.inBlock {} (Exec.block m n depth ss) s) (w.FlowOk G R f Γ) (w.Stopped m) := by
  refine inBlock_ends ((ih.block hfs hss hmem (hs.enter .empty)).imp ?_ fun _ _ h => h)
  rintro (_ | v) t ht
  · exact ht.leave
  · obtain ⟨hv, _, ht⟩ := ht
    exact ⟨hv, f, ht.leave⟩

theorem stmt_sound (ih : w.SoundAt G m n) (hfs : G.Covers fs) {R : Ty} {f f' : StaticFrame}
    {st : Stmt Mark} (hst : StmtOk {} w.model (some R) f (Γ ++ [G.seen fs]) st f')
    (hmem : w.program.HasStmt st) (hs : w.Agrees G (f :: Γ) s) :
    Ends (Exec.stmt m (n + 1) depth st s) (w.FlowOk G R f' Γ) (w.Stopped m) := by
  cases hst with
  | expr _ he =>
      simp only [Exec.stmt]
      refine Ends.bind (ih.expr (Γ := f :: Γ) hfs he (.alone hmem) hs) ?_
      rintro v s₁ ⟨-, hs₁⟩
      exact hs₁
  | @declare _ _ _ t x typeName value ty hv hdef hnoted =>
      simp only [Exec.stmt]
      refine Ends.bind (ih.initial (Γ := f :: Γ) hfs hv ?_ hs) ?_
      · rintro e rfl
        exact .initial hmem
      · rintro v s₁ ⟨hv, hs₁⟩
        have hb : w.Binds (.ofNode t.id x ty) (Cell.declare t x (runType typeName) v) :=
          ⟨.here hmem hnoted, rfl, rfl, hv⟩
        exact Ends.bind (define_ends hs₁ hdef hb) fun _ s₂ hs₂ => hs₂
  | assign htarget hl he hm =>
      cases hl with
      | var hx =>
          simp only [Exec.stmt]
          refine Ends.bind (lookup_ends (Γ := f :: Γ) hs hx) ?_
          rintro c _ ⟨rfl, -⟩
          refine Ends.bind (ih.expr (Γ := f :: Γ) hfs he (.assigned hmem) hs) ?_
          rintro v s₁ ⟨hv, hs₁⟩
          exact Ends.bind (assign_ends hs₁ hx (hv.mono hm)) fun _ s₂ hs₂ => hs₂
      | field _ hx =>
          rw [StaticOutside.members_empty_findVariable] at hx
          cases hx
      | _ => cases htarget
  | branch hc _ hthen helse =>
      simp only [Exec.stmt]
      refine condition_sound (Γ := f :: Γ) ih hfs hc (.condition hmem) hs ?_
      rintro (_ | _) s₁ hs₁
      · exact inBlock_sound ih hfs helse (fun st hst => .elseBody hmem hst) hs₁
      · exact inBlock_sound ih hfs hthen (fun st hst => .thenBody hmem hst) hs₁
  | forIn he _ _ =>
      -- there is no list to go through: the value can only be `NIL`
      simp only [Exec.stmt]
      refine Ends.bind (ih.expr (Γ := f :: Γ) hfs he (.items hmem) hs) ?_
      rintro v s₁ ⟨hv, hs₁⟩
      obtain rfl := hv.iterable_cases
      exact hs₁.stopped (.inl rfl)
  | loop hc hbody =>
      exact ih.repeating hfs hc (.loopCondition hmem) hbody (fun st hst => .loopBody hmem hst) hs
  | ret hR he hm =>
      cases hR
      simp only [Exec.stmt]
      refine Ends.bind (ih.expr (Γ := f :: Γ) hfs he (.result hmem) hs) ?_
      rintro v s₁ ⟨hv, hs₁⟩
      exact ⟨hv.mono hm, f, hs₁⟩

theorem block_sound (ih : w.SoundAt G m n) (hfs : G.Covers fs) {R : Ty} {f f' : StaticFrame}
    {ss : List (Stmt Mark)} (hss : BlockOk {} w.model (some R) f (Γ ++ [G.seen fs]) ss f')
    (hmem : ∀ st ∈ ss, w.program.HasStmt st) (hs : w.Agrees G (f :: Γ) s) :
    Ends (Exec.block m (n + 1) depth ss s) (w.FlowOk G R f' Γ) (w.Stopped m) := by
  cases hss with
  | nil => exact hs
  | cons hst hss =>
      simp only [Exec.block]
      refine Ends.bind (ih.stmt hfs hst (hmem _ List.mem_cons_self) hs) ?_
      rintro (_ | v) s₁ hs₁
      · exact ih.block hfs hss (fun st hst => hmem st (List.mem_cons_of_mem _ hst)) hs₁
      · exact hs₁

theorem repeating_sound (ih : w.SoundAt G m n) (hfs : G.Covers fs) {R : Ty} {f g : StaticFrame}
    {c : Expr Mark} {body : List (Stmt Mark)}
    (hc : HasType {} w.model (f :: Γ ++ [G.seen fs]) c .boolean) (hmem : w.program.HasExpr c)
    (hbody : BlockOk {} w.model (some R) {} (f :: Γ ++ [G.seen fs]) body g)
    (hstmts : ∀ st ∈ body, w.program.HasStmt st) (hs : w.Agrees G (f :: Γ) s) :
    Ends (Exec.repeating m (n + 1) depth c body s) (w.FlowOk G R f Γ) (w.Stopped m) := by
  simp only [Exec.repeating]
  refine condition_sound ih hfs hc hmem hs ?_
  rintro (_ | _) s₁ hs₁
  · exact hs₁
  · refine Ends.bind (inBlock_sound ih hfs hbody hstmts hs₁) ?_
    rintro (_ | v) s₂ hs₂
    · exact ih.repeating hfs hc hmem hbody hstmts hs₂
    · exact hs₂

end

/-! ## All fuels -/

/-- Without fuel every rule stops at once. -/
theorem soundAt_zero : w.SoundAt G m 0 where
  expr _ _ _ hs := hs.stopped trivial
  form _ _ _ hs := hs.stopped trivial
  arguments _ _ _ _ hs := hs.stopped trivial
  invoke _ _ hs := hs.stopped trivial
  stmt _ _ _ hs := hs.stopped trivial
  initial _ _ _ hs := hs.stopped trivial
  block _ _ _ hs := hs.stopped trivial
  repeating _ _ _ _ _ hs := hs.stopped trivial

theorem soundAt (hG : w.GlobalsOk G) : ∀ n, w.SoundAt G m n
  | 0 => soundAt_zero
  | n + 1 =>
      have ih := soundAt hG n
      { expr := fun hfs => expr_sound ih hfs
        form := fun hfs => form_sound hG ih hfs
        arguments := fun hfs => arguments_sound ih hfs
        invoke := fun hg => invoke_sound ih hg
        stmt := fun hfs => stmt_sound ih hfs
        initial := fun hfs => initial_sound ih hfs
        block := fun hfs => block_sound ih hfs
        repeating := fun hfs => repeating_sound ih hfs }

end World

end QuillLang
