/-
# What is accepted alone runs the same anywhere

A program that is accepted where nothing is lent to it does not see what is
around it.  Inside every embedding program it has the same exit code or stops
with the same error at the same place, prints the same text, and changes none
of the variables and records that it was lent (`Source.Accepts.run_within`).

The two runs are compared rule by rule: as long as every name means something
on its own, it means the same inside an embedding program (`Inside`).  The
comparison leaves one way out, that the program alone stops because a name
means nothing there (`Halt.Unbound`).  Type safety closes it.

An assignment needs more care than the other rules.  It looks its variable up
before the new value is computed and changes it afterwards, and only if the
variable is still there will a variable of the same name around the program be
left alone.
-/
import QuillLang.Embedding.Points
import QuillLang.Proofs.CheckedAlone
import QuillLang.Proofs.LexicalScope
import QuillLang.Proofs.TypeSafety

namespace QuillLang

/-! ## Names that mean nothing

These are the failures that an embedding program could prevent, by lending what is missing.  The
excuses of a well-typed program are not among them. -/

/-- The failures of a name that an embedding program could have given a meaning. -/
def EvalCause.Unbound : EvalCause → Prop
  | .undefinedVariable _ | .undefinedFunction .. | .missingMain => True
  | .noField k _ | .noMethod k .. => k = .record
  | _ => False

def Halt.Unbound (h : Halt) : Prop := ∃ e, h = .error e ∧ e.cause.Unbound

/-- Types rule such failures out. -/
theorem Halt.Unbound.not_excusedAt {h : Halt} (hu : h.Unbound) {scale : Int}
    {Mixed : Place → Kind → Kind → Prop} : ¬ h.ExcusedAt scale Mixed := by
  obtain ⟨e, rfl, hu⟩ := hu
  rintro ((hx | ⟨l, r, hcause, -⟩) | ⟨-, limit, ⟨⟩⟩ | ⟨signal, ⟨⟩⟩)
  · generalize e.cause = cause at hu hx
    cases cause with
    | noMethod k name arity =>
        cases hu
        cases hx
    | undefinedVariable | undefinedFunction | missingMain | noField => exact hx
    | _ => exact hu
  · rw [hcause] at hu
    exact hu

/-! ## Two states

The state inside differs by what is around it, and this stays as it was lent.  An assignment keeps
to it if the program has the variable itself. -/

/-- A program on its own has no records. -/
theorem Reachable.field?_eq_none {s : State} (hs : Reachable s) (v : Value) (x : String) :
    s.field? v x = none := by
  cases v with
  | record id => rw [State.field?, hs.onItsOwn.records]; rfl
  | _ => rfl

/-- A state inside an embedding program, with a record of its own. -/
def State.within (s : State) (r : RunOutside) (trace : List Moment) : State :=
  { s with outside := r.frames, records := r.records, trace }

/-- The same state of a program on its own and inside an embedding program. -/
structure Surrounds (r : RunOutside) (s t : State) : Prop where
  reachable : Reachable s
  within : ∃ trace, t = s.within r trace

namespace Surrounds

variable {r : RunOutside} {s t : State}

theorem chain (h : Surrounds r s t) : t.chain = s.chain ++ r.frames := by
  obtain ⟨trace, rfl⟩ := h.within
  have houtside := h.reachable.onItsOwn.outside
  simp only [State.chain, State.within, houtside, List.append_assoc, List.cons_append,
    List.nil_append]

theorem noted (h : Surrounds r s t) {m m' : Machine} (hm : m'.tracing = m.tracing) (e : Event) :
    Surrounds r (s.noted m e) (t.noted m' e) := by
  obtain ⟨trace, rfl⟩ := h.within
  refine ⟨.noted m e h.reachable, ?_⟩
  unfold State.noted
  rw [hm]
  split
  · exact ⟨_, rfl⟩
  · exact ⟨_, rfl⟩

theorem printed (h : Surrounds r s t) (text : String) :
    Surrounds r { s with output := s.output ++ text } { t with output := t.output ++ text } := by
  obtain ⟨trace, rfl⟩ := h.within
  exact ⟨.print text h.reachable, trace, rfl⟩

theorem define (h : Surrounds r s t) (x : String) (c : Cell) :
    MatchesDefinition (Surrounds r) (s.define x c) (t.define x c) := by
  obtain ⟨trace, rfl⟩ := h.within
  have hcommutes : (s.within r trace).define x c = (s.define x c).map (·.within r trace) := by
    unfold State.define State.within
    dsimp only
    cases s.locals with
    | nil => cases s.globals.defineVariable x c <;> rfl
    | cons f fs =>
        dsimp only
        cases f.defineVariable x c <;> rfl
  rw [hcommutes]
  cases hdefine : s.define x c with
  | error key => exact .error
  | ok u => exact .ok ⟨.define h.reachable hdefine, trace, rfl⟩

theorem defineFunction (h : Surrounds r s t) (hnil : s.locals = []) (d : Method Mark) :
    MatchesDefinition (Surrounds r) (s.defineFunction (Exec.functionOf d))
      (t.defineFunction (Exec.functionOf d)) := by
  obtain ⟨trace, rfl⟩ := h.within
  have hcommutes : (s.within r trace).defineFunction (Exec.functionOf d) =
      (s.defineFunction (Exec.functionOf d)).map (·.within r trace) := by
    unfold State.defineFunction State.within
    dsimp only
    rw [hnil]
    cases s.globals.defineFunction (Exec.functionOf d).key (Exec.functionOf d) <;> rfl
  rw [hcommutes]
  cases hdefine : s.defineFunction (Exec.functionOf d) with
  | error key => exact .error
  | ok u => exact .ok ⟨.defineFunction h.reachable hnil hdefine, trace, rfl⟩

/-- A variable of the program is changed in the program, whatever is around it. -/
theorem assign (h : Surrounds r s t) {x : String}
    (hx : (Chain.findVariable? s.chain x).isSome = true) (v : Value) :
    Surrounds r (s.assign x v) (t.assign x v) := by
  obtain ⟨trace, rfl⟩ := h.within
  refine ⟨.assign x v h.reachable, trace, ?_⟩
  unfold State.assign State.within
  dsimp only
  cases hlocals : Chain.modifyVariable? s.locals x fun c => { c with value := v } with
  | some locals => rfl
  | none =>
      have hnone := Chain.findVariable?_of_modify_none hlocals
      cases hglobals : s.globals.vars.lookup x with
      | some c =>
          dsimp only
          rw [Frame.modifyVariable?_of_some hglobals]
      | none =>
          -- then the name would mean nothing
          unfold Chain.findVariable? at hx hnone
          rw [State.chain, h.reachable.onItsOwn.outside, List.findSome?_append, hnone,
            List.findSome?_cons, Frame.findVariable?, hglobals] at hx
          cases hx

end Surrounds

/-! ## Two runs

As long as the program alone does not miss a name, both runs do the same.  If it does, nothing is
said about the other. -/

section

variable (r : RunOutside) {α : Type}

/-- How an action ends on its own and inside an embedding program: in the same way, unless a name
means nothing on its own. -/
inductive Inside : EStateM.Result Halt State α → EStateM.Result Halt State α → Prop where
  | ok {a : α} {s t : State} : Surrounds r s t → Inside (.ok a s) (.ok a t)
  | error {h : Halt} {s t : State} : Surrounds r s t → Inside (.error h s) (.error h t)
  | unbound {h : Halt} {s : State} {y : EStateM.Result Halt State α} :
      h.Unbound → Inside (.error h s) y

/-- Two actions that end so from every state. -/
def Parallels (x y : Exec α) : Prop := ∀ s t, Surrounds r s t → Inside r (x s) (y t)

end

theorem Inside.bind {r : RunOutside} {α β : Type} {x y : Exec α} {f g : α → Exec β} {s t : State}
    (h : Inside r (x s) (y t))
    (hf : ∀ a s' t', x s = .ok a s' → Surrounds r s' t' → Inside r (f a s') (g a t')) :
    Inside r ((x >>= f) s) ((y >>= g) t) := by
  show Inside r (EStateM.bind x f s) (EStateM.bind y g t)
  unfold EStateM.bind
  generalize hx : x s = a at h ⊢
  generalize y t = b at h ⊢
  cases h with
  | ok h => exact hf _ _ _ hx h
  | error h => exact .error h
  | unbound h => exact .unbound h

namespace Parallels

variable {r : RunOutside} {α β : Type} {m m' : Machine}

theorem pure (a : α) : Parallels r (Pure.pure a) (Pure.pure a) := fun _ _ h => .ok h

theorem throw (h : Halt) :
    Parallels r (MonadExcept.throw h : Exec α) (MonadExcept.throw h : Exec α) :=
  fun _ _ h => .error h

theorem ofExcept (e : Except Halt α) : Parallels r (Exec.ofExcept e) (Exec.ofExcept e) := by
  cases e with
  | ok a => exact pure a
  | error h => exact throw h

theorem bind {x y : Exec α} {f g : α → Exec β} (hx : Parallels r x y)
    (hf : ∀ a, Parallels r (f a) (g a)) : Parallels r (x >>= f) (y >>= g) :=
  fun s t hst => (hx s t hst).bind fun a s' t' _ h => hf a s' t' h

theorem note (hm : m'.tracing = m.tracing) (e : Event) :
    Parallels r (Exec.note m e) (Exec.note m' e) :=
  fun _ _ h => .ok (h.noted hm e)

theorem noting {x y : Exec α} (hm : m'.tracing = m.tracing) (e : Event) (h : Parallels r x y) :
    Parallels r (Exec.noting m e x) (Exec.noting m' e y) := by
  intro s t hst
  have hxy := h s t hst
  unfold Exec.noting
  generalize x s = a at hxy ⊢
  generalize y t = b at hxy ⊢
  cases hxy with
  | ok h => exact .ok (h.noted hm e)
  | error h => exact .error (h.noted hm e)
  | unbound h => exact .unbound h

theorem relocating {x y : Exec α} (place : Place) (h : Parallels r x y) :
    Parallels r (Exec.relocating place x) (Exec.relocating place y) := by
  intro s t hst
  have hxy := h s t hst
  unfold Exec.relocating
  generalize x s = a at hxy ⊢
  generalize y t = b at hxy ⊢
  cases hxy with
  | ok h => exact .ok h
  | @error e _ _ h =>
      cases e with
      | error e => exact .error h
      | _ => exact .error h
  | unbound h =>
      obtain ⟨e, rfl, hcause⟩ := h
      refine .unbound ⟨_, rfl, ?_⟩
      unfold EvalError.relocate
      split <;> exact hcause

theorem inBlock {x y : Exec α} {frame : RunFrame} (hframe : frame.functions = [])
    (h : Parallels r x y) : Parallels r (Exec.inBlock frame x) (Exec.inBlock frame y) := by
  intro s t hst
  have henter : Surrounds r { s with locals := frame :: s.locals }
      { t with locals := frame :: t.locals } := by
    obtain ⟨trace, rfl⟩ := hst.within
    exact ⟨.enterBlock hframe hst.reachable, trace, rfl⟩
  have hleave : ∀ {s t}, Surrounds r s t →
      Surrounds r { s with locals := s.locals.tail } { t with locals := t.locals.tail } := by
    intro s t hst
    obtain ⟨trace, rfl⟩ := hst.within
    exact ⟨.leaveBlock hst.reachable, trace, rfl⟩
  have hxy := h _ _ henter
  unfold Exec.inBlock
  generalize x { s with locals := frame :: s.locals } = a at hxy ⊢
  generalize y { t with locals := frame :: t.locals } = b at hxy ⊢
  cases hxy with
  | ok h => exact .ok (hleave h)
  | error h => exact .error (hleave h)
  | unbound h => exact .unbound h

theorem inMethod {x y : Exec α} {frame : RunFrame} (hframe : frame.functions = [])
    (h : Parallels r x y) : Parallels r (Exec.inMethod frame x) (Exec.inMethod frame y) := by
  intro s t hst
  have henter : Surrounds r { s with locals := [frame], suspended := s.locals ++ s.suspended }
      { t with locals := [frame], suspended := t.locals ++ t.suspended } := by
    obtain ⟨trace, rfl⟩ := hst.within
    exact ⟨.enterMethod hframe hst.reachable, trace, rfl⟩
  have hleave : ∀ {s' t'}, Surrounds r s' t' →
      Surrounds r { s' with locals := s.locals, suspended := s.suspended }
        { t' with locals := t.locals, suspended := t.suspended } := by
    intro s' t' hst'
    obtain ⟨trace, rfl⟩ := hst.within
    obtain ⟨trace', rfl⟩ := hst'.within
    exact ⟨.leaveMethod hst.reachable hst'.reachable, trace', rfl⟩
  have hxy := h _ _ henter
  unfold Exec.inMethod
  generalize x { s with locals := [frame], suspended := s.locals ++ s.suspended } = a at hxy ⊢
  generalize y { t with locals := [frame], suspended := t.locals ++ t.suspended } = b at hxy ⊢
  cases hxy with
  | ok h => exact .ok (hleave h)
  | error h => exact .error (hleave h)
  | unbound h => exact .unbound h

/-! ## Looking things up

What is found in the scopes of the program is found first inside an embedding program, too. -/

/-- A variable of the program is found in the program. -/
theorem lookup (x : String) (place : Place) :
    Parallels r (Exec.lookup x place) (Exec.lookup x place) := by
  intro s t hst
  unfold Exec.lookup
  rw [get_bind, get_bind]
  cases hx : Chain.findVariable? s.chain x with
  | none => exact .unbound ⟨_, rfl, trivial⟩
  | some c =>
      rw [hst.chain, Chain.findVariable?_append hx]
      exact .ok hst

theorem lookupField (v : Value) (x : String) :
    Parallels r (Exec.lookupField v x) (Exec.lookupField v x) := by
  intro s t hst
  unfold Exec.lookupField
  rw [get_bind, get_bind, hst.reachable.field?_eq_none]
  cases v with
  | record id => exact .unbound ⟨_, rfl, rfl⟩
  | _ => exact .error hst

/-- A function of the program is found in the program, and is its own. -/
theorem callee {f g : Function → Exec α} (key : FunctionKey) (place : Place)
    (h : ∀ c : Function, (∀ g, c.body ≠ .native g) → Parallels r (f c) (g c)) :
    Parallels r (Exec.callee key place >>= f) (Exec.callee key place >>= g) := by
  intro s t hst
  rw [Exec.callee_bind, Exec.callee_bind]
  cases hc : Chain.findFunction? s.chain key with
  | none => exact .unbound ⟨_, rfl, trivial⟩
  | some c =>
      rw [hst.chain, Chain.findFunction?_append hc]
      have hown := hst.reachable.onItsOwn
      rw [hown.findFunction] at hc
      exact h c (hown.functions _ (lookup_mem hc)) s t hst

theorem callMember (v : Value) (f : String) (vs : List Value) :
    Parallels r (Exec.callMember m v f vs) (Exec.callMember m' v f vs) := by
  unfold Exec.callMember
  cases v with
  | string text => exact ofExcept _
  | record id =>
      intro s t hst
      dsimp only
      rw [get_bind, hst.reachable.onItsOwn.records]
      exact .unbound ⟨_, rfl, rfl⟩
  | _ => exact throw _

/-! ## Changes

A change is made where the variable was found.  For an assignment the variable must still be there
when the value has been computed, and it is, because evaluating an expression puts all scopes
back. -/

theorem print (v : Value) : Parallels r (Exec.print v) (Exec.print v) := by
  intro s t hst
  unfold Exec.print
  cases v.text? with
  | some text => exact .ok ((hst.printed text).printed "\n")
  | none => exact .error hst

theorem define (hm : m'.tracing = m.tracing) (c : Cell) (place : Place) :
    Parallels r (Exec.define m c place) (Exec.define m' c place) := by
  intro s t hst
  unfold Exec.define
  rw [get_bind, get_bind]
  have hdefine := hst.define c.name c
  generalize s.define c.name c = a at hdefine ⊢
  generalize t.define c.name c = b at hdefine ⊢
  cases hdefine with
  | ok h => exact .ok (h.noted hm _)
  | error => exact .error hst

/-- Computing the new value leaves the variable where it is. -/
theorem assigning (hm : m'.tracing = m.tracing) {n n' d : Nat} {e : Expr Mark} (x : String)
    (place : Place) (h : Parallels r (Exec.expr m n d e) (Exec.expr m' n' d e)) :
    Parallels r (Exec.assigning m x place (Exec.expr m n d e))
      (Exec.assigning m' x place (Exec.expr m' n' d e)) := by
  intro s t hst
  refine (lookup x place s t hst).bind fun c s₁ t₁ hlookup hst₁ => ?_
  obtain ⟨hx, rfl⟩ := Exec.lookup_ok hlookup
  refine (h s₁ t₁ hst₁).bind fun v s₂ t₂ hexpr hst₂ => ?_
  have hbindings : s₂.bindings = s₁.bindings :=
    Exec.after_of_ok hexpr ▸ (visit_expr n d e (.any m s₁.bindings)).1
  have hx : (Chain.findVariable? s₂.chain x).isSome = true := by
    rw [State.isSome_findVariable?, hbindings, ← State.isSome_findVariable?, hx]
    rfl
  exact .ok ((hst₂.assign hx v).noted hm _)

theorem assigningField {act act' : Exec Value} (v : Value) (x : String) (place : Place) :
    Parallels r (Exec.assigningField m v x place act) (Exec.assigningField m' v x place act') := by
  intro s t hst
  refine (relocating place (lookupField v x) s t hst).bind fun c s₁ t₁ hlookup _ => ?_
  -- there is no field to be found
  unfold Exec.relocating Exec.lookupField at hlookup
  rw [get_bind, hst.reachable.field?_eq_none] at hlookup
  cases hlookup

end Parallels

/-- The congruence of actions that go the same way on their own and inside an embedding
program. -/
def surrounding (r : RunOutside) {m m' : Machine} (hscale : m'.scale = m.scale)
    (hlimit : m'.maxDepth = m.maxDepth) (htracing : m'.tracing = m.tracing) :
    Congruence m m' where
  rel _ _ x y := Parallels r x y
  decl _ _ x y := Parallels r x y
  Callee c := ∀ g, c.body ≠ .native g
  scale := hscale
  pure := .pure
  throw := .throw
  bind := .bind
  note _ := .note htracing _
  lookup := .lookup
  lookupField := .lookupField
  relocating := .relocating
  callee := .callee
  print := .print
  native _ hc hg := absurd hg (hc _)
  callMember := .callMember
  assigning := .assigning htracing
  assigningField v x place _ := .assigningField v x place
  limited place h := by
    rw [hlimit]
    split
    · exact .throw _
    · next hdepth => exact h (Int.not_le.mp hdepth)
  entering _ hframe h :=
    .noting htracing _ (.inMethod hframe (.bind (.note htracing _) fun _ => h))
  inBlock := .inBlock
  decl_of_rel h := h
  decl_bind := .bind
  define := .define htracing

/-! ## Whole programs

The way out, that a name means nothing, is closed by type safety: an accepted program does not stop
for that. -/

theorem Surrounds.methods {r : RunOutside} :
    ∀ (ds : List (Method Mark)) {s t : State}, Surrounds r s t → s.locals = [] →
      Inside r (Exec.methods ds s) (Exec.methods ds t)
  | [], _, _, h, _ => .ok h
  | d :: ds, s, t, h, hnil => by
      refine Inside.bind (x := Exec.method d) (y := Exec.method d) ?_ fun u s₁ t₁ hmethod h₁ => ?_
      · unfold Exec.method
        rw [get_bind, get_bind]
        have hdefine := h.defineFunction hnil d
        generalize s.defineFunction (Exec.functionOf d) = a at hdefine ⊢
        generalize t.defineFunction (Exec.functionOf d) = b at hdefine ⊢
        cases hdefine with
        | ok h => exact .ok h
        | error => exact .error h
      · exact methods ds h₁
          (Exec.after_of_ok hmethod ▸ (StaysOutside.method d s h.reachable hnil).2)

theorem Surrounds.program {r : RunOutside} (m m' : Machine) (hscale : m'.scale = m.scale)
    (hlimit : m'.maxDepth = m.maxDepth) (htracing : m'.tracing = m.tracing) (fuel depth : Nat)
    (p : Program Mark) {s t : State} (h : Surrounds r s t) (hnil : s.locals = []) :
    Inside r (Exec.program m fuel depth p s) (Exec.program m' fuel depth p t) := by
  let C := surrounding r hscale hlimit htracing
  refine Inside.bind (C.fields fuel depth p.fields s t h) fun _ s₁ t₁ hfields h₁ => ?_
  have hnil₁ : s₁.locals = [] :=
    Exec.after_of_ok hfields ▸ (StaysOutside.fields fuel depth p.fields s h.reachable hnil).2
  refine (h₁.methods p.methods hnil₁).bind fun _ s₂ t₂ _ h₂ => ?_
  rw [get_bind, get_bind]
  cases hmain : Chain.findFunction? s₂.chain ("main", 0) with
  | none => exact .unbound ⟨_, rfl, trivial⟩
  | some f =>
      rw [h₂.chain, Chain.findFunction?_append hmain]
      have hown := h₂.reachable.onItsOwn
      rw [hown.findFunction] at hmain
      exact (C.rules fuel).invoke depth f [] (hown.functions _ (lookup_mem hmain)) s₂ t₂ h₂

theorem Parallels.exitCode {r : RunOutside} (v : Value) :
    Parallels r (Exec.exitCode v) (Exec.exitCode v) := by
  cases v with
  | integer k => exact .pure k
  | _ => exact .throw _

namespace Source.Accepts

variable {src : Source} {q : Program Place} {M : Model}

/-- The two runs of an accepted program end in the same way. -/
theorem run_inside (h : src.Accepts q M) (m : Machine) (r : RunOutside) (fuel : Nat) :
    ((Interpreter.start m r).run (q.mark 0).1 fuel).1 =
      ((Interpreter.start m {}).run (q.mark 0).1 fuel).1 ∧
    ∃ trace, ((Interpreter.start m r).run (q.mark 0).1 fuel).2.state =
      ((Interpreter.start m {}).run (q.mark 0).1 fuel).2.state.within r trace := by
  have hstart : Surrounds r (Interpreter.start m {}).reset.state
      (Interpreter.start m r).reset.state := ⟨.start, [], rfl⟩
  have hrun := (hstart.program (Interpreter.start m {}).machine (Interpreter.start m r).machine
    rfl rfl rfl fuel 0 (q.mark 0).1 rfl).bind fun v s t _ hst => Parallels.exitCode v s t hst
  have hstops := h.exit_stops m fuel
  unfold Interpreter.run Interpreter.guarded
  have hlimit : (Interpreter.start m r).reset.machine.maxDepth =
      (Interpreter.start m {}).reset.machine.maxDepth := rfl
  rw [hlimit]
  split
  · unfold Interpreter.perform
    generalize (Exec.program (Interpreter.start m {}).machine fuel 0 (q.mark 0).1 >>=
      Exec.exitCode) (Interpreter.start m {}).reset.state = x at hrun hstops ⊢
    generalize (Exec.program (Interpreter.start m r).machine fuel 0 (q.mark 0).1 >>=
      Exec.exitCode) (Interpreter.start m r).reset.state = y at hrun ⊢
    cases hrun with
    | ok h => exact ⟨rfl, h.within⟩
    | error h => exact ⟨rfl, h.within⟩
    | unbound hunbound => exact absurd hstops.excused hunbound.not_excusedAt
  · exact ⟨rfl, [], rfl⟩

/-- A program that is accepted alone does not see what is around it.  Inside every embedding
program checking finds out the same about it.  Its run has the same exit code or the same error,
prints the same text, and leaves all that was lent as it was. -/
theorem run_within (h : src.Accepts q M) (outside : Embedding) (m : Machine) (fuel : Nat) :
    src.check outside = .ok M ∧
    ((Interpreter.start m outside.running).run (q.mark 0).1 fuel).1 =
      ((Interpreter.start m {}).run (q.mark 0).1 fuel).1 ∧
    ((Interpreter.start m outside.running).run (q.mark 0).1 fuel).2.state.output =
      ((Interpreter.start m {}).run (q.mark 0).1 fuel).2.state.output ∧
    ((Interpreter.start m outside.running).run (q.mark 0).1 fuel).2.state.outside =
      outside.running.frames ∧
    ((Interpreter.start m outside.running).run (q.mark 0).1 fuel).2.state.records =
      outside.running.records := by
  obtain ⟨hresult, trace, hstate⟩ := h.run_inside m outside.running fuel
  refine ⟨?_, hresult, ?_, ?_, ?_⟩
  · unfold Source.check
    rw [h.reads]
    show ((Checker.start outside.static).check (q.mark 0).1).1.mapError _ = .ok M
    rw [Checker.check_within h.check_eq]
    rfl
  all_goals
    rw [hstate]
    rfl

end Source.Accepts

/-- A program with a variable and a method of names that are lent. -/
def Source.shadowing : Source :=
  { text := "LET seed = 1; DEF id(n: Integer): Integer DO seed = seed + n; RETURN seed; END " ++
      "DEF main(): Integer DO print(id(2)); RETURN seed; END" }

theorem Source.shadowing_run_within : ∃ q M, shadowing.Accepts q M ∧
    ((Interpreter.start {} {}).run (q.mark 0).1 100).1 = .ok 3 ∧
    shadowing.check .points = .ok M ∧
    ((Interpreter.start {} Points.running).run (q.mark 0).1 100).1 = .ok 3 ∧
    ((Interpreter.start {} Points.running).run (q.mark 0).1 100).2.state.outside =
      Points.running.frames := by
  obtain ⟨q, hq⟩ := exists_ok_of_isSome (r := shadowing.program) (by decide +kernel)
  obtain ⟨M, hM⟩ := exists_ok_of_isSome (r := shadowing.check {}) (by decide +kernel)
  have hrun : (shadowing.program.map fun q =>
      ((Interpreter.start {} {}).run (q.mark 0).1 100).1).toOption = some (.ok 3) := by
    decide +kernel
  rw [hq] at hrun
  have hrun := Option.some.inj hrun
  obtain ⟨hcheck, hresult, -, houtside, -⟩ :=
    Source.Accepts.run_within ⟨hq, hM⟩ .points {} 100
  exact ⟨q, M, ⟨hq, hM⟩, hrun, hcheck, hresult.trans hrun, houtside⟩

end QuillLang
