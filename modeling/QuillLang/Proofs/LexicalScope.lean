/-
# A function does not see the blocks of its caller

Where a function is called from makes no difference to what it does.  Two
states of a program that runs on its own may be in quite different blocks of
quite different methods: as long as the frame of the program is alike, a name
and a number of arguments mean the same function in both, and a call gives the
same result, prints the same text, makes the same changes to the frame of the
program and none at all to the blocks around the call
(`invoke_ignores_caller`).

While the body of a method runs, the blocks of its caller wait.  So the two
runs of the body are in states that agree in everything but what waits, what
is recorded and what was printed before, and this is a simulation (`beside`).
No rule touches what waits, so it makes no difference whether the blocks are put
back as they were or as the body leaves them (`Exec.inMethod_eq_nested`).

The states of a program that runs on its own are those that its rules can get
to (`Reachable`).  Only the frame of the program holds functions there, and
there is nothing around it.
-/
import QuillLang.Proofs.ScopeDiscipline
import QuillLang.Proofs.Simulation

namespace QuillLang

/-! ## Frames that are alike

Two frames of a program may have their entries in different orders.  What can be looked up in them
is all that a run depends on. -/

namespace Frame

variable {ν φ : Type}

/-- Two frames with the same variables and functions, in whatever order they were defined. -/
structure Alike (f g : Frame ν φ) : Prop where
  vars : ∀ x, g.vars.lookup x = f.vars.lookup x
  functions : ∀ key, g.functions.lookup key = f.functions.lookup key

theorem Alike.refl (f : Frame ν φ) : f.Alike f := ⟨fun _ => rfl, fun _ => rfl⟩

theorem Alike.define {f g : Frame ν φ} (h : f.Alike g) (x : String) (v : ν) :
    Alike { f with vars := f.vars ++ [(x, v)] } { g with vars := g.vars ++ [(x, v)] } := by
  refine ⟨fun y => ?_, h.functions⟩
  rw [List.lookup_append, List.lookup_append, h.vars]

theorem lookup_modified (vars : List (String × ν)) (x y : String) (change : ν → ν) :
    (vars.map fun (z, u) => (z, if z = x then change u else u)).lookup y =
      (vars.lookup y).map fun u => if y = x then change u else u := by
  induction vars with
  | nil => rfl
  | cons b vars ih =>
      obtain ⟨z, u⟩ := b
      rw [List.map_cons, List.lookup_cons, List.lookup_cons]
      by_cases hyz : y = z
      · subst hyz
        simp
      · have hne : (y == z) = false := by simpa using hyz
        rw [hne]
        exact ih

theorem Alike.modify {f g : Frame ν φ} (h : f.Alike g) (x : String) (change : ν → ν) :
    Alike { f with vars := f.vars.map fun (z, u) => (z, if z = x then change u else u) }
      { g with vars := g.vars.map fun (z, u) => (z, if z = x then change u else u) } := by
  refine ⟨fun y => ?_, h.functions⟩
  rw [lookup_modified, lookup_modified, h.vars]

end Frame

/-! ## The bodies of two calls

A body runs in blocks of its own, which are the same in both states.  What waits, what is recorded
and what was printed before is never looked at, so it may differ. -/

/-- Two states that agree in everything but the blocks that wait, the order of definitions in
the frame of the program, what is recorded, and what was printed before. -/
structure Beside (o o' : String) (s t : State) : Prop where
  locals : t.locals = s.locals
  globals : s.globals.Alike t.globals
  outside : t.outside = s.outside
  records : t.records = s.records
  output : ∃ added, s.output = o ++ added ∧ t.output = o' ++ added

namespace Beside

variable {o o' : String} {s t : State}

theorem findVariable (h : Beside o o' s t) (x : String) :
    Chain.findVariable? t.chain x = Chain.findVariable? s.chain x := by
  unfold Chain.findVariable? State.chain
  rw [List.findSome?_append, List.findSome?_append, List.findSome?_cons, List.findSome?_cons,
    Frame.findVariable?, Frame.findVariable?, h.locals, h.globals.vars, h.outside]

theorem findFunction (h : Beside o o' s t) (key : FunctionKey) :
    Chain.findFunction? t.chain key = Chain.findFunction? s.chain key := by
  unfold Chain.findFunction? State.chain
  rw [List.findSome?_append, List.findSome?_append, List.findSome?_cons, List.findSome?_cons,
    Frame.findFunction?, Frame.findFunction?, h.locals, h.globals.functions, h.outside]

theorem noted (h : Beside o o' s t) (m : Machine) (e : Event) :
    Beside o o' (s.noted m e) (t.noted m e) := by
  unfold State.noted
  split
  · exact ⟨h.locals, h.globals, h.outside, h.records, h.output⟩
  · exact h

theorem printed (h : Beside o o' s t) (text : String) :
    Beside o o' { s with output := s.output ++ text } { t with output := t.output ++ text } := by
  obtain ⟨added, hs, ht⟩ := h.output
  refine ⟨h.locals, h.globals, h.outside, h.records, added ++ text, ?_, ?_⟩
  · rw [hs, String.append_assoc]
  · rw [ht, String.append_assoc]

theorem assign (h : Beside o o' s t) (x : String) (v : Value) :
    Beside o o' (s.assign x v) (t.assign x v) := by
  unfold State.assign
  dsimp only
  rw [h.locals, h.outside]
  split
  · exact ⟨rfl, h.globals, rfl, h.records, h.output⟩
  · cases hx : s.globals.vars.lookup x with
    | none =>
        rw [Frame.modifyVariable?_of_none hx, Frame.modifyVariable?_of_none (h.globals.vars x ▸ hx)]
        dsimp only
        split
        · exact ⟨rfl, h.globals, rfl, h.records, h.output⟩
        · exact h
    | some c =>
        rw [Frame.modifyVariable?_of_some hx, Frame.modifyVariable?_of_some (h.globals.vars x ▸ hx)]
        exact ⟨rfl, h.globals.modify x fun c => { c with value := v }, rfl, h.records, h.output⟩

theorem define (h : Beside o o' s t) (x : String) (c : Cell) :
    MatchesDefinition (Beside o o') (s.define x c) (t.define x c) := by
  unfold State.define
  rw [h.locals]
  cases s.locals with
  | nil =>
      dsimp only
      cases hx : s.globals.vars.lookup x with
      | some b =>
          have herror : ∀ f : RunFrame, f.vars.lookup x = some b →
              f.defineVariable x c = .error (.ofVariable x) := by
            intro f hf
            rw [Frame.defineVariable, Frame.findVariable?, hf]
          rw [herror _ hx, herror _ (h.globals.vars x ▸ hx)]
          exact .error
      | none =>
          rw [Frame.defineVariable_of_none hx, Frame.defineVariable_of_none (h.globals.vars x ▸ hx)]
          exact .ok ⟨rfl, h.globals.define x c, h.outside, h.records, h.output⟩
  | cons f fs =>
      dsimp only
      cases f.defineVariable x c with
      | error key => exact .error
      | ok g => exact .ok ⟨rfl, h.globals, h.outside, h.records, h.output⟩

end Beside

/-- States beside each other stay so. -/
theorem beside (m : Machine) (o o' : String) : Simulation m m (Beside o o') where
  scale := rfl
  limit := rfl
  methods := rfl
  findVariable h := h.findVariable
  findFunction h := h.findFunction
  records h := h.records
  noted e h := h.noted m e
  withRecords _ h := ⟨h.locals, h.globals, h.outside, rfl, h.output⟩
  printed text h := h.printed text
  assign x v h := h.assign x v
  define x c h := h.define x c
  enterBlock _ h := ⟨congrArg (_ :: ·) h.locals, h.globals, h.outside, h.records, h.output⟩
  leaveBlock h := ⟨congrArg List.tail h.locals, h.globals, h.outside, h.records, h.output⟩
  enterMethod _ h := ⟨rfl, h.globals, h.outside, h.records, h.output⟩
  leaveMethod h h' := ⟨h.locals, h'.globals, h'.outside, h'.records, h'.output⟩

/-! ## The states of a program on its own

A function can only be found in the frame of the program, and it is `print` or a method, in every
state that can come up where nothing is lent. -/

/-- The states that a program can get to that runs with nothing around it.  It starts in an empty
scope of its own; what rules do to a state is to define and to change variables, to print, to
record, and to enter and to leave blocks and methods.  Methods of the program become functions
where no block is open. -/
inductive Reachable : State → Prop where
  | start : Reachable { globals := Interpreter.builtinFrame }
  | define {s t : State} {x : String} {c : Cell} :
      Reachable s → s.define x c = .ok t → Reachable t
  | defineFunction {s t : State} {d : Method Mark} :
      Reachable s → s.locals = [] → s.defineFunction (Exec.functionOf d) = .ok t → Reachable t
  | assign {s : State} (x : String) (v : Value) : Reachable s → Reachable (s.assign x v)
  | print {s : State} (text : String) :
      Reachable s → Reachable { s with output := s.output ++ text }
  | noted {s : State} (m : Machine) (e : Event) : Reachable s → Reachable (s.noted m e)
  | enterBlock {s : State} {frame : RunFrame} :
      frame.functions = [] → Reachable s → Reachable { s with locals := frame :: s.locals }
  | leaveBlock {s : State} : Reachable s → Reachable { s with locals := s.locals.tail }
  | enterMethod {s : State} {frame : RunFrame} : frame.functions = [] → Reachable s →
      Reachable { s with locals := [frame], suspended := s.locals ++ s.suspended }
  | leaveMethod {s t : State} : Reachable s → Reachable t →
      Reachable { t with locals := s.locals, suspended := s.suspended }

/-- A state with nothing around the program, in which only the frame of the program has functions,
and these are its own. -/
structure OnItsOwn (s : State) : Prop where
  outside : s.outside = []
  records : s.records = #[]
  locals : Chain.Silent s.locals
  functions : ∀ b ∈ s.globals.functions, ∀ g, b.2.body ≠ .native g

theorem OnItsOwn.findFunction {s : State} (h : OnItsOwn s) (key : FunctionKey) :
    Chain.findFunction? s.chain key = s.globals.functions.lookup key := by
  rw [State.chain, h.locals.findFunction, h.outside, Chain.findFunction?, List.findSome?_cons,
    Frame.findFunction?]
  cases s.globals.functions.lookup key with
  | some f => rfl
  | none => rfl

theorem Reachable.onItsOwn {s : State} (h : Reachable s) : OnItsOwn s := by
  induction h with
  | start =>
      refine ⟨rfl, rfl, .nil, fun b hb g => ?_⟩
      obtain rfl := List.mem_singleton.mp hb
      exact nofun
  | @define s t x c _ hdefine ih =>
      rw [State.define_eq] at hdefine
      obtain ⟨-, g, hg, rfl⟩ | ⟨f, fs, g, hlocals, hg, rfl⟩ := State.inInnermost_cases hdefine
      · obtain ⟨-, rfl⟩ := Frame.defineVariable_eq_ok hg
        exact ⟨ih.outside, ih.records, ih.locals, ih.functions⟩
      · obtain ⟨-, rfl⟩ := Frame.defineVariable_eq_ok hg
        have hsilent := hlocals ▸ ih.locals
        exact ⟨ih.outside, ih.records, hsilent.tail.cons (hsilent f List.mem_cons_self),
          ih.functions⟩
  | @defineFunction s t d _ hnil hdefine ih =>
      rw [State.defineFunction_eq] at hdefine
      obtain ⟨-, g, hg, rfl⟩ | ⟨f, fs, g, hlocals, -, -⟩ := State.inInnermost_cases hdefine
      · obtain ⟨-, rfl⟩ := Frame.defineFunction_eq_ok hg
        refine ⟨ih.outside, ih.records, ih.locals, fun b hb g => ?_⟩
        rcases List.mem_append.mp hb with hb | hb
        · exact ih.functions b hb g
        · obtain rfl := List.mem_singleton.mp hb
          exact nofun
      · rw [hnil] at hlocals
        cases hlocals
  | @assign s x v _ ih =>
      have hbindings := s.bindings_assign x v
      have hlocals : (s.assign x v).locals.map (·.functions) = s.locals.map (·.functions) := by
        rw [← State.bindings_functions, ← State.bindings_functions, hbindings]
      have houtside : (s.assign x v).outside.map Frame.bindings = [] := by
        show (s.assign x v).bindings.outside = []
        rw [hbindings, State.bindings, ih.outside]
        rfl
      have hfunctions : (s.assign x v).globals.functions = s.globals.functions := by
        show (s.assign x v).bindings.globals.functions = s.bindings.globals.functions
        rw [hbindings]
      refine ⟨List.map_eq_nil_iff.mp houtside, ?_, ih.locals.congr hlocals, ?_⟩
      · rw [State.assign_records, ih.records]
      · rw [hfunctions]
        exact ih.functions
  | print text _ ih => exact ⟨ih.outside, ih.records, ih.locals, ih.functions⟩
  | @noted s m e _ ih =>
      unfold State.noted
      split
      · exact ⟨ih.outside, ih.records, ih.locals, ih.functions⟩
      · exact ih
  | enterBlock hframe _ ih => exact ⟨ih.outside, ih.records, ih.locals.cons hframe, ih.functions⟩
  | leaveBlock _ ih => exact ⟨ih.outside, ih.records, ih.locals.tail, ih.functions⟩
  | enterMethod hframe _ ih =>
      exact ⟨ih.outside, ih.records, Chain.Silent.nil.cons hframe, ih.functions⟩
  | leaveMethod _ _ ihs iht => exact ⟨iht.outside, iht.records, ihs.locals, iht.functions⟩

/-- Every recorded point is one of a state that a program can get to. -/
theorem Reachable.trace {s : State} (h : Reachable s) :
    ∀ q ∈ s.trace, ∃ t, Reachable t ∧ q.live = t.live := by
  induction h with
  | start =>
      intro q hq
      exact absurd hq List.not_mem_nil
  | define _ hdefine ih =>
      rw [State.define_eq] at hdefine
      obtain ⟨-, g, -, rfl⟩ | ⟨f, fs, g, -, -, rfl⟩ := State.inInnermost_cases hdefine
      · exact ih
      · exact ih
  | defineFunction _ _ hdefine ih =>
      rw [State.defineFunction_eq] at hdefine
      obtain ⟨-, g, -, rfl⟩ | ⟨f, fs, g, -, -, rfl⟩ := State.inInnermost_cases hdefine
      · exact ih
      · exact ih
  | @assign s x v _ ih =>
      rw [State.assign_trace]
      exact ih
  | @noted s m e hs ih =>
      intro q hq
      unfold State.noted at hq
      split at hq
      · rcases List.mem_cons.mp hq with rfl | hq
        · exact ⟨s, hs, rfl⟩
        · exact ih q hq
      · exact ih q hq
  | print _ _ ih | enterBlock _ _ ih | leaveBlock _ ih | enterMethod _ _ ih => exact ih
  | leaveMethod _ _ _ ih => exact ih

/-! ## Rules stay among the reachable states

Every rule makes its changes one at a time, and each of them leads from one reachable state to
another.  A method becomes a function only where no block is open, so for the phases before `main`
this is followed as well. -/

/-- An action that leads from reachable states to reachable states. -/
def Stays {α : Type} (x : Exec α) : Prop := ∀ s, Reachable s → Reachable (x.after s)

namespace Stays

variable {α β : Type} {m : Machine}

theorem of_after {x : Exec α} (h : ∀ s, x.after s = s) : Stays x := by
  intro s hs
  rw [h]
  exact hs

theorem bind {x : Exec α} {f : α → Exec β} (hx : Stays x) (hf : ∀ a, Stays (f a)) :
    Stays (x >>= f) := by
  intro s hs
  have hafter := hx s hs
  rw [Exec.after_bind]
  unfold Exec.after at hafter
  cases hr : x s with
  | error h t =>
      rw [hr] at hafter
      exact hafter
  | ok a t =>
      rw [hr] at hafter
      exact hf a t hafter

theorem relocating {x : Exec α} (place : Place) (h : Stays x) :
    Stays (Exec.relocating place x) := by
  intro s hs
  rw [Exec.after_relocating]
  exact h s hs

theorem callee {f : Function → Exec α} (key : FunctionKey) (place : Place)
    (h : ∀ c : Function, (∀ g, c.body ≠ .native g) → Stays (f c)) :
    Stays (Exec.callee key place >>= f) := by
  intro s hs
  unfold Exec.after
  rw [Exec.callee_bind]
  cases hc : Chain.findFunction? s.chain key with
  | none => exact hs
  | some c =>
      have hc := hs.onItsOwn.findFunction key ▸ hc
      exact h c (hs.onItsOwn.functions _ (lookup_mem hc)) s hs

theorem print (v : Value) : Stays (Exec.print v) := by
  intro s hs
  unfold Exec.print
  cases v.text? with
  | some text => exact .print "\n" (.print text hs)
  | none => exact hs

theorem callMember (r : Value) (f : String) (vs : List Value) :
    Stays (Exec.callMember m r f vs) := by
  intro s hs
  unfold Exec.callMember
  cases r with
  | string text => exact of_after (Exec.after_ofExcept _) s hs
  | record id =>
      unfold Exec.after
      dsimp only
      rw [get_bind, hs.onItsOwn.records]
      exact hs
  | _ => exact hs

theorem assignField (r : Value) (c : Cell) (x : String) (v : Value) :
    Stays (Exec.assignField m r c x v) := by
  unfold Exec.assignField
  cases r with
  | record id =>
      refine bind (fun s hs => ?_) fun _ s hs => .noted m _ hs
      show Reachable { s with records := setField s.records id x v }
      have hnone : setField s.records id x v = s.records := by
        rw [hs.onItsOwn.records]
        rfl
      rw [hnone]
      exact hs
  | _ => exact fun s hs => .noted m _ hs

theorem define (c : Cell) (place : Place) : Stays (Exec.define m c place) := by
  intro s hs
  rw [Exec.after_define]
  cases hdefine : s.define c.name c with
  | error key => exact hs
  | ok t => exact .noted m _ (.define hs hdefine)

theorem inBlock {x : Exec α} {frame : RunFrame} (hframe : frame.functions = []) (h : Stays x) :
    Stays (Exec.inBlock frame x) := by
  intro s hs
  rw [Exec.after_inBlock]
  exact .leaveBlock (h _ (.enterBlock hframe hs))

theorem entering {x : Exec α} {depth : Nat} {frame : RunFrame} (hframe : frame.functions = [])
    (h : Stays x) : Stays (Exec.entering m depth frame x) := by
  intro s hs
  rw [Exec.entering, Exec.after_noting, Exec.after_inMethod]
  exact .noted m _ (.leaveMethod hs (h _ (.noted m _ (.enterMethod hframe hs))))

end Stays

/-- The congruence of actions that stay among the reachable states.  It looks at the first of two
actions only. -/
def staying {m m' : Machine} (hscale : m'.scale = m.scale) : Congruence m m' where
  rel _ _ x _ := Stays x
  decl _ _ x _ := Stays x
  Callee c := ∀ g, c.body ≠ .native g
  scale := hscale
  pure _ := .of_after fun _ => rfl
  throw _ := .of_after fun _ => rfl
  bind := .bind
  note _ s hs := .noted m _ hs
  lookup x place := .of_after (Exec.after_lookup x place)
  lookupField r x := .of_after (Exec.after_lookupField r x)
  relocating := .relocating
  callee := .callee
  print := .print
  native _ hc hg := absurd hg (hc _)
  callMember := .callMember
  assigning x place h := .bind (.of_after (Exec.after_lookup x place)) fun _ => .bind h fun v =>
    .bind (fun _ hs => .assign x v hs) fun _ _ hs => .noted m _ hs
  assigningField r x place h := .bind (.relocating place (.of_after (Exec.after_lookupField r x)))
    fun c => .bind h fun v => .assignField r c x v
  limited place h := by
    split
    · exact .of_after fun _ => rfl
    · next hdepth => exact h (Int.not_le.mp hdepth)
  entering _ := .entering
  inBlock := .inBlock
  decl_of_rel h := h
  decl_bind := .bind
  define := .define

/-- An action that leads from reachable states with no block open to such states. -/
def StaysOutside {α : Type} (x : Exec α) : Prop :=
  ∀ s, Reachable s → s.locals = [] → Reachable (x.after s) ∧ (x.after s).locals = []

namespace StaysOutside

variable {α β : Type} {m : Machine}

theorem bind {x : Exec α} {f : α → Exec β} (hx : StaysOutside x) (hf : ∀ a, StaysOutside (f a)) :
    StaysOutside (x >>= f) := by
  intro s hs hnil
  have hafter := hx s hs hnil
  rw [Exec.after_bind]
  unfold Exec.after at hafter
  cases hr : x s with
  | error h t =>
      rw [hr] at hafter
      exact hafter
  | ok a t =>
      rw [hr] at hafter
      exact hf a t hafter.1 hafter.2

/-- Where all frames are put back, no block is open that was not open before. -/
theorem of_restores {x : Exec α} {depth : Nat} (hx : Stays x)
    (hrestores : Restores (fun _ => True) m depth x) : StaysOutside x := by
  intro s hs hnil
  refine ⟨hx s hs, ?_⟩
  have hlocals := congrArg Bindings.locals (hrestores s (.any m s.bindings)).1
  simp only [State.bindings, hnil, List.map_nil] at hlocals
  exact List.map_eq_nil_iff.mp hlocals

theorem define (c : Cell) (place : Place) : StaysOutside (Exec.define m c place) := by
  intro s hs hnil
  refine ⟨Stays.define c place s hs, ?_⟩
  rw [Exec.after_define]
  cases hdefine : s.define c.name c with
  | error key => exact hnil
  | ok t =>
      dsimp only
      rw [State.locals_noted]
      rw [State.define_eq] at hdefine
      obtain ⟨-, g, -, rfl⟩ | ⟨f, fs, g, hlocals, -, -⟩ := State.inInnermost_cases hdefine
      · exact hnil
      · rw [hnil] at hlocals
        cases hlocals

theorem method (d : Method Mark) : StaysOutside (Exec.method d) := by
  intro s hs hnil
  rw [Exec.after_method]
  cases hdefine : s.defineFunction (Exec.functionOf d) with
  | error key => exact ⟨hs, hnil⟩
  | ok t =>
      refine ⟨.defineFunction hs hnil hdefine, ?_⟩
      rw [State.defineFunction_eq] at hdefine
      obtain ⟨-, g, -, rfl⟩ | ⟨f, fs, g, hlocals, -, -⟩ := State.inInnermost_cases hdefine
      · exact hnil
      · rw [hnil] at hlocals
        cases hlocals

theorem fields (fuel depth : Nat) : ∀ fs, StaysOutside (Exec.fields m fuel depth fs)
  | [] => fun _ hs hnil => ⟨hs, hnil⟩
  | f :: fs =>
      bind (bind (of_restores (((staying (m := m) rfl).rules fuel).initial depth f.value)
        (visit_initial fuel depth f.value)) fun _ => define _ _) fun _ => fields fuel depth fs

theorem methods : ∀ ds, StaysOutside (Exec.methods ds)
  | [] => fun _ hs hnil => ⟨hs, hnil⟩
  | d :: ds => bind (method d) fun _ => methods ds

end StaysOutside

theorem StaysOutside.reachable_bind {α β : Type} {x : Exec α} {f : α → Exec β}
    (hx : StaysOutside x) (hf : ∀ a, Stays (f a)) {s : State} (hs : Reachable s)
    (hnil : s.locals = []) : Reachable ((x >>= f).after s) := by
  have hafter := hx s hs hnil
  rw [Exec.after_bind]
  unfold Exec.after at hafter
  cases hr : x s with
  | error h t =>
      rw [hr] at hafter
      exact hafter.1
  | ok a t =>
      rw [hr] at hafter
      exact hf a t hafter.1

theorem Stays.exitCode (v : Value) : Stays (Exec.exitCode v) := by
  cases v with
  | integer k => exact .of_after fun _ => rfl
  | _ => exact .of_after fun _ => rfl

theorem Exec.program_reachable (m : Machine) (fuel depth : Nat) (p : Program Mark) {s : State}
    (hs : Reachable s) (hnil : s.locals = []) :
    Reachable ((Exec.program m fuel depth p >>= Exec.exitCode).after s) := by
  have hdeclared : StaysOutside
      (Exec.fields m fuel depth p.fields >>= fun _ => Exec.methods p.methods) :=
    .bind (.fields fuel depth p.fields) fun _ => .methods p.methods
  simp only [Exec.program, bind_assoc]
  rw [← bind_assoc]
  refine hdeclared.reachable_bind (fun _ s hs => ?_) hs hnil
  rw [Exec.after, get_bind]
  cases hf : Chain.findFunction? s.chain ("main", 0) with
  | none => exact hs
  | some f =>
      rw [hs.onItsOwn.findFunction] at hf
      have hmain : Stays (Exec.invoke m fuel depth f []) :=
        ((staying (m := m) rfl).rules fuel).invoke depth f []
          (hs.onItsOwn.functions _ (lookup_mem hf))
      exact hmain.bind .exitCode s hs

/-- A run of a program with nothing around it leaves a reachable state, and every point that it
has recorded is one of a reachable state. -/
theorem Interpreter.run_reachable (m : Machine) (p : Program Mark) (fuel : Nat) :
    Reachable ((Interpreter.start m {}).run p fuel).2.state ∧
    ∀ q ∈ ((Interpreter.start m {}).run p fuel).2.state.trace,
      ∃ t, Reachable t ∧ q.live = t.live := by
  have hreachable : Reachable ((Interpreter.start m {}).run p fuel).2.state := by
    rcases Interpreter.run_start m {} p fuel with ⟨hrun, -⟩ | hrun
    · rw [hrun]
      exact .start
    · have hafter := Exec.program_reachable (Interpreter.start m {}).machine fuel 0 p .start rfl
      unfold Exec.after at hafter
      rw [hrun, Interpreter.perform]
      split
      · next k t ht =>
          rw [show (Interpreter.start m {}).reset.state =
            { globals := Interpreter.builtinFrame } from rfl] at ht
          rw [ht] at hafter
          exact hafter
      · next e t ht =>
          rw [show (Interpreter.start m {}).reset.state =
            { globals := Interpreter.builtinFrame } from rfl] at ht
          rw [ht] at hafter
          exact hafter
  exact ⟨hreachable, hreachable.trace⟩

/-! ## Callers that wait

The end of a method puts the blocks of its caller back as they were when it was called.  This comes
to the same as taking them from among the blocks that wait, since no rule touches those. -/

theorem State.suspended_noted (s : State) (m : Machine) (e : Event) :
    (s.noted m e).suspended = s.suspended := by
  unfold State.noted
  split <;> rfl

theorem State.suspended_assign (s : State) (x : String) (v : Value) :
    (s.assign x v).suspended = s.suspended := by
  unfold State.assign
  dsimp only
  split
  · rfl
  · split
    · rfl
    · split <;> rfl

/-- An action that leaves the blocks that wait as they are. -/
def Awaits {α : Type} (x : Exec α) : Prop := ∀ s, (x.after s).suspended = s.suspended

namespace Awaits

variable {α β : Type} {m : Machine}

theorem of_after {x : Exec α} (h : ∀ s, x.after s = s) : Awaits x :=
  fun s => congrArg State.suspended (h s)

theorem bind {x : Exec α} {f : α → Exec β} (hx : Awaits x) (hf : ∀ a, Awaits (f a)) :
    Awaits (x >>= f) := by
  intro s
  have hafter := hx s
  rw [Exec.after_bind]
  unfold Exec.after at hafter
  cases hr : x s with
  | error h t =>
      rw [hr] at hafter
      exact hafter
  | ok a t =>
      rw [hr] at hafter
      exact (hf a t).trans hafter

theorem note (e : Event) : Awaits (Exec.note m e) := fun s => s.suspended_noted m e

theorem relocating {x : Exec α} (place : Place) (h : Awaits x) :
    Awaits (Exec.relocating place x) := by
  intro s
  rw [Exec.after_relocating]
  exact h s

theorem callee {f : Function → Exec α} (key : FunctionKey) (place : Place)
    (h : ∀ c, Awaits (f c)) : Awaits (Exec.callee key place >>= f) := by
  intro s
  unfold Exec.after
  rw [Exec.callee_bind]
  cases Chain.findFunction? s.chain key with
  | none => rfl
  | some c => exact h c s

theorem print (v : Value) : Awaits (Exec.print v) := by
  intro s
  unfold Exec.print
  cases v.text? with
  | some text => rfl
  | none => rfl

theorem native (g : Native) (vs : List Value) : Awaits (Exec.native g vs) := by
  intro s
  rw [Exec.after_native]

theorem callMember (r : Value) (f : String) (vs : List Value) :
    Awaits (Exec.callMember m r f vs) := by
  intro s
  unfold Exec.callMember
  cases r with
  | string text => exact of_after (Exec.after_ofExcept _) s
  | record id =>
      unfold Exec.after
      dsimp only
      rw [get_bind]
      cases ((s.records[id]?.map fun r => m.methods r.shape).getD []).lookup
          (f, vs.length + 1) with
      | none => rfl
      | some g => exact native g _ s
  | _ => rfl

theorem assign (c : Cell) (x : String) (v : Value) : Awaits (Exec.assign m c x v) :=
  bind (fun s => s.suspended_assign x v) fun _ => note _

theorem assignField (r : Value) (c : Cell) (x : String) (v : Value) :
    Awaits (Exec.assignField m r c x v) := by
  unfold Exec.assignField
  cases r with
  | record id => exact bind (fun _ => rfl) fun _ => note _
  | _ => exact note _

theorem define (c : Cell) (place : Place) : Awaits (Exec.define m c place) := by
  intro s
  rw [Exec.after_define]
  cases hdefine : s.define c.name c with
  | error key => rfl
  | ok t =>
      dsimp only
      rw [State.suspended_noted]
      rw [State.define_eq] at hdefine
      obtain ⟨-, g, -, rfl⟩ | ⟨f, fs, g, -, -, rfl⟩ := State.inInnermost_cases hdefine
      · rfl
      · rfl

theorem inBlock {x : Exec α} (frame : RunFrame) (h : Awaits x) :
    Awaits (Exec.inBlock frame x) := by
  intro s
  rw [Exec.after_inBlock]
  exact h _

theorem entering (depth : Nat) (frame : RunFrame) (x : Exec α) :
    Awaits (Exec.entering m depth frame x) := by
  intro s
  rw [Exec.entering, Exec.after_noting, State.suspended_noted, Exec.after_inMethod]

end Awaits

/-- The congruence of actions that leave what waits as it is.  It looks at the first of two actions
only. -/
def awaiting {m m' : Machine} (hscale : m'.scale = m.scale) : Congruence m m' where
  rel _ _ x _ := Awaits x
  decl _ _ x _ := Awaits x
  Callee _ := True
  scale := hscale
  pure _ := .of_after fun _ => rfl
  throw _ := .of_after fun _ => rfl
  bind := .bind
  note _ := .note _
  lookup x place := .of_after (Exec.after_lookup x place)
  lookupField r x := .of_after (Exec.after_lookupField r x)
  relocating := .relocating
  callee key place h := .callee key place fun c => h c trivial
  print := .print
  native vs _ _ := .native _ vs
  callMember := .callMember
  assigning x place h := .bind (.of_after (Exec.after_lookup x place)) fun c => .bind h fun v =>
    .assign c x v
  assigningField r x place h := .bind (.relocating place (.of_after (Exec.after_lookupField r x)))
    fun c => .bind h fun v => .assignField r c x v
  limited place h := by
    split
    · exact .of_after fun _ => rfl
    · next hdepth => exact h (Int.not_le.mp hdepth)
  entering _ _ _ := .entering _ _ _
  inBlock _ := .inBlock _
  decl_of_rel h := h
  decl_bind := .bind
  define := .define

namespace Exec

/-- Run the body of a method, and take the caller's blocks from among those that wait, as the body
leaves them. -/
def nested {α : Type} (frame : RunFrame) (act : Exec α) : Exec α := fun s =>
  match act { s with locals := [frame], suspended := s.locals ++ s.suspended } with
  | .ok a t => .ok a { t with
      locals := t.suspended.take s.locals.length, suspended := t.suspended.drop s.locals.length }
  | .error h t => .error h { t with
      locals := t.suspended.take s.locals.length, suspended := t.suspended.drop s.locals.length }

theorem inMethod_eq_nested {α : Type} {act : Exec α} (h : Awaits act) (frame : RunFrame) :
    inMethod frame act = nested frame act := by
  funext s
  have hact := h { s with locals := [frame], suspended := s.locals ++ s.suspended }
  unfold after at hact
  unfold inMethod nested
  cases hr : act { s with locals := [frame], suspended := s.locals ++ s.suspended } with
  | ok a t =>
      rw [hr] at hact
      dsimp only at hact ⊢
      rw [hact, List.take_left, List.drop_left]
  | error e t =>
      rw [hr] at hact
      dsimp only at hact ⊢
      rw [hact, List.take_left, List.drop_left]

/-- The body of a method, from where it is entered. -/
def methodBody (m : Machine) (fuel depth : Nat) (frame : RunFrame) (body : List (Stmt Mark)) :
    Exec Flow := do
  note m (.enter (depth + 1))
  noteFrame m frame.vars
  block m fuel (depth + 1) body

theorem methodBody_awaits (m : Machine) (fuel depth : Nat) (frame : RunFrame)
    (body : List (Stmt Mark)) : Awaits (methodBody m fuel depth frame body) :=
  .bind (.note _) fun _ => .bind ((@awaiting m m rfl).noteFrame (d := depth) frame.vars) fun _ =>
    ((@awaiting m m rfl).rules fuel).block (depth + 1) body

end Exec

/-! ## Two calls

A call enters its method with the arguments alone.  From there on the two runs are beside each
other, and on leaving, each gets the blocks of its own caller back. -/

/-- What a call has done in each of two states: the frame of the program is alike again, the same
text was printed, and the blocks around the call are as they were. -/
structure Returned (s t s' t' : State) : Prop where
  globals : s'.globals.Alike t'.globals
  output : ∃ added, s'.output = s.output ++ added ∧ t'.output = t.output ++ added
  blocks : s'.locals = s.locals ∧ s'.suspended = s.suspended
  blocks' : t'.locals = t.locals ∧ t'.suspended = t.suspended

namespace Returned

variable {s t s' t' : State}

theorem refl (h : s.globals.Alike t.globals) : Returned s t s t :=
  ⟨h, ⟨"", by simp, by simp⟩, ⟨rfl, rfl⟩, rfl, rfl⟩

theorem noted (h : Returned s t s' t') (m : Machine) (e : Event) :
    Returned s t (s'.noted m e) (t'.noted m e) := by
  unfold State.noted
  split
  · exact ⟨h.globals, h.output, h.blocks, h.blocks'⟩
  · exact h

theorem of_beside (h : Beside s.output t.output s' t') :
    Returned s t { s' with locals := s.locals, suspended := s.suspended }
      { t' with locals := t.locals, suspended := t.suspended } :=
  ⟨h.globals, h.output, ⟨rfl, rfl⟩, rfl, rfl⟩

end Returned

/-- The body of a method does the same in its own frame, whatever waits behind. -/
theorem entering_ignores_caller {α : Type} {x : Exec α} {m : Machine} {depth : Nat}
    {frame : RunFrame} {s t : State} (hs : OnItsOwn s) (ht : OnItsOwn t)
    (hglobals : s.globals.Alike t.globals) (h : Simulates (Beside s.output t.output) x x) :
    Matches (Returned s t) (Exec.entering m depth frame x s)
      (Exec.entering m depth frame x t) := by
  have hstart : Beside s.output t.output
      { s with locals := [frame], suspended := s.locals ++ s.suspended }
      { t with locals := [frame], suspended := t.locals ++ t.suspended } :=
    ⟨rfl, hglobals, ht.outside.trans hs.outside.symm, ht.records.trans hs.records.symm,
      "", by simp, by simp⟩
  have hbody := Simulates.bind ((beside m s.output t.output).note (.enter (depth + 1)))
    (fun _ => h) _ _ hstart
  unfold Exec.entering Exec.noting Exec.inMethod
  generalize (Exec.note m (.enter (depth + 1)) >>= fun _ => x)
    { s with locals := [frame], suspended := s.locals ++ s.suspended } = r at hbody ⊢
  generalize (Exec.note m (.enter (depth + 1)) >>= fun _ => x)
    { t with locals := [frame], suspended := t.locals ++ t.suspended } = r' at hbody ⊢
  cases hbody with
  | ok h => exact .ok ((Returned.of_beside h).noted m _)
  | error h => exact .error ((Returned.of_beside h).noted m _)

/-- Where a function is called from makes no difference.  In two states of programs that run on
their own, with the frame of the program alike, a name and a number of arguments mean the same
function.  Its call gives the same value or error, adds the same text to the output and leaves the
frame of the program alike, and no variable of the blocks around the call has changed.  They do not
change while its body runs, either: what the body leaves of them is what they were. -/
theorem invoke_ignores_caller (m : Machine) (fuel depth : Nat) {s t : State} (hs : Reachable s)
    (ht : Reachable t) (hglobals : s.globals.Alike t.globals) (key : FunctionKey) :
    Chain.findFunction? t.chain key = Chain.findFunction? s.chain key ∧
    (∀ f, Chain.findFunction? s.chain key = some f → ∀ args,
      Matches (Returned s t) (Exec.invoke m fuel depth f args s)
        (Exec.invoke m fuel depth f args t)) ∧
    ∀ n frame body, Exec.inMethod frame (Exec.methodBody m n depth frame body) =
      Exec.nested frame (Exec.methodBody m n depth frame body) := by
  refine ⟨?_, fun f hf args => ?_, fun n frame body =>
    Exec.inMethod_eq_nested (Exec.methodBody_awaits m n depth frame body) frame⟩
  · rw [hs.onItsOwn.findFunction, ht.onItsOwn.findFunction, hglobals.functions]
  have hsame : Returned s t s t := .refl hglobals
  cases fuel with
  | zero => exact .error hsame
  | succ n =>
      have hrules := ((beside m s.output t.output).congruence).rules n
      simp only [Exec.invoke]
      cases hbody : f.body with
      | print =>
          cases args with
          | nil => exact .error hsame
          | cons v vs =>
              refine Matches.bind ?_ fun _ => .pure _
              unfold Exec.print
              cases v.text? with
              | none => exact .error hsame
              | some text =>
                  refine .ok ⟨hglobals, ⟨text ++ "\n", ?_, ?_⟩, ⟨rfl, rfl⟩, rfl, rfl⟩
                  · exact String.append_assoc
                  · exact String.append_assoc
      | native g =>
          rw [hs.onItsOwn.findFunction] at hf
          exact absurd hbody (hs.onItsOwn.functions _ (lookup_mem hf) g)
      | method d =>
          dsimp only
          split
          · exact .error hsame
          · split
            · exact .error hsame
            · cases bindParameters d.tag (d.parameters.zip (f.parameters.zip args)) {} with
              | error key => exact .error hsame
              | ok frame =>
                  have hblock : Simulates (Beside s.output t.output)
                      (Exec.noteFrame m frame.vars >>= fun _ => Exec.block m n (depth + 1) d.body)
                      (Exec.noteFrame m frame.vars >>= fun _ =>
                        Exec.block m n (depth + 1) d.body) :=
                    .bind ((beside m s.output t.output).congruence.noteFrame (d := depth) _)
                      fun _ => hrules.block (depth + 1) d.body
                  refine Matches.bind
                    (entering_ignores_caller hs.onItsOwn ht.onItsOwn hglobals hblock) fun flow => ?_
                  cases flow <;> exact .pure _

/-- A method that adds to a variable of the program and prints the sum. -/
def tally : Method Mark :=
  let mark : Mark := ⟨0, none⟩
  { tag := mark
    name := "tally"
    parameters := ["n"]
    parameterTypes := ["Integer"]
    returnType := some "Integer"
    body :=
      [.assign mark (.var mark "a") (.binary mark .add (.var mark "a") (.var mark "n")),
        .expr mark (.call mark "print" [.var mark "a"]), .ret mark (.var mark "a")] }

/-- A variable `a`. -/
def tallyCell (k : Int) : Cell := Cell.declare ⟨1, none⟩ "a" .integer (.integer k)

/-- A program with the variable and the method. -/
def tallyState : State :=
  { globals :=
      { vars := [("a", tallyCell 1)]
        functions :=
          Interpreter.builtinFrame.functions ++ [(("tally", 1), Exec.functionOf tally)] } }

/-- The same, in a block of a method called from another block, with variables `a` in both. -/
def shadowedState : State :=
  { tallyState with
    locals := [{ vars := [("a", tallyCell 7)] }]
    suspended := [{ vars := [("a", tallyCell 8)] }] }

/-- The number that an action gave, if it gave one. -/
def numberGiven? : EStateM.Result Halt State Value → Option Int
  | .ok (.integer k) _ => some k
  | _ => none

theorem tally_ignores_caller : Reachable tallyState ∧ Reachable shadowedState ∧
    tallyState.globals.Alike shadowedState.globals ∧
    Chain.findFunction? tallyState.chain ("tally", 1) = some (Exec.functionOf tally) ∧
    Chain.findFunction? shadowedState.chain ("tally", 1) = some (Exec.functionOf tally) ∧
    (∃ t, Exec.invoke {} 20 1 (Exec.functionOf tally) [.integer 2] shadowedState =
      .ok (.integer 3) t) ∧
    Matches (Returned tallyState shadowedState)
      (Exec.invoke {} 20 1 (Exec.functionOf tally) [.integer 2] tallyState)
      (Exec.invoke {} 20 1 (Exec.functionOf tally) [.integer 2] shadowedState) := by
  have hdeclared : Reachable tallyState :=
    .defineFunction (d := tally) (.define (x := "a") (c := tallyCell 1) .start rfl) rfl rfl
  have hblock : Reachable { tallyState with locals := [{ vars := [("a", tallyCell 8)] }] } :=
    .enterBlock rfl hdeclared
  have hshadowed : Reachable shadowedState := .enterMethod rfl hblock
  have hvalue : numberGiven?
      (Exec.invoke {} 20 1 (Exec.functionOf tally) [.integer 2] shadowedState) = some 3 := by
    decide +kernel
  have hthree : ∃ t, Exec.invoke {} 20 1 (Exec.functionOf tally) [.integer 2] shadowedState =
      .ok (.integer 3) t := by
    unfold numberGiven? at hvalue
    split at hvalue
    · next k t ht => exact ⟨t, Option.some.inj hvalue ▸ ht⟩
    · cases hvalue
  have hcall := invoke_ignores_caller {} 20 1 hdeclared hshadowed (.refl _) ("tally", 1)
  exact ⟨hdeclared, hshadowed, .refl _, rfl, rfl, hthree, hcall.2.1 _ rfl [.integer 2]⟩

end QuillLang
