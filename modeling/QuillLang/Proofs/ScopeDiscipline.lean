/-
# Every visit puts the scopes back

A visit of a node is one evaluation of an expression, one execution of a
statement, or one definition of a field or a method.  However it ends, with a
value, by a return or with an error, it leaves the scopes as it found them:
the same blocks are open, and no frame has gained or lost a binding.  Only a
declaration may leave one variable more in the innermost frame, and a method
one function (`Node.visit_keeps_scopes`).

What is bound is all of a frame but the values of its variables (`Bindings`).
How many methods are running is read off the recorded points: every method
that is entered is left again, and never are more of them running than the
machine allows, or than were running before (`Counted`).

Functions of the embedding program have no access to the frames.  They may do
as they like with its records, so these keep their fields if such functions
keep them (`Native.Gentle`).
-/
import QuillLang.Proofs.Congruence
import QuillLang.Proofs.Numbering

namespace QuillLang

/-! ## What is bound

The values are left out, and the rest can be compared by equality.  Defining in a state without
values mirrors defining in the state. -/

/-- A frame without the values of its variables. -/
def Frame.bindings (f : Frame Cell Function) : Frame Variable Function :=
  { vars := f.vars.map fun (x, c) => (x, c.toVariable), functions := f.functions }

/-- A record without the values of its fields. -/
def Record.bindings (r : Record) : String × List (String × Variable) :=
  (r.shape, r.fields.map fun (x, c) => (x, c.toVariable))

/-- All frames of a state, without values. -/
structure Bindings where
  locals : Chain Variable Function
  suspended : Chain Variable Function
  globals : Frame Variable Function
  outside : Chain Variable Function

namespace Bindings

/-- Change the innermost frame. -/
def inInnermost (k : Bindings)
    (change : Frame Variable Function → Except Duplicate (Frame Variable Function)) :
    Except Duplicate Bindings :=
  match k.locals with
  | [] => (change k.globals).map fun globals => { k with globals }
  | f :: fs => (change f).map fun f => { k with locals := f :: fs }

/-- Define a variable in the innermost frame. -/
def define (k : Bindings) (name : String) (v : Variable) : Except Duplicate Bindings :=
  k.inInnermost (·.defineVariable name v)

/-- Define a function in the innermost frame. -/
def defineFunction (k : Bindings) (f : Function) : Except Duplicate Bindings :=
  k.inInnermost (·.defineFunction f.key f)

/-- The scopes around the innermost block. -/
def around (k : Bindings) : Bindings := { k with locals := k.locals.tail }

def frames (k : Bindings) : Chain Variable Function :=
  k.locals ++ k.suspended ++ k.globals :: k.outside

end Bindings

namespace State

def bindings (s : State) : Bindings :=
  { locals := s.locals.map Frame.bindings
    suspended := s.suspended.map Frame.bindings
    globals := s.globals.bindings
    outside := s.outside.map Frame.bindings }

/-- What the records of a state have for fields. -/
def recordBindings (s : State) : Array (String × List (String × Variable)) :=
  s.records.map Record.bindings

end State

/-! ## Changes of values

An assignment changes a value and nothing that is bound.  A definition does the same to what is
bound as to the state. -/

theorem Frame.lookup_bindings (f : Frame Cell Function) (x : String) :
    f.bindings.vars.lookup x = (f.vars.lookup x).map Cell.toVariable := by
  unfold bindings
  induction f.vars with
  | nil => rfl
  | cons b vars ih =>
      obtain ⟨y, d⟩ := b
      simp only [List.map_cons, List.lookup_cons]
      split
      · rfl
      · exact ih

theorem Frame.bindings_defineVariable (f : Frame Cell Function) (x : String) (c : Cell) :
    f.bindings.defineVariable x c.toVariable = (f.defineVariable x c).map Frame.bindings := by
  unfold defineVariable findVariable?
  rw [f.lookup_bindings]
  cases f.vars.lookup x with
  | some d => rfl
  | none => simp [bindings, Except.map]

theorem Frame.bindings_defineFunction (f : Frame Cell Function) (key : FunctionKey)
    (g : Function) :
    f.bindings.defineFunction key g = (f.defineFunction key g).map Frame.bindings := by
  unfold defineFunction findFunction?
  have hfunctions : f.bindings.functions = f.functions := rfl
  rw [hfunctions]
  cases f.functions.lookup key with
  | some h => rfl
  | none => rfl

theorem Frame.bindings_modifyVariable? {f g : Frame Cell Function} {x : String} {v : Value}
    (h : f.modifyVariable? x (fun c => { c with value := v }) = some g) :
    g.bindings = f.bindings := by
  cases hx : f.vars.lookup x with
  | none => rw [modifyVariable?_of_none hx] at h; cases h
  | some c =>
      rw [modifyVariable?_of_some hx] at h
      cases h
      unfold bindings
      rw [List.map_map]
      refine congrArg (Frame.mk · f.functions) (List.map_congr_left ?_)
      rintro ⟨y, d⟩ -
      show (y, Cell.toVariable (if y = x then _ else d)) = (y, d.toVariable)
      split <;> rfl

theorem Chain.bindings_modifyVariable? {x : String} {v : Value} :
    ∀ {c c' : Chain Cell Function},
      modifyVariable? c x (fun c => { c with value := v }) = some c' →
      c'.map Frame.bindings = c.map Frame.bindings
  | [], _, h => by cases h
  | f :: c, c', h => by
      unfold modifyVariable? at h
      split at h
      · next g hg =>
          cases h
          rw [List.map_cons, List.map_cons, Frame.bindings_modifyVariable? hg]
      · obtain ⟨d, hd, rfl⟩ := Option.map_eq_some_iff.mp h
        rw [List.map_cons, List.map_cons, bindings_modifyVariable? hd]

namespace State

theorem bindings_assign (s : State) (x : String) (v : Value) :
    (s.assign x v).bindings = s.bindings := by
  unfold assign
  dsimp only
  split
  · next locals h =>
      unfold bindings
      rw [Chain.bindings_modifyVariable? h]
  · split
    · next globals h =>
        unfold bindings
        rw [Frame.bindings_modifyVariable? h]
    · split
      · next outside h =>
          unfold bindings
          rw [Chain.bindings_modifyVariable? h]
      · rfl

/-- What is bound decides which names mean a variable. -/
theorem isSome_findVariable? (s : State) (x : String) :
    (Chain.findVariable? s.chain x).isSome =
      (Chain.findVariable? (s.bindings.locals ++ s.bindings.globals :: s.bindings.outside)
        x).isSome := by
  have hchain : s.bindings.locals ++ s.bindings.globals :: s.bindings.outside =
      s.chain.map Frame.bindings := by
    simp [chain, bindings]
  rw [hchain]
  generalize s.chain = c
  induction c with
  | nil => rfl
  | cons f c ih =>
      simp only [Chain.findVariable?, Frame.findVariable?, List.map_cons, List.findSome?_cons,
        Frame.lookup_bindings] at ih ⊢
      cases f.vars.lookup x with
      | some v => rfl
      | none => exact ih

theorem bindings_functions (s : State) :
    s.bindings.locals.map (·.functions) = s.locals.map (·.functions) := by
  simp [bindings, Function.comp_def, Frame.bindings]

theorem assign_records (s : State) (x : String) (v : Value) :
    (s.assign x v).records = s.records := by
  unfold assign
  dsimp only
  split
  · rfl
  · split
    · rfl
    · split <;> rfl

theorem assign_trace (s : State) (x : String) (v : Value) : (s.assign x v).trace = s.trace := by
  unfold assign
  dsimp only
  split
  · rfl
  · split
    · rfl
    · split <;> rfl

/-- Change the innermost frame. -/
def inInnermost (s : State) (change : RunFrame → Except Duplicate RunFrame) :
    Except Duplicate State :=
  match s.locals with
  | [] => (change s.globals).map fun globals => { s with globals }
  | f :: fs => (change f).map fun f => { s with locals := f :: fs }

theorem define_eq (s : State) (x : String) (c : Cell) :
    s.define x c = s.inInnermost (·.defineVariable x c) := rfl

theorem defineFunction_eq (s : State) (f : Function) :
    s.defineFunction f = s.inInnermost (·.defineFunction f.key f) := rfl

theorem inInnermost_cases {s t : State} {change : RunFrame → Except Duplicate RunFrame}
    (h : s.inInnermost change = .ok t) :
    (s.locals = [] ∧ ∃ g, change s.globals = .ok g ∧ t = { s with globals := g }) ∨
    ∃ f fs g, s.locals = f :: fs ∧ change f = .ok g ∧ t = { s with locals := g :: fs } := by
  unfold inInnermost at h
  cases hlocals : s.locals with
  | nil =>
      rw [hlocals] at h
      cases hg : change s.globals with
      | error key => rw [hg] at h; cases h
      | ok g =>
          rw [hg] at h
          exact .inl ⟨rfl, g, rfl, (Except.ok.inj h).symm⟩
  | cons f fs =>
      rw [hlocals] at h
      dsimp only at h
      cases hg : change f with
      | error key => rw [hg] at h; cases h
      | ok g =>
          rw [hg] at h
          exact .inr ⟨f, fs, g, rfl, hg, (Except.ok.inj h).symm⟩

theorem bindings_inInnermost (s : State) {change : RunFrame → Except Duplicate RunFrame}
    {change' : Frame Variable Function → Except Duplicate (Frame Variable Function)}
    (h : ∀ f, change' f.bindings = (change f).map Frame.bindings) :
    s.bindings.inInnermost change' = (s.inInnermost change).map bindings := by
  unfold Bindings.inInnermost inInnermost
  cases hlocals : s.locals with
  | nil =>
      simp only [bindings, hlocals, List.map_nil, h]
      cases change s.globals with
      | error key => rfl
      | ok g => simp [Except.map, bindings]
  | cons f fs =>
      simp only [bindings, hlocals, List.map_cons, h]
      cases change f with
      | error key => rfl
      | ok g => simp [Except.map, bindings]

theorem bindings_define (s : State) (x : String) (c : Cell) :
    s.bindings.define x c.toVariable = (s.define x c).map bindings := by
  rw [define_eq, Bindings.define]
  exact s.bindings_inInnermost (·.bindings_defineVariable x c)

theorem bindings_defineFunction (s : State) (f : Function) :
    s.bindings.defineFunction f = (s.defineFunction f).map bindings := by
  rw [defineFunction_eq, Bindings.defineFunction]
  exact s.bindings_inInnermost (·.bindings_defineFunction f.key f)

end State

theorem Record.bindings_setField (records : Array Record) (id : Nat) (x : String) (v : Value) :
    (setField records id x v).map bindings = records.map bindings := by
  refine Array.ext (by simp [setField]) fun i hi _ => ?_
  simp only [setField, Array.getElem_map, Array.getElem_modify]
  split
  · unfold bindings
    rw [List.map_map]
    refine congrArg (Prod.mk _) (List.map_congr_left ?_)
    rintro ⟨y, c⟩ -
    show (y, Cell.toVariable (if y = x then _ else c)) = (y, c.toVariable)
    split <;> rfl
  · rfl

/-! ## Counting methods

The recorded points tell when methods are entered and left, so how many are running can be followed
along them. -/

/-- How the number of running methods goes from `start` over recorded points, the latest first,
to another number: a method is entered as the next one and below a bound, and the latest is left
first. -/
inductive Counted (top : Int) (start : Nat) : List Moment → Nat → Prop where
  | start : Counted top start [] start
  | within {q : Moment} {qs : List Moment} {k : Nat} : q.event.crosses = false →
      Counted top start qs k → Counted top start (q :: qs) k
  | enter {live : List Cell} {qs : List Moment} {k : Nat} : ((k + 1 : Nat) : Int) ≤ top →
      Counted top start qs k → Counted top start (⟨.enter (k + 1), live⟩ :: qs) (k + 1)
  | leave {live : List Cell} {qs : List Moment} {k : Nat} :
      Counted top start qs (k + 1) → Counted top start (⟨.leave (k + 1), live⟩ :: qs) k

theorem Counted.trans {top : Int} {i j k : Nat} {qs rs : List Moment} (h : Counted top i qs j)
    (h' : Counted top j rs k) : Counted top i (rs ++ qs) k := by
  induction h' with
  | start => exact h
  | within hq _ ih => exact .within hq ih
  | enter hk _ ih => exact .enter hk ih
  | leave _ ih => exact .leave ih

/-! ## What a visit keeps

Two things are kept besides the frames: the fields of records, if functions of the embedding
program let them, and the number of running methods.  The latter can be read off only where a
machine records. -/

/-- A function of the embedding program that gives no record a field and takes none away. -/
def Native.Gentle (g : Native) : Prop :=
  ∀ vs records, (g vs records).2.map Record.bindings = records.map Record.bindings

/-- All functions of the embedding program that can be reached are of some kind. -/
structure Lends (P : Native → Prop) (m : Machine) (k : Bindings) : Prop where
  functions : ∀ fs ∈ k.frames.map (·.functions), ∀ b ∈ fs, ∀ g, b.2.body = .native g → P g
  methods : ∀ shape, ∀ b ∈ m.methods shape, P b.2

theorem Lends.any (m : Machine) (k : Bindings) : Lends (fun _ => True) m k :=
  ⟨fun _ _ _ _ _ _ => trivial, fun _ _ _ => trivial⟩

theorem Lends.congr {P : Native → Prop} {m : Machine} {k k' : Bindings} (h : Lends P m k)
    (hfs : ∀ fs ∈ k'.frames.map (·.functions), fs = [] ∨ fs ∈ k.frames.map (·.functions)) :
    Lends P m k' := by
  refine ⟨fun fs hmem b hb => ?_, h.methods⟩
  rcases hfs fs hmem with rfl | hmem
  · cases hb
  · exact h.functions fs hmem b hb

/-- What lies between two states at the same depth, apart from the frames. -/
structure Passes (P : Native → Prop) (m : Machine) (depth : Nat) (s t : State) : Prop where
  records : (∀ g, P g → g.Gentle) → t.recordBindings = s.recordBindings
  counted : m.tracing = true →
    ∃ qs, t.trace = qs ++ s.trace ∧ Counted (max m.maxDepth depth) depth qs depth

namespace Passes

variable {P : Native → Prop} {m : Machine} {d : Nat} {s t u : State}

theorem of_eq (hrecords : t.records = s.records) (htrace : t.trace = s.trace) :
    Passes P m d s t :=
  ⟨fun _ => congrArg (·.map Record.bindings) hrecords, fun _ => ⟨[], htrace, .start⟩⟩

theorem refl (s : State) : Passes P m d s s := .of_eq rfl rfl

theorem trans (h : Passes P m d s t) (h' : Passes P m d t u) : Passes P m d s u := by
  refine ⟨fun hP => (h'.records hP).trans (h.records hP), fun hm => ?_⟩
  obtain ⟨qs, hqs, hcount⟩ := h.counted hm
  obtain ⟨rs, hrs, hcount'⟩ := h'.counted hm
  refine ⟨rs ++ qs, ?_, hcount.trans hcount'⟩
  rw [hrs, hqs, List.append_assoc]

theorem inInnermost {change : RunFrame → Except Duplicate RunFrame}
    (h : s.inInnermost change = .ok t) : Passes P m d s t := by
  obtain ⟨-, g, -, rfl⟩ | ⟨f, fs, g, -, -, rfl⟩ := State.inInnermost_cases h
  · exact .of_eq rfl rfl
  · exact .of_eq rfl rfl

theorem noted {e : Event} (he : e.crosses = false) : Passes P m d s (s.noted m e) := by
  unfold State.noted
  split
  · exact ⟨fun _ => rfl, fun _ => ⟨[⟨e, s.live⟩], rfl, .within he .start⟩⟩
  · exact refl s

end Passes

theorem State.bindings_noted (s : State) (m : Machine) (e : Event) :
    (s.noted m e).bindings = s.bindings := by
  unfold noted
  split <;> rfl

theorem State.locals_noted (s : State) (m : Machine) (e : Event) :
    (s.noted m e).locals = s.locals := by
  unfold noted
  split <;> rfl

/-! ## The state after an action

For what is kept it does not matter whether an action succeeds.  So its state is taken in both
cases, and the lemmas say what it is for each way of putting actions together. -/

namespace Exec

variable {α β : Type}

/-- The state in which an action ends, however it does. -/
def after (x : Exec α) (s : State) : State :=
  match x s with
  | .ok _ t => t
  | .error _ t => t

theorem after_of_ok {x : Exec α} {s t : State} {a : α} (h : x s = .ok a t) : x.after s = t := by
  unfold after
  rw [h]

theorem after_bind (x : Exec α) (f : α → Exec β) (s : State) :
    (x >>= f).after s =
      match x s with
      | .ok a t => (f a).after t
      | .error _ t => t := by
  show (match EStateM.bind x f s with | .ok _ t => t | .error _ t => t) = _
  unfold EStateM.bind
  cases x s with
  | ok a t => rfl
  | error h t => rfl

theorem after_ofExcept (r : Except Halt α) (s : State) : (ofExcept r).after s = s := by
  cases r with
  | ok a => rfl
  | error h => rfl

theorem after_relocating (place : Place) (x : Exec α) (s : State) :
    (relocating place x).after s = x.after s := by
  unfold after relocating
  cases x s with
  | ok a t => rfl
  | error h t =>
      cases h with
      | error e => rfl
      | _ => rfl

theorem after_noting (m : Machine) (e : Event) (x : Exec α) (s : State) :
    (noting m e x).after s = (x.after s).noted m e := by
  unfold after noting
  cases x s with
  | ok a t => rfl
  | error h t => rfl

theorem after_inBlock (frame : RunFrame) (x : Exec α) (s : State) :
    (inBlock frame x).after s =
      let t := x.after { s with locals := frame :: s.locals }
      { t with locals := t.locals.tail } := by
  unfold after inBlock
  cases x { s with locals := frame :: s.locals } with
  | ok a t => rfl
  | error h t => rfl

theorem after_inMethod (frame : RunFrame) (x : Exec α) (s : State) :
    (inMethod frame x).after s =
      { x.after { s with locals := [frame], suspended := s.locals ++ s.suspended } with
        locals := s.locals, suspended := s.suspended } := by
  unfold after inMethod
  cases x { s with locals := [frame], suspended := s.locals ++ s.suspended } with
  | ok a t => rfl
  | error h t => rfl

theorem after_lookup (x : String) (place : Place) (s : State) :
    (lookup x place).after s = s := by
  unfold after lookup
  rw [get_bind]
  cases Chain.findVariable? s.chain x with
  | some c => rfl
  | none => rfl

theorem lookup_ok {x : String} {place : Place} {s t : State} {c : Cell}
    (h : lookup x place s = .ok c t) : Chain.findVariable? s.chain x = some c ∧ t = s := by
  unfold lookup at h
  rw [get_bind] at h
  cases hx : Chain.findVariable? s.chain x with
  | none => rw [hx] at h; cases h
  | some c =>
      rw [hx] at h
      cases h
      exact ⟨rfl, rfl⟩

theorem after_lookupField (r : Value) (x : String) (s : State) :
    (lookupField r x).after s = s := by
  unfold after lookupField
  rw [get_bind]
  cases s.field? r x with
  | some c => rfl
  | none => rfl

theorem after_native (g : Native) (vs : List Value) (s : State) :
    (native g vs).after s = { s with records := (g vs s.records).2 } := by
  unfold after native
  cases g vs s.records with
  | mk r records =>
      cases r with
      | ok v => rfl
      | error h => rfl

theorem after_define (m : Machine) (c : Cell) (place : Place) (s : State) :
    (define m c place).after s =
      match s.define c.name c with
      | .ok t => t.noted m (.write c.toVariable c.value)
      | .error _ => s := by
  unfold after define
  rw [get_bind]
  cases s.define c.name c with
  | ok t => rfl
  | error key => rfl

theorem after_method (d : Method Mark) (s : State) :
    (method d).after s =
      match s.defineFunction (functionOf d) with
      | .ok t => t
      | .error _ => s := by
  unfold after method
  rw [get_bind]
  cases s.defineFunction (functionOf d) with
  | ok t => rfl
  | error key => rfl

end Exec

/-! ## Rules

A declaration leaves a variable in its block, and all other rules leave nothing.  The weaker of the
two is asked of the statements of a block, and the stronger follows at its end. -/

section

variable (P : Native → Prop) (m : Machine) (depth : Nat) {α β : Type}

/-- After an action all frames are as they were. -/
def Restores (x : Exec α) : Prop :=
  ∀ s, Lends P m s.bindings → (x.after s).bindings = s.bindings ∧ Passes P m depth s (x.after s)

/-- After an action all frames are as they were, but the innermost block may have more
variables. -/
def Extends (x : Exec α) : Prop :=
  ∀ s, s.locals ≠ [] → Lends P m s.bindings →
    (x.after s).bindings.around = s.bindings.around ∧
    (x.after s).locals.map (·.functions) = s.locals.map (·.functions) ∧
    Passes P m depth s (x.after s)

end

section

variable {P : Native → Prop} {m : Machine} {d : Nat} {α β : Type}

theorem Restores.of_after {x : Exec α} (h : ∀ s, x.after s = s) : Restores P m d x := by
  intro s _
  rw [h]
  exact ⟨rfl, .refl s⟩

theorem Restores.bind {x : Exec α} {f : α → Exec β} (hx : Restores P m d x)
    (hf : ∀ a, Restores P m d (f a)) : Restores P m d (x >>= f) := by
  intro s hs
  obtain ⟨hbindings, hpasses⟩ := hx s hs
  rw [Exec.after_bind]
  unfold Exec.after at hbindings hpasses
  cases hr : x s with
  | error h t =>
      rw [hr] at hbindings hpasses
      exact ⟨hbindings, hpasses⟩
  | ok a t =>
      rw [hr] at hbindings hpasses
      obtain ⟨hbindings', hpasses'⟩ := hf a t (hbindings.symm ▸ hs)
      exact ⟨hbindings'.trans hbindings, hpasses.trans hpasses'⟩

theorem Restores.extends {x : Exec α} (h : Restores P m d x) : Extends P m d x := by
  intro s _ hs
  obtain ⟨hbindings, hpasses⟩ := h s hs
  refine ⟨congrArg Bindings.around hbindings, ?_, hpasses⟩
  rw [← State.bindings_functions, ← State.bindings_functions, hbindings]

/-- The functions in reach are the same if those of the blocks are and the scopes around them. -/
theorem State.functions_congr {s t : State} (haround : t.bindings.around = s.bindings.around)
    (hlocals : t.locals.map (·.functions) = s.locals.map (·.functions)) :
    t.bindings.frames.map (·.functions) = s.bindings.frames.map (·.functions) := by
  have hsuspended := congrArg Bindings.suspended haround
  have hglobals := congrArg Bindings.globals haround
  have houtside := congrArg Bindings.outside haround
  have hlocals : t.bindings.locals.map (·.functions) = s.bindings.locals.map (·.functions) := by
    rw [bindings_functions, bindings_functions, hlocals]
  simp only [Bindings.frames, List.map_append, List.map_cons, hlocals]
  simp only [Bindings.around] at hsuspended hglobals houtside
  rw [hsuspended, hglobals, houtside]

theorem Extends.bind {x : Exec α} {f : α → Exec β} (hx : Extends P m d x)
    (hf : ∀ a, Extends P m d (f a)) : Extends P m d (x >>= f) := by
  intro s hne hs
  obtain ⟨haround, hlocals, hpasses⟩ := hx s hne hs
  rw [Exec.after_bind]
  unfold Exec.after at haround hlocals hpasses
  cases hr : x s with
  | error h t =>
      rw [hr] at haround hlocals hpasses
      exact ⟨haround, hlocals, hpasses⟩
  | ok a t =>
      rw [hr] at haround hlocals hpasses
      have hne' : t.locals ≠ [] := by
        intro hnil
        rw [hnil] at hlocals
        exact hne (List.map_eq_nil_iff.mp hlocals.symm)
      have ht : Lends P m t.bindings :=
        hs.congr fun fs hfs => .inr (State.functions_congr haround hlocals ▸ hfs)
      obtain ⟨haround', hlocals', hpasses'⟩ := hf a t hne' ht
      exact ⟨haround'.trans haround, hlocals'.trans hlocals, hpasses.trans hpasses'⟩

/-! ## Blocks and methods

A block takes its own frame away at its end, with all that was declared in it.  A method does too,
and is counted while it runs. -/

theorem Restores.inBlock {x : Exec α} {frame : RunFrame} (hframe : frame.functions = [])
    (h : Extends P m d x) : Restores P m d (Exec.inBlock frame x) := by
  intro s hs
  have hlends : Lends P m ({ s with locals := frame :: s.locals } : State).bindings := by
    refine hs.congr fun fs hfs => ?_
    rcases List.mem_cons.mp hfs with rfl | hfs
    · exact .inl hframe
    · exact .inr hfs
  obtain ⟨haround, -, hpasses⟩ := h _ (List.cons_ne_nil frame s.locals) hlends
  rw [Exec.after_inBlock]
  refine ⟨?_, hpasses.records, hpasses.counted⟩
  refine Eq.trans ?_ haround
  simp [State.bindings, Bindings.around]

/-- A method is entered, does what it does one level deeper, and is left. -/
theorem Passes.entering {s t : State} (hdepth : (d : Int) < m.maxDepth)
    (h : Passes P m (d + 1) (s.noted m (.enter (d + 1))) t) :
    Passes P m d s (t.noted m (.leave (d + 1))) := by
  constructor
  · intro hP
    have hrecords := h.records hP
    unfold State.noted at hrecords ⊢
    split at hrecords <;> split <;> exact hrecords
  · intro hm
    obtain ⟨qs, hqs, hcount⟩ := h.counted hm
    unfold State.noted at hqs ⊢
    rw [if_pos hm] at hqs ⊢
    have htop : max m.maxDepth ((d + 1 : Nat) : Int) = max m.maxDepth d := by omega
    rw [htop] at hcount
    refine ⟨⟨.leave (d + 1), t.live⟩ :: (qs ++ [⟨.enter (d + 1), s.live⟩]), ?_, ?_⟩
    · rw [hqs]
      simp
    · refine .leave (Counted.trans (.enter ?_ .start) hcount)
      omega

theorem Restores.entering {x : Exec α} {frame : RunFrame} (hdepth : (d : Int) < m.maxDepth)
    (hframe : frame.functions = []) (h : Extends P m (d + 1) x) :
    Restores P m d (Exec.entering m d frame x) := by
  intro s hs
  let s₁ : State := { s with locals := [frame], suspended := s.locals ++ s.suspended }
  let t := x.after (s₁.noted m (.enter (d + 1)))
  have hlends : Lends P m (s₁.noted m (.enter (d + 1))).bindings := by
    rw [State.bindings_noted]
    refine hs.congr fun fs hfs => ?_
    rcases List.mem_cons.mp hfs with rfl | hfs
    · exact .inl hframe
    · refine .inr ?_
      rw [Bindings.frames, State.bindings, ← List.map_append]
      exact hfs
  have hne : (s₁.noted m (.enter (d + 1))).locals ≠ [] := by
    rw [State.locals_noted]
    exact List.cons_ne_nil frame []
  obtain ⟨haround, -, hpasses⟩ := h _ hne hlends
  rw [State.bindings_noted] at haround
  have hglobals : t.bindings.globals = s.bindings.globals :=
    show t.bindings.around.globals = s₁.bindings.around.globals from congrArg _ haround
  have houtside : t.bindings.outside = s.bindings.outside :=
    show t.bindings.around.outside = s₁.bindings.around.outside from congrArg _ haround
  have hafter : (Exec.entering m d frame x).after s =
      ({ t with locals := s.locals, suspended := s.suspended } : State).noted m
        (.leave (d + 1)) := by
    rw [Exec.entering, Exec.after_noting, Exec.after_inMethod]
    rfl
  rw [hafter]
  constructor
  · rw [State.bindings_noted]
    show Bindings.mk s.bindings.locals s.bindings.suspended t.bindings.globals
      t.bindings.outside = s.bindings
    rw [hglobals, houtside]
  · have hback : Passes P m (d + 1) (s₁.noted m (.enter (d + 1)))
        { t with locals := s.locals, suspended := s.suspended } :=
      ⟨hpasses.records, hpasses.counted⟩
    have hentered := hback.entering hdepth
    exact ⟨hentered.records, hentered.counted⟩

/-! ## Single actions -/

theorem Restores.note {e : Event} (he : e.crosses = false) : Restores P m d (Exec.note m e) :=
  fun s _ => ⟨s.bindings_noted m e, .noted he⟩

theorem Restores.relocating {x : Exec α} (place : Place) (h : Restores P m d x) :
    Restores P m d (Exec.relocating place x) := by
  intro s hs
  rw [Exec.after_relocating]
  exact h s hs

theorem Restores.print (v : Value) : Restores P m d (Exec.print v) := by
  intro s _
  unfold Exec.print
  cases v.text? with
  | some text => exact ⟨rfl, .of_eq rfl rfl⟩
  | none => exact ⟨rfl, .refl s⟩

theorem Restores.native {g : Native} (hg : P g) (vs : List Value) :
    Restores P m d (Exec.native g vs) := by
  intro s _
  rw [Exec.after_native]
  exact ⟨rfl, fun hP => hP g hg vs s.records, fun _ => ⟨[], rfl, .start⟩⟩

theorem State.exists_functions {s : State} {key : FunctionKey} {c : Function}
    (h : Chain.findFunction? s.chain key = some c) :
    ∃ fs ∈ s.bindings.frames.map (·.functions), (key, c) ∈ fs := by
  obtain ⟨f, hf, hc⟩ := List.exists_of_findSome?_eq_some h
  refine ⟨f.functions, ?_, lookup_mem hc⟩
  refine List.mem_map.mpr ⟨f.bindings, ?_, rfl⟩
  simp only [chain, List.mem_append, List.mem_cons] at hf
  simp only [Bindings.frames, bindings, List.mem_append, List.mem_cons]
  rcases hf with hf | rfl | hf
  · exact .inl (.inl (List.mem_map_of_mem hf))
  · exact .inr (.inl rfl)
  · exact .inr (.inr (List.mem_map_of_mem hf))

/-- A function that is found is one of those that can be reached. -/
theorem Restores.callee {f : Function → Exec α} (key : FunctionKey) (place : Place)
    (h : ∀ c : Function, (∀ g, c.body = .native g → P g) → Restores P m d (f c)) :
    Restores P m d (Exec.callee key place >>= f) := by
  intro s hs
  unfold Exec.after
  rw [Exec.callee_bind]
  cases hc : Chain.findFunction? s.chain key with
  | none => exact ⟨rfl, .refl s⟩
  | some c =>
      obtain ⟨fs, hfs, hmem⟩ := State.exists_functions hc
      exact h c (hs.functions fs hfs _ hmem) s hs

theorem Restores.callMember (r : Value) (f : String) (vs : List Value) :
    Restores P m d (Exec.callMember m r f vs) := by
  intro s hs
  unfold Exec.callMember
  cases r with
  | string text => exact Restores.of_after (Exec.after_ofExcept _) s hs
  | record id =>
      unfold Exec.after
      dsimp only
      rw [get_bind]
      cases hg : ((s.records[id]?.map fun r => m.methods r.shape).getD []).lookup
          (f, vs.length + 1) with
      | none => exact ⟨rfl, .refl s⟩
      | some g =>
          have hmem := lookup_mem hg
          cases hr : s.records[id]? with
          | none => rw [hr] at hmem; cases hmem
          | some r =>
              rw [hr] at hmem
              exact Restores.native (hs.methods r.shape _ hmem) _ s hs
  | _ => exact ⟨rfl, .refl s⟩

theorem Restores.assign (c : Cell) (x : String) (v : Value) :
    Restores P m d (Exec.assign m c x v) := by
  refine .bind (fun s _ => ⟨s.bindings_assign x v, ?_⟩) fun _ => .note rfl
  have hafter : (modify (·.assign x v) : Exec Unit).after s = s.assign x v := rfl
  rw [hafter]
  exact .of_eq (s.assign_records x v) (s.assign_trace x v)

theorem Restores.assignField (r : Value) (c : Cell) (x : String) (v : Value) :
    Restores P m d (Exec.assignField m r c x v) := by
  unfold Exec.assignField
  cases r with
  | record id =>
      refine .bind (fun s _ => ⟨rfl, fun _ => ?_, fun _ => ⟨[], rfl, .start⟩⟩) fun _ => .note rfl
      exact Record.bindings_setField s.records id x v
  | _ => exact .note rfl

theorem Restores.assigning {act : Exec Value} (x : String) (place : Place)
    (h : Restores P m d act) : Restores P m d (Exec.assigning m x place act) :=
  .bind (.of_after (Exec.after_lookup x place)) fun c => .bind h fun v => .assign c x v

theorem Restores.assigningField {act : Exec Value} (r : Value) (x : String) (place : Place)
    (h : Restores P m d act) : Restores P m d (Exec.assigningField m r x place act) :=
  .bind (.relocating place (.of_after (Exec.after_lookupField r x))) fun c =>
    .bind h fun v => .assignField r c x v

theorem Extends.define (c : Cell) (place : Place) : Extends P m d (Exec.define m c place) := by
  intro s hne _
  rw [Exec.after_define]
  cases hdefine : s.define c.name c with
  | error key => exact ⟨rfl, rfl, .refl s⟩
  | ok t =>
      dsimp only
      rw [State.bindings_noted, State.locals_noted]
      rw [State.define_eq] at hdefine
      obtain ⟨hnil, -⟩ | ⟨f, fs, g, hlocals, hg, rfl⟩ := State.inInnermost_cases hdefine
      · exact absurd hnil hne
      · obtain ⟨-, rfl⟩ := Frame.defineVariable_eq_ok hg
        refine ⟨?_, ?_, .trans (.of_eq ?_ ?_) (.noted rfl)⟩
        · simp [Bindings.around, State.bindings, hlocals]
        · rw [hlocals]
          rfl
        · rfl
        · rfl

end

/-- The congruence of actions that put the scopes back.  It looks at one machine only. -/
def disciplined (P : Native → Prop) (m : Machine) : Congruence m m where
  rel d _ x _ := Restores P m d x
  decl d _ x _ := Extends P m d x
  Callee c := ∀ g, c.body = .native g → P g
  scale := rfl
  pure _ := .of_after fun _ => rfl
  throw _ := .of_after fun _ => rfl
  bind := .bind
  note := .note
  lookup x place := .of_after (Exec.after_lookup x place)
  lookupField r x := .of_after (Exec.after_lookupField r x)
  relocating := .relocating
  callee := .callee
  print := .print
  native vs hc hg := .native (hc _ hg) vs
  callMember := .callMember
  assigning := .assigning
  assigningField := .assigningField
  limited place h := by
    split
    · exact .of_after fun _ => rfl
    · next hdepth => exact h (Int.not_le.mp hdepth)
  entering := .entering
  inBlock := .inBlock
  decl_of_rel h := Restores.extends h
  decl_bind := .bind
  define := .define

/-! ## Visits

The congruence covers expressions and statements.  A field and a method are visited once each
before `main`, and define something in the frame of the program. -/

namespace Node

/-- Visit a node of a tree. -/
def visit (m : Machine) (fuel depth : Nat) : Node Mark → Exec Flow
  | .expr e => do
    let _ ← Exec.expr m fuel depth e
    return .next
  | .stmt st => Exec.stmt m fuel depth st
  | .field f => do
    Exec.field m fuel depth f
    return .next
  | .method d => do
    Exec.method d
    return .next

/-- What a visit of a node may do to the scopes: a declaration or a field defines at most one
variable in the innermost frame, a method at most one function, and no other node defines
anything. -/
def MayDefine : Node Mark → Bindings → Bindings → Prop
  | .stmt (.declare _ x _ _), k, k' => k' = k ∨ ∃ v, k.define x v = .ok k'
  | .field f, k, k' => k' = k ∨ ∃ v, k.define f.name v = .ok k'
  | .method d, k, k' => k' = k ∨ k.defineFunction (Exec.functionOf d) = .ok k'
  | .stmt _, k, k' | .expr _, k, k' => k' = k

end Node

/-- A variable gets its first value and is defined in the innermost frame. -/
theorem declare_after {P : Native → Prop} {m : Machine} {d : Nat} {x : Exec Value}
    (hx : Restores P m d x) (mark : Mark) (name : String) (type : Ty) {s : State}
    (hs : Lends P m s.bindings) {y : Exec Unit}
    (hy : y = x >>= fun v => Exec.define m (Cell.declare mark name type v) mark.place) :
    ((y.after s).bindings = s.bindings ∨ ∃ v, s.bindings.define name v = .ok (y.after s).bindings) ∧
    Passes P m d s (y.after s) := by
  subst hy
  obtain ⟨hbindings, hpasses⟩ := hx s hs
  rw [Exec.after_bind]
  unfold Exec.after at hbindings hpasses
  cases hr : x s with
  | error h t =>
      rw [hr] at hbindings hpasses
      exact ⟨.inl hbindings, hpasses⟩
  | ok v t =>
      rw [hr] at hbindings hpasses
      dsimp only at hbindings hpasses ⊢
      have hname : (Cell.declare mark name type v).name = name := rfl
      rw [Exec.after_define, hname]
      cases hdefine : t.define name (Cell.declare mark name type v) with
      | error key => exact ⟨.inl hbindings, hpasses⟩
      | ok u =>
          dsimp only
          rw [State.bindings_noted]
          have hdefined := t.bindings_define name (Cell.declare mark name type v)
          rw [hdefine, hbindings] at hdefined
          rw [State.define_eq] at hdefine
          exact ⟨.inr ⟨_, hdefined⟩, hpasses.trans (.trans (.inInnermost hdefine) (.noted rfl))⟩

theorem method_after {P : Native → Prop} {m : Machine} {depth : Nat} (d : Method Mark)
    (s : State) :
    (((Exec.method d).after s).bindings = s.bindings ∨
      s.bindings.defineFunction (Exec.functionOf d) = .ok ((Exec.method d).after s).bindings) ∧
    Passes P m depth s ((Exec.method d).after s) := by
  rw [Exec.after_method]
  have hdefined := s.bindings_defineFunction (Exec.functionOf d)
  cases hdefine : s.defineFunction (Exec.functionOf d) with
  | error key => exact ⟨.inl rfl, .refl s⟩
  | ok t =>
      rw [hdefine] at hdefined
      rw [State.defineFunction_eq] at hdefine
      exact ⟨.inr hdefined, .inInnermost hdefine⟩

theorem Exec.after_bind_pure {α β : Type} (x : Exec α) (b : β) (s : State) :
    (x >>= fun _ => (pure b : Exec β)).after s = x.after s := by
  rw [after_bind]
  unfold after
  cases x s with
  | ok a t => rfl
  | error h t => rfl

section

variable {P : Native → Prop} {m : Machine} {s : State} (fuel depth : Nat)

theorem visit_expr (e : Expr Mark) (hs : Lends P m s.bindings) :
    ((Exec.expr m fuel depth e).after s).bindings = s.bindings ∧
    Passes P m depth s ((Exec.expr m fuel depth e).after s) :=
  ((disciplined P m).rules fuel).expr depth e s hs

theorem visit_initial (e : Option (Expr Mark)) : Restores P m depth (Exec.initial m fuel depth e) :=
  ((disciplined P m).rules fuel).initial depth e

theorem visit_stmt {st : Stmt Mark} (hst : st.isDeclaration = false) (hs : Lends P m s.bindings) :
    ((Exec.stmt m fuel depth st).after s).bindings = s.bindings ∧
    Passes P m depth s ((Exec.stmt m fuel depth st).after s) :=
  ((disciplined P m).rules fuel).stmt depth st hst s hs

/-- What a visit of a node leaves behind. -/
theorem Node.visit_leaves (node : Node Mark) (hs : Lends P m s.bindings) :
    node.MayDefine s.bindings ((node.visit m fuel depth).after s).bindings ∧
    Passes P m depth s ((node.visit m fuel depth).after s) := by
  cases node with
  | expr e =>
      rw [visit, Exec.after_bind_pure]
      exact visit_expr fuel depth e hs
  | field f =>
      rw [visit, Exec.after_bind_pure]
      exact declare_after (visit_initial fuel depth f.value) f.tag f.name _ hs rfl
  | method d =>
      rw [visit, Exec.after_bind_pure]
      exact method_after d s
  | stmt st =>
      cases hst : st.isDeclaration with
      | false =>
          obtain ⟨hbindings, hpasses⟩ := visit_stmt fuel depth hst hs
          refine ⟨?_, hpasses⟩
          cases st with
          | declare t x typeName e => cases hst
          | _ => exact hbindings
      | true =>
          cases st with
          | declare t x typeName e =>
              cases fuel with
              | zero => exact ⟨.inl rfl, .refl s⟩
              | succ n =>
                  rw [visit, Exec.stmt, ← bind_assoc, Exec.after_bind_pure]
                  exact declare_after (visit_initial n depth e) t x _ hs rfl
          | _ => cases hst

end

/-- However the visit of a node ends, the same blocks are open after it, and no frame has gained
or lost a binding, except for one variable of a declaration or a field and one function of a
method in the innermost frame.  As many methods are running after it as before, and in between
never more than the machine allows or than were running before.  Records keep their fields, too,
as far as functions of the embedding program let them. -/
theorem Node.visit_keeps_scopes (m : Machine) (fuel depth : Nat) (node : Node Mark) (s : State) :
    node.MayDefine s.bindings ((node.visit m fuel depth).after s).bindings ∧
    (m.tracing = true → ∃ qs, ((node.visit m fuel depth).after s).trace = qs ++ s.trace ∧
      Counted (max m.maxDepth depth) depth qs depth) ∧
    (Lends Native.Gentle m s.bindings →
      ((node.visit m fuel depth).after s).recordBindings = s.recordBindings) := by
  obtain ⟨hdefine, hpasses⟩ := node.visit_leaves fuel depth (.any m s.bindings)
  refine ⟨hdefine, hpasses.counted, fun hgentle => ?_⟩
  exact (node.visit_leaves fuel depth hgentle).2.records fun _ h => h

end QuillLang
