/-
# Simulations

Two runs go the same way if their states stay related.  A relation between
states that agrees on what can be looked up, and is kept by every change that
rules make to a state, is a simulation: from related states, the same rule
gives the same result and related states again (`Simulation.congruence`).
-/
import QuillLang.Proofs.Congruence

namespace QuillLang

section

variable (R : State → State → Prop) {α : Type}

/-- Two outcomes with the same result or error and related states. -/
inductive Matches : EStateM.Result Halt State α → EStateM.Result Halt State α → Prop where
  | ok {a : α} {s t : State} : R s t → Matches (.ok a s) (.ok a t)
  | error {h : Halt} {s t : State} : R s t → Matches (.error h s) (.error h t)

/-- Two definitions that give related states, or fail for the same key. -/
inductive MatchesDefinition : Except Duplicate State → Except Duplicate State → Prop where
  | ok {s t : State} : R s t → MatchesDefinition (.ok s) (.ok t)
  | error {key : Duplicate} : MatchesDefinition (.error key) (.error key)

/-- From related states, two actions have matching outcomes. -/
def Simulates (x y : Exec α) : Prop := ∀ s t, R s t → Matches R (x s) (y t)

end

/-- A relation between the states on two machines that is kept by all that rules do, and that
agrees on what they look at. -/
structure Simulation (m m' : Machine) (R : State → State → Prop) : Prop where
  scale : m'.scale = m.scale
  limit : m'.maxDepth = m.maxDepth
  methods : m'.methods = m.methods
  findVariable : ∀ {s t}, R s t →
    ∀ x, Chain.findVariable? t.chain x = Chain.findVariable? s.chain x
  findFunction : ∀ {s t}, R s t →
    ∀ key, Chain.findFunction? t.chain key = Chain.findFunction? s.chain key
  records : ∀ {s t}, R s t → t.records = s.records
  noted : ∀ {s t} e, R s t → R (s.noted m e) (t.noted m' e)
  withRecords : ∀ {s t} rs, R s t → R { s with records := rs } { t with records := rs }
  printed : ∀ {s t} text, R s t →
    R { s with output := s.output ++ text } { t with output := t.output ++ text }
  assign : ∀ {s t} x v, R s t → R (s.assign x v) (t.assign x v)
  define : ∀ {s t} x c, R s t → MatchesDefinition R (s.define x c) (t.define x c)
  enterBlock : ∀ {s t} {frame : RunFrame}, frame.functions = [] → R s t →
    R { s with locals := frame :: s.locals } { t with locals := frame :: t.locals }
  leaveBlock : ∀ {s t}, R s t →
    R { s with locals := s.locals.tail } { t with locals := t.locals.tail }
  enterMethod : ∀ {s t} {frame : RunFrame}, frame.functions = [] → R s t →
    R { s with locals := [frame], suspended := s.locals ++ s.suspended }
      { t with locals := [frame], suspended := t.locals ++ t.suspended }
  leaveMethod : ∀ {s t s' t'}, R s t → R s' t' →
    R { s' with locals := s.locals, suspended := s.suspended }
      { t' with locals := t.locals, suspended := t.suspended }

theorem Matches.bind {R : State → State → Prop} {α β : Type} {x y : Exec α} {f g : α → Exec β}
    {s t : State} (h : Matches R (x s) (y t)) (hf : ∀ a, Simulates R (f a) (g a)) :
    Matches R ((x >>= f) s) ((y >>= g) t) := by
  show Matches R (EStateM.bind x f s) (EStateM.bind y g t)
  unfold EStateM.bind
  generalize x s = r at h ⊢
  generalize y t = r' at h ⊢
  cases h with
  | ok h => exact hf _ _ _ h
  | error h => exact .error h

namespace Simulates

variable {R : State → State → Prop} {α β : Type}

theorem pure (a : α) : Simulates R (Pure.pure a) (Pure.pure a) := fun _ _ h => .ok h

theorem throw (h : Halt) :
    Simulates R (MonadExcept.throw h : Exec α) (MonadExcept.throw h : Exec α) :=
  fun _ _ h => .error h

theorem fail (cause : EvalCause) (place : Place) :
    Simulates R (Exec.fail cause place : Exec α) (Exec.fail cause place : Exec α) := throw _

theorem ofExcept (r : Except Halt α) : Simulates R (Exec.ofExcept r) (Exec.ofExcept r) := by
  cases r with
  | ok a => exact pure a
  | error h => exact throw h

theorem bind {x y : Exec α} {f g : α → Exec β} (hx : Simulates R x y)
    (hf : ∀ a, Simulates R (f a) (g a)) : Simulates R (x >>= f) (y >>= g) :=
  fun s t hst => (hx s t hst).bind hf

theorem exitCode (v : Value) : Simulates R (Exec.exitCode v) (Exec.exitCode v) := by
  cases v with
  | integer k => exact .pure k
  | _ => exact .fail _ _

theorem relocating {x y : Exec α} (place : Place) (h : Simulates R x y) :
    Simulates R (Exec.relocating place x) (Exec.relocating place y) := by
  intro s t hst
  unfold Exec.relocating
  have hxy := h s t hst
  generalize x s = r at hxy ⊢
  generalize y t = r' at hxy ⊢
  cases hxy with
  | ok h => exact .ok h
  | @error e _ _ h =>
      cases e with
      | error e => exact .error h
      | _ => exact .error h

end Simulates

namespace Simulation

variable {m m' : Machine} {R : State → State → Prop} (S : Simulation m m' R) {α : Type}

include S

theorem note (e : Event) : Simulates R (Exec.note m e) (Exec.note m' e) :=
  fun _ _ h => .ok (S.noted e h)

theorem noting {x y : Exec α} (e : Event) (h : Simulates R x y) :
    Simulates R (Exec.noting m e x) (Exec.noting m' e y) := by
  intro s t hst
  have hxy := h s t hst
  unfold Exec.noting
  generalize x s = r at hxy ⊢
  generalize y t = r' at hxy ⊢
  cases hxy with
  | ok h => exact .ok (S.noted e h)
  | error h => exact .error (S.noted e h)

theorem inMethod {x y : Exec α} {frame : RunFrame} (hframe : frame.functions = [])
    (h : Simulates R x y) : Simulates R (Exec.inMethod frame x) (Exec.inMethod frame y) := by
  intro s t hst
  have hxy := h _ _ (S.enterMethod hframe hst)
  unfold Exec.inMethod
  generalize x { s with locals := [frame], suspended := s.locals ++ s.suspended } = r at hxy ⊢
  generalize y { t with locals := [frame], suspended := t.locals ++ t.suspended } = r' at hxy ⊢
  cases hxy with
  | ok h => exact .ok (S.leaveMethod hst h)
  | error h => exact .error (S.leaveMethod hst h)

theorem inBlock {x y : Exec α} {frame : RunFrame} (hframe : frame.functions = [])
    (h : Simulates R x y) : Simulates R (Exec.inBlock frame x) (Exec.inBlock frame y) := by
  intro s t hst
  have hxy := h _ _ (S.enterBlock hframe hst)
  unfold Exec.inBlock
  generalize x { s with locals := frame :: s.locals } = r at hxy ⊢
  generalize y { t with locals := frame :: t.locals } = r' at hxy ⊢
  cases hxy with
  | ok h => exact .ok (S.leaveBlock h)
  | error h => exact .error (S.leaveBlock h)

/-! ## Looking things up -/

theorem lookup (x : String) (place : Place) :
    Simulates R (Exec.lookup x place) (Exec.lookup x place) := by
  intro s t hst
  unfold Exec.lookup
  rw [get_bind, get_bind, S.findVariable hst]
  cases Chain.findVariable? s.chain x with
  | some c => exact .ok hst
  | none => exact .error hst

theorem lookupField (r : Value) (x : String) :
    Simulates R (Exec.lookupField r x) (Exec.lookupField r x) := by
  intro s t hst
  have hfield : t.field? r x = s.field? r x := by
    cases r with
    | record id => rw [State.field?, State.field?, S.records hst]
    | _ => rfl
  unfold Exec.lookupField
  rw [get_bind, get_bind, hfield]
  cases s.field? r x with
  | some c => exact .ok hst
  | none => exact .error hst

theorem callee {f g : Function → Exec α} (key : FunctionKey) (place : Place)
    (h : ∀ c, Simulates R (f c) (g c)) :
    Simulates R (Exec.callee key place >>= f) (Exec.callee key place >>= g) := by
  intro s t hst
  rw [Exec.callee_bind, Exec.callee_bind, S.findFunction hst]
  cases Chain.findFunction? s.chain key with
  | some c => exact h c s t hst
  | none => exact .error hst

/-! ## Changes

Each change is made on both sides and keeps the relation.  Functions of the embedding program are
the same on both sides and see the same records. -/

theorem print (v : Value) : Simulates R (Exec.print v) (Exec.print v) := by
  intro s t hst
  unfold Exec.print
  cases v.text? with
  | some text => exact .ok (S.printed "\n" (S.printed text hst))
  | none => exact .error hst

theorem native (g : Native) (vs : List Value) :
    Simulates R (Exec.native g vs) (Exec.native g vs) := by
  intro s t hst
  unfold Exec.native
  rw [S.records hst]
  cases g vs s.records with
  | mk r records =>
      cases r with
      | ok v => exact .ok (S.withRecords records hst)
      | error h => exact .error (S.withRecords records hst)

theorem callMember (r : Value) (f : String) (vs : List Value) :
    Simulates R (Exec.callMember m r f vs) (Exec.callMember m' r f vs) := by
  unfold Exec.callMember
  cases r with
  | string text => exact .ofExcept _
  | record id =>
      intro s t hst
      dsimp only
      rw [get_bind, get_bind, S.records hst, S.methods]
      cases ((s.records[id]?.map fun r => m.methods r.shape).getD []).lookup
          (f, vs.length + 1) with
      | some g => exact S.native g _ s t hst
      | none => exact .error hst
  | _ => exact .throw _

theorem assignField (r : Value) (c : Cell) (x : String) (v : Value) :
    Simulates R (Exec.assignField m r c x v) (Exec.assignField m' r c x v) := by
  unfold Exec.assignField
  cases r with
  | record id =>
      refine .bind (fun s t hst => .ok ?_) fun _ => S.note _
      show R { s with records := setField s.records id x v }
        { t with records := setField t.records id x v }
      rw [S.records hst]
      exact S.withRecords _ hst
  | _ => exact S.note _

theorem definition (c : Cell) (place : Place) :
    Simulates R (Exec.define m c place) (Exec.define m' c place) := by
  intro s t hst
  unfold Exec.define
  rw [get_bind, get_bind]
  have hdefine := S.define c.name c hst
  generalize s.define c.name c = r at hdefine ⊢
  generalize t.define c.name c = r' at hdefine ⊢
  cases hdefine with
  | ok h => exact .ok (S.noted _ h)
  | error => exact .error hst

end Simulation

/-- Related states stay related under every rule. -/
def Simulation.congruence {m m' : Machine} {R : State → State → Prop} (S : Simulation m m' R) :
    Congruence m m' where
  rel _ _ := Simulates R
  decl _ _ := Simulates R
  Callee _ := True
  scale := S.scale
  pure := .pure
  throw := .throw
  bind := .bind
  note _ := S.note _
  lookup := S.lookup
  lookupField := S.lookupField
  relocating := .relocating
  callee key place h := S.callee key place fun c => h c trivial
  print := S.print
  native vs _ _ := S.native _ vs
  callMember := S.callMember
  assigning x place h := .bind (S.lookup x place) fun _ => .bind h fun v =>
    .bind (fun _ _ hst => .ok (S.assign x v hst)) fun _ => S.note _
  assigningField r x place h := .bind (.relocating place (S.lookupField r x)) fun c =>
    .bind h fun v => S.assignField r c x v
  limited place h := by
    rw [S.limit]
    split
    · exact .fail _ _
    · next hdepth => exact h (Int.not_le.mp hdepth)
  entering _ hframe h := S.noting _ (S.inMethod hframe (.bind (S.note _) fun _ => h))
  inBlock := S.inBlock
  decl_of_rel h := h
  decl_bind := .bind
  define := S.definition

/-- In related states, `main` is found in both or in none, and gives the same. -/
theorem Simulation.main {m m' : Machine} {R : State → State → Prop} (S : Simulation m m' R)
    (fuel depth : Nat) :
    Simulates R
      (get >>= fun s => match Chain.findFunction? s.chain ("main", 0) with
        | none => Exec.fail .missingMain none
        | some f => Exec.invoke m fuel depth f [])
      (get >>= fun s => match Chain.findFunction? s.chain ("main", 0) with
        | none => Exec.fail .missingMain none
        | some f => Exec.invoke m' fuel depth f []) := by
  intro s t hst
  rw [get_bind, get_bind, S.findFunction hst]
  cases Chain.findFunction? s.chain ("main", 0) with
  | none => exact .error hst
  | some f => exact (S.congruence.rules fuel).invoke depth f [] trivial s t hst

end QuillLang
