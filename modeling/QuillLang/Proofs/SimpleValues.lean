/-
# Values of programs that run on their own

A program without surroundings meets no list and no record, and each of its
decimals is a number with a bound on the exponent: a literal is written with
digits after the point, a sum has the smaller exponent of its operands, a product
the sum of both, and a quotient as many places as the machine is set to.  Such
values are called simple.  No operation on them is too large or undefined.

Here this is carried through whole runs.  All that is asked of the code is
that its decimal literals have digits after the point (`Placed`), which those of
a text do (`Source.program_placed`); then simple states go to simple states,
what is computed, written to a variable or recorded on the way is simple, and
a run never stops because decimals have no result (`Exec.simpleAt`).
-/
import QuillLang.Proofs.Comparison
import QuillLang.Proofs.Numbering
import QuillLang.Proofs.ScopeDiscipline
import QuillLang.Proofs.WellFormedParts

namespace QuillLang

/-- The values of programs that run on their own: no list and no record, and decimals only that
are numbers with an exponent up to a bound. -/
def Value.Simple (top : Int) : Value → Prop
  | .decimal (.finite d) => d.exponent ≤ top
  | .decimal _ | .iterable _ | .record _ => False
  | .nil | .boolean _ | .character _ | .string _ | .integer _ => True

theorem Value.Simple.isDefined {top : Int} {v : Value} (h : v.Simple top) :
    v.isDefined = true := by
  cases v with
  | decimal x =>
      cases x with
      | finite d => rfl
      | _ => exact h.elim
  | iterable items => exact h.elim
  | _ => rfl

/-- A bound on exponents that literals with digits after the point and the quotients of a machine
keep to, and under which no decimal is too large. -/
structure Machine.Bounds (m : Machine) (top : Int) : Prop where
  literals : -1 ≤ top
  quotients : -m.scale ≤ top
  whole : top ≤ 0

/-- A run stops because an operation on decimals has no result. -/
def Halt.isSignal : Halt → Bool
  | .signal _ => true
  | _ => false

/-! ## Operators and members of strings

Each operator on simple values gives a simple value or one of the failures that have a place. -/

namespace Machine.Bounds

variable {m : Machine} {top : Int} {op : Operator} {place : Place} {l r : Value}

/-- A sum or a product with an exponent under the bound has a result, also under the bound. -/
theorem finish_simple (hm : m.Bounds top) {d : Decimal} (hd : d.exponent ≤ top) :
    Yields (((d.finish.map Number.finite).map Value.decimal).mapError Halt.signal)
      (Value.Simple top) (·.isSignal = false) := by
  have hleast : Decimal.leastExponent ≤ top := le_trans (by decide) hm.literals
  obtain ⟨r, hr, hexponent⟩ := Decimal.exists_finish hleast hm.whole hd
  rw [hr]
  exact hexponent

theorem divideDecimals_simple (hm : m.Bounds top) (a b : Decimal) :
    Yields (Operator.divideDecimals m.scale place (.finite a) (.finite b)) (Value.Simple top)
      (·.isSignal = false) := by
  have hscale : 0 ≤ m.scale := by have := hm.quotients; have := hm.whole; omega
  unfold Operator.divideDecimals
  rw [if_neg (show ¬ (Number.finite b).isSignaling = true from Bool.false_ne_true)]
  split
  · rfl
  · dsimp only [Number.decimal]
    rw [Decimal.div, if_pos hscale]
    exact hm.quotients

theorem onDecimals_simple (hm : m.Bounds top) {a b : Decimal} (ha : a.exponent ≤ top)
    (hb : b.exponent ≤ top) :
    Yields (op.onDecimals m.scale place (.finite a) (.finite b)) (Value.Simple top)
      (·.isSignal = false) := by
  cases op with
  | add => exact hm.finish_simple (d := a.sum b) ((min_le_left _ _).trans ha)
  | sub => exact hm.finish_simple (d := a.sum b.neg) ((min_le_left _ _).trans ha)
  | mul =>
      have hwhole := hm.whole
      exact hm.finish_simple (d := a.product b) (show a.exponent + b.exponent ≤ top by omega)
  | _ => exact hm.divideDecimals_simple a b

theorem arithmetic_simple (hm : m.Bounds top) (hl : l.Simple top) (hr : r.Simple top) :
    Yields (op.arithmetic m.scale place l r) (Value.Simple top) (·.isSignal = false) := by
  unfold Operator.arithmetic
  split
  · exact Operator.onIntegers_yields (fun _ => trivial) rfl
  · next a b =>
      cases a with
      | finite a =>
          cases b with
          | finite b => exact hm.onDecimals_simple hl hr
          | _ => exact hr.elim
      | _ => exact hl.elim
  · rfl

theorem compareValues_simple (hl : l.Simple top) (hr : r.Simple top) :
    Yields (op.compareValues place l r) (Value.Simple top) (·.isSignal = false) := by
  refine Operator.compareValues_yields (fun _ => trivial) (fun _ => rfl) (fun _ => rfl)
    fun hkind hordered hnone => ?_
  obtain ⟨o, ho⟩ := Value.exists_order? hl.isDefined hr.isDefined hkind hordered
  rw [ho] at hnone
  cases hnone

theorem equalValues_simple (hl : l.Simple top) (hr : r.Simple top) (f : Bool → Bool) :
    Yields ((Operator.equalValues l r).map fun b => Value.boolean (f b)) (Value.Simple top)
      (·.isSignal = false) := by
  refine Operator.equalValues_yields (fun _ => trivial) fun hnone => ?_
  obtain ⟨b, hb, -⟩ := Value.equal?_eq_some l r hl.isDefined hr.isDefined
  rw [hb] at hnone
  cases hnone

/-- An operator makes simple values of simple ones. -/
theorem apply_simple (hm : m.Bounds top) (hl : l.Simple top) (hr : r.Simple top) :
    Yields (op.apply m.scale place l r) (Value.Simple top) (·.isSignal = false) := by
  cases op with
  | eq => exact equalValues_simple hl hr id
  | ne => exact equalValues_simple hl hr not
  | lt | le | gt | ge => exact compareValues_simple hl hr
  | add =>
      unfold Operator.apply
      dsimp only
      split
      · exact Operator.concatenate_yields (fun _ => trivial) rfl
      · exact hm.arithmetic_simple hl hr
  | _ => exact hm.arithmetic_simple hl hr

end Machine.Bounds

theorem Value.callString_simple {top : Int} (text name : String) (args : List Value) :
    Yields (Value.callString text name args) (Value.Simple top) (·.isSignal = false) := by
  exact callString_yields (fun _ => trivial) (fun _ => trivial) (fun _ _ => rfl) (fun _ _ => rfl)
    (fun _ _ => rfl) rfl

/-! ## Code and states

A value comes into a state by a definition or an assignment, and is looked up from there.  A state
is simple if all its values are, and those that were recorded. -/

/-- Every decimal literal among nodes has digits after the point. -/
def Placed {α : Type} (ns : List (Node α)) : Prop :=
  ∀ x ∈ ns, ∀ d, x.decimal? = some d → d.exponent ≤ -1

namespace Placed

variable {α : Type} {x : Node α} {ns ns' : List (Node α)}

theorem tail (h : Placed (x :: ns)) : Placed ns := fun y hy => h y (List.mem_cons_of_mem _ hy)

theorem left (h : Placed (ns ++ ns')) : Placed ns := fun y hy => h y (List.mem_append_left _ hy)

theorem right (h : Placed (ns ++ ns')) : Placed ns' := fun y hy => h y (List.mem_append_right _ hy)

/-- Numbering leaves literals as they are. -/
theorem marked {ns : List (Node Place)} {ms : List (Node Mark)} (h : Placed ns)
    (hms : MarksOf ns ms) : Placed ms := by
  intro y hy d hd
  obtain ⟨x, hx, hxy⟩ := hms y hy
  exact h x hx d (hxy.decimal.symm.trans hd)

end Placed

/-- The decimal literals of well-formed nodes have digits after the point. -/
theorem AllWellFormed.placed {α : Type} {ns : List (Node α)} (h : AllWellFormed ns) :
    Placed ns := by
  intro x hx d hd
  cases x with
  | expr e =>
      cases e with
      | decimal t d' =>
          obtain rfl := Option.some.inj hd
          exact of_decide_eq_true (h _ hx)
      | _ => cases hd
  | _ => cases hd

namespace Source

theorem program_placed {s : Source} {p : Program Place} (h : s.program = .ok p) (n : Nat) :
    Placed (p.mark n).1.nodes :=
  (program_wellFormed h).placed.marked (p.mark_marksOf n)

theorem expression_placed {s : Source} {e : Expr Place} {rest : List Token}
    (h : s.expression = .ok (e, rest)) (n : Nat) : Placed (e.mark n).1.nodes :=
  (expression_wellFormed h).placed.marked (e.mark_marksOf n)

end Source

/-- A function of a program that runs on its own. -/
def Function.Simple (f : Function) : Prop :=
  match f.body with
  | .print => True
  | .method d => Placed (Stmt.nodesOf d.body)
  | .native _ => False

structure Frame.Simple (top : Int) (f : RunFrame) : Prop where
  vars : ∀ b ∈ f.vars, b.2.value.Simple top
  functions : ∀ b ∈ f.functions, b.2.Simple

def Event.Simple (top : Int) : Event → Prop
  | .value _ v | .write _ v => v.Simple top
  | .call .. | .enter _ | .leave _ => True

structure Moment.Simple (top : Int) (q : Moment) : Prop where
  event : q.event.Simple top
  live : ∀ c ∈ q.live, c.value.Simple top

/-- Statements end simply if what they return is simple. -/
def Flow.Simple (top : Int) : Flow → Prop
  | .next => True
  | .ret v => v.Simple top

/-- All frames of a program that runs on its own are simple, and so is all that is recorded. -/
structure State.Simple (top : Int) (s : State) : Prop where
  locals : ∀ f ∈ s.locals, f.Simple top
  suspended : ∀ f ∈ s.suspended, f.Simple top
  globals : s.globals.Simple top
  outside : s.outside = []
  trace : ∀ q ∈ s.trace, q.Simple top

variable {top : Int}

theorem Frame.Simple.empty : Frame.Simple top {} where
  vars _ hb := absurd hb List.not_mem_nil
  functions _ hb := absurd hb List.not_mem_nil

theorem Frame.Simple.defineVariable {f g : RunFrame} {x : String} {c : Cell} (h : f.Simple top)
    (hc : c.value.Simple top) (hg : f.defineVariable x c = .ok g) : g.Simple top := by
  obtain ⟨-, rfl⟩ := Frame.defineVariable_eq_ok hg
  refine ⟨fun b hb => ?_, h.functions⟩
  rcases List.mem_append.mp hb with hb | hb
  · exact h.vars b hb
  · obtain rfl := List.mem_singleton.mp hb
    exact hc

theorem Frame.Simple.defineFunction {f g : RunFrame} {key : FunctionKey} {d : Function}
    (h : f.Simple top) (hd : d.Simple) (hg : f.defineFunction key d = .ok g) : g.Simple top := by
  obtain ⟨-, rfl⟩ := Frame.defineFunction_eq_ok hg
  refine ⟨h.vars, fun b hb => ?_⟩
  rcases List.mem_append.mp hb with hb | hb
  · exact h.functions b hb
  · obtain rfl := List.mem_singleton.mp hb
    exact hd

theorem Frame.Simple.modifyVariable {f g : RunFrame} {x : String} {v : Value} (h : f.Simple top)
    (hv : v.Simple top) (hg : f.modifyVariable? x (fun c => { c with value := v }) = some g) :
    g.Simple top := by
  refine ⟨fun b hb => ?_, fun b hb => h.functions b (Frame.modifyVariable?_functions hg ▸ hb)⟩
  cases hx : f.vars.lookup x with
  | none => rw [Frame.modifyVariable?_of_none hx] at hg; cases hg
  | some c =>
      rw [Frame.modifyVariable?_of_some hx] at hg
      cases hg
      obtain ⟨⟨y, c⟩, hc, rfl⟩ := List.mem_map.mp hb
      dsimp only
      split
      · exact hv
      · exact h.vars _ hc

theorem Frame.Simple.modifyChain {x : String} {v : Value} (hv : v.Simple top) :
    ∀ {c c' : Chain Cell Function}, (∀ f ∈ c, f.Simple top) →
      Chain.modifyVariable? c x (fun c => { c with value := v }) = some c' → ∀ f ∈ c', f.Simple top
  | [], _, _, h => by cases h
  | f :: c, c', hc, h => by
      obtain ⟨hf, hc⟩ := List.forall_mem_cons.mp hc
      unfold Chain.modifyVariable? at h
      split at h
      · next g hg =>
          cases h
          exact List.forall_mem_cons.mpr ⟨hf.modifyVariable hv hg, hc⟩
      · obtain ⟨d, hd, rfl⟩ := Option.map_eq_some_iff.mp h
        exact List.forall_mem_cons.mpr ⟨hf, modifyChain hv hc hd⟩

/-- The frame of a method call is simple if the arguments are. -/
theorem Frame.Simple.bindParameters {mark : Mark} :
    ∀ {ps : List (String × Ty × Value)} {g frame : RunFrame}, g.Simple top →
      (∀ p ∈ ps, p.2.2.Simple top) → QuillLang.bindParameters mark ps g = .ok frame →
      frame.Simple top
  | [], _, _, hg, _, h => by cases h; exact hg
  | (x, t, v) :: ps, g, frame, hg, hps, h => by
      obtain ⟨hv, hps⟩ := List.forall_mem_cons.mp hps
      obtain ⟨g', hg', h⟩ := except_bind_eq_ok.mp h
      exact bindParameters (hg.defineVariable hv hg') hps h

namespace State.Simple

variable {s t : State} {m : Machine}

theorem chain (hs : s.Simple top) : ∀ f ∈ s.chain, f.Simple top := by
  intro f hf
  rw [State.chain, hs.outside] at hf
  rcases List.mem_append.mp hf with hf | hf
  · exact hs.locals f hf
  · obtain rfl := List.mem_singleton.mp hf
    exact hs.globals

theorem live (hs : s.Simple top) : ∀ c ∈ s.live, c.value.Simple top := by
  intro c hc
  obtain ⟨f, hf, hc⟩ := List.mem_flatMap.mp hc
  obtain ⟨b, hb, rfl⟩ := List.mem_map.mp hc
  rw [hs.outside] at hf
  rcases List.mem_append.mp hf with hf | hf
  · rcases List.mem_append.mp hf with hf | hf
    · exact (hs.locals f hf).vars b hb
    · exact (hs.suspended f hf).vars b hb
  · obtain rfl := List.mem_singleton.mp hf
    exact hs.globals.vars b hb

theorem noted (hs : s.Simple top) {ev : Event} (hev : ev.Simple top) :
    (s.noted m ev).Simple top := by
  unfold State.noted
  split
  · exact ⟨hs.locals, hs.suspended, hs.globals, hs.outside,
      List.forall_mem_cons.mpr ⟨⟨hev, hs.live⟩, hs.trace⟩⟩
  · exact hs

theorem inInnermost (hs : s.Simple top) {change : RunFrame → Except Duplicate RunFrame}
    (h : s.inInnermost change = .ok t)
    (hchange : ∀ f g : RunFrame, f.Simple top → change f = .ok g → g.Simple top) :
    t.Simple top := by
  rcases State.inInnermost_cases h with ⟨-, g, hg, rfl⟩ | ⟨f, fs, g, hlocals, hg, rfl⟩
  · exact ⟨hs.locals, hs.suspended, hchange _ g hs.globals hg, hs.outside, hs.trace⟩
  · obtain ⟨hf, hfs⟩ := List.forall_mem_cons.mp (hlocals ▸ hs.locals)
    exact ⟨List.forall_mem_cons.mpr ⟨hchange f g hf hg, hfs⟩, hs.suspended, hs.globals, hs.outside,
      hs.trace⟩

theorem assign (hs : s.Simple top) {v : Value} (hv : v.Simple top) (x : String) :
    (s.assign x v).Simple top := by
  unfold State.assign
  dsimp only
  split
  · next ls hls =>
      exact ⟨Frame.Simple.modifyChain hv hs.locals hls, hs.suspended, hs.globals, hs.outside,
        hs.trace⟩
  · split
    · next g hg =>
        exact ⟨hs.locals, hs.suspended, hs.globals.modifyVariable hv hg, hs.outside, hs.trace⟩
    · rw [hs.outside]
      exact hs

end State.Simple

/-! ## Actions

The actions that rules are made of take simple states to simple states.  What an embedding program
could do does not come up, since there are no lists, no records and no lent functions. -/

/-- An action takes simple states to simple states, and its result has a property.  It does not
stop because an operation on decimals has no result. -/
def Exec.Keeps {α : Type} (top : Int) (Q : α → Prop) (act : Exec α) : Prop :=
  ∀ s, s.Simple top →
    Ends (act s) (fun a t => t.Simple top ∧ Q a) fun h t => t.Simple top ∧ h.isSignal = false

namespace Exec.Keeps

variable {α β : Type} {Q : α → Prop} {R : β → Prop} {act : Exec α} {m : Machine}

theorem pure {a : α} (h : Q a) : Keeps top Q (Pure.pure a) := fun _ hs => ⟨hs, h⟩

theorem throw {h : Halt} (hh : h.isSignal = false) : Keeps top Q (MonadExcept.throw h : Exec α) :=
  fun _ hs => ⟨hs, hh⟩

theorem fail (cause : EvalCause) (place : Place) : Keeps top Q (Exec.fail cause place) := throw rfl

theorem bind {f : α → Exec β} (hact : Keeps top Q act) (hf : ∀ a, Q a → Keeps top R (f a)) :
    Keeps top R (act >>= f) :=
  fun s hs => Ends.bind (hact s hs) fun a t h => hf a h.2 t h.1

theorem ofExcept {r : Except Halt α} (h : Yields r Q (·.isSignal = false)) :
    Keeps top Q (Exec.ofExcept r) := by
  cases r with
  | ok a => exact pure h
  | error e => exact throw h

theorem note {ev : Event} (hev : ev.Simple top) : Keeps top (fun _ => True) (Exec.note m ev) :=
  fun _ hs => ⟨hs.noted hev, trivial⟩

theorem noteFrame : ∀ {cs : List (String × Cell)}, (∀ b ∈ cs, b.2.value.Simple top) →
    Keeps top (fun _ => True) (Exec.noteFrame m cs)
  | [], _ => pure trivial
  | (_, _) :: _, h =>
      let ⟨hc, hcs⟩ := List.forall_mem_cons.mp h
      bind (note hc) fun _ _ => noteFrame hcs

theorem relocating (place : Place) (h : Keeps top Q act) :
    Keeps top Q (Exec.relocating place act) := by
  intro s hs
  have hact := h s hs
  unfold Exec.relocating
  cases hr : act s with
  | ok a t => exact hact.ok_of hr
  | error e t =>
      have ht := hact.error_of hr
      cases e with
      | error e => exact ⟨ht.1, rfl⟩
      | _ => exact ht

theorem requireBoolean (v : Value) (place : Place) :
    Keeps top (fun _ => True) (Exec.requireBoolean v place) := by
  cases v with
  | boolean b => exact pure trivial
  | _ => exact fail _ _

/-- No simple value is a list. -/
theorem requireIterable {v : Value} (hv : v.Simple top) (place : Place) :
    Keeps top (fun _ => False) (Exec.requireIterable v place) := by
  cases v with
  | iterable items => exact hv.elim
  | _ => exact fail _ _

theorem print (v : Value) : Keeps top (fun _ => True) (Exec.print v) := by
  unfold Exec.print
  cases v.text? with
  | none => exact throw rfl
  | some text =>
      exact fun s hs => ⟨⟨hs.locals, hs.suspended, hs.globals, hs.outside, hs.trace⟩, trivial⟩

theorem lookup (x : String) (place : Place) :
    Keeps top (fun c => c.value.Simple top) (Exec.lookup x place) := by
  intro s hs
  unfold Exec.lookup
  rw [get_bind]
  cases hc : Chain.findVariable? s.chain x with
  | none => exact ⟨hs, rfl⟩
  | some c =>
      obtain ⟨f, hf, hc⟩ := List.exists_of_findSome?_eq_some hc
      exact ⟨hs, (hs.chain f hf).vars _ (lookup_mem hc)⟩

theorem callee (key : FunctionKey) (place : Place) :
    Keeps top Function.Simple (Exec.callee key place) := by
  intro s hs
  unfold Exec.callee
  rw [get_bind]
  cases hg : Chain.findFunction? s.chain key with
  | none => exact ⟨hs, rfl⟩
  | some g =>
      obtain ⟨f, hf, hg⟩ := List.exists_of_findSome?_eq_some hg
      exact ⟨hs, (hs.chain f hf).functions _ (lookup_mem hg)⟩

/-- No simple value has a field. -/
theorem lookupField {r : Value} (hr : r.Simple top) (x : String) :
    Keeps top (fun _ => False) (Exec.lookupField r x) := by
  intro s hs
  unfold Exec.lookupField
  rw [get_bind]
  cases r with
  | record id => exact hr.elim
  | _ => exact ⟨hs, rfl⟩

theorem callMember {r : Value} (hr : r.Simple top) (f : String) (vs : List Value) :
    Keeps top (Value.Simple top) (Exec.callMember m r f vs) := by
  unfold Exec.callMember
  cases r with
  | string text => exact ofExcept (Value.callString_simple text f vs)
  | record id => exact hr.elim
  | _ => exact throw rfl

theorem define {c : Cell} (hc : c.value.Simple top) (place : Place) :
    Keeps top (fun _ => True) (Exec.define m c place) := by
  intro s hs
  unfold Exec.define
  rw [get_bind]
  cases hd : s.define c.name c with
  | error key => exact ⟨hs, rfl⟩
  | ok t =>
      have ht : t.Simple top := hs.inInnermost ((s.define_eq _ c).symm.trans hd)
        fun _ _ hf hg => hf.defineVariable hc hg
      exact ⟨ht.noted hc, trivial⟩

theorem assign {v : Value} (hv : v.Simple top) (c : Cell) (x : String) :
    Keeps top (fun _ => True) (Exec.assign m c x v) :=
  fun _ hs => ⟨(hs.assign hv x).noted hv, trivial⟩

theorem inBlock {frame : RunFrame} (hframe : frame.Simple top) (h : Keeps top Q act) :
    Keeps top Q (Exec.inBlock frame act) := by
  have hleave : ∀ t : State, t.Simple top → { t with locals := t.locals.tail }.Simple top :=
    fun t ht => ⟨fun f hf => ht.locals f (List.mem_of_mem_tail hf), ht.suspended, ht.globals,
      ht.outside, ht.trace⟩
  intro s hs
  have hact := h { s with locals := frame :: s.locals }
    ⟨List.forall_mem_cons.mpr ⟨hframe, hs.locals⟩, hs.suspended, hs.globals, hs.outside, hs.trace⟩
  unfold Exec.inBlock
  cases hr : act { s with locals := frame :: s.locals } with
  | ok a t => exact ⟨hleave t (hact.ok_of hr).1, (hact.ok_of hr).2⟩
  | error e t => exact ⟨hleave t (hact.error_of hr).1, (hact.error_of hr).2⟩

theorem inMethod {frame : RunFrame} (hframe : frame.Simple top) (h : Keeps top Q act) :
    Keeps top Q (Exec.inMethod frame act) := by
  intro s hs
  -- the caller's blocks are put back as they were, so they are simple because `s` is
  have hback : ∀ t : State, t.Simple top →
      { t with locals := s.locals, suspended := s.suspended }.Simple top := fun t ht =>
    ⟨hs.locals, hs.suspended, ht.globals, ht.outside, ht.trace⟩
  have hact := h { s with locals := [frame], suspended := s.locals ++ s.suspended }
    ⟨List.forall_mem_singleton.mpr hframe, List.forall_mem_append.mpr ⟨hs.locals, hs.suspended⟩,
      hs.globals, hs.outside, hs.trace⟩
  unfold Exec.inMethod
  cases hr : act { s with locals := [frame], suspended := s.locals ++ s.suspended } with
  | ok a t => exact ⟨hback t (hact.ok_of hr).1, (hact.ok_of hr).2⟩
  | error e t => exact ⟨hback t (hact.error_of hr).1, (hact.error_of hr).2⟩

theorem entering {frame : RunFrame} (hframe : frame.Simple top) (h : Keeps top Q act)
    (depth : Nat) : Keeps top Q (Exec.entering m depth frame act) := by
  have hbody : Keeps top Q (Exec.inMethod frame do Exec.note m (.enter (depth + 1)); act) :=
    inMethod hframe (bind (note trivial) fun _ _ => h)
  exact fun s hs => (hbody s hs).noting (fun _ _ ht => ⟨ht.1.noted trivial, ht.2⟩)
    fun _ _ ht => ⟨ht.1.noted trivial, ht.2⟩

end Exec.Keeps

/-! ## The rules with a given fuel

All rules at once, by induction on the fuel.  Literals are where decimals come from, so the code
that is run has to be placed, in the bodies of methods too. -/

namespace Exec

/-- Every rule keeps states simple, with fuel `n`. -/
structure SimpleAt (top : Int) (m : Machine) (n : Nat) : Prop where
  expr : ∀ d {e : Expr Mark}, Placed e.nodes → Keeps top (Value.Simple top) (Exec.expr m n d e)
  form : ∀ d {e : Expr Mark}, Placed e.nodes → Keeps top (Value.Simple top) (Exec.form m n d e)
  arguments : ∀ d {es : List (Expr Mark)}, Placed (Expr.nodesOf es) →
    Keeps top (fun vs => ∀ v ∈ vs, v.Simple top) (Exec.arguments m n d es)
  invoke : ∀ d {f : Function} {vs : List Value}, f.Simple → (∀ v ∈ vs, v.Simple top) →
    Keeps top (Value.Simple top) (Exec.invoke m n d f vs)
  stmt : ∀ d {st : Stmt Mark}, Placed st.nodes → Keeps top (Flow.Simple top) (Exec.stmt m n d st)
  initial : ∀ d {e : Option (Expr Mark)}, Placed (Expr.nodes? e) →
    Keeps top (Value.Simple top) (Exec.initial m n d e)
  block : ∀ d {ss : List (Stmt Mark)}, Placed (Stmt.nodesOf ss) →
    Keeps top (Flow.Simple top) (Exec.block m n d ss)
  repeating : ∀ d {c : Expr Mark} {body : List (Stmt Mark)}, Placed c.nodes →
    Placed (Stmt.nodesOf body) → Keeps top (Flow.Simple top) (Exec.repeating m n d c body)

namespace SimpleAt

variable {m : Machine} {n : Nat} (ih : SimpleAt top m n)

include ih

/-- A condition is computed, and what it decides follows. -/
theorem condition {α : Type} {Q : α → Prop} (d : Nat) {c : Expr Mark} (hc : Placed c.nodes)
    {f : Bool → Exec α} (hf : ∀ b, Keeps top Q (f b)) :
    Keeps top Q (Exec.expr m n d c >>= fun v => Exec.requireBoolean v c.tag.place >>= f) :=
  (ih.expr d hc).bind fun v _ => (Keeps.requireBoolean v _).bind fun b _ => hf b

theorem binary_succ (hm : m.Bounds top) (d : Nat) {t : Mark} {op : Operator} {l r : Expr Mark}
    (hl : Placed l.nodes) (hr : Placed r.nodes) :
    Keeps top (Value.Simple top) (Exec.form m (n + 1) d (.binary t op l r)) := by
  have hright : Keeps top (Value.Simple top) (do
      let right ← Exec.requireBoolean (← Exec.expr m n d r) r.tag.place
      return .boolean right) := ih.condition d hr fun _ => .pure trivial
  cases op with
  | and =>
      simp only [Exec.form]
      refine ih.condition d hl fun b => ?_
      cases b with
      | true => exact hright
      | false => exact .pure trivial
  | or =>
      simp only [Exec.form]
      refine ih.condition d hl fun b => ?_
      cases b with
      | true => exact .pure trivial
      | false => exact hright
  | _ =>
      simp only [Exec.form]
      exact (ih.expr d hl).bind fun _ hvl => (ih.expr d hr).bind fun _ hvr =>
        .ofExcept (hm.apply_simple hvl hvr)

theorem form_succ (hm : m.Bounds top) (d : Nat) {e : Expr Mark} (he : Placed e.nodes) :
    Keeps top (Value.Simple top) (Exec.form m (n + 1) d e) := by
  cases e with
  | decimal t x => exact .pure ((he _ List.mem_cons_self x rfl).trans hm.literals)
  | group t e => exact ih.expr d he.tail
  | binary t op l r => exact ih.binary_succ hm d he.tail.left he.tail.right
  | var t x => exact (Keeps.lookup x _).bind fun _ hc => .pure hc
  | field t e x =>
      exact (ih.expr d he.tail).bind fun _ hv =>
        (Keeps.relocating _ (.lookupField hv x)).bind fun _ h => h.elim
  | call t f es =>
      rw [Exec.form_call]
      exact (ih.arguments d he.tail).bind fun _ hvs => (Keeps.callee _ _).bind fun _ hg =>
        Keeps.bind (.note trivial) fun _ _ => ih.invoke d hg hvs
  | invoke t e f es =>
      exact (ih.expr d he.tail.left).bind fun _ hv => (ih.arguments d he.tail.right).bind
        fun vs _ => .relocating _ (.callMember hv f vs)
  | _ => exact .pure trivial

theorem arguments_succ (d : Nat) {es : List (Expr Mark)} (hes : Placed (Expr.nodesOf es)) :
    Keeps top (fun vs => ∀ v ∈ vs, v.Simple top) (Exec.arguments m (n + 1) d es) := by
  cases es with
  | nil => exact .pure (by simp)
  | cons e es =>
      exact (ih.expr d hes.left).bind fun _ hv => (ih.arguments d hes.right).bind fun _ hvs =>
        .pure (List.forall_mem_cons.mpr ⟨hv, hvs⟩)

theorem invoke_succ (d : Nat) {f : Function} {vs : List Value} (hf : f.Simple)
    (hvs : ∀ v ∈ vs, v.Simple top) :
    Keeps top (Value.Simple top) (Exec.invoke m (n + 1) d f vs) := by
  simp only [Exec.invoke]
  unfold Function.Simple at hf
  cases hbody : f.body with
  | print =>
      cases vs with
      | nil => exact .throw rfl
      | cons v vs => exact (Keeps.print v).bind fun _ _ => .pure trivial
  | native g =>
      rw [hbody] at hf
      exact hf.elim
  | method e =>
      rw [hbody] at hf
      dsimp only
      split
      · exact .fail _ _
      · split
        · exact .fail _ _
        · cases hframe : bindParameters e.tag (e.parameters.zip (f.parameters.zip vs)) {} with
          | error key => exact .fail _ _
          | ok frame =>
              have hsimple : frame.Simple top := Frame.Simple.empty.bindParameters
                (fun p hp => hvs _ (List.of_mem_zip (List.of_mem_zip hp).2).2) hframe
              refine Keeps.bind (Q := Flow.Simple top) (.entering hsimple ?_ d) fun flow hflow => ?_
              · exact (Keeps.noteFrame hsimple.vars).bind fun _ _ => ih.block (d + 1) hf
              · cases flow with
                | next => exact .pure trivial
                | ret v => exact .pure hflow

theorem stmt_succ (d : Nat) {st : Stmt Mark} (hst : Placed st.nodes) :
    Keeps top (Flow.Simple top) (Exec.stmt m (n + 1) d st) := by
  cases st with
  | expr t e => exact (ih.expr d hst.tail).bind fun _ _ => .pure trivial
  | declare t x typeName e =>
      exact (ih.initial d hst.tail).bind fun v hv => (Keeps.define hv _).bind fun _ _ =>
        .pure trivial
  | assign t target e =>
      have he : Placed e.nodes := hst.tail.right
      cases target with
      | var u x =>
          exact (Keeps.lookup x _).bind fun c _ => (ih.expr d he).bind fun _ hv =>
            (Keeps.assign hv c x).bind fun _ _ => .pure trivial
      | field u r x =>
          exact (ih.expr d hst.tail.left.tail).bind fun _ hr =>
            (Keeps.relocating _ (.lookupField hr x)).bind fun _ h => h.elim
      | _ => exact .fail _ _
  | branch t c thenBody elseBody =>
      refine ih.condition d hst.tail.left fun b => .inBlock .empty (ih.block d ?_)
      cases b with
      | true => exact hst.tail.right.left
      | false => exact hst.tail.right.right
  | forIn t x e body =>
      -- there is nothing to go through, so the body is never reached
      exact (ih.expr d hst.tail.left).bind fun _ hv =>
        (Keeps.requireIterable hv _).bind fun _ h => h.elim
  | loop t c body => exact ih.repeating d hst.tail.left hst.tail.right
  | ret t e => exact (ih.expr d hst.tail).bind fun _ hv => .pure hv

theorem block_succ (d : Nat) {ss : List (Stmt Mark)} (hss : Placed (Stmt.nodesOf ss)) :
    Keeps top (Flow.Simple top) (Exec.block m (n + 1) d ss) := by
  cases ss with
  | nil => exact .pure trivial
  | cons st ss =>
      refine (ih.stmt d hss.left).bind fun flow hflow => ?_
      cases flow with
      | next => exact ih.block d hss.right
      | ret v => exact .pure hflow

theorem repeating_succ (d : Nat) {c : Expr Mark} {body : List (Stmt Mark)} (hc : Placed c.nodes)
    (hbody : Placed (Stmt.nodesOf body)) :
    Keeps top (Flow.Simple top) (Exec.repeating m (n + 1) d c body) := by
  refine ih.condition d hc fun b => ?_
  cases b with
  | false => exact .pure trivial
  | true =>
      refine (Keeps.inBlock .empty (ih.block d hbody)).bind fun flow hflow => ?_
      cases flow with
      | next => exact ih.repeating d hc hbody
      | ret v => exact .pure hflow

end SimpleAt

/-- Every rule keeps states simple, by induction on the fuel. -/
theorem simpleAt {m : Machine} (hm : m.Bounds top) (n : Nat) : SimpleAt top m n := by
  induction n with
  | zero => constructor <;> intros <;> exact .throw rfl
  | succ n ih =>
      exact
        { expr := fun d _ he => (ih.form d he).bind fun _ hv =>
            Keeps.bind (.note hv) fun _ _ => .pure hv
          form := fun d _ => ih.form_succ hm d
          arguments := fun d _ => ih.arguments_succ d
          invoke := fun d _ _ => ih.invoke_succ d
          stmt := fun d _ => ih.stmt_succ d
          initial := fun d e he => match e with
            | none => .pure trivial
            | some _ => ih.expr d he
          block := fun d _ => ih.block_succ d
          repeating := fun d _ _ => ih.repeating_succ d }

/-! ## Programs -/

theorem fields_simple {m : Machine} (hm : m.Bounds top) (fuel depth : Nat) :
    ∀ {fs : List (Field Mark)}, Placed (fs.flatMap Field.nodes) →
      Keeps top (fun _ => True) (Exec.fields m fuel depth fs)
  | [], _ => .pure trivial
  | f :: fs, h => by
      rw [List.flatMap_cons] at h
      have hfield : Keeps top (fun _ => True) (Exec.field m fuel depth f) :=
        ((simpleAt hm fuel).initial depth h.left.tail).bind fun _ hv => .define hv _
      exact hfield.bind fun _ _ => fields_simple hm fuel depth h.right

theorem method_simple {d : Method Mark} (h : Placed d.nodes) :
    Keeps top (fun _ => True) (Exec.method d) := by
  intro s hs
  unfold Exec.method
  rw [get_bind]
  cases hd : s.defineFunction (functionOf d) with
  | error key => exact ⟨hs, rfl⟩
  | ok t =>
      have hfunction : (functionOf d).Simple := h.tail
      have ht : t.Simple top := hs.inInnermost ((s.defineFunction_eq _).symm.trans hd)
        fun _ _ hf hg => hf.defineFunction hfunction hg
      exact ⟨ht, trivial⟩

theorem methods_simple : ∀ {ds : List (Method Mark)}, Placed (ds.flatMap Method.nodes) →
    Keeps top (fun _ => True) (Exec.methods ds)
  | [], _ => .pure trivial
  | d :: ds, h => by
      rw [List.flatMap_cons] at h
      exact (method_simple h.left).bind fun _ _ => methods_simple h.right

theorem program_simple {m : Machine} (hm : m.Bounds top) (fuel depth : Nat) {p : Program Mark}
    (h : Placed p.nodes) : Keeps top (Value.Simple top) (Exec.program m fuel depth p) := by
  refine (fields_simple hm fuel depth h.left).bind fun _ _ =>
    (methods_simple h.right).bind fun _ _ => ?_
  intro s hs
  rw [get_bind]
  cases hmain : Chain.findFunction? s.chain ("main", 0) with
  | none => exact ⟨hs, rfl⟩
  | some f =>
      obtain ⟨g, hg, hf⟩ := List.exists_of_findSome?_eq_some hmain
      exact (simpleAt hm fuel).invoke depth ((hs.chain g hg).functions _ (lookup_mem hf))
        (by simp) s hs

end Exec

/-! ## Interpreters

A program is run from a state without blocks, and an expression from the state that is there. -/

namespace Interpreter

/-- An interpreter whose state is simple, with a machine that keeps it so. -/
structure Simple (top : Int) (i : Interpreter) : Prop where
  state : i.state.Simple top
  bounds : i.machine.Bounds top

namespace Simple

variable {m : Machine} {i : Interpreter}

theorem builtinFrame : Frame.Simple top builtinFrame where
  vars _ hb := absurd hb List.not_mem_nil
  functions := List.forall_mem_singleton.mpr trivial

theorem start (hm : m.Bounds top) : (start m {}).Simple top where
  state := ⟨fun _ hf => absurd hf List.not_mem_nil, fun _ hf => absurd hf List.not_mem_nil,
    builtinFrame, rfl, fun _ hq => absurd hq List.not_mem_nil⟩
  bounds := ⟨hm.literals, hm.quotients, hm.whole⟩

theorem guarded {α : Type} {Q : α → Prop} {act : Exec α} (hi : i.Simple top)
    (h : Exec.Keeps top Q act) :
    (i.guarded act).2.Simple top ∧ Yields (i.guarded act).1 Q (·.isSignal = false) := by
  have hact := h i.state hi.state
  unfold Interpreter.guarded
  split
  · unfold perform
    cases hr : act i.state with
    | ok a t =>
        have ht := hact.ok_of hr
        exact ⟨⟨ht.1, hi.bounds⟩, ht.2⟩
    | error e t =>
        have ht := hact.error_of hr
        exact ⟨⟨ht.1, hi.bounds⟩, ht.2⟩
  · exact ⟨hi, rfl⟩

theorem run (hi : i.Simple top) {p : Program Mark} (hp : Placed p.nodes) (fuel : Nat) :
    (i.run p fuel).2.Simple top ∧
      Yields (i.run p fuel).1 (fun _ => True) (·.isSignal = false) := by
  have hreset : i.reset.Simple top := ⟨⟨fun _ hf => absurd hf List.not_mem_nil,
    hi.state.suspended, builtinFrame, hi.state.outside, hi.state.trace⟩, hi.bounds⟩
  have hexit : ∀ v : Value, Exec.Keeps top (fun _ => True) (Exec.exitCode v) := by
    intro v
    cases v with
    | integer n => exact .pure trivial
    | _ => exact .fail _ _
  exact hreset.guarded ((Exec.program_simple hi.bounds fuel 0 hp).bind fun v _ => hexit v)

theorem evaluate (hi : i.Simple top) {e : Expr Mark} (he : Placed e.nodes) (fuel : Nat) :
    (i.evaluate e fuel).2.Simple top ∧
      Yields (i.evaluate e fuel).1 (Value.Simple top) (·.isSignal = false) :=
  hi.guarded ((Exec.simpleAt hi.bounds fuel).expr 0 he)

end Simple

end Interpreter

end QuillLang
