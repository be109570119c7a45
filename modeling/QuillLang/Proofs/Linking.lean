/-
# Which functions a run calls

Running a program changes variables but not functions: those of the program
stay in its own scope, those that are lent in the scopes around it, and the
blocks of a method have none.  So the function that a call finds depends on
its key alone (`Linkage.find`), wherever the call stands and whatever has
happened before.

Here this is carried through a whole run.  Values play no part in it, and
neither do types; all that is asked of a piece of code is that each of its
calls finds a function that it may call (`Linkage.CodeOk`).
-/
import QuillLang.Eval.Interpreter
import QuillLang.Proofs.Nodes
import QuillLang.Proofs.Congruence
import QuillLang.Proofs.Scopes

namespace QuillLang

/-- The run has not stopped for want of a function. -/
def Halt.Defined (h : Halt) : Prop :=
  ∀ e name n, h = .error e → e.cause ≠ .undefinedFunction name n

/-- A function of the embedding program does not report that a function is undefined. -/
def Native.Quiet (f : Native) : Prop := ∀ args records h, (f args records).1 = .error h → h.Defined

/-- How the calls of a run find their functions: first among those of the program, then among
those that are lent.  `Calls` says which function a node may call. -/
structure Linkage where
  machine : Machine
  table : List (FunctionKey × Function)
  lent : Chain Cell Function
  Calls : Nat → Function → Prop

namespace Linkage

variable {L : Linkage} {k : Nat} {s : State}

def find (L : Linkage) (key : FunctionKey) : Option Function :=
  (L.table.lookup key).or (Chain.findFunction? L.lent key)

/-- The functions and methods of the embedding program report no undefined function. -/
def HostQuiet (L : Linkage) : Prop :=
  (∀ f ∈ L.lent, ∀ b ∈ f.functions, ∀ g, b.2.body = .native g → Native.Quiet g) ∧
    ∀ shape, ∀ b ∈ L.machine.methods shape, Native.Quiet b.2

/-- Every call in a piece of code finds a function that it may call. -/
def CodeOk (L : Linkage) (c : Program Mark) : Prop :=
  ∀ m f es, c.HasExpr (.call m f es) → ∃ g, L.find (f, es.length) = some g ∧ L.Calls m.id g

/-- A function that is safe to call: its code is in order, if it has any. -/
structure Callable (L : Linkage) (g : Function) : Prop where
  native : ∀ f, g.body = .native f → L.HostQuiet → Native.Quiet f
  method : ∀ d, g.body = .method d → ∃ c, L.CodeOk c ∧ ∀ st ∈ d.body, c.HasStmt st

/-- Every function that can be found is safe to call. -/
def Ok (L : Linkage) : Prop := ∀ key g, L.find key = some g → L.Callable g

/-! ## States

The functions of a state are where they were put, and each call so far has found one that it may
call.  The number of blocks goes along, since methods are bound where no block is open. -/

/-- The functions of a state are those of the linkage, and every call so far was one that its
node may make.  There are `k` blocks. -/
structure Bound (L : Linkage) (k : Nat) (s : State) : Prop where
  height : s.locals.length = k
  locals : Chain.Silent s.locals
  globals : s.globals.functions = L.table
  outside : s.outside.map (·.functions) = L.lent.map (·.functions)
  trace : ∀ q ∈ s.trace, ∀ id g, q.event = .call id g → L.Calls id g

/-- The run has stopped early. -/
structure Stopped (L : Linkage) (h : Halt) (s : State) : Prop where
  trace : ∀ q ∈ s.trace, ∀ id g, q.event = .call id g → L.Calls id g
  defined : L.HostQuiet → h.Defined

theorem Bound.findFunction (hs : L.Bound k s) (key : FunctionKey) :
    Chain.findFunction? s.chain key = L.find key := by
  rw [State.chain, hs.locals.findFunction, Chain.findFunction?, List.findSome?_cons,
    Frame.findFunction?, hs.globals, find, ← Chain.findFunction?_congr hs.outside]
  cases L.table.lookup key with
  | some g => rfl
  | none => rfl

theorem Bound.define (hs : L.Bound k s) {x : String} {c : Cell} {t : State}
    (h : s.define x c = .ok t) : L.Bound k t := by
  obtain ⟨hk, hlocals, hglobals, hout, htr⟩ := hs
  unfold State.define at h
  split at h
  · cases hd : s.globals.defineVariable x c with
    | error key => rw [hd] at h; cases h
    | ok g =>
        rw [hd] at h
        cases h
        obtain ⟨-, rfl⟩ := Frame.defineVariable_eq_ok hd
        exact ⟨hk, hlocals, hglobals, hout, htr⟩
  · next f fs hls =>
      cases hd : f.defineVariable x c with
      | error key => rw [hd] at h; cases h
      | ok g =>
          rw [hd] at h
          cases h
          obtain ⟨-, rfl⟩ := Frame.defineVariable_eq_ok hd
          rw [hls] at hk hlocals
          exact ⟨hk, hlocals.tail.cons (hlocals f List.mem_cons_self), hglobals, hout, htr⟩

theorem Bound.assign (hs : L.Bound k s) (x : String) (v : Value) : L.Bound k (s.assign x v) := by
  obtain ⟨hk, hlocals, hglobals, hout, htr⟩ := hs
  unfold State.assign
  dsimp only
  split
  · next ls hls =>
      have hmap := Chain.modifyVariable?_functions hls
      have hlen : ls.length = s.locals.length := by simpa using congrArg List.length hmap
      exact ⟨hlen.trans hk, hlocals.congr hmap, hglobals, hout, htr⟩
  · split
    · next g hg =>
        exact ⟨hk, hlocals, (Frame.modifyVariable?_functions hg).trans hglobals, hout, htr⟩
    · split
      · next o ho =>
          exact ⟨hk, hlocals, hglobals, (Chain.modifyVariable?_functions ho).trans hout, htr⟩
      · exact ⟨hk, hlocals, hglobals, hout, htr⟩

theorem Bound.noted (hs : L.Bound k s) {ev : Event}
    (hev : ∀ id g, ev = .call id g → L.Calls id g) : L.Bound k (s.noted L.machine ev) := by
  unfold State.noted
  split
  · refine ⟨hs.height, hs.locals, hs.globals, hs.outside, ?_⟩
    intro q hq
    rcases List.mem_cons.mp hq with rfl | hq
    · exact hev
    · exact hs.trace q hq
  · exact hs

theorem Bound.note (hs : L.Bound k s) {ev : Event} (hev : ∀ id g, ev = .call id g → L.Calls id g)
    {R : Halt → State → Prop} :
    Ends (Exec.note L.machine ev s) (fun _ t => L.Bound k t) R :=
  hs.noted hev

theorem Stopped.noted {h : Halt} (hs : L.Stopped h s) {ev : Event}
    (hev : ∀ id g, ev = .call id g → L.Calls id g) : L.Stopped h (s.noted L.machine ev) := by
  unfold State.noted
  split
  · refine ⟨?_, hs.defined⟩
    intro q hq
    rcases List.mem_cons.mp hq with rfl | hq
    · exact hev
    · exact hs.trace q hq
  · exact hs

theorem Bound.enter (hs : L.Bound k s) {g : RunFrame} (hg : g.functions = []) :
    L.Bound (k + 1) { s with locals := g :: s.locals } :=
  ⟨congrArg (· + 1) hs.height, hs.locals.cons hg, hs.globals, hs.outside, hs.trace⟩

theorem Bound.leave (hs : L.Bound (k + 1) s) : L.Bound k { s with locals := s.locals.tail } :=
  ⟨by rw [List.length_tail, hs.height]; rfl, hs.locals.tail, hs.globals, hs.outside, hs.trace⟩

theorem Bound.call (hs : L.Bound k s) {g : RunFrame} (hg : g.functions = []) :
    L.Bound 1 { s with locals := [g], suspended := s.locals ++ s.suspended } :=
  ⟨rfl, Chain.Silent.nil.cons hg, hs.globals, hs.outside, hs.trace⟩

theorem Bound.back (hs : L.Bound k s) {j : Nat} {t : State} (ht : L.Bound j t) :
    L.Bound k { t with locals := s.locals, suspended := s.suspended } :=
  ⟨hs.height, hs.locals, ht.globals, ht.outside, ht.trace⟩

theorem Bound.records (hs : L.Bound k s) (records : Array Record) :
    L.Bound k { s with records } :=
  ⟨hs.height, hs.locals, hs.globals, hs.outside, hs.trace⟩

theorem Bound.stopped (hs : L.Bound k s) {h : Halt} (hh : h.Defined) : L.Stopped h s :=
  ⟨hs.trace, fun _ => hh⟩

end Linkage

/-! ## Reasons to stop

Operators and members of strings can fail, but never for want of a function. -/

theorem Halt.Defined.located {cause : EvalCause} {place : Place}
    (h : ∀ name n, cause ≠ .undefinedFunction name n) : (Halt.located place cause).Defined := by
  rintro e name n ⟨⟩
  exact h name n

theorem Halt.Defined.relocate {e : EvalError} {place : Place} (h : (Halt.error e).Defined) :
    (Halt.error (e.relocate place)).Defined := by
  rintro _ name n ⟨⟩
  have hcause : (e.relocate place).cause = e.cause := by
    unfold EvalError.relocate
    split <;> rfl
  rw [hcause]
  exact h e name n rfl

theorem Halt.Defined.signal (signal : Signal) : (Halt.signal signal).Defined := by
  rintro _ _ _ ⟨⟩

namespace Operator

theorem arithmetic_defined (op : Operator) (scale : Int) (place : Place) (l r : Value) :
    Yields (op.arithmetic scale place l r) (fun _ => True) Halt.Defined := by
  have hzero : (Halt.located place .divideByZero).Defined := .located (by rintro _ _ ⟨⟩)
  unfold arithmetic
  split
  · exact onIntegers_yields (fun _ => trivial) hzero
  · exact onDecimals_yields (fun _ => trivial) hzero .signal fun _ _ => by rintro _ _ _ ⟨⟩
  · exact .located (by rintro _ _ ⟨⟩)

theorem apply_defined (op : Operator) (scale : Int) (place : Place) (l r : Value) :
    Yields (op.apply scale place l r) (fun _ => True) Halt.Defined := by
  cases op with
  | eq | ne => exact equalValues_yields (fun _ => trivial) fun _ => .signal _
  | lt | le | gt | ge =>
      exact compareValues_yields (fun _ => trivial) (fun _ => .located (by rintro _ _ ⟨⟩))
        (fun _ => .located (by rintro _ _ ⟨⟩)) fun _ _ _ => .signal _
  | add =>
      unfold apply
      dsimp only
      split
      · exact concatenate_yields (fun _ => trivial) (by rintro _ _ _ ⟨⟩)
      · exact arithmetic_defined _ scale place l r
  | _ => exact arithmetic_defined _ scale place l r

end Operator

theorem Value.callString_defined (text name : String) (args : List Value) :
    Yields (Value.callString text name args) (fun _ => True) Halt.Defined :=
  Value.callString_yields (fun _ => trivial) (fun _ => trivial) (fun _ _ => by rintro _ _ _ ⟨⟩ ⟨⟩)
    (fun _ _ => by rintro _ _ _ ⟨⟩ ⟨⟩) (fun _ _ => by rintro _ _ _ ⟨⟩ ⟨⟩) (by rintro _ _ _ ⟨⟩)

namespace Linkage

variable {L : Linkage} {k : Nat} {s : State}

/-! ## Single steps

Each action keeps the functions in their places, or stops for another reason than a function that
is missing. -/

theorem fail_ends {α : Type} {cause : EvalCause} {place : Place} {Q : α → State → Prop}
    (hs : L.Bound k s) (h : ∀ name n, cause ≠ .undefinedFunction name n) :
    Ends (Exec.fail cause place s) Q L.Stopped :=
  hs.stopped (.located h)

theorem ofExcept_ends {α : Type} {r : Except Halt α} {Q : α → Prop} (hs : L.Bound k s)
    (h : Yields r Q Halt.Defined) :
    Ends (Exec.ofExcept r s) (fun _ t => L.Bound k t) L.Stopped := by
  cases r with
  | ok a => exact hs
  | error e => exact hs.stopped h

theorem requireBoolean_ends {v : Value} {place : Place} (hs : L.Bound k s) :
    Ends (Exec.requireBoolean v place s) (fun _ t => L.Bound k t) L.Stopped := by
  unfold Exec.requireBoolean
  split
  · exact hs
  · exact fail_ends hs (by rintro _ _ ⟨⟩)

theorem requireIterable_ends {v : Value} {place : Place} (hs : L.Bound k s) :
    Ends (Exec.requireIterable v place s) (fun _ t => L.Bound k t) L.Stopped := by
  unfold Exec.requireIterable
  split
  · exact hs
  · exact fail_ends hs (by rintro _ _ ⟨⟩)

theorem print_ends {v : Value} (hs : L.Bound k s) :
    Ends (Exec.print v s) (fun _ t => L.Bound k t) L.Stopped := by
  unfold Exec.print
  cases v.text? with
  | some text => exact ⟨hs.height, hs.locals, hs.globals, hs.outside, hs.trace⟩
  | none => exact hs.stopped (by rintro _ _ _ ⟨⟩)

theorem lookup_ends {x : String} {place : Place} (hs : L.Bound k s) :
    Ends (Exec.lookup x place s) (fun _ t => L.Bound k t) L.Stopped := by
  unfold Exec.lookup
  rw [get_bind]
  cases Chain.findVariable? s.chain x with
  | some c => exact hs
  | none => exact fail_ends hs (by rintro _ _ ⟨⟩)

theorem define_ends {c : Cell} {place : Place} (hs : L.Bound k s) :
    Ends (Exec.define L.machine c place s) (fun _ t => L.Bound k t) L.Stopped := by
  unfold Exec.define
  rw [get_bind]
  cases hd : s.define c.name c with
  | ok t =>
      refine Ends.bind (Q := fun _ t' => t' = t) rfl ?_
      rintro _ _ rfl
      exact (hs.define hd).note (by rintro _ _ ⟨⟩)
  | error key => exact fail_ends hs (by rintro _ _ ⟨⟩)

theorem assign_ends {c : Cell} {x : String} {v : Value} (hs : L.Bound k s) :
    Ends (Exec.assign L.machine c x v s) (fun _ t => L.Bound k t) L.Stopped :=
  Bound.note (hs.assign x v) (by rintro _ _ ⟨⟩)

theorem assignField_ends {r : Value} {c : Cell} {x : String} {v : Value} (hs : L.Bound k s) :
    Ends (Exec.assignField L.machine r c x v s) (fun _ t => L.Bound k t) L.Stopped := by
  unfold Exec.assignField
  cases r with
  | record id => exact Bound.note (hs.records _) (by rintro _ _ ⟨⟩)
  | _ => exact hs.note (by rintro _ _ ⟨⟩)

theorem relocating_ends {α : Type} {act : Exec α} {place : Place} {Q : α → State → Prop}
    (h : Ends (act s) Q L.Stopped) : Ends (Exec.relocating place act s) Q L.Stopped := by
  unfold Exec.relocating
  cases hr : act s with
  | ok a t => exact h.ok_of hr
  | error e t =>
      have hstop := h.error_of hr
      cases e with
      | error e => exact ⟨hstop.trace, fun hq => (hstop.defined hq).relocate⟩
      | _ => exact hstop

theorem lookupField_ends {r : Value} {x : String} (hs : L.Bound k s) :
    Ends (Exec.lookupField r x s) (fun _ t => L.Bound k t) L.Stopped := by
  unfold Exec.lookupField
  rw [get_bind]
  cases s.field? r x with
  | some c => exact hs
  | none => exact hs.stopped (by rintro _ _ _ ⟨⟩ ⟨⟩)

theorem native_ends {f : Native} {args : List Value} (hs : L.Bound k s)
    (hf : L.HostQuiet → Native.Quiet f) :
    Ends (Exec.native f args s) (fun _ t => L.Bound k t) L.Stopped := by
  unfold Exec.native
  split
  · exact hs.records _
  · next h records hr =>
      exact ⟨hs.trace, fun hq => hf hq args s.records h (by rw [hr])⟩

theorem callMember_ends {r : Value} {f : String} {args : List Value} (hs : L.Bound k s) :
    Ends (Exec.callMember L.machine r f args s) (fun _ t => L.Bound k t) L.Stopped := by
  unfold Exec.callMember
  cases r with
  | string text => exact ofExcept_ends hs (Value.callString_defined _ _ _)
  | record id =>
      dsimp only
      rw [get_bind]
      generalize hms : (s.records[id]?.map fun r => L.machine.methods r.shape).getD [] = methods
      cases hg : methods.lookup (f, args.length + 1) with
      | none => exact hs.stopped (by rintro _ _ _ ⟨⟩ ⟨⟩)
      | some g =>
          refine native_ends hs fun hq => ?_
          obtain ⟨l₁, l₂, hmem, -⟩ := List.lookup_eq_some_iff.mp hg
          have hin : ((f, args.length + 1), g) ∈ methods := by simp [hmem]
          cases hr : s.records[id]? with
          | none => rw [hr] at hms; subst hms; cases hin
          | some record =>
              rw [hr] at hms
              subst hms
              exact hq.2 record.shape _ hin
  | _ => exact hs.stopped (by rintro _ _ _ ⟨⟩ ⟨⟩)

theorem noteFrame_ends {R : Halt → State → Prop} :
    ∀ (cs : List (String × Cell)) {s : State}, L.Bound k s →
      Ends (Exec.noteFrame L.machine cs s) (fun _ t => L.Bound k t) R
  | [], _, hs => hs
  | (_, c) :: cs, _, hs =>
      Ends.bind (hs.note (by rintro _ _ ⟨⟩)) fun _ _ ht => noteFrame_ends cs ht

theorem inBlock_ends {α : Type} {act : Exec α} {g : RunFrame} (hs : L.Bound k s)
    (hg : g.functions = [])
    (h : ∀ t, L.Bound (k + 1) t → Ends (act t) (fun _ t => L.Bound (k + 1) t) L.Stopped) :
    Ends (Exec.inBlock g act s) (fun _ t => L.Bound k t) L.Stopped := by
  have hact := h _ (hs.enter hg)
  unfold Exec.inBlock
  cases hr : act { s with locals := g :: s.locals } with
  | ok a t => exact (hact.ok_of hr).leave
  | error e t =>
      have hstop := hact.error_of hr
      exact ⟨hstop.trace, hstop.defined⟩

theorem inMethod_ends {α : Type} {act : Exec α} {g : RunFrame} (hs : L.Bound k s)
    (hg : g.functions = [])
    (h : ∀ t, L.Bound 1 t → Ends (act t) (fun _ t => L.Bound 1 t) L.Stopped) :
    Ends (Exec.inMethod g act s) (fun _ t => L.Bound k t) L.Stopped := by
  have hact := h _ (hs.call hg)
  unfold Exec.inMethod
  cases hr : act { s with locals := [g], suspended := s.locals ++ s.suspended } with
  | ok a t => exact hs.back (hact.ok_of hr)
  | error e t =>
      have hstop := hact.error_of hr
      exact ⟨hstop.trace, hstop.defined⟩

/-! ## The rules with a given fuel

The rules are followed from a node to its parts, and into the bodies of the functions that are
called.  A body belongs to code that is in order, since every function that can be found is safe to
call. -/

/-- Every rule keeps the functions in their places, with fuel `n`. -/
structure LinkedAt (L : Linkage) (n : Nat) : Prop where
  expr : ∀ {depth k : Nat} {c : Program Mark} {e : Expr Mark} {s : State}, L.CodeOk c →
    c.HasExpr e → L.Bound k s →
    Ends (Exec.expr L.machine n depth e s) (fun _ t => L.Bound k t) L.Stopped
  form : ∀ {depth k : Nat} {c : Program Mark} {e : Expr Mark} {s : State}, L.CodeOk c →
    c.HasExpr e → L.Bound k s →
    Ends (Exec.form L.machine n depth e s) (fun _ t => L.Bound k t) L.Stopped
  arguments : ∀ {depth k : Nat} {c : Program Mark} {es : List (Expr Mark)} {s : State}, L.CodeOk c →
    (∀ e ∈ es, c.HasExpr e) → L.Bound k s →
    Ends (Exec.arguments L.machine n depth es s)
      (fun vs t => vs.length = es.length ∧ L.Bound k t) L.Stopped
  invoke : ∀ {depth k : Nat} {g : Function} {vs : List Value} {s : State}, L.Callable g →
    L.Bound k s → Ends (Exec.invoke L.machine n depth g vs s) (fun _ t => L.Bound k t) L.Stopped
  stmt : ∀ {depth k : Nat} {c : Program Mark} {st : Stmt Mark} {s : State}, L.CodeOk c →
    c.HasStmt st → L.Bound k s →
    Ends (Exec.stmt L.machine n depth st s) (fun _ t => L.Bound k t) L.Stopped
  initial : ∀ {depth k : Nat} {c : Program Mark} {value : Option (Expr Mark)} {s : State},
    L.CodeOk c → (∀ e, value = some e → c.HasExpr e) → L.Bound k s →
    Ends (Exec.initial L.machine n depth value s) (fun _ t => L.Bound k t) L.Stopped
  block : ∀ {depth k : Nat} {c : Program Mark} {ss : List (Stmt Mark)} {s : State}, L.CodeOk c →
    (∀ st ∈ ss, c.HasStmt st) → L.Bound k s →
    Ends (Exec.block L.machine n depth ss s) (fun _ t => L.Bound k t) L.Stopped
  iterate : ∀ {depth k : Nat} {c : Program Mark} {t : Mark} {x : String} {body : List (Stmt Mark)}
    {vs : List Value} {s : State}, L.CodeOk c → (∀ st ∈ body, c.HasStmt st) → L.Bound k s →
    Ends (Exec.iterate L.machine n depth t x body vs s) (fun _ t => L.Bound k t) L.Stopped
  repeating : ∀ {depth k : Nat} {c : Program Mark} {e : Expr Mark} {body : List (Stmt Mark)}
    {s : State}, L.CodeOk c → c.HasExpr e → (∀ st ∈ body, c.HasStmt st) → L.Bound k s →
    Ends (Exec.repeating L.machine n depth e body s) (fun _ t => L.Bound k t) L.Stopped

section

variable {n depth : Nat} {c : Program Mark}

theorem expr_linked (ih : L.LinkedAt n) (hc : L.CodeOk c) {e : Expr Mark} (he : c.HasExpr e)
    (hs : L.Bound k s) :
    Ends (Exec.expr L.machine (n + 1) depth e s) (fun _ t => L.Bound k t) L.Stopped := by
  simp only [Exec.expr]
  refine Ends.bind (ih.form hc he hs) ?_
  intro v s₁ hs₁
  exact Ends.bind (hs₁.note (by rintro _ _ ⟨⟩)) fun _ s₂ hs₂ => hs₂

/-- A condition is computed, and what it decides follows. -/
theorem condition_linked (ih : L.LinkedAt n) (hc : L.CodeOk c) {e : Expr Mark}
    (he : c.HasExpr e) (hs : L.Bound k s) {α : Type} {rest : Bool → Exec α} {Q : α → State → Prop}
    (hrest : ∀ b t, L.Bound k t → Ends (rest b t) Q L.Stopped) :
    Ends ((Exec.expr L.machine n depth e >>= fun v =>
      Exec.requireBoolean v e.tag.place >>= rest) s) Q L.Stopped := by
  refine Ends.bind (ih.expr hc he hs) ?_
  intro v s₁ hs₁
  exact Ends.bind (requireBoolean_ends hs₁) hrest

theorem binary_linked (ih : L.LinkedAt n) (hc : L.CodeOk c) {t : Mark} {op : Operator}
    {l r : Expr Mark} (he : c.HasExpr (.binary t op l r)) (hs : L.Bound k s) :
    Ends (Exec.form L.machine (n + 1) depth (.binary t op l r) s) (fun _ t => L.Bound k t)
      L.Stopped := by
  have hrest : ∀ t, L.Bound k t → Ends ((do
      let right ← Exec.requireBoolean (← Exec.expr L.machine n depth r) r.tag.place
      return .boolean right : Exec Value) t) (fun _ t => L.Bound k t) L.Stopped :=
    fun t ht => condition_linked ih hc he.right ht fun _ _ h => h
  cases op with
  | and =>
      simp only [Exec.form]
      refine condition_linked ih hc he.left hs ?_
      rintro (_ | _) s₁ hs₁
      · exact hs₁
      · exact hrest s₁ hs₁
  | or =>
      simp only [Exec.form]
      refine condition_linked ih hc he.left hs ?_
      rintro (_ | _) s₁ hs₁
      · exact hrest s₁ hs₁
      · exact hs₁
  | _ =>
      simp only [Exec.form]
      refine Ends.bind (ih.expr hc he.left hs) ?_
      intro vl s₁ hs₁
      refine Ends.bind (ih.expr hc he.right hs₁) ?_
      intro vr s₂ hs₂
      exact ofExcept_ends hs₂ (Operator.apply_defined _ _ _ _ _)

theorem form_linked (hL : L.Ok) (ih : L.LinkedAt n) (hc : L.CodeOk c) {e : Expr Mark}
    (he : c.HasExpr e) (hs : L.Bound k s) :
    Ends (Exec.form L.machine (n + 1) depth e s) (fun _ t => L.Bound k t) L.Stopped := by
  cases e with
  | nil | boolean | character | string | integer | decimal => exact hs
  | group t e => exact ih.expr hc he.inner hs
  | binary t op l r => exact binary_linked ih hc he hs
  | var t x =>
      simp only [Exec.form]
      exact Ends.bind (lookup_ends hs) fun _ _ h => h
  | field t e x =>
      simp only [Exec.form]
      refine Ends.bind (ih.expr hc he.fieldReceiver hs) ?_
      intro v s₁ hs₁
      exact Ends.bind (relocating_ends (lookupField_ends hs₁)) fun _ _ h => h
  | call t f es =>
      simp only [Exec.form]
      refine Ends.bind (ih.arguments hc (fun e h => he.argument h) hs) ?_
      rintro vs s₁ ⟨hlen, hs₁⟩
      refine Ends.bind (Q := fun a t => a = s₁ ∧ t = s₁) ⟨rfl, rfl⟩ ?_
      rintro _ _ ⟨rfl, rfl⟩
      obtain ⟨g, hg, hcalls⟩ := hc t f es he
      rw [hs₁.findFunction, hlen, hg]
      refine Ends.bind (hs₁.note ?_) fun _ s₂ hs₂ => ih.invoke (hL _ g hg) hs₂
      rintro id g' ⟨⟩
      exact hcalls
  | invoke t e f es =>
      simp only [Exec.form]
      refine Ends.bind (ih.expr hc he.receiver hs) ?_
      intro v s₁ hs₁
      refine Ends.bind (ih.arguments hc (fun e h => he.memberArgument h) hs₁) ?_
      rintro vs s₂ ⟨-, hs₂⟩
      exact relocating_ends (callMember_ends hs₂)

theorem arguments_linked (ih : L.LinkedAt n) (hc : L.CodeOk c) {es : List (Expr Mark)}
    (hes : ∀ e ∈ es, c.HasExpr e) (hs : L.Bound k s) :
    Ends (Exec.arguments L.machine (n + 1) depth es s)
      (fun vs t => vs.length = es.length ∧ L.Bound k t) L.Stopped := by
  cases es with
  | nil => exact ⟨rfl, hs⟩
  | cons e es =>
      simp only [Exec.arguments]
      refine Ends.bind (ih.expr hc (hes e List.mem_cons_self) hs) ?_
      intro v s₁ hs₁
      refine Ends.bind (ih.arguments hc (fun e h => hes e (List.mem_cons_of_mem _ h)) hs₁) ?_
      rintro vs s₂ ⟨hlen, hs₂⟩
      exact ⟨congrArg (· + 1) hlen, hs₂⟩

theorem invoke_linked (ih : L.LinkedAt n) {g : Function} {vs : List Value} (hg : L.Callable g)
    (hs : L.Bound k s) :
    Ends (Exec.invoke L.machine (n + 1) depth g vs s) (fun _ t => L.Bound k t) L.Stopped := by
  simp only [Exec.invoke]
  cases hbody : g.body with
  | print =>
      cases vs with
      | nil => exact hs.stopped (by rintro _ _ _ ⟨⟩)
      | cons v vs => exact Ends.bind (print_ends hs) fun _ _ h => h
  | native f => exact native_ends hs (hg.native f hbody)
  | method d =>
      obtain ⟨c, hc, hstmts⟩ := hg.method d hbody
      dsimp only
      split
      · exact fail_ends hs (by rintro _ _ ⟨⟩)
      · split
        · exact fail_ends hs (by rintro _ _ ⟨⟩)
        · cases hb : bindParameters d.tag (d.parameters.zip (g.parameters.zip vs)) {} with
          | error key => exact fail_ends hs (by rintro _ _ ⟨⟩)
          | ok frame =>
              refine Ends.bind (Ends.noting (inMethod_ends hs (bindParameters_functions hb) ?_)
                (fun _ _ h => h.noted (by rintro _ _ ⟨⟩))
                fun _ _ h => h.noted (by rintro _ _ ⟨⟩)) ?_
              · intro s₁ hs₁
                refine Ends.bind (hs₁.note (by rintro _ _ ⟨⟩)) ?_
                intro _ s₂ hs₂
                refine Ends.bind (noteFrame_ends frame.vars hs₂) ?_
                intro _ s₃ hs₃
                exact ih.block hc hstmts hs₃
              · rintro (_ | v) s₁ hs₁ <;> exact hs₁

theorem stmt_linked (ih : L.LinkedAt n) (hc : L.CodeOk c) {st : Stmt Mark} (hst : c.HasStmt st)
    (hs : L.Bound k s) :
    Ends (Exec.stmt L.machine (n + 1) depth st s) (fun _ t => L.Bound k t) L.Stopped := by
  cases st with
  | expr t e =>
      simp only [Exec.stmt]
      exact Ends.bind (ih.expr hc (.alone hst) hs) fun _ _ h => h
  | declare t x typeName value =>
      simp only [Exec.stmt]
      refine Ends.bind (ih.initial hc ?_ hs) ?_
      · rintro e rfl
        exact .initial hst
      · intro v s₁ hs₁
        exact Ends.bind (define_ends hs₁) fun _ _ h => h
  | assign t l e =>
      cases l with
      | var t' x =>
          simp only [Exec.stmt]
          refine Ends.bind (lookup_ends hs) ?_
          intro cell s₁ hs₁
          refine Ends.bind (ih.expr hc (.assigned hst) hs₁) ?_
          intro v s₂ hs₂
          exact Ends.bind (assign_ends hs₂) fun _ _ h => h
      | field t' r x =>
          simp only [Exec.stmt]
          refine Ends.bind (ih.expr hc (Program.HasExpr.target hst).fieldReceiver hs) ?_
          intro receiver s₁ hs₁
          refine Ends.bind (relocating_ends (lookupField_ends hs₁)) ?_
          intro cell s₂ hs₂
          refine Ends.bind (ih.expr hc (.assigned hst) hs₂) ?_
          intro v s₃ hs₃
          exact Ends.bind (assignField_ends hs₃) fun _ _ h => h
      | _ => exact fail_ends hs (by rintro _ _ ⟨⟩)
  | branch t e thenBody elseBody =>
      simp only [Exec.stmt]
      refine condition_linked ih hc (.condition hst) hs ?_
      rintro (_ | _) s₁ hs₁
      · exact inBlock_ends hs₁ rfl fun _ ht => ih.block hc (fun _ h => .elseBody hst h) ht
      · exact inBlock_ends hs₁ rfl fun _ ht => ih.block hc (fun _ h => .thenBody hst h) ht
  | forIn t x e body =>
      simp only [Exec.stmt]
      refine Ends.bind (ih.expr hc (.items hst) hs) ?_
      intro v s₁ hs₁
      refine Ends.bind (requireIterable_ends hs₁) ?_
      intro items s₂ hs₂
      exact ih.iterate hc (fun _ h => .forBody hst h) hs₂
  | loop t e body =>
      exact ih.repeating hc (.loopCondition hst) (fun _ h => .loopBody hst h) hs
  | ret t e =>
      simp only [Exec.stmt]
      exact Ends.bind (ih.expr hc (.result hst) hs) fun _ _ h => h

theorem initial_linked (ih : L.LinkedAt n) (hc : L.CodeOk c) {value : Option (Expr Mark)}
    (hv : ∀ e, value = some e → c.HasExpr e) (hs : L.Bound k s) :
    Ends (Exec.initial L.machine (n + 1) depth value s) (fun _ t => L.Bound k t) L.Stopped := by
  cases value with
  | none => exact hs
  | some e => exact ih.expr hc (hv e rfl) hs

theorem block_linked (ih : L.LinkedAt n) (hc : L.CodeOk c) {ss : List (Stmt Mark)}
    (hss : ∀ st ∈ ss, c.HasStmt st) (hs : L.Bound k s) :
    Ends (Exec.block L.machine (n + 1) depth ss s) (fun _ t => L.Bound k t) L.Stopped := by
  cases ss with
  | nil => exact hs
  | cons st ss =>
      simp only [Exec.block]
      refine Ends.bind (ih.stmt hc (hss st List.mem_cons_self) hs) ?_
      rintro (_ | v) s₁ hs₁
      · exact ih.block hc (fun st h => hss st (List.mem_cons_of_mem _ h)) hs₁
      · exact hs₁

theorem iterate_linked (ih : L.LinkedAt n) (hc : L.CodeOk c) {t : Mark} {x : String}
    {body : List (Stmt Mark)} {vs : List Value} (hbody : ∀ st ∈ body, c.HasStmt st)
    (hs : L.Bound k s) :
    Ends (Exec.iterate L.machine (n + 1) depth t x body vs s) (fun _ t => L.Bound k t)
      L.Stopped := by
  cases vs with
  | nil => exact hs
  | cons v vs =>
      simp only [Exec.iterate]
      refine Ends.bind (inBlock_ends hs rfl ?_) ?_
      · intro s₁ hs₁
        refine Ends.bind (hs₁.note (by rintro _ _ ⟨⟩)) ?_
        intro _ s₂ hs₂
        exact ih.block hc hbody hs₂
      · rintro (_ | v) s₁ hs₁
        · exact ih.iterate hc hbody hs₁
        · exact hs₁

theorem repeating_linked (ih : L.LinkedAt n) (hc : L.CodeOk c) {e : Expr Mark}
    {body : List (Stmt Mark)} (he : c.HasExpr e) (hbody : ∀ st ∈ body, c.HasStmt st)
    (hs : L.Bound k s) :
    Ends (Exec.repeating L.machine (n + 1) depth e body s) (fun _ t => L.Bound k t) L.Stopped := by
  simp only [Exec.repeating]
  refine condition_linked ih hc he hs ?_
  rintro (_ | _) s₁ hs₁
  · exact hs₁
  · refine Ends.bind (inBlock_ends hs₁ rfl fun _ ht => ih.block hc hbody ht) ?_
    rintro (_ | v) s₂ hs₂
    · exact ih.repeating hc he hbody hs₂
    · exact hs₂

end

/-! ## All fuels -/

theorem linkedAt_zero : L.LinkedAt 0 where
  expr _ _ hs := hs.stopped (by rintro _ _ _ ⟨⟩)
  form _ _ hs := hs.stopped (by rintro _ _ _ ⟨⟩)
  arguments _ _ hs := hs.stopped (by rintro _ _ _ ⟨⟩)
  invoke _ hs := hs.stopped (by rintro _ _ _ ⟨⟩)
  stmt _ _ hs := hs.stopped (by rintro _ _ _ ⟨⟩)
  initial _ _ hs := hs.stopped (by rintro _ _ _ ⟨⟩)
  block _ _ hs := hs.stopped (by rintro _ _ _ ⟨⟩)
  iterate _ _ hs := hs.stopped (by rintro _ _ _ ⟨⟩)
  repeating _ _ _ hs := hs.stopped (by rintro _ _ _ ⟨⟩)

theorem linkedAt (hL : L.Ok) : ∀ n, L.LinkedAt n
  | 0 => linkedAt_zero
  | n + 1 =>
      have ih := linkedAt hL n
      { expr := fun hc => expr_linked ih hc
        form := fun hc => form_linked hL ih hc
        arguments := fun hc => arguments_linked ih hc
        invoke := fun hg => invoke_linked ih hg
        stmt := fun hc => stmt_linked ih hc
        initial := fun hc => initial_linked ih hc
        block := fun hc => block_linked ih hc
        iterate := fun hc => iterate_linked ih hc
        repeating := fun hc => repeating_linked ih hc }

end Linkage

end QuillLang
