/-
# Expressions on their own

An expression that is checked on its own, with nothing declared and nothing
lent, has no variables in it, and calls nothing but `print` and the methods of
strings.  So no `NIL` comes in where another value is expected, and more can be
said than of a program: the value is of the very kind of its type.  What can
still go wrong depends on the values alone: a division by zero, a slice out of
range, an integer too long to be written (`Interpreter.evaluate_closed`).  Types
do not rule out that decimals get too large; but the decimals of an expression
that is read from a text do not.

Evaluation ends.  How much fuel it takes is read off the expression
(`Expr.need`), and running out of it is no excuse where there was enough.
-/
import QuillLang.Proofs.Checked
import QuillLang.Proofs.SimpleValues
import QuillLang.Proofs.Soundness

namespace QuillLang

/-! ## Kinds

Without variables a value cannot be `NIL` where its type is another, so each type that an
expression can have stands for one kind of value.  Only parameters may have a wider type than their
argument. -/

/-- The kind of the values of a type, if they are all of one and a program can make them. -/
def Ty.kind? : Ty → Option Kind
  | .nil => some .nil
  | .boolean => some .boolean
  | .integer => some .integer
  | .decimal => some .decimal
  | .character => some .character
  | .string => some .string
  | .any | .comparable | .integerIterable | .outside _ => none

/-- A value is of the kind of a type. -/
def Value.Of (v : Value) (t : Ty) : Prop := t.kind? = some v.kind

/-- An argument may stand for a parameter. -/
def Value.Passes (v : Value) (t : Ty) : Prop := ∃ actual, t.mismatch? actual = none ∧ v.Of actual

/-- The failures that depend on the values alone. -/
def Halt.Unavoidable : Halt → Prop
  | .error e =>
    e.cause = .divideByZero ∨ ∃ start stop length, e.cause = .sliceRange start stop length
  | .digits limit => limit = .writing
  | .quotient _ | .signal _ | .depth | .missingArgument | .outOfFuel => False

/-- The failures that types do not rule out: also that decimals have no result. -/
def Halt.Untyped (h : Halt) : Prop := h.Unavoidable ∨ h.isSignal = true

/-- A type with values of one kind takes no other type. -/
theorem Ty.eq_of_mismatch? {target actual : Ty} {k : Kind} (hk : target.kind? = some k)
    (h : target.mismatch? actual = none) : actual = target := by
  cases target with
  | any | comparable => cases hk
  | _ => simpa [Ty.mismatch?] using h

namespace Value

variable {v : Value} {t : Ty}

theorem Of.boolean (h : v.Of .boolean) : ∃ b, v = .boolean b := by
  cases v with
  | boolean b => exact ⟨b, rfl⟩
  | _ => cases h

theorem Of.integer (h : v.Of .integer) : ∃ n, v = .integer n := by
  cases v with
  | integer n => exact ⟨n, rfl⟩
  | _ => cases h

theorem Of.decimal (h : v.Of .decimal) : ∃ d, v = .decimal d := by
  cases v with
  | decimal d => exact ⟨d, rfl⟩
  | _ => cases h

theorem Of.string (h : v.Of .string) : ∃ s, v = .string s := by
  cases v with
  | string s => exact ⟨s, rfl⟩
  | _ => cases h

theorem Of.isOrdered (h : v.Of t) (ht : t.isComparable = true) : v.kind.isOrdered = true := by
  unfold Of at h
  generalize v.kind = k at h
  cases t <;> cases ht <;> cases h <;> rfl

theorem Passes.integer (h : v.Passes .integer) : ∃ n, v = .integer n := by
  obtain ⟨actual, hm, hv⟩ := h
  rw [Ty.eq_of_mismatch? rfl hm] at hv
  exact hv.integer

end Value

/-! ## Operators

An operator is chosen by the kinds of its operands when it is applied, and by their types when it
is checked.  The two agree, since the kinds are those of the types. -/

namespace Operator

variable {op : Operator} {scale : Int} {place : Place} {l r t : Ty} {vl vr : Value}

theorem compareValues_of (hlc : l.isComparable = true) (hlr : l.mismatch? r = none)
    (hl : vl.Of l) (hr : vr.Of r) :
    Yields (op.compareValues place vl vr) (·.Of .boolean) (·.Untyped) := by
  have hkind : vl.kind = vr.kind := by
    rw [Ty.eq_of_mismatch? hl hlr] at hr
    exact Option.some.inj (hl.symm.trans hr)
  exact compareValues_yields (fun _ => rfl) (absurd hkind)
    (fun hun => absurd (hl.isOrdered hlc) (by simp [hun])) fun _ _ _ => .inr rfl

theorem arithmetic_of (hscale : 0 ≤ scale) (ht : t = .integer ∨ t = .decimal) (hl : vl.Of t)
    (hr : vr.Of t) : Yields (op.arithmetic scale place vl vr) (·.Of t) (·.Untyped) := by
  rcases ht with rfl | rfl
  · obtain ⟨a, rfl⟩ := hl.integer
    obtain ⟨b, rfl⟩ := hr.integer
    exact onIntegers_yields (fun _ => rfl) (.inl (.inl rfl))
  · obtain ⟨a, rfl⟩ := hl.decimal
    obtain ⟨b, rfl⟩ := hr.decimal
    exact onDecimals_yields (fun _ => rfl) (.inl (.inl rfl)) (fun _ => .inr rfl)
      fun _ hneg => absurd hscale (Int.not_le.mpr hneg)

/-- The operator of an expression takes the same case for the values as for the types. -/
theorem apply_of (hscale : 0 ≤ scale) (hop : op.isLogical = false) (hc : op.Combines l r t)
    (hl : vl.Of l) (hr : vr.Of r) :
    Yields (op.apply scale place vl vr) (·.Of t) (·.Untyped) := by
  cases hc with
  | logical h => rw [h] at hop; cases hop
  | comparison h hlc _ hlr =>
      cases op with
      | eq | ne => exact equalValues_yields (fun _ => rfl) fun _ => .inr rfl
      | lt | le | gt | ge => exact compareValues_of hlc hlr hl hr
      | _ => cases h
  | text h =>
      have hstring : (decide (vl.kind = .string) || decide (vr.kind = .string)) = true := by
        rcases h with rfl | rfl
        · rw [← Option.some.inj hl]; rfl
        · rw [← Option.some.inj hr, Bool.or_eq_true]; exact .inr rfl
      simp only [apply, hstring, if_true]
      exact concatenate_yields (fun _ => rfl) (.inl rfl)
  | arithmetic _ h ht =>
      have harith : op.apply scale place vl vr = op.arithmetic scale place vl vr := by
        cases op with
        | add =>
            have hno : ∀ v : Value, v.Of l → v.kind ≠ .string := by
              intro v hv
              rcases ht with rfl | rfl
              · obtain ⟨n, rfl⟩ := hv.integer; simp [Value.kind]
              · obtain ⟨d, rfl⟩ := hv.decimal; simp [Value.kind]
            simp [apply, hno vl hl, hno vr hr]
        | sub | mul | div | and | or => rfl
        | _ => cases h
      rw [harith]
      exact arithmetic_of hscale ht hl hr

end Operator

theorem Value.slice_of {s : String} {start stop : Value} (hstart : start.Passes .integer)
    (hstop : stop.Passes .integer) :
    Yields (Value.slice s start stop) (·.Of .string) (·.Untyped) := by
  obtain ⟨a, rfl⟩ := hstart.integer
  obtain ⟨b, rfl⟩ := hstop.integer
  exact slice_yields (fun _ => rfl) (fun a b => .inl (.inr ⟨a, b, s.length, rfl⟩))
    (fun hno => (hno a b rfl rfl).elim) (.inl rfl)

/-! ## Fuel

No method is called, so evaluation goes no deeper than the tree, with two rules for each node and
one for each argument. -/

mutual

/-- Fuel enough to evaluate an expression that runs no method. -/
def Expr.need : Expr Mark → Nat
  | .nil _ | .boolean _ _ | .character _ _ | .string _ _ | .integer _ _ | .decimal _ _
  | .var _ _ => 2
  | .group _ e | .field _ e _ => e.need + 2
  | .binary _ _ l r => max l.need r.need + 2
  | .call _ _ es => Expr.needs es + 2
  | .invoke _ e _ es => max e.need (Expr.needs es) + 2

/-- Fuel enough to evaluate expressions one after the other. -/
def Expr.needs : List (Expr Mark) → Nat
  | [] => 1
  | e :: es => max e.need (Expr.needs es) + 1

end

theorem Expr.two_le_need (e : Expr Mark) : 2 ≤ e.need := by
  cases e <;> simp only [Expr.need] <;> omega

theorem Expr.one_le_needs (es : List (Expr Mark)) : 1 ≤ Expr.needs es := by
  cases es <;> simp only [Expr.needs] <;> omega

theorem Expr.need_binary (t : Mark) (op : Operator) (l r : Expr Mark) :
    l.need + 2 ≤ (Expr.binary t op l r).need ∧ r.need + 2 ≤ (Expr.binary t op l r).need := by
  simp only [Expr.need]
  omega

/-- Evaluation has stopped early for a reason that types do not rule out: not for a lack of fuel,
unless there was less than needed. -/
def Halt.Excuses (need fuel : Nat) (h : Halt) : Prop :=
  h.Untyped ∨ h = .outOfFuel ∧ fuel < need

theorem Halt.Excuses.mono {need need' fuel fuel' : Nat} {h : Halt} (hx : h.Excuses need fuel)
    (hle : need + fuel' ≤ need' + fuel) : h.Excuses need' fuel' := by
  rcases hx with hx | ⟨hx, hlt⟩
  · exact .inl hx
  · exact .inr ⟨hx, by omega⟩

/-! ## Names -/

theorem Checker.findFunction_builtin {key : FunctionKey} {s : Signature}
    (h : Chain.findFunction? [Checker.builtinFrame] key = some s) :
    key = printSignature.key ∧ s = printSignature := by
  have h : Checker.builtinFrame.functions.lookup key = some s := by
    simpa [Chain.findFunction?, Frame.findFunction?] using h
  obtain ⟨l₁, l₂, hmem, -⟩ := List.lookup_eq_some_iff.mp h
  have hin : (key, s) ∈ Checker.builtinFrame.functions :=
    hmem ▸ List.mem_append_right _ List.mem_cons_self
  have hin : (key, s) = (printSignature.key, printSignature) := by
    simpa [Checker.builtinFrame, builtins] using hin
  exact Prod.mk.inj hin

/-- Nothing is declared in a state but what the language brings. -/
def State.Bare (s : State) : Prop := s.chain = [Interpreter.builtinFrame]

theorem State.Bare.note {s : State} (h : s.Bare) (m : Machine) (ev : Event)
    {R : Halt → State → Prop} : Ends (Exec.note m ev s) (fun _ s' => s'.Bare) R := by
  show (s.noted m ev).Bare
  unfold State.noted
  split
  · exact h
  · exact h

/-! ## Evaluation

By induction on the fuel, with the excuse carried along: the fuel may run out, but only if there
was less than the expression needs. -/

/-- What evaluation with fuel `n` comes to. -/
structure ClosedAt (M : Model) (m : Machine) (n : Nat) : Prop where
  expr : ∀ {depth : Nat} {e : Expr Mark} {t : Ty} {s : State},
    HasType {} M [Checker.builtinFrame] e t → s.Bare →
    Ends (Exec.expr m n depth e s) (fun v s' => v.Of t ∧ s'.Bare) fun h _ => h.Excuses e.need n
  form : ∀ {depth : Nat} {e : Expr Mark} {t : Ty} {s : State},
    HasType {} M [Checker.builtinFrame] e t → s.Bare →
    Ends (Exec.form m n depth e s) (fun v s' => v.Of t ∧ s'.Bare)
      fun h _ => h.Excuses e.need (n + 1)
  arguments : ∀ {depth : Nat} {es : List (Expr Mark)} {ts : List Ty} {s : State},
    TakesArguments {} M [Checker.builtinFrame] es ts → es.length = ts.length → s.Bare →
    Ends (Exec.arguments m n depth es s)
      (fun vs s' => List.Forall₂ Value.Passes vs ts ∧ s'.Bare)
      fun h _ => h.Excuses (Expr.needs es) n

namespace ClosedAt

variable {M : Model} {m : Machine} {n depth : Nat} {s : State}

theorem expr_succ (ih : ClosedAt M m n) {e : Expr Mark} {t : Ty}
    (he : HasType {} M [Checker.builtinFrame] e t) (hs : s.Bare) :
    Ends (Exec.expr m (n + 1) depth e s) (fun v s' => v.Of t ∧ s'.Bare)
      fun h _ => h.Excuses e.need (n + 1) := by
  simp only [Exec.expr]
  refine Ends.bind (ih.form he hs) ?_
  rintro v s₁ ⟨hv, hs₁⟩
  exact Ends.bind (hs₁.note m _) fun _ s₂ hs₂ => Ends.pure ⟨hv, hs₂⟩

/-- A part of an expression. -/
theorem part (ih : ClosedAt M m n) {e : Expr Mark} {t : Ty} {need : Nat}
    (hneed : e.need + 2 ≤ need) (he : HasType {} M [Checker.builtinFrame] e t) (hs : s.Bare) :
    Ends (Exec.expr m n depth e s) (fun v s' => v.Of t ∧ s'.Bare)
      fun h _ => h.Excuses need (n + 2) :=
  (ih.expr he hs).imp (fun _ _ h => h) fun _ _ h => h.mono (by omega)

theorem ofExcept_ends {r : Except Halt Value} {t : Ty} {need fuel : Nat} (hs : s.Bare)
    (h : Yields r (·.Of t) (·.Untyped)) :
    Ends (Exec.ofExcept r s) (fun v s' => v.Of t ∧ s'.Bare) fun h _ => h.Excuses need fuel := by
  cases r with
  | ok v => exact ⟨h, hs⟩
  | error e => exact .inl h

/-- A failure stays what it is at the place of the call. -/
theorem relocating_ends {r : Except Halt Value} {t : Ty} {place : Place} {need fuel : Nat}
    (hs : s.Bare) (h : Yields r (·.Of t) (·.Untyped)) :
    Ends (Exec.relocating place (Exec.ofExcept r) s) (fun v s' => v.Of t ∧ s'.Bare)
      fun h _ => h.Excuses need fuel := by
  cases r with
  | ok v => exact ⟨h, hs⟩
  | error e =>
      cases e with
      | error e =>
          refine .inl ?_
          unfold EvalError.relocate
          split <;> exact h
      | _ => exact .inl h

/-- An operand of a logical operator decides. -/
theorem condition (ih : ClosedAt M m n) {c : Expr Mark} {need : Nat} (hneed : c.need + 2 ≤ need)
    (hc : HasType {} M [Checker.builtinFrame] c .boolean) (hs : s.Bare) {rest : Bool → Exec Value}
    {Q : Value → State → Prop}
    (hrest : ∀ b s', s'.Bare → Ends (rest b s') Q fun h _ => h.Excuses need (n + 2)) :
    Ends ((Exec.expr m n depth c >>= fun v => Exec.requireBoolean v c.tag.place >>= rest) s) Q
      fun h _ => h.Excuses need (n + 2) := by
  refine Ends.bind (ih.part hneed hc hs) ?_
  rintro v s₁ ⟨hv, hs₁⟩
  obtain ⟨b, rfl⟩ := hv.boolean
  exact hrest b s₁ hs₁

theorem logical (ih : ClosedAt M m n) {t : Mark} {op : Operator} {l r : Expr Mark}
    (hop : op.isLogical = true) (hl : HasType {} M [Checker.builtinFrame] l .boolean)
    (hr : HasType {} M [Checker.builtinFrame] r .boolean) (hs : s.Bare) :
    Ends (Exec.form m (n + 1) depth (.binary t op l r) s)
      (fun v s' => v.Of .boolean ∧ s'.Bare)
      fun h _ => h.Excuses (Expr.binary t op l r).need (n + 2) := by
  obtain ⟨hneedl, hneedr⟩ := Expr.need_binary t op l r
  cases op with
  | and =>
      simp only [Exec.form]
      refine ih.condition hneedl hl hs ?_
      rintro (_ | _) s₁ hs₁
      · exact ⟨rfl, hs₁⟩
      · exact ih.condition hneedr hr hs₁ fun b s₂ hs₂ => ⟨rfl, hs₂⟩
  | or =>
      simp only [Exec.form]
      refine ih.condition hneedl hl hs ?_
      rintro (_ | _) s₁ hs₁
      · exact ih.condition hneedr hr hs₁ fun b s₂ hs₂ => ⟨rfl, hs₂⟩
      · exact ⟨rfl, hs₁⟩
  | _ => cases hop

theorem binary (hscale : 0 ≤ m.scale) (ih : ClosedAt M m n) {t : Mark} {op : Operator}
    {l r : Expr Mark} {lt rt u : Ty} (hop : op.isLogical = false)
    (hl : HasType {} M [Checker.builtinFrame] l lt)
    (hr : HasType {} M [Checker.builtinFrame] r rt) (hc : op.Combines lt rt u) (hs : s.Bare) :
    Ends (Exec.form m (n + 1) depth (.binary t op l r) s) (fun v s' => v.Of u ∧ s'.Bare)
      fun h _ => h.Excuses (Expr.binary t op l r).need (n + 2) := by
  obtain ⟨hneedl, hneedr⟩ := Expr.need_binary t op l r
  rw [World.form_binary hop]
  refine Ends.bind (ih.part hneedl hl hs) ?_
  rintro vl s₁ ⟨hvl, hs₁⟩
  refine Ends.bind (ih.part hneedr hr hs₁) ?_
  rintro vr s₂ ⟨hvr, hs₂⟩
  exact ofExcept_ends hs₂ (Operator.apply_of hscale hop hc hvl hvr)

/-- The only function there is to call is `print`. -/
theorem call (ih : ClosedAt M m n) {t : Mark} {f : String} {es : List (Expr Mark)}
    {sig : Signature} (hf : Chain.findFunction? [Checker.builtinFrame] (f, es.length) = some sig)
    (hes : TakesArguments {} M [Checker.builtinFrame] es sig.parameters) (hs : s.Bare) :
    Ends (Exec.form m (n + 1) depth (.call t f es) s) (fun v s' => v.Of sig.result ∧ s'.Bare)
      fun h _ => h.Excuses (Expr.call t f es).need (n + 2) := by
  obtain ⟨hkey, rfl⟩ := Checker.findFunction_builtin hf
  have hlen : es.length = printSignature.parameters.length := congrArg Prod.snd hkey
  have hneed := Expr.one_le_needs es
  simp only [Exec.form]
  refine Ends.bind ((ih.arguments hes hlen hs).imp (fun _ _ h => h) fun _ _ h => ?_) ?_
  · exact h.mono (by simp only [Expr.need]; omega)
  rintro vs s₁ ⟨hvs, hs₁⟩
  have hcount : vs.length = es.length := hvs.length_eq.trans hlen.symm
  rw [get_bind, hs₁, hcount, hkey]
  refine Ends.bind (hs₁.note m _) fun _ s₂ hs₂ => ?_
  cases hvs with
  | @cons v _ _ _ _ hvs =>
      cases n with
      | zero => exact .inr ⟨rfl, by simp only [Expr.need]; omega⟩
      | succ n =>
          simp only [Exec.invoke, Exec.print]
          cases v.text? with
          | some text => exact ⟨rfl, hs₂⟩
          | none => exact .inl (.inl rfl)

theorem member (ih : ClosedAt M m n) {t : Mark} {e : Expr Mark} {f : String}
    {es : List (Expr Mark)} {et : Ty} {sig : Signature}
    (he : HasType {} M [Checker.builtinFrame] e et)
    (hf : (StaticOutside.members {} et).findFunction? (f, es.length + 1) = some sig)
    (hes : TakesArguments {} M [Checker.builtinFrame] es sig.parameters.tail) (hs : s.Bare) :
    Ends (Exec.form m (n + 1) depth (.invoke t e f es) s)
      (fun v s' => v.Of sig.result ∧ s'.Bare)
      fun h _ => h.Excuses (Expr.invoke t e f es).need (n + 2) := by
  obtain ⟨rfl, hkey⟩ := StaticOutside.members_empty_findFunction hf
  have hlen : es.length = sig.parameters.tail.length := by
    rcases hkey with ⟨hkey, rfl⟩ | ⟨hkey, rfl⟩ <;>
      simpa [sliceSignature, lengthSignature] using congrArg Prod.snd hkey
  simp only [Exec.form]
  refine Ends.bind (ih.part (by simp only [Expr.need]; omega) he hs) ?_
  rintro v s₁ ⟨hv, hs₁⟩
  obtain ⟨text, rfl⟩ := hv.string
  refine Ends.bind ((ih.arguments hes hlen hs₁).imp (fun _ _ h => h) fun _ _ h => ?_) ?_
  · exact h.mono (by simp only [Expr.need]; omega)
  rintro vs s₂ ⟨hvs, hs₂⟩
  refine relocating_ends hs₂ ?_
  rcases hkey with ⟨hkey, rfl⟩ | ⟨hkey, rfl⟩
  · obtain rfl : f = "slice" := congrArg Prod.fst hkey
    cases hvs with
    | cons hstart hvs =>
        cases hvs with
        | cons hstop hvs =>
            cases hvs
            exact Value.slice_of hstart hstop
  · obtain rfl : f = "length" := congrArg Prod.fst hkey
    cases hvs
    rfl

theorem form_succ (hscale : 0 ≤ m.scale) (ih : ClosedAt M m n) {e : Expr Mark} {t : Ty}
    (he : HasType {} M [Checker.builtinFrame] e t) (hs : s.Bare) :
    Ends (Exec.form m (n + 1) depth e s) (fun v s' => v.Of t ∧ s'.Bare)
      fun h _ => h.Excuses e.need (n + 2) := by
  cases he with
  | nil | boolean | character | string | integer | decimal => exact ⟨rfl, hs⟩
  | group _ he => exact ih.part (Nat.le_refl _) he hs
  | @binary _ op _ _ _ _ _ hl hr hc =>
      cases hop : op.isLogical with
      | true =>
          cases hc with
          | logical => exact ih.logical hop hl hr hs
          | comparison h => rw [op.isLogical_of_isComparison h] at hop; cases hop
          | text => cases hop
          | arithmetic h => rw [hop] at h; cases h
      | false => exact ih.binary hscale hop hl hr hc hs
  | var hx => cases hx
  | field _ hx =>
      rw [StaticOutside.members_empty_findVariable] at hx
      cases hx
  | call hf hes => exact ih.call hf hes hs
  | invoke he hf hes => exact ih.member he hf hes hs

theorem arguments_succ (ih : ClosedAt M m n) {es : List (Expr Mark)} {ts : List Ty}
    (hes : TakesArguments {} M [Checker.builtinFrame] es ts) (hlen : es.length = ts.length)
    (hs : s.Bare) :
    Ends (Exec.arguments m (n + 1) depth es s)
      (fun vs s' => List.Forall₂ Value.Passes vs ts ∧ s'.Bare)
      fun h _ => h.Excuses (Expr.needs es) (n + 1) := by
  cases hes with
  | noArgument =>
      obtain rfl : ts = [] := List.length_eq_zero_iff.mp hlen.symm
      exact ⟨.nil, hs⟩
  | noParameter =>
      obtain rfl : es = [] := List.length_eq_zero_iff.mp hlen
      exact ⟨.nil, hs⟩
  | more he hm hes =>
      simp only [Exec.arguments]
      refine Ends.bind ((ih.expr he hs).imp (fun _ _ h => h) fun _ _ h => ?_) ?_
      · exact h.mono (by simp only [Expr.needs]; omega)
      rintro v s₁ ⟨hv, hs₁⟩
      refine Ends.bind ((ih.arguments hes (Nat.succ.inj hlen) hs₁).imp (fun _ _ h => h)
        fun _ _ h => ?_) ?_
      · exact h.mono (by simp only [Expr.needs]; omega)
      rintro vs s₂ ⟨hvs, hs₂⟩
      exact ⟨.cons ⟨_, hm, hv⟩ hvs, hs₂⟩

end ClosedAt

theorem closedAt {M : Model} {m : Machine} (hscale : 0 ≤ m.scale) : ∀ n, ClosedAt M m n
  | 0 =>
      { expr := fun {_ e _ _} _ _ => .inr ⟨rfl, by have := e.two_le_need; omega⟩
        form := fun {_ e _ _} _ _ => .inr ⟨rfl, by have := e.two_le_need; omega⟩
        arguments := fun {_ es _ _} _ _ _ => .inr ⟨rfl, by have := Expr.one_le_needs es; omega⟩ }
  | n + 1 =>
      have ih := closedAt hscale n
      { expr := ih.expr_succ
        form := ih.form_succ hscale
        arguments := ih.arguments_succ }

theorem Interpreter.evaluate_untyped {m : Machine} (hscale : 0 ≤ m.scale)
    (hdepth : m.maxDepth ≤ Machine.depthBound) {e : Expr Mark} {t : Ty} {c : Checker}
    (h : Check.expr e (Checker.start {}) = .ok t c) (fuel : Nat) :
    Yields ((Interpreter.start m {}).evaluate e fuel).1 (fun v => t.kind? = some v.kind)
      (·.Excuses e.need fuel) := by
  have htype := (Check.expr_typed e h).2 c.model (.refl _)
  have hbare : (Interpreter.start m {}).state.Bare := rfl
  have hends : Ends (Exec.expr (Interpreter.start m {}).machine fuel 0 e
      (Interpreter.start m {}).state) (fun v s => v.Of t ∧ s.Bare)
      fun h _ => h.Excuses e.need fuel :=
    (closedAt (m := (Interpreter.start m {}).machine) hscale fuel).expr htype hbare
  unfold Interpreter.evaluate Interpreter.guarded Interpreter.perform
  rw [if_pos (show (Interpreter.start m {}).machine.maxDepth ≤ _ from hdepth)]
  cases hr : Exec.expr (Interpreter.start m {}).machine fuel 0 e (Interpreter.start m {}).state with
  | ok v s => exact (hends.ok_of hr).1
  | error e s => exact hends.error_of hr

/-- If nothing is lent and an expression that is read from a text is accepted on its own, then its
value is of the kind of its type, unless evaluation stops because of a division by zero, a slice
out of range or an integer too long to be written. -/
theorem Interpreter.evaluate_closed {m : Machine} (hscale : 0 ≤ m.scale)
    (hdepth : m.maxDepth ≤ Machine.depthBound) {src : Source} {e : Expr Place} {rest : List Token}
    (hread : src.expression = .ok (e, rest)) {n : Nat} {t : Ty} {c : Checker}
    (h : Check.expr (e.mark n).1 (Checker.start {}) = .ok t c) (fuel : Nat) :
    Yields ((Interpreter.start m {}).evaluate (e.mark n).1 fuel).1
      (fun v => t.kind? = some v.kind)
      fun h => h.Unavoidable ∨ h = .outOfFuel ∧ fuel < (e.mark n).1.need := by
  have hbounds : m.Bounds 0 := ⟨by decide, by omega, le_rfl⟩
  have hsignal :=
    ((Simple.start hbounds).evaluate (Source.expression_placed hread n) fuel).2
  have hkind := evaluate_untyped hscale hdepth h fuel
  cases hr : ((Interpreter.start m {}).evaluate (e.mark n).1 fuel).1 with
  | ok v =>
      rw [hr] at hkind
      exact hkind
  | error halt =>
      rw [hr] at hkind hsignal
      rcases hkind with (hunavoidable | hsignalled) | hfuel
      · exact .inl hunavoidable
      · cases hsignal.symm.trans hsignalled
      · exact .inr hfuel

/-- A text with a slice that ends in the middle. -/
def Source.slicing : Source := { text := "\"quill\".slice(1, 7 / 2) + 1" }

theorem Source.slicing_evaluates : ∃ e rest c, slicing.expression = .ok (e, rest) ∧
    Check.expr (e.mark 0).1 (Checker.start {}) = .ok .string c ∧
    Yields ((Interpreter.start {} {}).evaluate (e.mark 0).1 10).1 (fun v => v.kind = .string)
      Halt.Unavoidable := by
  have haccepted : (slicing.expression.map fun e =>
      (match Check.expr (e.1.mark 0).1 (Checker.start {}) with
        | .ok t _ => decide (t = .string)
        | .error _ _ => false) && decide ((e.1.mark 0).1.need ≤ 10)).toOption = some true := by
    decide +kernel
  obtain ⟨⟨e, rest⟩, he⟩ : ∃ e, slicing.expression = .ok e := by
    cases he : slicing.expression with
    | error f => rw [he] at haccepted; cases haccepted
    | ok e => exact ⟨e, rfl⟩
  rw [he] at haccepted
  obtain ⟨haccepted, hneed⟩ := Bool.and_eq_true_iff.mp (Option.some.inj haccepted)
  split at haccepted
  · next t c hc =>
      cases of_decide_eq_true haccepted
      refine ⟨e, rest, c, he, hc, ?_⟩
      refine (Interpreter.evaluate_closed (m := {}) (by decide) (by decide) he hc 10).imp ?_ ?_
      · exact fun v hv => (Option.some.inj hv).symm
      · rintro h (hx | ⟨-, hlt⟩)
        · exact hx
        · exact absurd hlt (Nat.not_lt.mpr (of_decide_eq_true hneed))
  · cases haccepted

end QuillLang
