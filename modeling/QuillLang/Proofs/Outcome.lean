/-
# Outcomes of actions on a state

Checking and running are actions on a state that keep it when they fail.  Two
ways to reason about them stand here.  An action known to have succeeded is
taken apart step by step (`bind_eq_ok`), and one known to have failed is followed
to the step that did (`bind_eq_error`).  For an action that may do either, `Ends`
says what holds of its result and state in both cases, and is proved step by step
(`Ends.bind`).  A run of an interpreter is such an action, behind a look at the
machine (`Interpreter.run_start`).

An operator has no state.  What it can come to is listed once, for any two
conditions on its values and its failures (`Operator.onDecimals_yields` and its
companions).
-/
import QuillLang.Check.Basic
import QuillLang.Eval.Interpreter

namespace QuillLang

section

variable {ε σ α β : Type}

/-! ## Actions that succeed -/

theorem bind_eq_ok {x : EStateM ε σ α} {f : α → EStateM ε σ β} {s u : σ} {b : β} :
    (x >>= f) s = .ok b u ↔ ∃ a t, x s = .ok a t ∧ f a t = .ok b u := by
  show EStateM.bind x f s = .ok b u ↔ _
  unfold EStateM.bind
  cases x s with
  | ok a t =>
      constructor
      · intro h; exact ⟨a, t, rfl, h⟩
      · rintro ⟨_, _, h, hf⟩; cases h; exact hf
  | error e t =>
      constructor
      · intro h; cases h
      · rintro ⟨_, _, h, _⟩; cases h

/-- An action in two steps fails in the first or, after it, in the second. -/
theorem bind_eq_error {x : EStateM ε σ α} {f : α → EStateM ε σ β} {s u : σ} {e : ε} :
    (x >>= f) s = .error e u ↔ x s = .error e u ∨ ∃ a t, x s = .ok a t ∧ f a t = .error e u := by
  show EStateM.bind x f s = .error e u ↔ _
  unfold EStateM.bind
  cases x s with
  | ok a t =>
      constructor
      · intro h; exact .inr ⟨a, t, rfl, h⟩
      · rintro (h | ⟨_, _, h, hf⟩)
        · cases h
        · cases h; exact hf
  | error e' t =>
      constructor
      · intro h; cases h; exact .inl rfl
      · rintro (h | ⟨_, _, h, _⟩)
        · cases h; rfl
        · cases h

theorem except_bind_eq_ok {x : Except ε α} {f : α → Except ε β} {b : β} :
    (x >>= f) = .ok b ↔ ∃ a, x = .ok a ∧ f a = .ok b := by
  cases x with
  | ok a =>
      constructor
      · intro h; exact ⟨a, rfl, h⟩
      · rintro ⟨_, h, hf⟩; cases h; exact hf
  | error e =>
      constructor
      · intro h; cases h
      · rintro ⟨_, h, _⟩; cases h

theorem exists_ok_of_isSome {r : Except ε α} (h : r.toOption.isSome = true) :
    ∃ a, r = .ok a := by
  cases r with
  | ok a => exact ⟨a, rfl⟩
  | error e => cases h

/-- An action that looks at the state goes on with the state it is in. -/
theorem get_bind (f : σ → EStateM ε σ α) (s : σ) : (get >>= f) s = f s s := rfl

/-! ## Actions that may fail

A postcondition for each of the two ways to end.  A failure in the first of two steps is the
failure of both, so the condition on errors is handed on unchanged. -/

/-- What holds after an action: `Q` of its result if it succeeds, `R` of its error if not. -/
def Ends (r : EStateM.Result ε σ α) (Q : α → σ → Prop) (R : ε → σ → Prop) : Prop :=
  match r with
  | .ok a s => Q a s
  | .error e s => R e s

variable {Q : α → σ → Prop} {R : ε → σ → Prop} {s : σ}

theorem Ends.bind {Q' : β → σ → Prop} {x : EStateM ε σ α} {f : α → EStateM ε σ β}
    (hx : Ends (x s) Q R) (hf : ∀ a t, Q a t → Ends (f a t) Q' R) : Ends ((x >>= f) s) Q' R := by
  show Ends (EStateM.bind x f s) Q' R
  unfold EStateM.bind
  cases h : x s with
  | ok a t =>
      rw [h] at hx
      exact hf a t hx
  | error e t =>
      rw [h] at hx
      exact hx

theorem Ends.pure {a : α} (h : Q a s) : Ends ((Pure.pure a : EStateM ε σ α) s) Q R := h

theorem Ends.imp {Q' : α → σ → Prop} {R' : ε → σ → Prop} {r : EStateM.Result ε σ α}
    (h : Ends r Q R) (hQ : ∀ a t, Q a t → Q' a t) (hR : ∀ e t, R e t → R' e t) :
    Ends r Q' R' := by
  cases r with
  | ok a t => exact hQ a t h
  | error e t => exact hR e t h

/-- What holds of a result without a state. -/
def Yields (r : Except ε α) (Q : α → Prop) (R : ε → Prop) : Prop :=
  match r with
  | .ok a => Q a
  | .error e => R e

theorem Yields.imp {r : Except ε α} {Q Q' : α → Prop} {R R' : ε → Prop} (h : Yields r Q R)
    (hQ : ∀ a, Q a → Q' a) (hR : ∀ e, R e → R' e) : Yields r Q' R' := by
  cases r with
  | ok a => exact hQ a h
  | error e => exact hR e h

theorem Ends.ok_of {r : EStateM.Result ε σ α} {a : α} {t : σ} (h : Ends r Q R)
    (hr : r = .ok a t) : Q a t := by
  subst hr; exact h

theorem Ends.error_of {r : EStateM.Result ε σ α} {e : ε} {t : σ} (h : Ends r Q R)
    (hr : r = .error e t) : R e t := by
  subst hr; exact h

end

/-- What holds after an action and the point recorded after it. -/
theorem Ends.noting {α : Type} {Q Q' : α → State → Prop} {R R' : Halt → State → Prop}
    {act : Exec α} {s : State} {m : Machine} {ev : Event} (h : Ends (act s) Q R)
    (hQ : ∀ a t, Q a t → Q' a (t.noted m ev)) (hR : ∀ e t, R e t → R' e (t.noted m ev)) :
    Ends (Exec.noting m ev act s) Q' R' := by
  unfold Exec.noting
  cases hr : act s with
  | ok a t => exact hQ a t (h.ok_of hr)
  | error e t => exact hR e t (h.error_of hr)

/-! ## What operators come to

All values and all failures of an operator, each with what is known where it comes up.  A condition
on values and one on failures hold of the outcome if they hold of these; how the operator is
computed matters to nothing else. -/

namespace Operator

variable {op : Operator} {scale : Int} {place : Place} {l r : Value} {Q : Value → Prop}
  {R : Halt → Prop}

theorem compareValues_yields (hvalue : ∀ b, Q (.boolean b))
    (hkinds : l.kind ≠ r.kind → R (.located place (.incomparable l.kind r.kind)))
    (hunordered : l.kind.isOrdered = false → R (.located place (.unordered l.kind)))
    (hsignal : l.kind = r.kind → l.kind.isOrdered = true → l.order? r = none →
      R (.signal .invalid)) :
    Yields (op.compareValues place l r) Q R := by
  unfold compareValues
  split
  · next hne => exact hkinds hne
  · next heq =>
      split
      · next hun => exact hunordered (by simpa using hun)
      · next hord =>
          split
          · next hnone => exact hsignal (Decidable.not_not.mp heq) (by simpa using hord) hnone
          · exact hvalue _

theorem equalValues_yields {f : Bool → Value} (hvalue : ∀ b, Q (f b))
    (hsignal : l.equal? r = none → R (.signal .invalid)) :
    Yields ((equalValues l r).map f) Q R := by
  unfold equalValues
  split
  · next hnone => exact hsignal hnone
  · exact hvalue _

theorem onIntegers_yields {a b : Int} (hvalue : ∀ n, Q (.integer n))
    (hzero : R (.located place .divideByZero)) :
    Yields ((op.onIntegers a b).mapError (Halt.located place)) Q R := by
  unfold onIntegers
  split
  · exact hvalue _
  · exact hvalue _
  · exact hvalue _
  · split
    · exact hzero
    · exact hvalue _

/-- A quotient is found to every number of places, though not to every negative one. -/
theorem divideDecimals_yields {a b : Number} (hvalue : ∀ d, Q (.decimal (.finite d)))
    (hzero : R (.located place .divideByZero)) (hsignal : ∀ s, R (.signal s))
    (hquotient : ∀ limit, scale < 0 → R (.quotient limit)) :
    Yields (divideDecimals scale place a b) Q R := by
  unfold divideDecimals
  split
  · exact hsignal _
  · split
    · exact hzero
    · split
      · exact hsignal _
      · exact hsignal _
      · split
        · exact hvalue _
        · next limit hlimit =>
            refine hquotient limit (Int.not_le.mp fun hscale => ?_)
            rw [Decimal.div, if_pos hscale] at hlimit
            cases hlimit

theorem onDecimals_yields {a b : Number} (hvalue : ∀ x, Q (.decimal x))
    (hzero : R (.located place .divideByZero)) (hsignal : ∀ s, R (.signal s))
    (hquotient : ∀ limit, scale < 0 → R (.quotient limit)) :
    Yields (op.onDecimals scale place a b) Q R := by
  have hresult (x : Except Signal Number) :
      Yields ((x.map Value.decimal).mapError Halt.signal) Q R := by
    cases x with
    | ok x => exact hvalue x
    | error s => exact hsignal s
  unfold onDecimals
  split
  · exact hresult _
  · exact hresult _
  · exact hresult _
  · exact divideDecimals_yields (fun d => hvalue (.finite d)) hzero hsignal hquotient

theorem concatenate_yields (hvalue : ∀ s, Q (.string s)) (hdigits : R (.digits .writing)) :
    Yields (concatenate l r) Q R := by
  unfold concatenate
  split
  · exact hvalue _
  · exact hdigits

end Operator

namespace Value

variable {s : String} {Q : Value → Prop} {R : Halt → Prop}

theorem slice_yields {start stop : Value} (hvalue : ∀ t, Q (.string t))
    (hrange : ∀ a b, R (.error { cause := .sliceRange a b s.length }))
    (hbounds : (∀ a b, start = .integer a → stop = .integer b → False) →
      R (.error { cause := .sliceBounds start.kind stop.kind }))
    (hdigits : R (.digits .writing)) : Yields (slice s start stop) Q R := by
  unfold slice
  split
  · split
    · exact hvalue _
    · split
      · exact hrange _ _
      · exact hdigits
  · next hno => exact hbounds hno

theorem callString_yields {name : String} {args : List Value} (hstring : ∀ t, Q (.string t))
    (hinteger : ∀ n, Q (.integer n))
    (hrange : ∀ a b, R (.error { cause := .sliceRange a b s.length }))
    (hbounds : ∀ k k', R (.error { cause := .sliceBounds k k' }))
    (hmethod : ∀ f n, R (.error { cause := .noMethod .string f n }))
    (hdigits : R (.digits .writing)) : Yields (callString s name args) Q R := by
  unfold callString
  split
  · exact slice_yields hstring hrange (fun _ => hbounds _ _) hdigits
  · exact hinteger _
  · exact hmethod _ _

end Value

/-! ## Runs of an interpreter -/

/-- How a run of a program comes about: on a machine that cannot keep its limit nothing runs;
else the program runs, and its value becomes the exit code. -/
theorem Interpreter.run_start (m : Machine) (r : RunOutside) (p : Program Mark) (fuel : Nat) :
    ((Interpreter.start m r).run p fuel = (.error .depth, (Interpreter.start m r).reset) ∧
      Machine.depthBound < m.maxDepth) ∨
    (Interpreter.start m r).run p fuel = (Interpreter.start m r).reset.perform
      (Exec.program (Interpreter.start m r).machine fuel 0 p >>= Exec.exitCode) := by
  unfold Interpreter.run Interpreter.guarded
  split
  · exact .inr rfl
  · next h => exact .inl ⟨rfl, Int.not_le.mp h⟩

end QuillLang
