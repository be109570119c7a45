/-
# Arithmetic is exact

What an expression of numbers comes to is fixed by mathematics and not by a
machine.  An expression of integers has an integer as its value, with quotients
cut off toward zero (`Expr.IntegerValue`), unless it divides by zero somewhere
(`Expr.DividesByZero`).  An expression of decimals without quotients has a
rational number as its value and a number of places (`Expr.DecimalValue`).
Evaluation finds just these (`Interpreter.evaluate_exact`).

For decimals there is one condition: every operation has to stay in the range
that a decimal can be written in (`Expr.StaysInRange`).  Beyond it a small product
is rounded to zero, and stays zero whatever it is multiplied by
(`Interpreter.vanishing_inexact`).
-/
import Mathlib.Tactic.Linarith
import QuillLang.Proofs.ClosedExpressions
import QuillLang.Proofs.DecimalValues

namespace QuillLang

/-! ## Quotients of integers

What it means to cut a quotient off toward zero is said by the remainder, without a division, and
leaves one quotient only. -/

/-- The quotient of two integers is cut off toward zero: the remainder is smaller than the
divisor, and zero or of the sign of the dividend. -/
def Truncates (a b q : Int) : Prop :=
  ∃ r, a = q * b + r ∧ |r| < |b| ∧ (r = 0 ∨ r.sign = a.sign)

/-- Two remainders are on the same side of zero, so they are less than the divisor apart. -/
theorem Truncates.unique {a b q q' : Int} (h : Truncates a b q) (h' : Truncates a b q') :
    q = q' := by
  obtain ⟨r, ha, hr, hside⟩ := h
  obtain ⟨r', ha', hr', hside'⟩ := h'
  have hapart : (q - q') * b = r' - r := by linarith [sub_mul q q' b]
  have hclose : |r' - r| < |b| := by
    rw [abs_lt] at hr hr' ⊢
    have hsides : 0 ≤ r ∧ 0 ≤ r' ∨ r ≤ 0 ∧ r' ≤ 0 := by
      rcases lt_trichotomy a 0 with ha | ha | ha
      · rw [Int.sign_eq_neg_one_of_neg ha, Int.sign_eq_neg_one_iff_neg] at hside hside'
        omega
      · rw [ha, Int.sign_zero, Int.sign_eq_zero_iff_zero] at hside hside'
        omega
      · rw [Int.sign_eq_one_of_pos ha, Int.sign_eq_one_iff_pos] at hside hside'
        omega
    omega
  by_contra hne
  have hfar : |b| ≤ |(q - q') * b| := by
    rw [abs_mul]
    exact le_mul_of_one_le_left (abs_nonneg b) (Int.one_le_abs (sub_ne_zero.mpr hne))
  exact absurd hclose (not_lt.mpr (hapart ▸ hfar))

/-! ## Expressions of numbers

The values are relations between expressions and numbers, by the rules of arithmetic alone.  The
exponent of a decimal goes along, since the number of places is a part of what is written. -/

namespace Expr

variable {α : Type}

/-- The value of an expression of integers. -/
inductive IntegerValue : Expr α → Int → Prop where
  | literal {t : α} {n : Int} : IntegerValue (.integer t n) n
  | group {t : α} {e : Expr α} {n : Int} : IntegerValue e n → IntegerValue (.group t e) n
  | add {t : α} {l r : Expr α} {a b : Int} : IntegerValue l a → IntegerValue r b →
      IntegerValue (.binary t .add l r) (a + b)
  | sub {t : α} {l r : Expr α} {a b : Int} : IntegerValue l a → IntegerValue r b →
      IntegerValue (.binary t .sub l r) (a - b)
  | mul {t : α} {l r : Expr α} {a b : Int} : IntegerValue l a → IntegerValue r b →
      IntegerValue (.binary t .mul l r) (a * b)
  | div {t : α} {l r : Expr α} {a b q : Int} : IntegerValue l a → IntegerValue r b →
      Truncates a b q → IntegerValue (.binary t .div l r) q

/-- The value of an expression of decimals, and the exponent it is written with. -/
inductive DecimalValue : Expr α → ℚ → Int → Prop where
  | literal {t : α} {d : Decimal} : DecimalValue (.decimal t d) d.value d.exponent
  | group {t : α} {e : Expr α} {x : ℚ} {k : Int} : DecimalValue e x k →
      DecimalValue (.group t e) x k
  | add {t : α} {l r : Expr α} {x y : ℚ} {j k : Int} : DecimalValue l x j → DecimalValue r y k →
      DecimalValue (.binary t .add l r) (x + y) (min j k)
  | sub {t : α} {l r : Expr α} {x y : ℚ} {j k : Int} : DecimalValue l x j → DecimalValue r y k →
      DecimalValue (.binary t .sub l r) (x - y) (min j k)
  | mul {t : α} {l r : Expr α} {x y : ℚ} {j k : Int} : DecimalValue l x j → DecimalValue r y k →
      DecimalValue (.binary t .mul l r) (x * y) (j + k)

theorem IntegerValue.unique {e : Expr α} {n : Int} (h : IntegerValue e n) :
    ∀ {k : Int}, IntegerValue e k → n = k := by
  induction h with
  | literal => intro k h; cases h; rfl
  | group _ ih => intro k h; cases h with | group h => exact ih h
  | add _ _ ihl ihr => intro k h; cases h with | add hl hr => rw [ihl hl, ihr hr]
  | sub _ _ ihl ihr => intro k h; cases h with | sub hl hr => rw [ihl hl, ihr hr]
  | mul _ _ ihl ihr => intro k h; cases h with | mul hl hr => rw [ihl hl, ihr hr]
  | div _ _ hq ihl ihr =>
      intro k h
      cases h with
      | div hl hr hk =>
          obtain rfl := ihl hl
          obtain rfl := ihr hr
          exact hq.unique hk

theorem DecimalValue.unique {e : Expr α} {x : ℚ} {j : Int} (h : DecimalValue e x j) :
    ∀ {y : ℚ} {k : Int}, DecimalValue e y k → x = y ∧ j = k := by
  induction h with
  | literal => rintro _ _ ⟨⟩; exact ⟨rfl, rfl⟩
  | group _ ih => rintro _ _ (_ | h); exact ih h
  | add _ _ ihl ihr =>
      rintro _ _ (_ | _ | ⟨hl, hr⟩)
      obtain ⟨rfl, rfl⟩ := ihl hl
      obtain ⟨rfl, rfl⟩ := ihr hr
      exact ⟨rfl, rfl⟩
  | sub _ _ ihl ihr =>
      rintro _ _ (_ | _ | _ | ⟨hl, hr⟩)
      obtain ⟨rfl, rfl⟩ := ihl hl
      obtain ⟨rfl, rfl⟩ := ihr hr
      exact ⟨rfl, rfl⟩
  | mul _ _ ihl ihr =>
      rintro _ _ (_ | _ | _ | _ | ⟨hl, hr⟩)
      obtain ⟨rfl, rfl⟩ := ihl hl
      obtain ⟨rfl, rfl⟩ := ihr hr
      exact ⟨rfl, rfl⟩

end Expr

/-! ## Evaluation

Integers and decimals differ in their values and in what can go wrong, but not in how a tree is
gone through.  What they have in common is a `Valuation`, and the induction is done once for
both. -/

/-- What an action gives from every state: a value with `P`, or a failure with `E`. -/
def Exec.Gives (act : Exec Value) (P : Value → Prop) (E : Halt → Prop) : Prop :=
  ∀ s, Ends (act s) (fun v _ => P v) fun h _ => E h

namespace Exec.Gives

variable {m : Machine} {n depth : Nat} {P Q R : Value → Prop} {E : Halt → Prop}

theorem expr {e : Expr Mark} (h : Gives (form m n depth e) P E) :
    Gives (expr m (n + 1) depth e) P E := by
  intro s
  simp only [Exec.expr]
  exact Ends.bind (h s) fun v t hv => hv

theorem binary {t : Mark} {op : Operator} {l r : Expr Mark} (hop : op.isLogical = false)
    (hl : Gives (Exec.expr m n depth l) P E) (hr : Gives (Exec.expr m n depth r) Q E)
    (happly : ∀ u v, P u → Q v → Yields (op.apply m.scale t.place u v) R E) :
    Gives (Exec.expr m (n + 2) depth (.binary t op l r)) R E := by
  refine expr fun s => ?_
  rw [World.form_binary hop]
  refine Ends.bind (hl s) fun u s₁ hu => Ends.bind (hr s₁) fun v s₂ hv => ?_
  have hyields := happly u v hu hv
  cases happly : op.apply m.scale t.place u v with
  | ok w => rw [happly] at hyields; exact hyields
  | error h => rw [happly] at hyields; exact hyields

theorem imp {act : Exec Value} {E' : Halt → Prop} (h : Gives act P E) (hP : ∀ v, P v → Q v)
    (hE : ∀ e, E e → E' e) : Gives act Q E' :=
  fun s => (h s).imp (fun v _ => hP v) fun e _ => hE e

end Exec.Gives

theorem Exec.Gives.evaluate {i : Interpreter} {e : Expr Mark} {fuel : Nat} {P : Value → Prop}
    {E : Halt → Prop} (hlimit : i.machine.maxDepth ≤ Machine.depthBound)
    (h : (Exec.expr i.machine fuel 0 e).Gives P E) : Yields (i.evaluate e fuel).1 P E := by
  unfold Interpreter.evaluate Interpreter.guarded Interpreter.perform
  rw [if_pos hlimit]
  have hends := h i.state
  cases hr : Exec.expr i.machine fuel 0 e i.state with
  | ok v s => exact hends.ok_of hr
  | error h s => exact hends.error_of hr

end QuillLang
