/-
# Quotients are rounded to the nearest decimal

The quotient of two decimals is rarely a decimal, so it is rounded: to the
nearest number with a given count of places, and from half way between two of
them to the one with the even coefficient.  This rule is `Decimal.Rounds`.  It
leaves no choice (`Decimal.Rounds.unique`), and a quotient follows it
(`Decimal.div_rounds`).  That a quotient depends on the numbers alone, and that
its sign goes with the dividend's, are consequences of the rule and not of how
the quotient is computed.
-/
import Mathlib.Algebra.Order.Field.Basic
import Mathlib.Tactic.Linarith
import QuillLang.Decimal.Division
import QuillLang.Proofs.DecimalValues

namespace QuillLang

/-! ## Integers

A fraction is rounded by its remainder, which is compared with half of the denominator.  What comes
of this is said in terms of the distance. -/

/-- Rounding moves a fraction by half of its denominator at most, and by the half only to an
even number. -/
theorem roundHalfEven_mul (num : Int) {den : Nat} (hden : 0 < den) :
    ∃ step : Int, roundHalfEven num den * den = num + step ∧ 2 * |step| ≤ den ∧
      (2 * |step| = den → Even (roundHalfEven num den)) := by
  have hdivide : den * (num / den) + num % den = num := Int.mul_ediv_add_emod num den
  have hlower : 0 ≤ num % den := Int.emod_nonneg num (by omega)
  have hupper : num % den < den := Int.emod_lt_of_pos num (by omega)
  unfold roundHalfEven
  dsimp only
  generalize num / (den : Int) = q at hdivide ⊢
  generalize num % (den : Int) = r at hdivide hlower hupper ⊢
  have hdown : q * den = num + -r := by linarith [mul_comm q (den : Int)]
  have hup : (q + 1) * den = num + (den - r) := by linarith [add_mul q 1 (den : Int)]
  have hdownSize : |-r| = r := by rw [abs_neg, abs_of_nonneg hlower]
  have hupSize : |(den : Int) - r| = den - r := abs_of_nonneg (by omega)
  split
  · exact ⟨-r, hdown, by omega, fun h => by omega⟩
  · split
    · exact ⟨den - r, hup, by omega, fun h => by omega⟩
    · split
      · next heven => exact ⟨-r, hdown, by omega, fun _ => Int.even_iff.mpr heven⟩
      · exact ⟨den - r, hup, by omega, fun _ => Int.even_iff.mpr (by omega)⟩

theorem roundHalfEven_near (num : Int) {den : Nat} (hden : 0 < den) :
    |(roundHalfEven num den : ℚ) - num / den| ≤ 1 / 2 ∧
      (|(roundHalfEven num den : ℚ) - num / den| = 1 / 2 → Even (roundHalfEven num den)) := by
  obtain ⟨step, hstep, hsize, heven⟩ := roundHalfEven_mul num hden
  have hpos : (0 : ℚ) < den := Nat.cast_pos.mpr hden
  have hstep : (roundHalfEven num den : ℚ) * den = num + step := by exact_mod_cast hstep
  have hmoved : (roundHalfEven num den : ℚ) - num / den = step / den := by
    rw [eq_div_iff hpos.ne', sub_mul, div_mul_cancel₀ _ hpos.ne', hstep, add_sub_cancel_left]
  rw [hmoved, abs_div, abs_of_pos hpos]
  refine ⟨?_, fun htie => heven ?_⟩
  · have hsize : 2 * |(step : ℚ)| ≤ den := by exact_mod_cast hsize
    rw [div_le_iff₀ hpos]
    linarith
  · rw [div_eq_iff hpos.ne'] at htie
    have htie : 2 * |(step : ℚ)| = den := by linarith
    exact_mod_cast htie

namespace Decimal

/-! ## The rule

Everything is counted in units of the last place, where the rule says that an integer is at most
one half away, and even if it is just one half.  There is one such integer. -/

/-- A decimal is the one of `scale` places that a number is rounded to. -/
structure Rounds (scale : Int) (x : ℚ) (r : Decimal) : Prop where
  exponent : r.exponent = -scale
  /-- It is away from the number by half of its last place at most. -/
  near : |r.value - x| ≤ 1 / 2 * 10 ^ (-scale)
  /-- Half way between two decimals it is the even one. -/
  tie : |r.value - x| = 1 / 2 * 10 ^ (-scale) → Even r.coefficient
  /-- A zero is positive. -/
  zero : r.coefficient = 0 → r.negative = false

theorem even_signed (d : Decimal) : Even d.signed ↔ Even d.coefficient := by
  unfold signed
  split
  · rw [even_neg, Int.even_coe_nat]
  · exact Int.even_coe_nat _

/-- A decimal is known by its exponent and its signed coefficient, except for the sign of a
zero. -/
theorem eq_of_signed {a b : Decimal} (hexponent : a.exponent = b.exponent)
    (hsigned : a.signed = b.signed) (ha : a.coefficient = 0 → a.negative = false)
    (hb : b.coefficient = 0 → b.negative = false) : a = b := by
  obtain ⟨na, ca, ea⟩ := a
  obtain ⟨nb, cb, eb⟩ := b
  dsimp only [signed] at *
  subst hexponent
  cases na <;> cases nb <;> simp at * <;> omega

variable {scale : Int} {x : ℚ} {r r' : Decimal}

/-- The rule in units of the last place. -/
theorem Rounds.units (h : Rounds scale x r) :
    |(r.signed : ℚ) - x / 10 ^ (-scale)| ≤ 1 / 2 ∧
      (|(r.signed : ℚ) - x / 10 ^ (-scale)| = 1 / 2 → Even r.signed) := by
  have hpos := ten_zpow_pos (-scale)
  have hunits : |r.value - x| = |(r.signed : ℚ) - x / 10 ^ (-scale)| * 10 ^ (-scale) := by
    rw [value, h.exponent]
    nth_rewrite 3 [← abs_of_pos hpos]
    rw [← abs_mul, sub_mul, div_mul_cancel₀ _ hpos.ne']
  refine ⟨?_, fun htie => (even_signed r).mpr (h.tie ?_)⟩
  · exact le_of_mul_le_mul_right (hunits ▸ h.near) hpos
  · rw [hunits, htie]

/-- Of two decimals that one number is rounded to, none is below the other: they were neighbours
with the number half way between them, and so both were even. -/
theorem Rounds.signed_le (h : Rounds scale x r) (h' : Rounds scale x r') :
    r'.signed ≤ r.signed := by
  obtain ⟨hnear, htie⟩ := h.units
  obtain ⟨hnear', htie'⟩ := h'.units
  generalize x / 10 ^ (-scale) = y at *
  generalize r.signed = n at *
  generalize r'.signed = n' at *
  rw [abs_le] at hnear hnear'
  by_contra hlt
  have hstep : (n : ℚ) + 1 ≤ n' := by exact_mod_cast not_le.mp hlt
  have hnext : n' ≤ n + 1 := by
    have hnext : (n' : ℚ) ≤ n + 1 := by linarith
    exact_mod_cast hnext
  have hbelow : |(n : ℚ) - y| = 1 / 2 := (abs_eq (by norm_num)).mpr (.inr (by linarith))
  have habove : |(n' : ℚ) - y| = 1 / 2 := (abs_eq (by norm_num)).mpr (.inl (by linarith))
  have heven := Int.even_iff.mp (htie hbelow)
  have heven' := Int.even_iff.mp (htie' habove)
  omega

theorem Rounds.unique (h : Rounds scale x r) (h' : Rounds scale x r') : r = r' :=
  eq_of_signed (h.exponent.trans h'.exponent.symm)
    (le_antisymm (h'.signed_le h) (h.signed_le h')) h.zero h'.zero

/-- The rule in units of the last place decides. -/
theorem Rounds.ofUnits {n : Int} {y : ℚ} (hnear : |(n : ℚ) - y| ≤ 1 / 2)
    (htie : |(n : ℚ) - y| = 1 / 2 → Even n) :
    Rounds scale (y * 10 ^ (-scale)) (ofUnits n (-scale) false) := by
  have hpos := ten_zpow_pos (-scale)
  have hunits : |(Decimal.ofUnits n (-scale) false).value - y * 10 ^ (-scale)| =
      |(n : ℚ) - y| * 10 ^ (-scale) := by
    rw [value_ofUnits, ← sub_mul, abs_mul, abs_of_pos hpos]
  refine ⟨rfl, ?_, fun h => ?_, fun hzero => ?_⟩
  · rw [hunits]
    exact mul_le_mul_of_nonneg_right hnear hpos.le
  · rw [hunits, mul_left_inj' hpos.ne'] at h
    rw [← even_signed, signed_ofUnits]
    exact htie h
  · exact if_pos (Int.natAbs_eq_zero.mp hzero)

/-- The opposite number is rounded to the opposite. -/
theorem Rounds.neg (h : Rounds scale x r) :
    Rounds scale (-x) (Decimal.ofUnits (-r.signed) (-scale) false) := by
  obtain ⟨hnear, htie⟩ := h.units
  have hopposite : -x = -(x / 10 ^ (-scale)) * 10 ^ (-scale) := by
    rw [neg_mul, div_mul_cancel₀ _ (ten_zpow_pos (-scale)).ne']
  have hsize : |((-r.signed : Int) : ℚ) - -(x / 10 ^ (-scale))| =
      |(r.signed : ℚ) - x / 10 ^ (-scale)| := by
    rw [Int.cast_neg, neg_sub_neg, abs_sub_comm]
  rw [hopposite]
  refine .ofUnits (hsize ▸ hnear) fun h => ?_
  rw [even_neg]
  exact htie (hsize ▸ h)

/-! ## Quotients

Before it is rounded, a quotient is a fraction of whole numbers: both coefficients are brought to
the scale by a power of ten on one of the sides. -/

/-- A number with the sign of a quotient. -/
def withSign (negative : Bool) (y : ℚ) : ℚ := if negative then -y else y

theorem signed_cast (d : Decimal) : (d.signed : ℚ) = withSign d.negative d.coefficient := by
  unfold signed withSign
  split
  · rw [Int.cast_neg, Int.cast_natCast]
  · rw [Int.cast_natCast]

theorem withSign_div (p q : Bool) (y z : ℚ) :
    withSign p y / withSign q z = withSign (p != q) (y / z) := by
  cases p <;> cases q <;> simp [withSign, neg_div, div_neg]

theorem withSign_mul (p : Bool) (y z : ℚ) : withSign p y * z = withSign p (y * z) := by
  cases p <;> simp [withSign]

/-- A power of ten as a fraction of whole numbers. -/
theorem tenTo_div (e : Int) : (tenTo e.toNat : ℚ) / tenTo (-e).toNat = 10 ^ e := by
  rw [tenTo_cast, tenTo_cast, ← zpow_sub₀ (by norm_num)]
  congr 1
  omega

/-- The fraction that is rounded is the quotient in units of the last place. -/
theorem quotient_eq (a b : Decimal) (scale : Int) :
    a.value / b.value = withSign (a.negative != b.negative)
      ((a.quotient b scale).1 / (a.quotient b scale).2) * 10 ^ (-scale) := by
  unfold quotient
  dsimp only
  split
  · next hzero =>
      rw [(value_eq_zero_iff a).mpr (beq_iff_eq.mp hzero)]
      cases a.negative != b.negative <;> simp [withSign]
  · rw [value, value, mul_div_mul_comm, signed_cast, signed_cast, withSign_div, withSign_mul,
      withSign_mul, Nat.cast_mul, Nat.cast_mul, mul_div_mul_comm, tenTo_div, mul_assoc,
      ← ten_zpow_add, ← zpow_sub₀ (by norm_num)]
    congr 3
    omega

theorem quotient_pos (a : Decimal) {b : Decimal} (hb : b.coefficient ≠ 0) (scale : Int) :
    0 < (a.quotient b scale).2 := by
  unfold quotient
  dsimp only
  split
  · exact Nat.one_pos
  · exact Nat.mul_pos (Nat.pos_of_ne_zero hb) (Nat.pow_pos (by decide))

theorem ofSize_rounds (scale : Int) (negative : Bool) (num : Nat) {den : Nat} (hden : 0 < den) :
    Rounds scale (withSign negative (num / den) * 10 ^ (-scale))
      (ofSize scale negative (num, den)) := by
  obtain ⟨hnear, htie⟩ := roundHalfEven_near num hden
  rw [Int.cast_natCast] at hnear htie
  unfold ofSize withSign
  cases negative with
  | false => exact .ofUnits hnear htie
  | true =>
      have hopposite : Rounds scale _ _ := (Rounds.ofUnits hnear htie).neg
      rw [signed_ofUnits, ← neg_mul] at hopposite
      exact hopposite

/-- There is a quotient by every decimal but zero, and it is rounded. -/
theorem div_eq_ok (hscale : 0 ≤ scale) (a : Decimal) {b : Decimal} (hb : b.value ≠ 0) :
    ∃ r, div scale a b = .ok r ∧ Rounds scale (a.value / b.value) r := by
  have hb : b.coefficient ≠ 0 := (value_eq_zero_iff b).not.mp hb
  refine ⟨_, by rw [div, if_pos hscale], ?_⟩
  rw [quotient_eq a b scale]
  exact ofSize_rounds scale _ _ (quotient_pos a hb scale)

/-- A quotient by any decimal but zero is the number rounded to the places of the scale.  It is
the only decimal that the number can be rounded to, no other way to write the operands changes
it, and the opposite dividend has the opposite quotient. -/
theorem div_rounds (hscale : 0 ≤ scale) (a : Decimal) {b : Decimal} (hb : b.value ≠ 0) :
    ∃ r, div scale a b = .ok r ∧ Rounds scale (a.value / b.value) r ∧
      (∀ r', Rounds scale (a.value / b.value) r' → r' = r) ∧
      (∀ a' b' : Decimal, a'.value = a.value → b'.value = b.value → div scale a' b' = .ok r) ∧
      ∃ r', div scale a.neg b = .ok r' ∧ r'.value = -r.value := by
  obtain ⟨r, hr, hrounds⟩ := div_eq_ok hscale a hb
  refine ⟨r, hr, hrounds, fun r' h => h.unique hrounds, fun a' b' ha' hb' => ?_, ?_⟩
  · obtain ⟨r', hr', hrounds'⟩ := div_eq_ok hscale a' (hb' ▸ hb)
    rw [ha', hb'] at hrounds'
    rw [hr', hrounds'.unique hrounds]
  · obtain ⟨r', hr', hrounds'⟩ := div_eq_ok hscale a.neg hb
    rw [value_neg, neg_div] at hrounds'
    refine ⟨r', hr', ?_⟩
    rw [hrounds'.unique hrounds.neg, value_ofUnits, value, hrounds.exponent, Int.cast_neg, neg_mul]

/-- Minus one eighth with two places: half way, and rounded to the even neighbour. -/
theorem minus_eighth_rounds :
    div 2 ⟨true, 10, -1⟩ ⟨false, 800, -2⟩ = .ok ⟨true, 12, -2⟩ ∧
    Rounds 2 (value ⟨true, 10, -1⟩ / value ⟨false, 800, -2⟩) ⟨true, 12, -2⟩ := by
  have hdiv : div 2 ⟨true, 10, -1⟩ ⟨false, 800, -2⟩ = .ok ⟨true, 12, -2⟩ := by decide +kernel
  have hnonzero : value ⟨false, 800, -2⟩ ≠ 0 := (value_eq_zero_iff _).not.mpr (by decide)
  have hscale : (0 : Int) ≤ 2 := by decide
  obtain ⟨r, hr, hrounds, -⟩ := div_rounds hscale ⟨true, 10, -1⟩ hnonzero
  rw [hdiv] at hr
  cases hr
  exact ⟨hdiv, hrounds⟩

end Decimal

end QuillLang
