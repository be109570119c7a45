/-
# Numbers as text

A number is written with its sign and its digits, and read back from them.
What is written is a lexeme, so a number in a text is one token: an integer
with all its digits, and a decimal with a negative exponent, with the point
before as many digits as the exponent says.
-/
import QuillLang.Decimal.Text
import QuillLang.Proofs.Lexemes

namespace QuillLang

/-! ## Rows of digits

Reading is a fold over the digits, and what is written are the digits of the number.  The number of
digits matters too, since it is limited. -/

theorem digits_toDigits (n : Nat) : Digits (Nat.toDigits 10 n) :=
  ⟨Nat.toDigits_ne_nil, fun _ hd => Nat.isDigit_of_mem_toDigits (by decide) (by decide) hd⟩

namespace Numeral

theorem ofDigits_toDigits (n : Nat) : ofDigits (Nat.toDigits 10 n) = n :=
  Nat.ofDigitChars_toDigits (by decide) (by decide)

/-- Zeros in front change nothing. -/
theorem ofDigits_zeros (k : Nat) (ds : List Char) :
    ofDigits (List.replicate k '0' ++ ds) = ofDigits ds := by
  induction k with
  | zero => rfl
  | succ k ih => exact ih

theorem digit_lt {c : Char} (hc : c.isDigit = true) : digit c < 10 := by
  have hc := toNat_of_isDigit hc
  show c.toNat - 48 < 10
  omega

theorem foldl_digit_lt {ds : List Char} (h : ∀ d ∈ ds, d.isDigit = true) (n : Nat) :
    ds.foldl (fun n c => 10 * n + digit c) n < (n + 1) * tenTo ds.length := by
  induction ds generalizing n with
  | nil => simp [tenTo]
  | cons d ds ih =>
      obtain ⟨hd, hds⟩ := List.forall_mem_cons.mp h
      have hd := digit_lt hd
      calc ds.foldl (fun n c => 10 * n + digit c) (10 * n + digit d)
          < (10 * n + digit d + 1) * tenTo ds.length := ih hds _
        _ ≤ ((n + 1) * 10) * tenTo ds.length := Nat.mul_le_mul_right _ (by omega)
        _ = (n + 1) * tenTo (d :: ds).length := by
          rw [Nat.mul_assoc, Nat.mul_comm 10]
          rfl

/-- A number has no more digits than it was read from. -/
theorem length_repr_ofDigits {ds : List Char} (h : Digits ds) :
    (Nat.repr (ofDigits ds)).length ≤ ds.length := by
  rw [Nat.length_repr_le_iff (List.length_pos_iff.mpr h.1)]
  have hlt := foldl_digit_lt h.2 0
  rwa [Nat.zero_add, Nat.one_mul] at hlt

/-! ## Integers -/

/-- A sign is split off a number. -/
theorem sign_append {s ds : List Char} (hs : SignText s) (hds : Digits ds) (rest : List Char) :
    sign (s ++ ds ++ rest) = (decide (s = ['-']), ds ++ rest) := by
  rcases hs with rfl | ⟨c, hc, rfl⟩
  · obtain ⟨d, ds, rfl⟩ := List.exists_cons_of_ne_nil hds.1
    have hd := hds.2 d List.mem_cons_self
    unfold sign
    split
    · next heq => cases heq; cases hd
    · next heq => cases heq; cases hd
    · rfl
  · have hc : c = '+' ∨ c = '-' := by simpa [isSign] using hc
    rcases hc with rfl | rfl <;> rfl

theorem natAbs_signed (negative : Bool) (n : Nat) : (signed negative n).natAbs = n := by
  cases negative <;> simp [signed]

theorem signed_natAbs (n : Int) : signed (decide (n < 0)) n.natAbs = n := by
  unfold signed
  split
  · next h =>
      have h := of_decide_eq_true h
      omega
  · next h =>
      have h : ¬ n < 0 := by simpa using h
      omega

theorem toList_text (n : Int) :
    (text n).toList = (if n < 0 then ['-'] else []) ++ Nat.toDigits 10 n.natAbs := by
  unfold text
  split <;> simp [Nat.toList_repr]

theorem lexeme_text (n : Int) : Lexeme .integer (text n).toList := by
  rw [toList_text]
  exact .integer (.minus _) (digits_toDigits _)

theorem sign_text (n : Int) :
    sign (text n).toList = (decide (n < 0), Nat.toDigits 10 n.natAbs) := by
  have h := sign_append (.minus (n < 0)) (digits_toDigits n.natAbs) []
  simp only [List.append_nil] at h
  rw [toList_text, h]
  split <;> simp_all

/-- An integer is what its text stands for. -/
theorem signed_sign_text (n : Int) :
    signed (sign (text n).toList).1 (ofDigits (sign (text n).toList).2) = n := by
  rw [sign_text]
  show signed (decide (n < 0)) (ofDigits (Nat.toDigits 10 n.natAbs)) = n
  rw [ofDigits_toDigits, signed_natAbs]

end Numeral

/-! ## Decimals

The point is put in by the exponent, with zeros in front where there are not enough digits.
Without a place after the point there would be no point in the text, and no decimal to read. -/

namespace Decimal

open Numeral

/-- A decimal has as many places as there are digits after the point. -/
theorem read?_lexeme {s ds fs : List Char} (hs : SignText s) (hds : Digits ds) (hfs : Digits fs) :
    read? (s ++ ds ++ '.' :: fs) =
      some ⟨decide (s = ['-']), ofDigits (ds ++ fs), -(fs.length : Int)⟩ := by
  obtain ⟨htake, hdrop⟩ := @span_eq _ ds ('.' :: fs) hds.2 (by rintro _ ⟨⟩; rfl)
  obtain ⟨htake', hdrop'⟩ := @span_eq _ fs [] hfs.2 nofun
  rw [List.append_nil] at htake' hdrop'
  have hempty : (ds.isEmpty && fs.isEmpty) = false := by simp [hds.1]
  simp only [read?, sign_append hs hds, htake, hdrop, readFraction, htake', hdrop', hempty,
    readExponent?, Option.map_some]
  simp

/-- With a point in it a row of digits falls into two, and stands for the same number. -/
theorem withPoint_eq {ds : List Char} (hds : Digits ds) {places : Nat} (hplaces : 0 < places) :
    ∃ whole fs, withPoint ds places = whole ++ '.' :: fs ∧ Digits whole ∧ Digits fs ∧
      fs.length = places ∧ ofDigits (whole ++ fs) = ofDigits ds := by
  let padded := List.replicate (places + 1 - ds.length) '0' ++ ds
  have hlength : places + 1 ≤ padded.length := by
    simp only [padded, List.length_append, List.length_replicate]
    omega
  have hdigits : ∀ d ∈ padded, d.isDigit = true := by
    intro d hd
    rcases List.mem_append.mp hd with hd | hd
    · rw [List.eq_of_mem_replicate hd]
      rfl
    · exact hds.2 d hd
  refine ⟨padded.take (padded.length - places), padded.drop (padded.length - places), rfl,
    ⟨?_, fun d hd => hdigits d (List.mem_of_mem_take hd)⟩,
    ⟨?_, fun d hd => hdigits d (List.mem_of_mem_drop hd)⟩, ?_, ?_⟩
  · refine List.ne_nil_of_length_pos ?_
    rw [List.length_take]
    omega
  · refine List.ne_nil_of_length_pos ?_
    rw [List.length_drop]
    omega
  · rw [List.length_drop]
    omega
  · rw [List.take_append_drop]
    exact ofDigits_zeros ..

/-- A decimal with places after the point is written as a lexeme, and read back as itself. -/
theorem plain_readable {d : Decimal} (hd : d.exponent ≤ -1) :
    Lexeme .decimal d.plain.toList ∧ read? d.plain.toList = some d := by
  obtain ⟨whole, fs, hpoint, hwhole, hfs, hlength, hvalue⟩ :=
    withPoint_eq (digits_toDigits d.coefficient) (show 0 < (-d.exponent).toNat by omega)
  have hplain : d.plain.toList = d.signText ++ whole ++ '.' :: fs := by
    have hneg : ¬ 0 < d.exponent := by omega
    have hzero : ¬ d.exponent = 0 := by omega
    rw [plain, String.toList_ofList, if_neg hneg, positional, if_neg hzero, hpoint,
      List.append_assoc]
  have hsign : SignText d.signText := .minus _
  rw [hplain]
  refine ⟨.decimal hsign hwhole hfs, ?_⟩
  rw [read?_lexeme hsign hwhole hfs, hvalue, hlength, ofDigits_toDigits]
  obtain ⟨negative, coefficient, exponent⟩ := d
  have hexponent : -((-exponent).toNat : Int) = exponent := by
    have hd : exponent ≤ -1 := hd
    omega
  rw [hexponent]
  cases negative <;> rfl

end Decimal

end QuillLang
