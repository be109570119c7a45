/-
# Programs and their derivations

Tokens are read as a program if and only if the grammar derives them, the
derivation is the only one, and the program is its tree.  All other tokens are
refused with an error in the order of tokens; fuel and look-ahead never give
out.
-/
import QuillLang.Proofs.Outcome
import QuillLang.Proofs.Parsing

namespace QuillLang

open Grammar

/-! ## Outcomes

All that can come of reading tokens, in terms of the grammar: a tree, a symbol that fails, or
tokens left behind a complete program.  What cannot come is left out. -/

/-- Why tokens are no program: some symbol fails, or a program ends before the tokens do. -/
inductive Misses (ts : List Token) (e : ParseError) : Prop where
  | fails : Fails (.rule .source) ts e.stop → Misses ts e
  | overrun (d : Derivation (.rule .source)) (t : Token) (after : List Token) :
      ts = d.yield ++ t :: after → d.Closed (t :: after) → d.Proper →
      e.rest = t :: after → e.stop = .stuck e.rest → Misses ts e

/-- What the grammar says about the outcome of reading a program. -/
def Explains (ts : List Token) : Except ParseFailure (Program Place) → Prop
  | .ok p => ∃ d : Derivation (.rule .source), d.yield = ts ∧ d.Proper ∧ d.value = p
  | .error (.unexpected e) => Misses ts e
  | .error (.digits limit) => ∃ t ∈ ts, t.Overlong limit
  | .error _ => False

theorem parseProgram_outcome {ts : List Token} (hts : Plain ts) :
    Explains ts (parseProgram ts) := by
  have heq : parseProgram ts =
      (Parse.fields (Parse.fuelFor ts) ts >>= fun x =>
        Parse.methods (Parse.fuelFor ts) x.2 >>= fun y => .ok ((x.1, y.1), y.2)) >>= fun x =>
          if x.2.isEmpty then .ok ⟨placeOf ts, x.1.1, x.1.2⟩
          else if Parse.at? "LET" x.2 then .error (.unexpected ⟨.fieldAfterMethod, x.2⟩)
          else .error (.unexpected ⟨.declarationOrEnd, x.2⟩) := by
    simp only [bind_assoc]
    rfl
  have hparts := Reads.parts (Parse.fuelFor ts) ts hts
  rw [heq]
  revert hparts
  generalize (Parse.fields (Parse.fuelFor ts) ts >>= fun x =>
    Parse.methods (Parse.fuelFor ts) x.2 >>= fun y =>
      (.ok ((x.1, y.1), y.2) : Except ParseFailure _)) = r
  intro hparts
  match r, hparts with
  | .ok (v, []), ⟨d, hy, _, hp, hv⟩ =>
      have hy : d.yield = ts := by rw [hy, List.append_nil]
      refine ⟨.rule d, hy, ⟨hp, rfl⟩, ?_⟩
      subst hv
      show (⟨placeOf d.yield, d.value.1, d.value.2⟩ : Program Place) = _
      rw [hy]
  | .ok (v, t :: rest), ⟨d, hy, hc, hp, _⟩ =>
      show Explains ts (if Parse.at? "LET" (t :: rest) then _ else _)
      split <;> exact .overrun (.rule d) t rest hy hc ⟨hp, rfl⟩ rfl rfl
  | .error (.unexpected e), hf => exact .fails (.rule hf)
  | .error .outOfFuel, hshort =>
      have hshort : Parse.fuelFor ts < 16 * ts.length + 1 := hshort
      unfold Parse.fuelFor at hshort
      omega
  | .error (.digits _), h => exact h
  | .error .noToken, h => exact h

theorem parseProgram_explained {ts : List Token} (hts : Legible ts) :
    Explains ts (parseProgram ts) := parseProgram_outcome hts.plain

theorem Misses.not_derivable {ts : List Token} {e : ParseError} (h : Misses ts e) :
    ¬ Derivable ts := by
  rintro ⟨d, hd, hp⟩
  cases h with
  | fails hf =>
      refine hf.not_derived rfl d d.source_closed hp ?_
      rw [hd, List.append_nil]
  | overrun d' t after hy hc _ _ _ =>
      -- the grammar derives a part of the tokens, so it cannot derive all of them
      have hyield : d'.yield ++ t :: after = d.yield ++ [] := by
        rw [hd, List.append_nil, hy]
      cases (Derivation.closed_unique rfl d' d hc d.source_closed hyield).2

/-- Whether the grammar derives tokens, by the outcome of reading them. -/
def DecidesGrammar (ts : List Token) : Except ParseFailure (Program Place) → Prop
  | .ok p => ∃ d : Derivation (.rule .source), d.yield = ts ∧ d.Proper ∧ d.value = p
  | .error (.unexpected _) => ¬ Derivable ts
  | .error _ => False

theorem parseProgram_decides {ts : List Token} (hts : Legible ts) :
    DecidesGrammar ts (parseProgram ts) := by
  have hexplained := parseProgram_explained hts
  generalize parseProgram ts = r at hexplained ⊢
  match r, hexplained with
  | .ok p, h => exact h
  | .error (.unexpected e), h => exact h.not_derivable
  | .error (.digits limit), h =>
      obtain ⟨t, ht, hover⟩ := h
      exact hts.not_overlong ht hover

/-! ## Tokens of a text

The tokens of a text meet what reading asks for, but for the lengths of integers, which are a
condition on the text. -/

theorem tokenize_plain {source : String} {file : Option String} {ts : List Token}
    (h : tokenize source file = .ok ts) : Plain ts :=
  fun _ ht => (tokenize_lexical h ht).beginsLikeName

theorem tokenize_legible {source : String} {file : Option String} {ts : List Token}
    (h : tokenize source file = .ok ts)
    (hdigits : ∀ t ∈ ts, t.kind = .integer →
      (Numeral.sign t.lexeme.toList).2.length ≤ maxDigits) : Legible ts :=
  fun t ht => ⟨tokenize_plain h t ht, hdigits t ht⟩

/-- Where no integer has too many digits, the tokens of a text are read as a program if and only
if the grammar derives them; the program is then the tree of the only derivation. -/
theorem parseProgram_follows_grammar {source : String} {file : Option String} {ts : List Token}
    (hts : tokenize source file = .ok ts)
    (hdigits : ∀ t ∈ ts, t.kind = .integer →
      (Numeral.sign t.lexeme.toList).2.length ≤ maxDigits) :
    ((∃ p, parseProgram ts = .ok p) ↔ Derivable ts) ∧
    (∀ p, parseProgram ts = .ok p →
      ∃ d : Derivation (.rule .source), d.yield = ts ∧ d.Proper ∧ d.value = p ∧
        ∀ e : Derivation (.rule .source), e.yield = ts → e = d) ∧
    (¬ Derivable ts → ∃ e, parseProgram ts = .error (.unexpected e)) := by
  have hdecides := parseProgram_decides (tokenize_legible hts hdigits)
  generalize parseProgram ts = r at hdecides ⊢
  match r, hdecides with
  | .ok p, ⟨d, hy, hp, hv⟩ =>
      refine ⟨⟨fun _ => ⟨d, hy, hp⟩, fun _ => ⟨p, rfl⟩⟩, ?_, fun h => absurd ⟨d, hy, hp⟩ h⟩
      rintro _ ⟨⟩
      exact ⟨d, hy, hp, hv, fun e he => Derivation.source_unique e d (he.trans hy.symm)⟩
  | .error (.unexpected e), hnot =>
      refine ⟨⟨?_, fun h => absurd h hnot⟩, ?_, fun _ => ⟨e, rfl⟩⟩
      · rintro ⟨_, ⟨⟩⟩
      · rintro _ ⟨⟩

/-- A text with most of the phrases of the grammar in it. -/
def windingText : String :=
  "LET a: Integer = -1; DEF f(x, y: Decimal): Any DO " ++
    "IF (x + 1 - 2) * 3 > y.g(3, z).h AND TRUE DO RETURN x; ELSE x = NIL; END " ++
    "FOR i IN x DO i; END WHILE f() DO LET q; END END"

theorem windingText_derivation : ∃ ts p, tokenize windingText none = .ok ts ∧
    (∀ t ∈ ts, t.kind = .integer → (Numeral.sign t.lexeme.toList).2.length ≤ maxDigits) ∧
    parseProgram ts = .ok p ∧
    ∃ d : Derivation (.rule .source), d.yield = ts ∧ d.Proper ∧ d.value = p ∧
      ∀ e : Derivation (.rule .source), e.yield = ts → e = d := by
  have hread : (tokenize windingText none).toOption.any (fun ts =>
      ts.all (fun t => decide (t.kind = .integer →
        (Numeral.sign t.lexeme.toList).2.length ≤ maxDigits)) &&
      (parseProgram ts).toOption.isSome) = true := by
    decide +kernel
  cases hts : tokenize windingText none with
  | error e => rw [hts] at hread; cases hread
  | ok ts =>
      rw [hts] at hread
      obtain ⟨hdigits, hsome⟩ := Bool.and_eq_true_iff.mp hread
      have hdigits : ∀ t ∈ ts, t.kind = .integer →
          (Numeral.sign t.lexeme.toList).2.length ≤ maxDigits :=
        fun t ht => of_decide_eq_true (List.all_eq_true.mp hdigits t ht)
      obtain ⟨p, hp⟩ := exists_ok_of_isSome hsome
      exact ⟨ts, p, rfl, hdigits, hp, (parseProgram_follows_grammar hts hdigits).2.1 p hp⟩

end QuillLang
