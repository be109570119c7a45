/-
# Numbers are read back as themselves

The text of a number is a single token, and the literal read from it is the
number: an integer as long as it is not too long to be written, and a decimal
with the same sign, coefficient and exponent, if there are digits after the
point (`Value.Simple.readsBack`).

Every number that comes up in a program on its own is such, since the literals
of a text have digits after the point (`Source.program_placed`) and the
rules keep values simple: all that programs and expressions compute and keep,
run one after the other, is read back as itself
(`Interpreter.Explored.numbers_read_back`).
-/
import QuillLang.Proofs.SimpleValues
import QuillLang.Proofs.WrittenPhrases

namespace QuillLang

/-! ## Texts of numbers

The text of a number is a lexeme, and reading a lexeme gives the digits back.  Only the length of
an integer can be in the way. -/

/-- The text of a value is one token of some kind, in any file, and is read as a literal. -/
def Value.ReadsAs (v : Value) (kind : TokenKind) (literal : Place → Expr Place) : Prop :=
  ∃ text, v.text? = some text ∧ ∀ file, ∃ t : Token, tokenize text file = .ok [t] ∧
    t.kind = kind ∧ parseExpression [t] = .ok (literal (some t.location), [])

/-- If a value is a number, it is read back as itself: a decimal has digits after the point and is
the literal of its text, and so is an integer that is not too long. -/
def Value.ReadsBack : Value → Prop
  | .decimal x => ∃ d, x = .finite d ∧ d.exponent ≤ -1 ∧
      (Value.decimal x).ReadsAs .decimal fun p => .decimal p d
  | .integer n => (Nat.repr n.natAbs).length ≤ maxDigits →
      (Value.integer n).ReadsAs .integer fun p => .integer p n
  | _ => True

/-- A literal alone is an expression. -/
theorem parseExpression_literal {t : Token} {e : Expr Place}
    (h : Parse.literal? t = some (.ok e)) : parseExpression [t] = .ok (e, []) := by
  have hprimary (n : Nat) : Parse.primary (n + 1) [t] = .ok (e, []) := by
    simp only [Parse.primary, h]
  have hmembers (n : Nat) : Parse.members (n + 1) e [] = .ok (e, []) := rfl
  have hoperations (n : Nat) (lv : Parse.Level) : Parse.operations (n + 1) lv e [] = .ok (e, []) :=
    rfl
  show Parse.expression (22 + 10) [t] = _
  simp only [Parse.expression, Parse.level, Parse.operand, Parse.Level.tighter?, Parse.secondary,
    hprimary, hmembers, hoperations, bind, Except.bind]

/-- A word alone is a token. -/
theorem Word.tokenize_single {w : Word} (hw : w.Lexical) (file : Option String) :
    ∃ t : Token, tokenize w.text file = .ok [t] ∧ t.word = w := by
  have hws : ∀ v ∈ [w], v.Lexical := List.forall_mem_singleton.mpr hw
  obtain ⟨ts, hts, hwords⟩ := tokenize_spaced hws file
  obtain ⟨t, rest, rfl, ht, hrest⟩ := List.map_eq_cons_iff.mp hwords
  obtain rfl := List.map_eq_nil_iff.mp hrest
  exact ⟨t, hts, ht⟩

theorem Value.readsBack_decimal {d : Decimal} (hd : d.exponent ≤ -1) :
    (Value.decimal (.finite d)).ReadsBack := by
  refine ⟨d, rfl, hd, d.plain, rfl, fun file => ?_⟩
  obtain ⟨hlexeme, hread⟩ := Decimal.plain_readable hd
  obtain ⟨t, ht, hword⟩ := Word.tokenize_single (w := ⟨.decimal, d.plain⟩) hlexeme file
  obtain ⟨hkind, hlexeme⟩ := Word.mk.inj hword
  refine ⟨t, ht, hkind, parseExpression_literal ?_⟩
  simp [Parse.literal?, Token.is, hkind, hlexeme, hread]

theorem Value.readsBack_integer (n : Int) : (Value.integer n).ReadsBack := by
  intro hn
  refine ⟨Numeral.text n, if_pos hn, fun file => ?_⟩
  obtain ⟨t, ht, hword⟩ :=
    Word.tokenize_single (w := ⟨.integer, Numeral.text n⟩) (Numeral.lexeme_text n) file
  obtain ⟨hkind, hlexeme⟩ := Word.mk.inj hword
  have hread : Numeral.read t.lexeme.toList = .ok n := by
    rw [hlexeme, Numeral.read_of_le ((Word.readable_integer hn).digits rfl),
      Numeral.signed_sign_text]
  refine ⟨t, ht, hkind, parseExpression_literal ?_⟩
  simp [Parse.literal?, Token.is, hkind, hread]
  rfl

theorem Value.Simple.readsBack {v : Value} (hv : v.Simple (-1)) : v.ReadsBack := by
  cases v with
  | decimal x =>
      cases x with
      | finite d => exact readsBack_decimal hv
      | _ => exact hv.elim
  | integer n => exact readsBack_integer n
  | _ => trivial

/-! ## Programs and expressions one after the other

An interpreter is used again and again, and keeps the variables of earlier programs.  So the values
are followed through any row of runs, with what was recorded on the way. -/

/-- The values that have come up in a run: those of expressions and of variables at each recorded
point, and those that variables have now. -/
inductive State.Produced (s : State) : Value → Prop where
  | computed {q : Moment} {node : Nat} {v : Value} : q ∈ s.trace → q.event = .value node v →
      s.Produced v
  | written {q : Moment} {x : Variable} {v : Value} : q ∈ s.trace → q.event = .write x v →
      s.Produced v
  | held {q : Moment} {c : Cell} : q ∈ s.trace → c ∈ q.live → s.Produced c.value
  | kept {c : Cell} : c ∈ s.live → s.Produced c.value

theorem State.Simple.produced {top : Int} {s : State} (hs : s.Simple top) {v : Value}
    (h : s.Produced v) : v.Simple top := by
  cases h with
  | computed hq hv | written hq hv =>
      have hevent := (hs.trace _ hq).event
      rw [hv] at hevent
      exact hevent
  | held hq hc => exact (hs.trace _ hq).live _ hc
  | kept hc => exact hs.live _ hc

namespace Interpreter

/-- An interpreter without surroundings that has run programs and evaluated expressions, each read
from a text and numbered from anywhere. -/
inductive Explored (m : Machine) : Interpreter → Prop where
  | start : Explored m (start m {})
  | run {i : Interpreter} {s : Source} {p : Program Place} (n fuel : Nat) : Explored m i →
      s.program = .ok p → Explored m (i.run (p.mark n).1 fuel).2
  | evaluate {i : Interpreter} {s : Source} {e : Expr Place} {rest : List Token} (n fuel : Nat) :
      Explored m i → s.expression = .ok (e, rest) → Explored m (i.evaluate (e.mark n).1 fuel).2

theorem Explored.simple {m : Machine} (hscale : 1 ≤ m.scale) {i : Interpreter}
    (hi : Explored m i) : i.Simple (-1) := by
  induction hi with
  | start => exact .start ⟨le_rfl, neg_le_neg hscale, by decide⟩
  | run n fuel _ hp ih => exact (ih.run (Source.program_placed hp n) fuel).1
  | evaluate n fuel _ he ih => exact (ih.evaluate (Source.expression_placed he n) fuel).1

/-- However programs and expressions are run one after the other without surroundings, on a
machine whose quotients have digits after the point: each number that comes up on the way, and
each number that an expression comes to, is read back from its text as itself. -/
theorem Explored.numbers_read_back {m : Machine} (hscale : 1 ≤ m.scale) {i : Interpreter}
    (hi : Explored m i) :
    (∀ v, i.state.Produced v → v.ReadsBack) ∧
    ∀ (s : Source) (e : Expr Place) (rest : List Token), s.expression = .ok (e, rest) →
      ∀ n fuel v, (i.evaluate (e.mark n).1 fuel).1 = .ok v → v.ReadsBack := by
  have hsimple := hi.simple hscale
  refine ⟨fun v hv => (hsimple.state.produced hv).readsBack, ?_⟩
  intro s e rest he n fuel v hv
  have hvalue := (hsimple.evaluate (Source.expression_placed he n) fuel).2
  rw [hv] at hvalue
  exact Value.Simple.readsBack hvalue

end Interpreter

/-- A program whose numbers are rounded, cancel out and come to a zero below zero. -/
def Source.fractions : Source :=
  { text := "LET z = -0.0 * 0.5; LET q = 1.0 / 3.0; " ++
      "DEF half(x: Decimal): Decimal DO RETURN x / 2.0; END " ++
      "DEF main(): Integer DO q = half(q) - 0.16; RETURN 0 - 7; END" }

/-- An expression that is rounded to the even neighbour. -/
def Source.eighth : Source := { text := "1.0 / -8.0 + z" }

/-- Whether a value is a given decimal. -/
def Value.isDecimal (d : Decimal) : Value → Bool
  | .decimal x => x = .finite d
  | _ => false

theorem Value.eq_of_isDecimal {d : Decimal} {v : Value} (h : v.isDecimal d = true) :
    v = .decimal (.finite d) := by
  cases v with
  | decimal x => exact congrArg Value.decimal (of_decide_eq_true h)
  | _ => cases h

/-- The interpreter after the program, which records what it does and has quotients of two
places. -/
def Interpreter.afterFractions (p : Program Place) : Interpreter :=
  ((start { scale := 2, tracing := true } {}).run (p.mark 0).1 100).2

theorem Interpreter.fractions_read_back : ∃ p e rest, Source.fractions.program = .ok p ∧
    Source.eighth.expression = .ok (e, rest) ∧
    1 ≤ ({ scale := 2, tracing := true } : Machine).scale ∧
    Explored { scale := 2, tracing := true } (afterFractions p) ∧
    (afterFractions p).state.Produced (.decimal (.finite ⟨true, 0, -2⟩)) ∧
    (Value.decimal (.finite ⟨true, 0, -2⟩)).ReadsBack ∧
    ((afterFractions p).evaluate (e.mark 0).1 100).1 = .ok (.decimal (.finite ⟨true, 12, -2⟩)) ∧
    (Value.decimal (.finite ⟨true, 12, -2⟩)).ReadsBack := by
  have hall : (Source.fractions.program.bind fun p => Source.eighth.expression.map fun e =>
      ((afterFractions p).state.trace.any fun q => match q.event with
        | .value _ v => v.isDecimal ⟨true, 0, -2⟩
        | _ => false) &&
      ((afterFractions p).evaluate (e.1.mark 0).1 100).1.toOption.any
        (Value.isDecimal ⟨true, 12, -2⟩)).toOption = some true := by
    decide +kernel
  obtain ⟨p, hp⟩ : ∃ p, Source.fractions.program = .ok p := by
    cases hp : Source.fractions.program with
    | error f => rw [hp] at hall; cases hall
    | ok p => exact ⟨p, rfl⟩
  rw [hp] at hall
  obtain ⟨e, he⟩ : ∃ e, Source.eighth.expression = .ok e := by
    cases he : Source.eighth.expression with
    | error f => rw [he] at hall; cases hall
    | ok e => exact ⟨e, rfl⟩
  rw [he] at hall
  obtain ⟨htrace, hvalue⟩ := Bool.and_eq_true_iff.mp (Option.some.inj hall)
  have hexplored : Explored { scale := 2, tracing := true } (afterFractions p) :=
    .run 0 100 .start hp
  have hproduced : (afterFractions p).state.Produced (.decimal (.finite ⟨true, 0, -2⟩)) := by
    obtain ⟨q, hq, hv⟩ := List.any_eq_true.mp htrace
    split at hv
    · next node v hevent => exact .computed hq (Value.eq_of_isDecimal hv ▸ hevent)
    · cases hv
  have hresult : ((afterFractions p).evaluate (e.1.mark 0).1 100).1 =
      .ok (.decimal (.finite ⟨true, 12, -2⟩)) := by
    cases hr : ((afterFractions p).evaluate (e.1.mark 0).1 100).1 with
    | error h => rw [hr] at hvalue; cases hvalue
    | ok v =>
        rw [hr] at hvalue
        exact congrArg Except.ok (Value.eq_of_isDecimal hvalue)
  have hreads := Explored.numbers_read_back (by decide) hexplored
  exact ⟨p, e.1, e.2, hp, he, by decide, hexplored, hproduced, hreads.1 _ hproduced, hresult,
    hreads.2 _ e.1 e.2 he 0 100 _ hresult⟩

end QuillLang
