/-
# Reading trees comes to an end

A reading ends with a result or with an error in the order of tokens.  Three
things could come in between, and for the tokens of a text whose integers are
not too long none of them does (`reading_progress`).

The fuel could run out.  What it is needed for is bounded by the number of
tokens, since every call that goes on without having taken a token leads to one
that takes some.  More fuel than that changes nothing: a reading that ends with
some fuel ends in the same way with more (`Settles`), so the outcome is that of
the reading without a bound.

A token could be asked for where none is left.  This ends a reading in a way of
its own, which no later step takes back; so if the whole reading does not end in
it, no part of it does.

A reading could go on forever without taking tokens, or take more than there
are.  Expressions and statements take at least one, and what they take and what
they leave make up what they were given (`Advances`).
-/
import QuillLang.Proofs.ParsedPrograms

namespace QuillLang

open Grammar

/-! ## More fuel

By induction on the fuel.  The tests between the calls look at tokens only, so
with more fuel they come out alike as long as the calls before them do.
-/

/-- The second result is what the first turns into when there is more fuel. -/
def Settles {α : Type} (r r' : Except ParseFailure α) : Prop :=
  r = .error .outOfFuel ∨ r = r'

namespace Settles

variable {α β : Type}

theorem refl {r : Except ParseFailure α} : Settles r r := .inr rfl

theorem outOfFuel {r : Except ParseFailure α} : Settles (.error .outOfFuel) r := .inl rfl

theorem bind {m m' : Except ParseFailure α} {k k' : α → Except ParseFailure β}
    (hm : Settles m m') (hk : ∀ a, Settles (k a) (k' a)) : Settles (m >>= k) (m' >>= k') := by
  rcases hm with h | h
  · subst h
    exact outOfFuel
  · subst h
    cases m with
    | ok a => exact hk a
    | error e => exact refl

theorem ite {c : Prop} [Decidable c] {r r' s s' : Except ParseFailure α} (hr : Settles r r')
    (hs : Settles s s') : Settles (if c then r else s) (if c then r' else s') := by
  split
  · exact hr
  · exact hs

theorem trans {r s t : Except ParseFailure α} (h : Settles r s) (h' : Settles s t) :
    Settles r t := by
  rcases h with h | h
  · exact .inl h
  · subst h
    exact h'

/-- What one more call makes of a result, any number of them makes of it. -/
theorem of_le {f : Nat → Except ParseFailure α} (h : ∀ n, Settles (f n) (f (n + 1))) {n m : Nat}
    (hle : n ≤ m) : Settles (f n) (f m) := by
  induction hle with
  | refl => exact refl
  | step _ ih => exact ih.trans (h _)

end Settles

/-- One more call settles what the functions for expressions give. -/
structure SettlesExpressions (n : Nat) : Prop where
  level : ∀ lv ts, Settles (Parse.level n lv ts) (Parse.level (n + 1) lv ts)
  operand : ∀ lv ts, Settles (Parse.operand n lv ts) (Parse.operand (n + 1) lv ts)
  operations : ∀ lv left ts,
    Settles (Parse.operations n lv left ts) (Parse.operations (n + 1) lv left ts)
  secondary : ∀ ts, Settles (Parse.secondary n ts) (Parse.secondary (n + 1) ts)
  members : ∀ receiver ts,
    Settles (Parse.members n receiver ts) (Parse.members (n + 1) receiver ts)
  arguments : ∀ ts, Settles (Parse.arguments n ts) (Parse.arguments (n + 1) ts)
  moreArguments : ∀ ts, Settles (Parse.moreArguments n ts) (Parse.moreArguments (n + 1) ts)
  primary : ∀ ts, Settles (Parse.primary n ts) (Parse.primary (n + 1) ts)

namespace SettlesExpressions

variable {n : Nat}

theorem operand_succ (ih : SettlesExpressions n) (lv : Parse.Level) (ts : List Token) :
    Settles (Parse.operand (n + 1) lv ts) (Parse.operand (n + 2) lv ts) := by
  cases lv with
  | logical => exact ih.level .comparison ts
  | comparison => exact ih.level .additive ts
  | additive => exact ih.level .multiplicative ts
  | multiplicative => exact ih.secondary ts

theorem operations_succ (ih : SettlesExpressions n) (lv : Parse.Level) (left : Expr Place)
    (ts : List Token) :
    Settles (Parse.operations (n + 1) lv left ts) (Parse.operations (n + 2) lv left ts) := by
  cases ts with
  | nil => exact .refl
  | cons t ts =>
      unfold Parse.operations
      cases lv.operator? t with
      | none => exact .refl
      | some op => exact .bind (ih.operand lv ts) fun x => ih.operations lv _ x.2

theorem members_succ (ih : SettlesExpressions n) (receiver : Expr Place) (ts : List Token) :
    Settles (Parse.members (n + 1) receiver ts) (Parse.members (n + 2) receiver ts) := by
  unfold Parse.members
  refine .ite (.bind .refl fun _ => .bind .refl fun name => .ite ?_ ?_) .refl
  · exact .bind .refl fun x => .bind (ih.arguments x.2) fun y => ih.members _ y.2
  · exact ih.members _ name.2

theorem moreArguments_succ (ih : SettlesExpressions n) (ts : List Token) :
    Settles (Parse.moreArguments (n + 1) ts) (Parse.moreArguments (n + 2) ts) := by
  refine .bind (ih.level .logical ts) fun e => .ite ?_ .refl
  exact .bind .refl fun x => .bind (ih.moreArguments x.2) fun _ => .refl

theorem primary_succ (ih : SettlesExpressions n) (ts : List Token) :
    Settles (Parse.primary (n + 1) ts) (Parse.primary (n + 2) ts) := by
  cases ts with
  | nil => exact .refl
  | cons t ts =>
      unfold Parse.primary
      cases Parse.literal? t with
      | some r =>
          cases r with
          | ok e => exact .refl
          | error limit => exact .refl
      | none =>
          refine .ite (.bind (ih.level .logical ts) fun _ => .refl) (.ite (.ite ?_ .refl) .refl)
          exact .bind .refl fun x => .bind (ih.arguments x.2) fun _ => .refl

end SettlesExpressions

theorem settlesExpressions : ∀ n, SettlesExpressions n
  | 0 =>
    { level := fun _ _ => .outOfFuel
      operand := fun _ _ => .outOfFuel
      operations := fun _ _ _ => .outOfFuel
      secondary := fun _ => .outOfFuel
      members := fun _ _ => .outOfFuel
      arguments := fun _ => .outOfFuel
      moreArguments := fun _ => .outOfFuel
      primary := fun _ => .outOfFuel }
  | n + 1 =>
    have ih := settlesExpressions n
    { level := fun lv ts => .bind (ih.operand lv ts) fun x => ih.operations lv x.1 x.2
      operand := ih.operand_succ
      operations := ih.operations_succ
      secondary := fun ts => .bind (ih.primary ts) fun x => ih.members x.1 x.2
      members := ih.members_succ
      arguments := fun ts => .ite .refl (ih.moreArguments ts)
      moreArguments := ih.moreArguments_succ
      primary := ih.primary_succ }

namespace Settles

theorem expression (n : Nat) (ts : List Token) :
    Settles (Parse.expression n ts) (Parse.expression (n + 1) ts) :=
  (settlesExpressions n).level .logical ts

theorem declaration (n : Nat) (ts : List Token) :
    Settles (Parse.declaration n ts) (Parse.declaration (n + 1) ts) := by
  refine .bind .refl fun name => .bind .refl fun typeName => .bind ?_ fun _ => .refl
  exact .ite (.bind .refl fun x => .bind (expression n x.2) fun _ => .refl) .refl

theorem simple (n : Nat) (p : Place) (ts : List Token) :
    Settles (Parse.simple n p ts) (Parse.simple (n + 1) p ts) := by
  refine .bind (expression n ts) fun e => .ite ?_ .refl
  exact .bind .refl fun x => .bind (expression n x.2) fun _ => .refl

end Settles

/-- One more call settles what the functions for statements give. -/
structure SettlesStatements (n : Nat) : Prop where
  block : ∀ stop ts, Settles (Parse.block n stop ts) (Parse.block (n + 1) stop ts)
  statement : ∀ ts, Settles (Parse.statement n ts) (Parse.statement (n + 1) ts)
  otherwise : ∀ ts, Settles (Parse.otherwise n ts) (Parse.otherwise (n + 1) ts)

namespace SettlesStatements

variable {n : Nat}

theorem block_succ (ih : SettlesStatements n) (stop : BlockEnd) (ts : List Token) :
    Settles (Parse.block (n + 1) stop ts) (Parse.block (n + 2) stop ts) := by
  refine .ite .refl (.ite .refl (.bind (ih.statement ts) fun s => ?_))
  exact .bind (ih.block stop s.2) fun _ => .refl

theorem statement_succ (ih : SettlesStatements n) (ts : List Token) :
    Settles (Parse.statement (n + 1) ts) (Parse.statement (n + 2) ts) := by
  cases ts with
  | nil => exact .refl
  | cons t ts =>
      refine .ite ?declare (.ite ?branch (.ite ?forIn (.ite ?loop (.ite ?ret ?simple))))
      case declare => exact .bind (.declaration n ts) fun _ => .refl
      case branch =>
        refine .bind (.expression n ts) fun _ => .bind .refl fun x => ?_
        refine .bind (ih.block .atElseOrEnd x.2) fun y => ?_
        exact .bind (ih.otherwise y.2) fun _ => .refl
      case forIn =>
        refine .bind .refl fun _ => .bind .refl fun x => .bind (.expression n x.2) fun _ => ?_
        exact .bind .refl fun y => .bind (ih.block .atEnd y.2) fun _ => .refl
      case loop =>
        refine .bind (.expression n ts) fun _ => .bind .refl fun x => ?_
        exact .bind (ih.block .atEnd x.2) fun _ => .refl
      case ret => exact .bind (.expression n ts) fun _ => .refl
      case simple => exact .simple n (some t.location) (t :: ts)

end SettlesStatements

theorem settlesStatements : ∀ n, SettlesStatements n
  | 0 =>
    { block := fun _ _ => .outOfFuel
      statement := fun _ => .outOfFuel
      otherwise := fun _ => .outOfFuel }
  | n + 1 =>
    have ih := settlesStatements n
    { block := ih.block_succ
      statement := ih.statement_succ
      otherwise := fun _ => .ite (.bind .refl fun x => ih.block .atEnd x.2) .refl }

namespace Settles

theorem statements (n : Nat) (ts : List Token) :
    Settles (Parse.statements n ts) (Parse.statements (n + 1) ts) := by
  induction n generalizing ts with
  | zero => exact outOfFuel
  | succ n ih =>
      refine .ite .refl (.bind ((settlesStatements n).statement ts) fun s => ?_)
      exact .bind (ih s.2) fun _ => .refl

theorem moreParameters (n : Nat) (ts : List Token) :
    Settles (Parse.moreParameters n ts) (Parse.moreParameters (n + 1) ts) := by
  induction n generalizing ts with
  | zero => exact outOfFuel
  | succ n ih =>
      refine .bind .refl fun _ => .bind .refl fun typeName => .ite (.bind .refl fun x => ?_) .refl
      exact .bind (ih x.2) fun _ => .refl

theorem method (n : Nat) (p : Place) (ts : List Token) :
    Settles (Parse.method n p ts) (Parse.method (n + 1) p ts) := by
  refine .bind .refl fun _ => .bind .refl fun x => ?_
  refine .bind (.ite .refl (moreParameters n x.2)) fun _ => .bind .refl fun _ => ?_
  refine .bind .refl fun _ => .bind .refl fun y => ?_
  exact .bind ((settlesStatements n).block .atEnd y.2) fun _ => .refl

theorem fields (n : Nat) (ts : List Token) :
    Settles (Parse.fields n ts) (Parse.fields (n + 1) ts) := by
  induction n generalizing ts with
  | zero => exact outOfFuel
  | succ n ih =>
      refine .ite (.bind .refl fun x => .bind (declaration n x.2) fun d => ?_) .refl
      exact .bind (ih d.2) fun _ => .refl

theorem methods (n : Nat) (ts : List Token) :
    Settles (Parse.methods n ts) (Parse.methods (n + 1) ts) := by
  induction n generalizing ts with
  | zero => exact outOfFuel
  | succ n ih =>
      refine .ite (.bind .refl fun x => .bind (method n (some x.1.location) x.2) fun m => ?_) .refl
      exact .bind (ih m.2) fun _ => .refl

theorem program (n : Nat) (ts : List Token) :
    Settles (Parse.program n ts) (Parse.program (n + 1) ts) :=
  .bind (fields n ts) fun x => .bind (methods n x.2) fun _ => .refl

end Settles

/-! ## How a reading ends

A function that reads a phrase answers in one of a few ways, and two of these are excluded here: to
ask for a token where none is left, and to run out of fuel when there was enough. -/

/-- A reading has come to an end: with a result, or with an error in the order of tokens. -/
inductive Finished {α : Type} : Except ParseFailure α → Prop where
  | result (a : α) : Finished (.ok a)
  | unexpected (e : ParseError) : Finished (.error (.unexpected e))

theorem Finished.bind {α β : Type} {m : Except ParseFailure α} {k : α → Except ParseFailure β}
    (hm : Finished m) (hk : ∀ a, m = .ok a → Finished (k a)) : Finished (m >>= k) := by
  cases hm with
  | result a => exact hk a rfl
  | unexpected e => exact .unexpected e

/-- A function that is given more and more fuel comes to an end, and to the same one with any fuel
from a bound on.  With less, it comes to this end or runs out of fuel. -/
structure ComesToEnd {α : Type} (bound : Nat) (f : Nat → Except ParseFailure α)
    (r : Except ParseFailure α) : Prop where
  finished : Finished r
  settled : ∀ n, f n = r ∨ n < bound ∧ f n = .error .outOfFuel

theorem ComesToEnd.of_settles {α : Type} {bound : Nat} {f : Nat → Except ParseFailure α}
    (h : ∀ n, Settles (f n) (f (n + 1))) (hfinished : Finished (f bound)) :
    ComesToEnd bound f (f bound) := by
  refine ⟨hfinished, fun n => ?_⟩
  rcases Nat.lt_or_ge n bound with hlt | hge
  · rcases Settles.of_le h (Nat.le_of_lt hlt) with hshort | hsame
    · exact .inr ⟨hlt, hshort⟩
    · exact .inl hsame
  · rcases Settles.of_le h hge with hshort | hsame
    · -- running out of fuel is no end
      rw [hshort] at hfinished
      cases hfinished
    · exact .inl hsame.symm

/-- A result takes tokens from the front, at least one, and leaves the others. -/
def Advances {β : Type} (ts : List Token) (r : Except ParseFailure (Leaving β)) : Prop :=
  ∀ b rest, r = .ok (b, rest) → ∃ taken, taken ≠ [] ∧ ts = taken ++ rest

namespace Answers

variable {p : Phrase} {short : Prop} {β : Type} {f : p.Value → β} {ts : List Token}
  {r : Except ParseFailure (Leaving β)}

theorem finished (h : Answers p short f ts r) (hts : Legible ts) (hfuel : ¬ short) :
    Finished r := by
  match r, h with
  | .ok (b, rest), _ => exact .result (b, rest)
  | .error (.unexpected e), _ => exact .unexpected e
  | .error .outOfFuel, hshort => exact absurd hshort hfuel
  | .error (.digits limit), ⟨t, ht, hover⟩ => exact absurd hover (hts.not_overlong ht)

theorem ne_noToken (h : Answers p short f ts r) : r ≠ .error .noToken := by
  rintro rfl
  exact h

/-- A phrase that derives no empty row of tokens takes some. -/
theorem advances (h : Answers p short f ts r) (hp : 0 < p.width) : Advances ts r := by
  rintro b rest rfl
  obtain ⟨d, hyield, -⟩ := h
  refine ⟨d.yield, fun hnil => ?_, hyield⟩
  have hwidth := d.width_le
  rw [hnil, List.length_nil] at hwidth
  omega

end Answers

theorem Legible.of_suffix {ts us : List Token} (h : Legible ts) (hus : us <:+ ts) : Legible us :=
  fun t ht => h t (hus.subset ht)

theorem finished_parseProgram {ts : List Token} (hts : Legible ts) :
    Finished (parseProgram ts) := by
  have houtcome := parseProgram_explained hts
  generalize parseProgram ts = r at houtcome ⊢
  match r, houtcome with
  | .ok p, _ => exact .result p
  | .error (.unexpected e), _ => exact .unexpected e
  | .error (.digits limit), ⟨t, ht, hover⟩ => exact absurd hover (hts.not_overlong ht)

theorem finished_parseExpression {ts : List Token} (hts : Legible ts) :
    Finished (parseExpression ts) := by
  refine (Reads.expression (Parse.fuelFor ts) ts hts.plain).finished hts ?_
  unfold Parse.fuelFor
  omega

theorem answers_statement {n : Nat} {ts : List Token} (hts : Plain ts) (hne : ts ≠ []) :
    Answers (.rule .statement) (n < 16 * ts.length + 11) (fun s : Stmt Place => s) ts
      (Parse.statement n ts) :=
  (readsStatements n).statement ts hne hts

theorem advances_statement {n : Nat} {ts : List Token} (hts : Plain ts) :
    Advances ts (Parse.statement n ts) := by
  by_cases hne : ts = []
  · -- there is no statement at the end
    rintro b rest hok
    subst hne
    cases n <;> cases hok
  · exact (answers_statement hts hne).advances Nat.one_pos

/-- Each statement takes a token, so that there are no more statements than tokens. -/
theorem finished_statements {n : Nat} {ts : List Token} (hts : Legible ts)
    (hfuel : 16 * ts.length + 12 ≤ n) : Finished (Parse.statements n ts) := by
  induction n generalizing ts with
  | zero => exact absurd hfuel (by omega)
  | succ n ih =>
      by_cases hne : ts = []
      · subst hne
        exact .result []
      · have hstatement := @answers_statement n ts hts.plain hne
        have heq : Parse.statements (n + 1) ts = Parse.statement n ts >>= fun s =>
            Parse.statements n s.2 >>= fun ss => .ok (s.1 :: ss) := by
          rw [Parse.statements, if_neg (by simpa using hne)]
        rw [heq]
        refine (hstatement.finished hts (by omega)).bind fun s hs => ?_
        obtain ⟨taken, htaken, rfl⟩ := hstatement.advances Nat.one_pos s.1 s.2 hs
        -- the token taken makes up for the call
        have hpos := List.length_pos_iff.mpr htaken
        rw [List.length_append] at hfuel
        have hrest := ih (hts.of_suffix (List.suffix_append taken s.2)) (by omega)
        exact hrest.bind fun ss _ => .result (s.1 :: ss)

theorem finished_parseStatements {ts : List Token} (hts : Legible ts) :
    Finished (parseStatements ts) :=
  finished_statements hts (by unfold Parse.fuelFor; omega)

/-! ## Tokens of a text -/

/-- Where no integer of a text has too many digits, reading its tokens as a program, as an
expression or as statements comes to an end: with a result or an error in the order of tokens, and
never at a token that is asked for where none is left.  Wherever an expression or a statement is
read on the way, it takes at least one token, none that is not there, and never asks for one at
the end. -/
theorem reading_progress {source : String} {file : Option String} {ts : List Token}
    (hts : tokenize source file = .ok ts)
    (hdigits : ∀ t ∈ ts, t.kind = .integer → t.digitCount ≤ maxDigits) :
    ComesToEnd (Parse.fuelFor ts) (Parse.program · ts) (parseProgram ts) ∧
    ComesToEnd (Parse.fuelFor ts) (Parse.expression · ts) (parseExpression ts) ∧
    ComesToEnd (Parse.fuelFor ts) (Parse.statements · ts) (parseStatements ts) ∧
    ∀ us, us <:+ ts → ∀ n,
      Advances us (Parse.expression n us) ∧ Parse.expression n us ≠ .error .noToken ∧
      Advances us (Parse.statement n us) ∧
      (us ≠ [] → Parse.statement n us ≠ .error .noToken) := by
  have hlegible := tokenize_legible hts hdigits
  refine ⟨.of_settles (Settles.program · ts) (finished_parseProgram hlegible),
    .of_settles (Settles.expression · ts) (finished_parseExpression hlegible),
    .of_settles (Settles.statements · ts) (finished_parseStatements hlegible), ?_⟩
  intro us hus n
  have hplain := (hlegible.of_suffix hus).plain
  have hexpression := Reads.expression n us hplain
  exact ⟨hexpression.advances Nat.one_pos, hexpression.ne_noToken, advances_statement hplain,
    fun hne => (answers_statement hplain hne).ne_noToken⟩

/-- Statements that end in the middle of one. -/
def danglingText : String := "f(1); IF x DO"

theorem danglingText_progress : ∃ ts e rest, tokenize danglingText none = .ok ts ∧
    (∀ t ∈ ts, t.kind = .integer → t.digitCount ≤ maxDigits) ∧
    parseExpression ts = .ok (e, rest) ∧ (∃ taken, taken ≠ [] ∧ ts = taken ++ rest) ∧
    ∃ error, parseStatements ts = .error (.unexpected error) := by
  have hread : (tokenize danglingText none).toOption.any (fun ts =>
      ts.all (fun t => decide (t.kind = .integer → t.digitCount ≤ maxDigits)) &&
      ((parseExpression ts).toOption.isSome && (parseStatements ts).toOption.isNone)) = true := by
    decide +kernel
  cases hts : tokenize danglingText none with
  | error e => rw [hts] at hread; cases hread
  | ok ts =>
      rw [hts] at hread
      obtain ⟨hdigits, hread⟩ := Bool.and_eq_true_iff.mp hread
      obtain ⟨hsome, hnone⟩ := Bool.and_eq_true_iff.mp hread
      have hdigits : ∀ t ∈ ts, t.kind = .integer → t.digitCount ≤ maxDigits :=
        fun t ht => of_decide_eq_true (List.all_eq_true.mp hdigits t ht)
      obtain ⟨⟨e, rest⟩, hexpression⟩ := exists_ok_of_isSome hsome
      obtain ⟨-, -, hstatements, hparts⟩ := reading_progress hts hdigits
      obtain ⟨hadvances, -⟩ := hparts ts List.suffix_rfl (Parse.fuelFor ts)
      have hfinished := hstatements.finished
      refine ⟨ts, e, rest, rfl, hdigits, hexpression, hadvances e rest hexpression, ?_⟩
      generalize parseStatements ts = r at hnone hfinished ⊢
      cases hfinished with
      | result ss => cases hnone
      | unexpected error => exact ⟨error, rfl⟩

end QuillLang
