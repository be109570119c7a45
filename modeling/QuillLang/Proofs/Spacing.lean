/-
# Spacing does not matter

Trees are read from words: of its place, a token tells only where the nodes that
come from it stand.  So two texts with the same words, in the same order, are read
as the same program or refused for the same reason (`parseProgram_alike`).

The tokens of a text are lexemes, and lexemes with single spaces between them are
the tokens of the text that they make up.  So all other space can be taken out of
a text (`tokenize_normalized`).
-/
import QuillLang.Proofs.RoundTrip
import Mathlib.Data.List.Forall2

namespace QuillLang

variable {α β : Type}

/-! ## Tokens with the same words

All tests that the reader of trees makes are about kinds and lexemes, so they come out the same for
tokens with the same words. -/

/-- Tokens with the same words, one by one. -/
abbrev SameWords : List Token → List Token → Prop := List.Forall₂ fun t u => t.word = u.word

theorem sameWords_iff {ts us : List Token} :
    SameWords ts us ↔ ts.map Token.word = us.map Token.word := by
  rw [← List.forall₂_eq_eq_eq, List.forall₂_map_left_iff, List.forall₂_map_right_iff]

namespace Token

variable {t u : Token}

theorem kind_of_word (h : t.word = u.word) : t.kind = u.kind := congrArg Word.kind h

theorem lexeme_of_word (h : t.word = u.word) : t.lexeme = u.lexeme := congrArg Word.text h

theorem is_congr (h : t.word = u.word) (text : String) : t.is text = u.is text := by
  rw [Token.is, Token.is, kind_of_word h, lexeme_of_word h]

theorem isName_congr (h : t.word = u.word) : t.isName = u.isName := by
  rw [isName, isName, kind_of_word h, lexeme_of_word h]

theorem operator?_congr (h : t.word = u.word) (lv : Parse.Level) :
    lv.operator? t = lv.operator? u := by
  unfold Parse.Level.operator?
  simp only [is_congr h]

end Token

theorem SameWords.at? {ts us : List Token} (h : SameWords ts us) (text : String) :
    Parse.at? text ts = Parse.at? text us := by
  cases h with
  | nil => rfl
  | cons ht _ => exact Token.is_congr ht text

theorem SameWords.isEmpty {ts us : List Token} (h : SameWords ts us) :
    ts.isEmpty = us.isEmpty := by
  cases h with
  | nil => rfl
  | cons _ _ => rfl

/-! ## Readings that differ in places

Results are compared without the places of their nodes, by a view that leaves them out.  Errors
must have the same cause and stand before the same words. -/

/-- Two readings that give related results, or fail for the same reason before the same words. -/
inductive Alike (R : α → α → Prop) : Except ParseFailure α → Except ParseFailure α → Prop where
  | ok {a b : α} : R a b → Alike R (.ok a) (.ok b)
  | unexpected {cause : ParseCause} {ts us : List Token} : SameWords ts us →
      Alike R (.error (.unexpected ⟨cause, ts⟩)) (.error (.unexpected ⟨cause, us⟩))
  | digits (limit : DigitLimit) : Alike R (.error (.digits limit)) (.error (.digits limit))
  | outOfFuel : Alike R (.error .outOfFuel) (.error .outOfFuel)
  | noToken : Alike R (.error .noToken) (.error .noToken)

/-- Results that look the same and leave the same words. -/
def LeavesAlike {δ : Type} (view : β → δ) (x y : Leaving β) : Prop :=
  view x.1 = view y.1 ∧ SameWords x.2 y.2

namespace Alike

variable {δ : Type} {view : β → δ} {S : α → α → Prop} {ts us : List Token}

theorem bind {m m' : Except ParseFailure (Leaving β)} {k k' : Leaving β → Except ParseFailure α}
    (hm : Alike (LeavesAlike view) m m')
    (hk : ∀ v v' ts us, view v = view v' → SameWords ts us → Alike S (k (v, ts)) (k' (v', us))) :
    Alike S (m >>= k) (m' >>= k') := by
  cases hm with
  | ok h => exact hk _ _ _ _ h.1 h.2
  | unexpected h => exact .unexpected h
  | digits limit => exact .digits limit
  | outOfFuel => exact .outOfFuel
  | noToken => exact .noToken

/-- A choice by a condition that the two readings have in common. -/
theorem ite {c c' : Bool} (hc : c = c') {a b a' b' : Except ParseFailure α} (ha : Alike S a a')
    (hb : Alike S b b') : Alike S (if c then a else b) (if c' then a' else b') := by
  subst hc
  cases c with
  | true => exact ha
  | false => exact hb

theorem next (h : SameWords ts us) :
    Alike (LeavesAlike Token.word) (Parse.next ts) (Parse.next us) := by
  cases h with
  | nil => exact .noToken
  | cons ht h => exact .ok ⟨ht, h⟩

theorem expect (h : SameWords ts us) (text : String) (cause : ParseCause) :
    Alike (LeavesAlike Token.word) (Parse.expect text cause ts) (Parse.expect text cause us) := by
  cases h with
  | nil => exact .unexpected .nil
  | cons ht h => exact .ite (Token.is_congr ht text) (.ok ⟨ht, h⟩) (.unexpected (.cons ht h))

theorem expectName (h : SameWords ts us) (cause : ParseCause) :
    Alike (LeavesAlike Token.word) (Parse.expectName cause ts) (Parse.expectName cause us) := by
  cases h with
  | nil => exact .unexpected .nil
  | cons ht h => exact .ite (Token.isName_congr ht) (.ok ⟨ht, h⟩) (.unexpected (.cons ht h))

theorem colonName (h : SameWords ts us) (cause : ParseCause) :
    Alike (LeavesAlike id) (Parse.colonName cause ts) (Parse.colonName cause us) := by
  refine .ite (h.at? ":") ?_ (.ok ⟨rfl, h⟩)
  refine (next h).bind fun _ _ ts us _ h => ?_
  refine (expectName h cause).bind fun t u ts us ht h => ?_
  exact .ok ⟨congrArg some (Token.lexeme_of_word ht), h⟩

end Alike

/-! ## Expressions -/

/-- Two literals that differ in their places, or two tokens that are no literals. -/
inductive AlikeLiterals : Option (Except DigitLimit (Expr Place)) →
    Option (Except DigitLimit (Expr Place)) → Prop where
  | none : AlikeLiterals none none
  | ok {e e' : Expr Place} : e.bare = e'.bare → AlikeLiterals (some (.ok e)) (some (.ok e'))
  | error (limit : DigitLimit) : AlikeLiterals (some (.error limit)) (some (.error limit))

theorem Parse.literal?_alike {t u : Token} (h : t.word = u.word) :
    AlikeLiterals (Parse.literal? t) (Parse.literal? u) := by
  unfold Parse.literal?
  simp only [Token.is_congr h, Token.kind_of_word h, Token.lexeme_of_word h]
  by_cases hnil : u.is "NIL" = true
  · rw [if_pos hnil, if_pos hnil]
    exact .ok rfl
  rw [if_neg hnil, if_neg hnil]
  by_cases htrue : u.is "TRUE" = true
  · rw [if_pos htrue, if_pos htrue]
    exact .ok rfl
  rw [if_neg htrue, if_neg htrue]
  by_cases hfalse : u.is "FALSE" = true
  · rw [if_pos hfalse, if_pos hfalse]
    exact .ok rfl
  rw [if_neg hfalse, if_neg hfalse]
  cases u.kind with
  | integer =>
      cases Numeral.read u.lexeme.toList with
      | ok n => exact .ok rfl
      | error limit => exact .error limit
  | decimal | character | string => exact .ok rfl
  | identifier | operator => exact .none

/-- With so much fuel, the functions for expressions look at words only. -/
structure AlikeExpressions (n : Nat) : Prop where
  level : ∀ {ts us}, SameWords ts us → ∀ lv,
    Alike (LeavesAlike Expr.bare) (Parse.level n lv ts) (Parse.level n lv us)
  operand : ∀ {ts us}, SameWords ts us → ∀ lv,
    Alike (LeavesAlike Expr.bare) (Parse.operand n lv ts) (Parse.operand n lv us)
  operations : ∀ {ts us}, SameWords ts us → ∀ lv {l l' : Expr Place}, l.bare = l'.bare →
    Alike (LeavesAlike Expr.bare) (Parse.operations n lv l ts) (Parse.operations n lv l' us)
  secondary : ∀ {ts us}, SameWords ts us →
    Alike (LeavesAlike Expr.bare) (Parse.secondary n ts) (Parse.secondary n us)
  members : ∀ {ts us}, SameWords ts us → ∀ {e e' : Expr Place}, e.bare = e'.bare →
    Alike (LeavesAlike Expr.bare) (Parse.members n e ts) (Parse.members n e' us)
  arguments : ∀ {ts us}, SameWords ts us →
    Alike (LeavesAlike Expr.bareAll) (Parse.arguments n ts) (Parse.arguments n us)
  moreArguments : ∀ {ts us}, SameWords ts us →
    Alike (LeavesAlike Expr.bareAll) (Parse.moreArguments n ts) (Parse.moreArguments n us)
  primary : ∀ {ts us}, SameWords ts us →
    Alike (LeavesAlike Expr.bare) (Parse.primary n ts) (Parse.primary n us)

namespace AlikeExpressions

variable {n : Nat} {ts us : List Token}

theorem operand_succ (ih : AlikeExpressions n) (h : SameWords ts us) (lv : Parse.Level) :
    Alike (LeavesAlike Expr.bare) (Parse.operand (n + 1) lv ts) (Parse.operand (n + 1) lv us) := by
  cases lv with
  | logical => exact ih.level h .comparison
  | comparison => exact ih.level h .additive
  | additive => exact ih.level h .multiplicative
  | multiplicative => exact ih.secondary h

theorem operations_succ (ih : AlikeExpressions n) (h : SameWords ts us) (lv : Parse.Level)
    {l l' : Expr Place} (hl : l.bare = l'.bare) :
    Alike (LeavesAlike Expr.bare) (Parse.operations (n + 1) lv l ts)
      (Parse.operations (n + 1) lv l' us) := by
  cases h with
  | nil => exact .ok ⟨hl, .nil⟩
  | @cons t u ts us ht h =>
      simp only [Parse.operations, Token.operator?_congr ht]
      cases lv.operator? u with
      | none => exact .ok ⟨hl, .cons ht h⟩
      | some op =>
          refine (ih.operand h lv).bind fun r r' ts us hr h => ih.operations h lv ?_
          rw [Expr.bare, Expr.bare, hl, hr]

theorem members_succ (ih : AlikeExpressions n) (h : SameWords ts us) {e e' : Expr Place}
    (he : e.bare = e'.bare) :
    Alike (LeavesAlike Expr.bare) (Parse.members (n + 1) e ts) (Parse.members (n + 1) e' us) := by
  simp only [Parse.members]
  refine .ite (h.at? ".") ?_ (.ok ⟨he, h⟩)
  refine (Alike.next h).bind fun _ _ ts us _ h => ?_
  refine (Alike.expectName h _).bind fun t u ts us ht h => ?_
  have hname := Token.lexeme_of_word ht
  refine .ite (h.at? "(") ?_ (ih.members h ?_)
  · refine (Alike.next h).bind fun _ _ ts us _ h => ?_
    refine (ih.arguments h).bind fun args args' ts us hargs h => ih.members h ?_
    rw [Expr.bare, Expr.bare, he, hname, hargs]
  · rw [Expr.bare, Expr.bare, he, hname]

theorem arguments_succ (ih : AlikeExpressions n) (h : SameWords ts us) :
    Alike (LeavesAlike Expr.bareAll) (Parse.arguments (n + 1) ts) (Parse.arguments (n + 1) us) := by
  simp only [Parse.arguments]
  refine .ite (h.at? ")") ?_ (ih.moreArguments h)
  exact (Alike.next h).bind fun _ _ ts us _ h => .ok ⟨rfl, h⟩

theorem moreArguments_succ (ih : AlikeExpressions n) (h : SameWords ts us) :
    Alike (LeavesAlike Expr.bareAll) (Parse.moreArguments (n + 1) ts)
      (Parse.moreArguments (n + 1) us) := by
  refine (ih.level h .logical).bind fun e e' ts us he h => ?_
  refine .ite (h.at? ",") ?_ ?_
  · refine (Alike.next h).bind fun _ _ ts us _ h => ?_
    refine (ih.moreArguments h).bind fun es es' ts us hes h => .ok ⟨?_, h⟩
    rw [Expr.bareAll, Expr.bareAll, he, hes]
  · refine (Alike.expect h _ _).bind fun _ _ ts us _ h => .ok ⟨?_, h⟩
    exact congrArg (fun e => [e]) he

theorem primary_succ (ih : AlikeExpressions n) (h : SameWords ts us) :
    Alike (LeavesAlike Expr.bare) (Parse.primary (n + 1) ts) (Parse.primary (n + 1) us) := by
  cases h with
  | nil => exact .unexpected .nil
  | @cons t u ts us ht h =>
      have hliteral := Parse.literal?_alike ht
      have hname := Token.lexeme_of_word ht
      simp only [Parse.primary]
      generalize Parse.literal? t = l at hliteral ⊢
      generalize Parse.literal? u = l' at hliteral ⊢
      cases hliteral with
      | ok he => exact .ok ⟨he, h⟩
      | error limit => exact .digits limit
      | none =>
          refine .ite (Token.is_congr ht "(") ?_ (.ite (Token.isName_congr ht) ?_ ?_)
          · refine (ih.level h .logical).bind fun e e' ts' us' he h' => ?_
            refine (Alike.expect h' _ _).bind fun _ _ ts' us' _ h' => ?_
            refine .ite (Expr.isBinary_of_bare_eq he) (.ok ⟨?_, h'⟩) (.unexpected (.cons ht h))
            rw [Expr.bare, Expr.bare, he]
          · refine .ite (SameWords.at? h "(") ?_ (.ok ⟨?_, h⟩)
            · refine (Alike.next h).bind fun _ _ ts us _ h => ?_
              refine (ih.arguments h).bind fun args args' ts us hargs h => .ok ⟨?_, h⟩
              rw [Expr.bare, Expr.bare, hname, hargs]
            · rw [Expr.bare, Expr.bare, hname]
          · exact .unexpected (.cons ht h)

end AlikeExpressions

theorem alikeExpressions (n : Nat) : AlikeExpressions n := by
  induction n with
  | zero => constructor <;> intros <;> exact .outOfFuel
  | succ n ih =>
      exact {
        level := fun h lv => (ih.operand h lv).bind fun _ _ _ _ hl h => ih.operations h lv hl
        operand := ih.operand_succ
        operations := fun h lv _ _ hl => ih.operations_succ h lv hl
        secondary := fun h => (ih.primary h).bind fun _ _ _ _ he h => ih.members h he
        members := fun h _ _ he => ih.members_succ h he
        arguments := ih.arguments_succ
        moreArguments := ih.moreArguments_succ
        primary := ih.primary_succ }

/-! ## Statements -/

/-- A declaration without the places in its value. -/
def Parse.Declaration.bare (d : Parse.Declaration) :
    String × Option String × Option (Expr Unit) :=
  (d.name, d.typeName, d.value.map Expr.bare)

section

variable {ts us : List Token}

theorem Alike.expression (h : SameWords ts us) (n : Nat) :
    Alike (LeavesAlike Expr.bare) (Parse.expression n ts) (Parse.expression n us) :=
  (alikeExpressions n).level h .logical

theorem Alike.initialValue (h : SameWords ts us) (n : Nat) :
    Alike (LeavesAlike (Option.map Expr.bare)) (Parse.initialValue n ts)
      (Parse.initialValue n us) := by
  refine .ite (h.at? "=") ?_ (.ok ⟨rfl, h⟩)
  refine (Alike.next h).bind fun _ _ ts us _ h => ?_
  exact (Alike.expression h n).bind fun e e' ts us he h => .ok ⟨congrArg some he, h⟩

theorem Alike.declaration (h : SameWords ts us) (n : Nat) :
    Alike (LeavesAlike Parse.Declaration.bare) (Parse.declaration n ts)
      (Parse.declaration n us) := by
  refine (Alike.expectName h _).bind fun t u ts us ht h => ?_
  refine (Alike.colonName h _).bind fun type type' ts us htype h => ?_
  refine (Alike.initialValue h n).bind fun e e' ts us he h => ?_
  refine (Alike.expect h _ _).bind fun _ _ ts us _ h => .ok ⟨?_, h⟩
  have htype : type = type' := htype
  simp only [Parse.Declaration.bare, Token.lexeme_of_word ht, htype, he]

theorem Alike.simple (h : SameWords ts us) (n : Nat) (p p' : Place) :
    Alike (LeavesAlike Stmt.bare) (Parse.simple n p ts) (Parse.simple n p' us) := by
  refine (Alike.expression h n).bind fun e e' ts us he h => ?_
  refine .ite (h.at? "=") ?_ ?_
  · refine (Alike.next h).bind fun _ _ ts us _ h => ?_
    refine (Alike.expression h n).bind fun v v' ts us hv h => ?_
    refine (Alike.expect h _ _).bind fun _ _ ts us _ h => .ok ⟨?_, h⟩
    rw [Stmt.bare, Stmt.bare, he, hv]
  · refine (Alike.expect h _ _).bind fun _ _ ts us _ h => .ok ⟨?_, h⟩
    rw [Stmt.bare, Stmt.bare, he]

theorem SameWords.stops (h : SameWords ts us) (stop : BlockEnd) :
    Parse.stops stop ts = Parse.stops stop us := by
  unfold Parse.stops
  simp only [h.at?]

end

/-- With so much fuel, the functions for statements look at words only. -/
structure AlikeStatements (n : Nat) : Prop where
  block : ∀ {ts us}, SameWords ts us → ∀ stop,
    Alike (LeavesAlike Stmt.bareAll) (Parse.block n stop ts) (Parse.block n stop us)
  statement : ∀ {ts us}, SameWords ts us →
    Alike (LeavesAlike Stmt.bare) (Parse.statement n ts) (Parse.statement n us)
  otherwise : ∀ {ts us}, SameWords ts us →
    Alike (LeavesAlike Stmt.bareAll) (Parse.otherwise n ts) (Parse.otherwise n us)

namespace AlikeStatements

variable {n : Nat} {ts us : List Token}

theorem block_succ (ih : AlikeStatements n) (h : SameWords ts us) (stop : BlockEnd) :
    Alike (LeavesAlike Stmt.bareAll) (Parse.block (n + 1) stop ts)
      (Parse.block (n + 1) stop us) := by
  simp only [Parse.block]
  refine .ite (h.stops stop) (.ok ⟨rfl, h⟩) (.ite h.isEmpty (.unexpected .nil) ?_)
  refine (ih.statement h).bind fun s s' ts us hs h => ?_
  refine (ih.block h stop).bind fun ss ss' ts us hss h => .ok ⟨?_, h⟩
  rw [Stmt.bareAll, Stmt.bareAll, hs, hss]

theorem otherwise_succ (ih : AlikeStatements n) (h : SameWords ts us) :
    Alike (LeavesAlike Stmt.bareAll) (Parse.otherwise (n + 1) ts)
      (Parse.otherwise (n + 1) us) := by
  simp only [Parse.otherwise]
  refine .ite (h.at? "ELSE") ?_ (.ok ⟨rfl, h⟩)
  exact (Alike.next h).bind fun _ _ ts us _ h => ih.block h .atEnd

theorem statement_succ (ih : AlikeStatements n) (h : SameWords ts us) :
    Alike (LeavesAlike Stmt.bare) (Parse.statement (n + 1) ts) (Parse.statement (n + 1) us) := by
  cases h with
  | nil => exact .noToken
  | @cons t u ts us ht h =>
      simp only [Parse.statement]
      refine .ite (Token.is_congr ht "LET") ?_ (.ite (Token.is_congr ht "IF") ?_
        (.ite (Token.is_congr ht "FOR") ?_ (.ite (Token.is_congr ht "WHILE") ?_
          (.ite (Token.is_congr ht "RETURN") ?_ (.simple (.cons ht h) n _ _)))))
      · refine (Alike.declaration h n).bind fun d d' ts us hd h => .ok ⟨?_, h⟩
        obtain ⟨hname, htype⟩ := Prod.mk.inj hd
        obtain ⟨htype, hvalue⟩ := Prod.mk.inj htype
        rw [Stmt.bare, Stmt.bare, hname, htype, hvalue]
      · refine (Alike.expression h n).bind fun e e' ts us he h => ?_
        refine (Alike.expect h _ _).bind fun _ _ ts us _ h => ?_
        refine (ih.block h .atElseOrEnd).bind fun ss ss' ts us hss h => ?_
        refine (ih.otherwise h).bind fun rs rs' ts us hrs h => ?_
        refine (Alike.next h).bind fun _ _ ts us _ h => .ok ⟨?_, h⟩
        rw [Stmt.bare, Stmt.bare, he, hss, hrs]
      · refine (Alike.expectName h _).bind fun t u ts us ht h => ?_
        refine (Alike.expect h _ _).bind fun _ _ ts us _ h => ?_
        refine (Alike.expression h n).bind fun e e' ts us he h => ?_
        refine (Alike.expect h _ _).bind fun _ _ ts us _ h => ?_
        refine (ih.block h .atEnd).bind fun ss ss' ts us hss h => ?_
        refine (Alike.next h).bind fun _ _ ts us _ h => .ok ⟨?_, h⟩
        rw [Stmt.bare, Stmt.bare, Token.lexeme_of_word ht, he, hss]
      · refine (Alike.expression h n).bind fun e e' ts us he h => ?_
        refine (Alike.expect h _ _).bind fun _ _ ts us _ h => ?_
        refine (ih.block h .atEnd).bind fun ss ss' ts us hss h => ?_
        refine (Alike.next h).bind fun _ _ ts us _ h => .ok ⟨?_, h⟩
        rw [Stmt.bare, Stmt.bare, he, hss]
      · refine (Alike.expression h n).bind fun e e' ts us he h => ?_
        refine (Alike.expect h _ _).bind fun _ _ ts us _ h => .ok ⟨?_, h⟩
        rw [Stmt.bare, Stmt.bare, he]

end AlikeStatements

theorem alikeStatements (n : Nat) : AlikeStatements n := by
  induction n with
  | zero => constructor <;> intros <;> exact .outOfFuel
  | succ n ih => exact ⟨ih.block_succ, ih.statement_succ, ih.otherwise_succ⟩

/-! ## Programs -/

section

variable {n : Nat} {ts us : List Token}

theorem Alike.moreParameters (n : Nat) : ∀ {ts us : List Token}, SameWords ts us →
    Alike (LeavesAlike id) (Parse.moreParameters n ts) (Parse.moreParameters n us) := by
  induction n with
  | zero => exact fun _ => .outOfFuel
  | succ n ih =>
      intro ts us h
      refine (Alike.expectName h _).bind fun t u ts us ht h => ?_
      refine (Alike.colonName h _).bind fun type type' ts us htype h => ?_
      have hname := Token.lexeme_of_word ht
      have htype : type = type' := htype
      refine .ite (h.at? ",") ?_ (.ok ⟨?_, h⟩)
      · refine (Alike.next h).bind fun _ _ ts us _ h => ?_
        refine (ih h).bind fun ps ps' ts us hps h => .ok ⟨?_, h⟩
        have hps : ps = ps' := hps
        simp only [id, hname, htype, hps]
      · simp only [id, hname, htype]

theorem Alike.parameters (h : SameWords ts us) (n : Nat) :
    Alike (LeavesAlike id) (Parse.parameters n ts) (Parse.parameters n us) :=
  .ite (h.at? ")") (.ok ⟨rfl, h⟩) (.moreParameters n h)

theorem Alike.method (h : SameWords ts us) (n : Nat) (p p' : Place) :
    Alike (LeavesAlike Method.bare) (Parse.method n p ts) (Parse.method n p' us) := by
  refine (Alike.expectName h _).bind fun t u ts us ht h => ?_
  refine (Alike.expect h _ _).bind fun _ _ ts us _ h => ?_
  refine (Alike.parameters h n).bind fun ps ps' ts us hps h => ?_
  refine (Alike.expect h _ _).bind fun _ _ ts us _ h => ?_
  refine (Alike.colonName h _).bind fun type type' ts us htype h => ?_
  refine (Alike.expect h _ _).bind fun _ _ ts us _ h => ?_
  refine ((alikeStatements n).block h .atEnd).bind fun ss ss' ts us hss h => ?_
  refine (Alike.next h).bind fun _ _ ts us _ h => .ok ⟨?_, h⟩
  have hps : ps = ps' := hps
  have htype : type = type' := htype
  simp only [Method.bare, Token.lexeme_of_word ht, hps, htype, hss]

theorem Alike.fields (n : Nat) : ∀ {ts us : List Token}, SameWords ts us →
    Alike (LeavesAlike (List.map Field.bare)) (Parse.fields n ts) (Parse.fields n us) := by
  induction n with
  | zero => exact fun _ => .outOfFuel
  | succ n ih =>
      intro ts us h
      refine .ite (h.at? "LET") ?_ (.ok ⟨rfl, h⟩)
      refine (Alike.next h).bind fun _ _ ts us _ h => ?_
      refine (Alike.declaration h n).bind fun d d' ts us hd h => ?_
      refine (ih h).bind fun fs fs' ts us hfs h => .ok ⟨?_, h⟩
      obtain ⟨hname, htype⟩ := Prod.mk.inj hd
      obtain ⟨htype, hvalue⟩ := Prod.mk.inj htype
      simp only [List.map_cons, Field.bare, hname, htype, hvalue, hfs]

theorem Alike.methods (n : Nat) : ∀ {ts us : List Token}, SameWords ts us →
    Alike (LeavesAlike (List.map Method.bare)) (Parse.methods n ts) (Parse.methods n us) := by
  induction n with
  | zero => exact fun _ => .outOfFuel
  | succ n ih =>
      intro ts us h
      refine .ite (h.at? "DEF") ?_ (.ok ⟨rfl, h⟩)
      refine (Alike.next h).bind fun _ _ ts us _ h => ?_
      refine (Alike.method h n _ _).bind fun d d' ts us hd h => ?_
      refine (ih h).bind fun ds ds' ts us hds h => .ok ⟨?_, h⟩
      simp only [List.map_cons, hd, hds]

/-- Tokens with the same words stand for the same program, but for the places of its nodes, or are
refused for the same reason before the same words. -/
theorem parseProgram_alike (h : SameWords ts us) :
    Alike (fun p q => p.bare = q.bare) (parseProgram ts) (parseProgram us) := by
  unfold parseProgram Parse.fuelFor
  rw [h.length_eq]
  refine (Alike.fields _ h).bind fun fs fs' ts us hfs h => ?_
  refine (Alike.methods _ h).bind fun ds ds' ts us hds h => ?_
  refine .ite h.isEmpty (.ok ?_) (.ite (h.at? "LET") (.unexpected h) (.unexpected h))
  simp only [Program.bare, hfs, hds]

end

/-! ## Texts without superfluous space

What is written with single spaces is read as the same words again.  So to take out space twice is
the same as to do so once. -/

/-- The lexemes of some tokens with single spaces between them. -/
def normalized (ts : List Token) : String := " ".intercalate (ts.map (·.lexeme))

theorem normalized_eq_spaced (ts : List Token) :
    normalized ts = Word.spaced (ts.map Token.word) := by
  rw [normalized, Word.spaced, List.map_map]
  rfl

/-- If the tokens of a text are written with single spaces between them, they are the tokens of
this new text, each with its kind and its lexeme.  It is read as the same program, but for the
places of its nodes, or refused for the same reason before the same words, and there is nothing more
to take out of it. -/
theorem tokenize_normalized {source : String} {file : Option String} {ts : List Token}
    (h : tokenize source file = .ok ts) (file' : Option String) :
    ∃ us, tokenize (normalized ts) file' = .ok us ∧
      us.map (fun t => (t.kind, t.lexeme)) = ts.map (fun t => (t.kind, t.lexeme)) ∧
      Alike (fun p q => p.bare = q.bare) (parseProgram ts) (parseProgram us) ∧
      normalized us = normalized ts := by
  have hlexical : ∀ w ∈ ts.map Token.word, w.Lexical := by
    intro w hw
    obtain ⟨t, ht, rfl⟩ := List.mem_map.mp hw
    exact tokenize_lexical h ht
  obtain ⟨us, hus, hwords⟩ := Word.tokenize_spaced hlexical file'
  rw [normalized_eq_spaced]
  refine ⟨us, hus, ?_, parseProgram_alike (sameWords_iff.mpr hwords.symm), ?_⟩
  · have hpairs := congrArg (List.map fun w : Word => (w.kind, w.text)) hwords
    rw [List.map_map, List.map_map] at hpairs
    exact hpairs
  · rw [normalized_eq_spaced, hwords]

/-- A text with line ends, a tab, and words that nothing stands between. -/
def crowdedText : String := "LET x=(1+-2)*3;\tDEF f()DO\n\n  x=\"a  b\"<=NIL;END"

theorem crowdedText_normalized : ∃ ts us, tokenize crowdedText none = .ok ts ∧
    normalized ts =
      "LET x = ( 1 + -2 ) * 3 ; DEF f ( ) DO x = \"a  b\" <= NIL ; END" ∧
    tokenize (normalized ts) none = .ok us ∧
    us.map (fun t => (t.kind, t.lexeme)) = ts.map (fun t => (t.kind, t.lexeme)) ∧
    (parseProgram ts).toOption.isSome = true ∧
    Alike (fun p q => p.bare = q.bare) (parseProgram ts) (parseProgram us) := by
  have hread : (tokenize crowdedText none).toOption.any (fun ts =>
      normalized ts == "LET x = ( 1 + -2 ) * 3 ; DEF f ( ) DO x = \"a  b\" <= NIL ; END" &&
      (parseProgram ts).toOption.isSome) = true := by
    decide +kernel
  cases hts : tokenize crowdedText none with
  | error e => rw [hts] at hread; cases hread
  | ok ts =>
      rw [hts] at hread
      obtain ⟨htext, hparse⟩ := Bool.and_eq_true_iff.mp hread
      obtain ⟨us, hus, hpairs, halike, -⟩ := tokenize_normalized hts none
      exact ⟨ts, us, rfl, eq_of_beq htext, hus, hpairs, hparse, halike⟩

end QuillLang
