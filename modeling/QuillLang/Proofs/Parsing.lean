/-
# Reading trees follows the grammar

Each function that reads a tree from tokens reads a phrase of the grammar.
They are taken together by induction on the fuel.  The fuel that is needed is
sixteen for every token that is left and a few more for the functions that call
each other without taking a token, so that what `fuelFor` gives is enough.
-/
import QuillLang.Proofs.PhraseReading

namespace QuillLang

open Grammar

/-! ## Levels of operators

The functions have a level as a parameter where the grammar has a symbol for each.  `depth` counts
the calls that are made without taking a token. -/

namespace Parse.Level

/-- The symbol of a level. -/
def rank : Level → Rank
  | logical => .logical
  | comparison => .comparison
  | additive => .additive
  | multiplicative => .multiplicative

/-- The symbol of the operands of a level. -/
def operandRank : Level → Rank
  | logical => .comparison
  | comparison => .additive
  | additive => .multiplicative
  | multiplicative => .secondary

/-- What the operators of a level are written with. -/
def texts (lv : Level) : List String := lv.operators.map Operator.lexeme

/-- The calls from a level down to a primary. -/
def depth : Level → Nat
  | logical => 10
  | comparison => 8
  | additive => 6
  | multiplicative => 4

theorem operator?_eq_some {lv : Level} {t : Token} {op : Operator} (ht : t.Plain)
    (h : lv.operator? t = some op) :
    t.terminal ∈ lv.texts.map Terminal.word ∧ operatorOf t = op := by
  have his : t.is op.lexeme = true := by simpa using List.find?_some h
  have hmem : op ∈ lv.operators := List.mem_of_find?_eq_some h
  constructor
  · rw [(Token.is_iff ht (by cases op <;> decide)).mp his]
    exact List.mem_map_of_mem (List.mem_map_of_mem hmem)
  · have hlex : t.lexeme = op.lexeme := by
      simp only [Token.is, Bool.and_eq_true, decide_eq_true_eq] at his
      exact his.1
    rw [operatorOf, hlex]
    cases op <;> decide

theorem operator?_eq_none {lv : Level} {t : Token} (ht : t.Plain)
    (h : lv.operator? t = none) : t.terminal ∉ lv.texts.map Terminal.word := by
  intro hmem
  obtain ⟨text, htext, hword⟩ := List.mem_map.mp hmem
  obtain ⟨op, hop, rfl⟩ := List.mem_map.mp htext
  have his := (Token.is_iff ht (by cases op <;> decide)).mpr hword.symm
  exact List.find?_eq_none.mp h op hop his

end Parse.Level

/-! ## Expressions

Each function is followed along the definition of its symbol, with the choices in the order in
which it makes them.  The fuel is counted against the tokens that are left, so that taking one pays
for the next round. -/

theorem Token.terminal_word_or_name {t : Token} (h : t.isLiteral = false) :
    t.terminal = .name ∨ t.terminal = .word t.lexeme := by
  unfold Token.isLiteral at h
  unfold Token.terminal
  split at h
  all_goals try cases h
  · next hk => rw [hk]; dsimp only; split <;> simp
  · next hk => rw [hk]; simp

theorem Numeral.read_of_le {cs : List Char} (h : (Numeral.sign cs).2.length ≤ maxDigits) :
    Numeral.read cs =
      .ok (Numeral.signed (Numeral.sign cs).1 (Numeral.ofDigits (Numeral.sign cs).2)) :=
  if_pos h

theorem Numeral.read_of_lt {cs : List Char} (h : maxDigits < (Numeral.sign cs).2.length) :
    Numeral.read cs = .error (.reading (Numeral.sign cs).2.length) :=
  if_neg (Nat.not_le.mpr h)

theorem Token.legible_or_overlong {t : Token} (ht : t.Plain) :
    t.Legible ∨ ∃ limit, t.Overlong limit := by
  by_cases hover : t.kind = .integer ∧ maxDigits < t.digitCount
  · exact .inr ⟨_, hover.1, hover.2, rfl⟩
  · exact .inl ⟨ht, fun hk => Nat.not_lt.mp fun hlt => hover ⟨hk, hlt⟩⟩

theorem Parse.literal?_overlong {t : Token} {limit : DigitLimit} (h : t.Overlong limit) :
    Parse.literal? t = some (.error limit) := by
  have hword : ∀ text, t.is text = false := by simp [Token.is, h.kind]
  obtain ⟨hkind, hdigits, rfl⟩ := h
  simp only [Parse.literal?, hword, hkind, Numeral.read_of_lt hdigits]
  rfl

/-- A token is read as a literal if and only if the grammar has it as one. -/
theorem Parse.literal?_eq {t : Token} (ht : t.Legible) :
    Parse.literal? t =
      if t.terminal ∈ Phrase.literals.first then some (.ok (literalOf t)) else none := by
  have hnil := Token.is_iff ht.name (show isReserved "NIL" = true from rfl)
  have htrue := Token.is_iff ht.name (show isReserved "TRUE" = true from rfl)
  have hfalse := Token.is_iff ht.name (show isReserved "FALSE" = true from rfl)
  simp only [Parse.literal?, hnil, htrue, hfalse]
  cases hk : t.kind with
  | integer =>
      have hterm : t.terminal = .literal .integer := by simp [Token.terminal, hk]
      simp [hterm, Phrase.literals, Phrase.first, literalOf, Numeral.read_of_le (ht.digits hk),
        Except.map]
  | decimal =>
      have hterm : t.terminal = .literal .decimal := by simp [Token.terminal, hk]
      simp [hterm, Phrase.literals, Phrase.first, literalOf]
  | character =>
      have hterm : t.terminal = .literal .character := by simp [Token.terminal, hk]
      simp [hterm, Phrase.literals, Phrase.first, literalOf]
  | string =>
      have hterm : t.terminal = .literal .string := by simp [Token.terminal, hk]
      simp [hterm, Phrase.literals, Phrase.first, literalOf]
  | identifier | operator =>
      rcases Token.terminal_word_or_name (t := t) (by simp [Token.isLiteral, hk]) with hterm | hterm
      · simp [hterm, Phrase.literals, Phrase.first]
      · by_cases h₁ : t.lexeme = "NIL"
        · simp [hterm, h₁, Phrase.literals, Phrase.first, literalOf]
        · by_cases h₂ : t.lexeme = "TRUE"
          · simp [hterm, h₂, Phrase.literals, Phrase.first, literalOf]
          · by_cases h₃ : t.lexeme = "FALSE"
            · simp [hterm, h₃, Phrase.literals, Phrase.first, literalOf]
            · simp [hterm, h₁, h₂, h₃, Phrase.literals, Phrase.first]

theorem admits_literalOf (t : Token) :
    (Nonterminal.expr .primary).admits (literalOf t) = true := by
  unfold literalOf
  split <;> rfl

namespace Reads

variable {short : Prop} {t : Token} {ts : List Token}

theorem literal (h : Phrase.literals.Starts (t :: ts)) :
    Reads (.rule (.expr .primary)) short (fun e : Expr Place => e) (t :: ts)
      (.ok (literalOf t, ts)) :=
  fun _ => ⟨.rule (.left (.token t h)), rfl, trivial, ⟨trivial, admits_literalOf t⟩, rfl⟩

/-- A name or a call. -/
theorem named {r : Except ParseFailure (Leaving (Expr Place))}
    (hlit : ¬ Phrase.literals.Starts ts)
    (hgroup : ¬ (Phrase.row (.word "(") [.expression, .word ")"]).Starts ts)
    (h : Reads (.seq .name (.opt .call)) short (fun v => primaryOf (.inr (.inr v))) ts r) :
    Reads (.rule (.expr .primary)) short (fun e : Expr Place => e) ts r := by
  refine h.imp (fun d rest _ hc hp => ?_) (fun _ hf => .rule (.right hlit (.right hgroup hf))) id
  refine ⟨.rule (.right (.right d)), rfl, hc, ⟨hp, ?_⟩, rfl⟩
  show (Nonterminal.expr .primary).admits (primaryOf (.inr (.inr d.value))) = true
  match d.value with
  | (_, none) => rfl
  | (_, some _) => rfl

/-- A parenthesis is refused unless it holds a binary expression. -/
theorem ofRow {r : Except ParseFailure (Leaving (Expr Place))}
    (hlit : ¬ Phrase.literals.Starts (t :: ts)) (ht : t.terminal ∈ [Terminal.word "("])
    (h : Reads (.row (.word "(") [.expression, .word ")"]) short (fun v => v.2.1) (t :: ts) r) :
    Reads (.rule (.expr .primary)) short (fun e : Expr Place => e) (t :: ts)
      (r >>= fun x =>
        if x.1.isBinary then .ok (.group (some t.location) x.1, x.2)
        else Parse.unexpected .binaryInGroup (t :: ts)) := by
  intro hts
  match r, h hts with
  | .ok (inner, rest), ⟨d, hy, hc, hp, hv⟩ =>
      subst hv
      cases d with
      | seq d e =>
          cases d with
          | token t' ht' =>
              obtain ⟨rfl, -⟩ := List.cons.inj hy
              show Answers _ _ _ _ (if _ then _ else _)
              split
              · next hbin =>
                  exact ⟨.rule (.right (.left (.seq (.token t ht') e))), hy, hc, ⟨hp, hbin⟩, rfl⟩
              · next hbin =>
                  show Fails _ _ (.refused (t :: ts))
                  rw [hy]
                  exact Fails.refused (n := .expr .primary)
                    (.right (.left (.seq (.token t ht') e))) hc hp (Bool.eq_false_iff.mpr hbin)
  | .error (.unexpected _), hf => exact .rule (.right hlit (.left ht hf))
  | .error .outOfFuel, hf => exact hf
  | .error (.digits _), hf => exact hf
  | .error .noToken, hf => exact hf

theorem group {m : Except ParseFailure (Leaving (Expr Place))}
    (hlit : ¬ Phrase.literals.Starts (t :: ts)) (ht : t.terminal ∈ [Terminal.word "("])
    (h : Reads .expression short (fun e : Expr Place => e) ts m) :
    Reads (.rule (.expr .primary)) short (fun e : Expr Place => e) (t :: ts)
      (m >>= fun x => Parse.expect ")" .closeGroup x.2 >>= fun y =>
        if x.1.isBinary then .ok (.group (some t.location) x.1, y.2)
        else Parse.unexpected .binaryInGroup (t :: ts)) := by
  have hrow : Reads (.row (.word "(") [.expression, .word ")"]) short (fun v => v.2.1) (t :: ts)
      (m >>= fun x => Parse.expect ")" .closeGroup x.2 >>= fun y => .ok (x.1, y.2)) :=
    tokenSeq ht (seq h fun _ _ _ => map (expect rfl fun _ => rfl) fun _ _ => rfl)
  -- the parenthesis is read to its end before it is looked at
  have heq : ((m >>= fun x => Parse.expect ")" .closeGroup x.2 >>= fun y => .ok (x.1, y.2)) >>=
        fun x => if x.1.isBinary then .ok (Expr.group (some t.location) x.1, x.2)
          else Parse.unexpected .binaryInGroup (t :: ts)) =
      m >>= fun x => Parse.expect ")" .closeGroup x.2 >>= fun y =>
        if x.1.isBinary then .ok (Expr.group (some t.location) x.1, y.2)
        else Parse.unexpected .binaryInGroup (t :: ts) := by
    simp only [bind_assoc]
    rfl
  exact (congrArg (Reads _ short _ (t :: ts)) heq).mp (ofRow hlit ht hrow)

end Reads

/-- With so much fuel, every function for expressions reads its phrase. -/
structure ReadsExpressions (n : Nat) : Prop where
  level : ∀ lv ts, Reads (.rule (.expr lv.rank)) (n < 16 * ts.length + lv.depth)
    (fun e : Expr Place => e) ts (Parse.level n lv ts)
  operand : ∀ lv ts, Reads (.rule (.expr lv.operandRank)) (n < 16 * ts.length + (lv.depth - 1))
    (fun e : Expr Place => e) ts (Parse.operand n lv ts)
  operations : ∀ lv left ts,
    Reads (.many (.seq (.words lv.texts) (.rule (.expr lv.operandRank))))
      (n < 16 * ts.length + 1) (fun v => List.foldl operation left v) ts
      (Parse.operations n lv left ts)
  secondary : ∀ ts, Reads (.rule (.expr .secondary)) (n < 16 * ts.length + 2)
    (fun e : Expr Place => e) ts (Parse.secondary n ts)
  members : ∀ receiver ts, Reads (.many .member) (n < 16 * ts.length + 1)
    (fun v => List.foldl memberOf receiver v) ts (Parse.members n receiver ts)
  arguments : ∀ ts, Reads (.seq (.opt (.rule .arguments)) (.word ")")) (n < 16 * ts.length + 12)
    (fun v => Option.getD v.1 []) ts (Parse.arguments n ts)
  moreArguments : ∀ ts, Reads
    (.seq .expression (.seq (.many (.seq (.word ",") .expression)) (.word ")")))
    (n < 16 * ts.length + 11) (fun v => List.cons v.1 (List.map Prod.snd v.2.1)) ts
    (Parse.moreArguments n ts)
  primary : ∀ ts, Reads (.rule (.expr .primary)) (n < 16 * ts.length + 1)
    (fun e : Expr Place => e) ts (Parse.primary n ts)

namespace ReadsExpressions

variable {n : Nat}

theorem expression (ih : ReadsExpressions n) (ts : List Token) :
    Reads .expression (n < 16 * ts.length + 10) (fun e : Expr Place => e) ts
      (Parse.level n .logical ts) :=
  Reads.rule (n := .expr .expression) (ih.level .logical ts) (fun _ => rfl) fun _ _ _ => rfl

theorem level_succ (ih : ReadsExpressions n) (lv : Parse.Level) (ts : List Token) :
    Reads (.rule (.expr lv.rank)) (n + 1 < 16 * ts.length + lv.depth) (fun e : Expr Place => e) ts
      (Parse.level (n + 1) lv ts) := by
  have hchain : Reads (.chain lv.operandRank lv.texts) (n + 1 < 16 * ts.length + lv.depth)
      chainOf ts (Parse.level (n + 1) lv ts) := by
    have hdepth : 0 < lv.depth := by cases lv <;> decide
    refine Reads.seq ((ih.operand lv ts).weaken (by omega)) fun e rest hlen => ?_
    have hlen : rest.length + 1 ≤ ts.length := hlen
    exact (ih.operations lv e rest).weaken (by omega)
  cases lv <;> exact Reads.rule hchain (fun _ => rfl) fun _ _ _ => rfl

theorem operand_succ (ih : ReadsExpressions n) (lv : Parse.Level) (ts : List Token) :
    Reads (.rule (.expr lv.operandRank)) (n + 1 < 16 * ts.length + (lv.depth - 1))
      (fun e : Expr Place => e) ts (Parse.operand (n + 1) lv ts) := by
  cases lv with
  | logical => exact (ih.level .comparison ts).weaken (by simp only [Parse.Level.depth]; omega)
  | comparison => exact (ih.level .additive ts).weaken (by simp only [Parse.Level.depth]; omega)
  | additive =>
      exact (ih.level .multiplicative ts).weaken (by simp only [Parse.Level.depth]; omega)
  | multiplicative => exact (ih.secondary ts).weaken (by simp only [Parse.Level.depth]; omega)

theorem operations_succ (ih : ReadsExpressions n) (lv : Parse.Level) (left : Expr Place)
    (ts : List Token) :
    Reads (.many (.seq (.words lv.texts) (.rule (.expr lv.operandRank))))
      (n + 1 < 16 * ts.length + 1) (fun v => List.foldl operation left v) ts
      (Parse.operations (n + 1) lv left ts) := by
  refine Reads.of_plain fun hts => ?_
  cases ts with
  | nil => exact Reads.done id
  | cons t ts =>
      have ht := hts t List.mem_cons_self
      simp only [Parse.operations]
      split
      · next hop => exact Reads.done (Parse.Level.operator?_eq_none ht hop)
      · next op hop =>
          obtain ⟨hmem, rfl⟩ := Parse.Level.operator?_eq_some ht hop
          refine Reads.more hmem (Reads.assoc ?_)
          refine Reads.tokenSeq hmem
            (Reads.seq ((ih.operand lv ts).weaken ?_) fun e rest hlen => ?_)
          · have : lv.depth ≤ 10 := by cases lv <;> decide
            simp only [List.length_cons]
            omega
          · have hlen : rest.length + 1 ≤ ts.length := hlen
            refine (ih.operations lv _ rest).weaken ?_
            simp only [List.length_cons]
            omega

theorem secondary_succ (ih : ReadsExpressions n) (ts : List Token) :
    Reads (.rule (.expr .secondary)) (n + 1 < 16 * ts.length + 2) (fun e : Expr Place => e) ts
      (Parse.secondary (n + 1) ts) := by
  refine Reads.rule (n := .expr .secondary) (f := fun v => List.foldl memberOf v.1 v.2) ?_
    (fun _ => rfl) fun _ _ _ => rfl
  refine Reads.seq ((ih.primary ts).weaken (by omega)) fun e rest hlen => ?_
  have hlen : rest.length + 1 ≤ ts.length := hlen
  exact (ih.members e rest).weaken (by omega)

theorem members_succ (ih : ReadsExpressions n) (receiver : Expr Place) (ts : List Token) :
    Reads (.many .member) (n + 1 < 16 * ts.length + 1) (fun v => List.foldl memberOf receiver v) ts
      (Parse.members (n + 1) receiver ts) := by
  refine Reads.byWord .member rfl rfl (fun hs _ => ?_) (fun hs _ => Reads.done hs)
  refine Reads.more hs (Reads.assoc (Reads.seq (Reads.next hs) fun _ ts₁ h₁ => ?_))
  refine Reads.assoc (Reads.seq (Reads.expectName fun _ => rfl) fun name ts₂ h₂ => ?_)
  have h₁ : ts₁.length + 1 ≤ ts.length := h₁
  have h₂ : ts₂.length + 1 ≤ ts₁.length := h₂
  refine Reads.byWord .call rfl rfl (fun hs _ => ?_) (fun hs _ => ?_)
  · refine Reads.presentSeq hs (Reads.assoc (Reads.seq (Reads.next hs) fun _ ts₃ h₃ => ?_))
    have h₃ : ts₃.length + 1 ≤ ts₂.length := h₃
    refine Reads.seq ((ih.arguments ts₃).weaken (by omega)) fun args ts₄ h₄ => ?_
    have h₄ : ts₄.length + 1 ≤ ts₃.length := h₄
    exact (ih.members _ ts₄).weaken (by omega)
  · exact Reads.absentSeq hs ((ih.members _ ts₂).weaken (by omega))

theorem arguments_succ (ih : ReadsExpressions n) (ts : List Token) :
    Reads (.seq (.opt (.rule .arguments)) (.word ")")) (n + 1 < 16 * ts.length + 12)
      (fun v => Option.getD v.1 []) ts (Parse.arguments (n + 1) ts) := by
  refine Reads.byWord (.word ")") rfl rfl (fun hs _ => ?_) (fun hs _ => ?_)
  · refine Reads.absentSeq (hs.disjoint (by decide)) (Reads.map (Reads.next hs) fun _ _ => rfl)
  · refine Reads.presentSeq_of_fails Nat.one_pos (.token hs) ?_
    refine Reads.ruleSeq (n := .arguments)
      (f := fun v => List.cons v.1.1 (List.map Prod.snd v.1.2)) ?_ (fun _ => rfl) fun _ _ _ _ => rfl
    exact Reads.assoc <| (ih.moreArguments ts).weaken (by omega)

theorem moreArguments_succ (ih : ReadsExpressions n) (ts : List Token) :
    Reads (.seq .expression (.seq (.many (.seq (.word ",") .expression)) (.word ")")))
      (n + 1 < 16 * ts.length + 11) (fun v => List.cons v.1 (List.map Prod.snd v.2.1)) ts
      (Parse.moreArguments (n + 1) ts) := by
  refine Reads.seq ((ih.expression ts).weaken (by omega)) fun e ts₁ h₁ => ?_
  have h₁ : ts₁.length + 1 ≤ ts.length := h₁
  refine Reads.byWord (.seq (.word ",") .expression) rfl rfl (fun hs _ => ?_) (fun hs _ => ?_)
  · refine Reads.moreSeq hs (Reads.assoc (Reads.seq (Reads.next hs) fun _ ts₂ h₂ => ?_))
    have h₂ : ts₂.length + 1 ≤ ts₁.length := h₂
    exact Reads.map ((ih.moreArguments ts₂).weaken (by omega)) fun _ _ => rfl
  · exact Reads.doneSeq hs (Reads.map (Reads.expect rfl fun _ => rfl) fun _ _ => rfl)

theorem primary_succ (ih : ReadsExpressions n) (ts : List Token) :
    Reads (.rule (.expr .primary)) (n + 1 < 16 * ts.length + 1) (fun e : Expr Place => e) ts
      (Parse.primary (n + 1) ts) := by
  refine Reads.of_plain fun hts => ?_
  cases ts with
  | nil => exact fun _ => .rule (.right id (.right id (.first (.token id))))
  | cons t ts =>
      have ht := hts t List.mem_cons_self
      have hparen := Token.is_iff ht (show isReserved "(" = true from rfl)
      rcases Token.legible_or_overlong ht with ht | ⟨limit, hover⟩
      case inr =>
        simp only [Parse.primary, Parse.literal?_overlong hover]
        exact fun _ => ⟨t, List.mem_cons_self, hover⟩
      simp only [Parse.primary, Parse.literal?_eq ht]
      by_cases hlit : t.terminal ∈ Phrase.literals.first
      · rw [if_pos hlit]
        exact Reads.literal hlit
      rw [if_neg hlit]
      dsimp only
      split
      · next h =>
          have hword : t.terminal ∈ [Terminal.word "("] := List.mem_singleton.mpr (hparen.mp h)
          refine Reads.group hlit hword ((ih.expression ts).weaken ?_)
          simp only [List.length_cons]
          omega
      · next h =>
          have hgroup : ¬ (Phrase.row (.word "(") [.expression, .word ")"]).Starts (t :: ts) :=
            fun hs => h (hparen.mpr (List.mem_singleton.mp hs))
          refine Reads.named hlit hgroup ?_
          split
          · next hname =>
              refine Reads.tokenSeq (List.mem_singleton.mpr (Token.isName_iff.mp hname)) ?_
              refine Reads.byWord .call rfl rfl (fun hs _ => ?_) (fun hs _ => Reads.absent hs)
              refine Reads.present hs (Reads.seq (Reads.next hs) fun _ ts₁ h₁ => ?_)
              have h₁ : ts₁.length + 1 ≤ ts.length := h₁
              refine Reads.map ((ih.arguments ts₁).weaken ?_) fun _ _ => rfl
              simp only [List.length_cons]
              omega
          · next hname =>
              refine fun _ => .first (.token fun hs => hname ?_)
              exact Token.isName_iff.mpr (List.mem_singleton.mp hs)

end ReadsExpressions

theorem readsExpressions : ∀ n, ReadsExpressions n
  | 0 =>
    { level := fun lv ts => Reads.outOfFuel (by cases lv <;> simp [Parse.Level.depth])
      operand := fun lv ts => Reads.outOfFuel (by cases lv <;> simp [Parse.Level.depth])
      operations := fun lv left ts => Reads.outOfFuel (Nat.succ_pos _)
      secondary := fun ts => Reads.outOfFuel (Nat.succ_pos _)
      members := fun receiver ts => Reads.outOfFuel (Nat.succ_pos _)
      arguments := fun ts => Reads.outOfFuel (Nat.succ_pos _)
      moreArguments := fun ts => Reads.outOfFuel (Nat.succ_pos _)
      primary := fun ts => Reads.outOfFuel (Nat.succ_pos _) }
  | n + 1 =>
    have ih := readsExpressions n
    { level := ih.level_succ
      operand := ih.operand_succ
      operations := ih.operations_succ
      secondary := ih.secondary_succ
      members := ih.members_succ
      arguments := ih.arguments_succ
      moreArguments := ih.moreArguments_succ
      primary := ih.primary_succ }

theorem Reads.expression (n : Nat) (ts : List Token) :
    Reads .expression (n < 16 * ts.length + 10) (fun e : Expr Place => e) ts
      (Parse.expression n ts) :=
  (readsExpressions n).expression ts

/-! ## Declarations and simple statements -/

namespace Reads

theorem initialValue (n : Nat) (ts : List Token) :
    Reads (.opt (.seq (.word "=") .expression)) (n < 16 * ts.length + 1)
      (fun v => Option.map Prod.snd v) ts (Parse.initialValue n ts) := by
  refine byWord (.seq (.word "=") .expression) rfl rfl (fun hs _ => ?_) (fun hs _ => absent hs)
  refine present hs (seq (next hs) fun _ ts₁ h₁ => ?_)
  have h₁ : ts₁.length + 1 ≤ ts.length := h₁
  exact map ((expression n ts₁).weaken (by omega)) fun _ _ => rfl

theorem declaration (n : Nat) (ts : List Token) :
    Reads (.rule .declaration) (n < 16 * ts.length + 1) (fun d : Parse.Declaration => d) ts
      (Parse.declaration n ts) := by
  refine rule (n := .declaration) (f := Nonterminal.tree .declaration []) ?_ (fun _ => rfl)
    fun _ _ _ => rfl
  refine seq (expectName fun _ => rfl) fun _ ts₁ h₁ => ?_
  refine seq (colonName fun _ => rfl) fun _ ts₂ h₂ => ?_
  have h₁ : ts₁.length + 1 ≤ ts.length := h₁
  have h₂ : ts₂.length ≤ ts₁.length := h₂
  refine seq ((initialValue n ts₂).weaken (by omega)) fun _ ts₃ _ => ?_
  exact map (expect rfl fun _ => rfl) fun _ _ => rfl

theorem simple (n : Nat) (p : Place) (ts : List Token) :
    Reads (.row .expression [.opt (.seq (.word "=") .expression), .word ";"])
      (n < 16 * ts.length + 10) (fun v => statementOf p (.inr (.inr (.inr (.inr (.inr v)))))) ts
      (Parse.simple n p ts) := by
  refine seq (expression n ts) fun e ts₁ h₁ => ?_
  have h₁ : ts₁.length + 1 ≤ ts.length := h₁
  refine byWord (.seq (.word "=") .expression) rfl rfl (fun hs _ => ?_) (fun hs _ => ?_)
  · refine presentSeq hs (assoc (seq (next hs) fun _ ts₂ h₂ => ?_))
    have h₂ : ts₂.length + 1 ≤ ts₁.length := h₂
    refine seq ((expression n ts₂).weaken (by omega)) fun _ ts₃ _ => ?_
    exact map (expect rfl fun _ => rfl) fun _ _ => rfl
  · exact absentSeq hs (map (expect rfl fun _ => rfl) fun _ _ => rfl)

end Reads

/-! ## Blocks and statements

A block stops in front of a word that may end it, and fails where neither a
statement nor such a word comes.  It is therefore read together with what comes
after it.
-/

theorem Parse.stops_iff {stop : BlockEnd} {ts : List Token} (hts : Plain ts) :
    Parse.stops stop ts = true ↔ (Phrase.words stop.words).Starts ts := by
  cases ts with
  | nil => cases stop <;> exact ⟨Bool.false_ne_true, False.elim⟩
  | cons t rest =>
      have ht := hts t List.mem_cons_self
      cases stop with
      | atEnd =>
          simp [Parse.stops, BlockEnd.words, Parse.at?, Phrase.Starts, Phrase.first,
            Token.is_iff ht (show isReserved "END" = true from rfl)]
      | atElseOrEnd =>
          simp [Parse.stops, BlockEnd.words, Parse.at?, Phrase.Starts, Phrase.first,
            Token.is_iff ht (show isReserved "END" = true from rfl),
            Token.is_iff ht (show isReserved "ELSE" = true from rfl)]

/-- `ELSE` and statements. -/
abbrev Grammar.Phrase.elsePart : Phrase := .seq (.word "ELSE") (.many (.rule .statement))

/-- With so much fuel, every function for statements reads its phrase. -/
structure ReadsStatements (n : Nat) : Prop where
  statement : ∀ ts, ts ≠ [] → Reads (.rule .statement) (n < 16 * ts.length + 11)
    (fun s : Stmt Place => s) ts (Parse.statement n ts)
  block : ∀ {γ : Type} {c : Phrase} {short : Prop} {stop : BlockEnd} {ts : List Token}
    {g : (Phrase.seq (.many (.rule .statement)) c).Value → γ}
    {k : Leaving (List (Stmt Place)) → Except ParseFailure (Leaving γ)},
    (n < 16 * ts.length + 12 → short) →
    (∀ rest, ¬ (Phrase.words stop.words).Starts rest → Fails c rest (.stuck rest)) →
    (∀ v rest, rest.length ≤ ts.length → (Phrase.words stop.words).Starts rest →
      Reads c short (fun w => g (v, w)) rest (k (v, rest))) →
    Reads (.seq (.many (.rule .statement)) c) short g ts (Parse.block n stop ts >>= k)
  otherwise : ∀ {γ : Type} {short : Prop} {ts : List Token}
    {g : (Phrase.seq (.opt .elsePart) (.word "END")).Value → γ}
    {k : Leaving (List (Stmt Place)) → Except ParseFailure (Leaving γ)},
    (n < 16 * ts.length + 1 → short) →
    (Phrase.words BlockEnd.atElseOrEnd.words).Starts ts →
    (∀ v rest, (Phrase.word "END").Starts rest →
      Reads (.word "END") short (fun w => g (v, w)) rest
        (k ((Option.map Prod.snd v).getD [], rest))) →
    Reads (.seq (.opt .elsePart) (.word "END")) short g ts (Parse.otherwise n ts >>= k)

namespace ReadsStatements

variable {n : Nat} {γ : Type} {c : Phrase} {short : Prop} {ts : List Token}

theorem block_succ (ih : ReadsStatements n) {stop : BlockEnd}
    {g : (Phrase.seq (.many (.rule .statement)) c).Value → γ}
    {k : Leaving (List (Stmt Place)) → Except ParseFailure (Leaving γ)}
    (hshort : n + 1 < 16 * ts.length + 12 → short)
    (hfail : ∀ rest, ¬ (Phrase.words stop.words).Starts rest → Fails c rest (.stuck rest))
    (hk : ∀ v rest, rest.length ≤ ts.length → (Phrase.words stop.words).Starts rest →
      Reads c short (fun w => g (v, w)) rest (k (v, rest))) :
    Reads (.seq (.many (.rule .statement)) c) short g ts (Parse.block (n + 1) stop ts >>= k) := by
  refine Reads.of_plain fun hts => ?_
  by_cases hs : (Phrase.words stop.words).Starts ts
  · have heq : Parse.block (n + 1) stop ts = .ok ([], ts) := by
      simp [Parse.block, (Parse.stops_iff hts).mpr hs]
    rw [heq]
    exact Reads.doneSeq (hs.disjoint (by cases stop <;> decide)) (hk [] ts (Nat.le_refl _) hs)
  · have hstops : Parse.stops stop ts = false :=
      Bool.eq_false_iff.mpr fun h => hs ((Parse.stops_iff hts).mp h)
    cases ts with
    | nil =>
        have heq : Parse.block (n + 1) stop [] = Parse.unexpected (.blockEnd stop) [] := by
          simp [Parse.block, hstops]
        rw [heq]
        exact fun _ => .second .done id trivial (hfail [] hs)
    | cons t ts =>
        have heq : Parse.block (n + 1) stop (t :: ts) >>= k =
            Parse.statement n (t :: ts) >>= fun x => Parse.block n stop x.2 >>= fun y =>
              k (x.1 :: y.1, y.2) := by
          simp only [Parse.block, hstops, List.isEmpty_cons, Bool.false_eq_true, if_false,
            bind_assoc]
          rfl
        rw [heq]
        refine Reads.moreSeq_of_fails Nat.one_pos (hfail _ hs) ?_
        have hst := ih.statement (t :: ts) (List.cons_ne_nil t ts)
        refine Reads.seq (hst.weaken fun h => hshort (by omega)) fun s rest hlen => ?_
        have hlen : rest.length + 1 ≤ (t :: ts).length := hlen
        refine ih.block (fun h => hshort (by omega)) hfail fun v rest' hlen' hs' => ?_
        exact hk (s :: v) rest' (by omega) hs'

theorem fails_end {rest : List Token} (h : ¬ (Phrase.words BlockEnd.atEnd.words).Starts rest) :
    Fails (.word "END") rest (.stuck rest) := .token h

theorem otherwise_succ (ih : ReadsStatements n)
    {g : (Phrase.seq (.opt .elsePart) (.word "END")).Value → γ}
    {k : Leaving (List (Stmt Place)) → Except ParseFailure (Leaving γ)}
    (hshort : n + 1 < 16 * ts.length + 1 → short)
    (hs : (Phrase.words BlockEnd.atElseOrEnd.words).Starts ts)
    (hk : ∀ v rest, (Phrase.word "END").Starts rest →
      Reads (.word "END") short (fun w => g (v, w)) rest
        (k ((Option.map Prod.snd v).getD [], rest))) :
    Reads (.seq (.opt .elsePart) (.word "END")) short g ts (Parse.otherwise (n + 1) ts >>= k) := by
  have heq : Parse.otherwise (n + 1) ts >>= k =
      if Parse.at? "ELSE" ts = true then
        Parse.next ts >>= fun x => Parse.block n .atEnd x.2 >>= k
      else k ([], ts) := by
    simp only [Parse.otherwise]
    split
    · exact bind_assoc ..
    · rfl
  rw [heq]
  refine Reads.byWord .elsePart rfl rfl (fun helse _ => ?_) (fun helse _ => ?_)
  · refine Reads.presentSeq helse (Reads.assoc (Reads.seq (Reads.next helse) fun t ts₁ h₁ => ?_))
    have h₁ : ts₁.length + 1 ≤ ts.length := h₁
    refine ih.block (fun h => hshort (by omega)) (fun _ => fails_end) fun v rest _ hend => ?_
    exact hk (some (t, v)) rest hend
  · refine Reads.absentSeq helse (hk none ts ?_)
    cases ts with
    | nil => exact hs
    | cons t ts =>
        rcases List.mem_cons.mp hs with h | h
        · exact absurd (List.mem_singleton.mpr h) helse
        · exact h

/-- The statements of a loop or a method, through `END`. -/
theorem body (ih : ReadsStatements n) {g : Phrase.body.Value → γ}
    {k : Leaving (List (Stmt Place)) → Leaving Token → Except ParseFailure (Leaving γ)}
    (hshort : n < 16 * ts.length + 12 → short)
    (hk : ∀ x t rest, k x (t, rest) = .ok (g (x.1, t), rest)) :
    Reads .body short g ts
      (Parse.block n .atEnd ts >>= fun x => Parse.next x.2 >>= fun y => k x y) :=
  ih.block hshort (fun _ => fails_end) fun v rest _ hend =>
    Reads.map (Reads.next hend) fun t rest' => hk (v, rest) t rest'

theorem branch (ih : ReadsStatements n) (p : Place) (t : Token) :
    Reads (.rule .branch) (n < 16 * ts.length + 10)
      (fun v => statementOf p (.inr (.inl (t, v)))) ts
      (Parse.expression n ts >>= fun x => Parse.expect "DO" .branchBody x.2 >>= fun y =>
        Parse.block n .atElseOrEnd y.2 >>= fun z => Parse.otherwise n z.2 >>= fun w =>
          Parse.next w.2 >>= fun u => .ok (.branch p x.1 z.1 w.1, u.2)) := by
  refine Reads.rule (n := .branch)
    (f := fun v => statementOf p (.inr (.inl (t, Nonterminal.tree .branch [] v)))) ?_
    (fun _ => rfl) fun _ _ _ => rfl
  refine Reads.seq (Reads.expression n ts) fun _ ts₁ h₁ => ?_
  refine Reads.seq (Reads.expect rfl fun _ => rfl) fun _ ts₂ h₂ => ?_
  have h₁ : ts₁.length + 1 ≤ ts.length := h₁
  have h₂ : ts₂.length + 1 ≤ ts₁.length := h₂
  refine ih.block (by omega) (fun rest h => ?_) fun v ts₃ h₃ hs => ?_
  · -- neither `ELSE` nor `END` comes
    refine .second .absent (fun helse => h (helse.mono ?_)) trivial
      (.token fun hend => h (hend.mono ?_))
    · decide
    · decide
  · refine ih.otherwise (by omega) hs fun _ _ hend => ?_
    exact Reads.map (Reads.next hend) fun _ _ => rfl

theorem forIn (ih : ReadsStatements n) (p : Place) (t : Token) :
    Reads (.rule .forIn) (n < 16 * ts.length + 10)
      (fun v => statementOf p (.inr (.inr (.inl (t, v))))) ts
      (Parse.expectName .loopName ts >>= fun x => Parse.expect "IN" .loopIn x.2 >>= fun y =>
        Parse.expression n y.2 >>= fun z => Parse.expect "DO" .forBody z.2 >>= fun w =>
          Parse.block n .atEnd w.2 >>= fun u => Parse.next u.2 >>= fun s =>
            .ok (.forIn p x.1.lexeme z.1 u.1, s.2)) := by
  refine Reads.rule (n := .forIn)
    (f := fun v => statementOf p (.inr (.inr (.inl (t, Nonterminal.tree .forIn [] v))))) ?_
    (fun _ => rfl) fun _ _ _ => rfl
  refine Reads.seq (Reads.expectName fun _ => rfl) fun _ ts₁ h₁ => ?_
  refine Reads.seq (Reads.expect rfl fun _ => rfl) fun _ ts₂ h₂ => ?_
  have h₁ : ts₁.length + 1 ≤ ts.length := h₁
  have h₂ : ts₂.length + 1 ≤ ts₁.length := h₂
  refine Reads.seq ((Reads.expression n ts₂).weaken (by omega)) fun _ ts₃ h₃ => ?_
  refine Reads.seq (Reads.expect rfl fun _ => rfl) fun _ ts₄ h₄ => ?_
  have h₃ : ts₃.length + 1 ≤ ts₂.length := h₃
  have h₄ : ts₄.length + 1 ≤ ts₃.length := h₄
  refine ih.body ?_ fun _ _ _ => rfl
  omega

theorem loop (ih : ReadsStatements n) (p : Place) (t : Token) :
    Reads (.rule .loop) (n < 16 * ts.length + 10)
      (fun v => statementOf p (.inr (.inr (.inr (.inl (t, v)))))) ts
      (Parse.expression n ts >>= fun x => Parse.expect "DO" .whileBody x.2 >>= fun y =>
        Parse.block n .atEnd y.2 >>= fun z => Parse.next z.2 >>= fun w =>
          .ok (.loop p x.1 z.1, w.2)) := by
  refine Reads.rule (n := .loop)
    (f := fun v => statementOf p (.inr (.inr (.inr (.inl (t, Nonterminal.tree .loop [] v)))))) ?_
    (fun _ => rfl) fun _ _ _ => rfl
  refine Reads.seq (Reads.expression n ts) fun _ ts₁ h₁ => ?_
  refine Reads.seq (Reads.expect rfl fun _ => rfl) fun _ ts₂ h₂ => ?_
  have h₁ : ts₁.length + 1 ≤ ts.length := h₁
  have h₂ : ts₂.length + 1 ≤ ts₁.length := h₂
  refine ih.body ?_ fun _ _ _ => rfl
  omega

theorem ret (p : Place) (t : Token) :
    Reads (.rule .ret) (n < 16 * ts.length + 10)
      (fun v => statementOf p (.inr (.inr (.inr (.inr (.inl (t, v))))))) ts
      (Parse.expression n ts >>= fun x => Parse.expect ";" .endReturn x.2 >>= fun y =>
        .ok (.ret p x.1, y.2)) := by
  refine Reads.rule (n := .ret)
    (f := fun v =>
      statementOf p (.inr (.inr (.inr (.inr (.inl (t, Nonterminal.tree .ret [] v)))))))
    ?_ (fun _ => rfl) fun _ _ _ => rfl
  refine Reads.seq (Reads.expression n ts) fun _ ts₁ _ => ?_
  exact Reads.map (Reads.expect rfl fun _ => rfl) fun _ _ => rfl

theorem placeOf_yield {p : Phrase} (d : Derivation p) (hp : 0 < p.width) {t : Token}
    {rest : List Token} (h : t :: ts = d.yield ++ rest) : placeOf d.yield = some t.location := by
  have hw := d.width_le
  cases hy : d.yield with
  | nil =>
      rw [hy, List.length_nil] at hw
      omega
  | cons u us =>
      rw [hy] at h
      rw [(List.cons.inj h).1]
      rfl

theorem statement_succ (ih : ReadsStatements n) (hts : ts ≠ []) :
    Reads (.rule .statement) (n + 1 < 16 * ts.length + 11) (fun s : Stmt Place => s) ts
      (Parse.statement (n + 1) ts) := by
  obtain ⟨t, ts, rfl⟩ := List.exists_cons_of_ne_nil hts
  have hlen : (t :: ts).length = ts.length + 1 := rfl
  refine Reads.rule (n := .statement) (f := statementOf (some t.location)) ?_ (fun _ => rfl) ?_
  · refine Reads.byWord (.seq (.word "LET") (.rule .declaration)) rfl rfl
      (fun hs _ => Reads.left hs (Reads.tokenSeq hs ?_)) fun hs _ => Reads.right hs ?_
    · exact Reads.map ((Reads.declaration n ts).weaken (by omega)) fun _ _ => rfl
    refine Reads.byWord (.seq (.word "IF") (.rule .branch)) rfl rfl
      (fun hs _ => Reads.left hs (Reads.tokenSeq hs ?_)) fun hs _ => Reads.right hs ?_
    · exact (ih.branch (some t.location) t).weaken (by omega)
    refine Reads.byWord (.seq (.word "FOR") (.rule .forIn)) rfl rfl
      (fun hs _ => Reads.left hs (Reads.tokenSeq hs ?_)) fun hs _ => Reads.right hs ?_
    · exact (ih.forIn (some t.location) t).weaken (by omega)
    refine Reads.byWord (.seq (.word "WHILE") (.rule .loop)) rfl rfl
      (fun hs _ => Reads.left hs (Reads.tokenSeq hs ?_)) fun hs _ => Reads.right hs ?_
    · exact (ih.loop (some t.location) t).weaken (by omega)
    refine Reads.byWord (.seq (.word "RETURN") (.rule .ret)) rfl rfl
      (fun hs _ => Reads.left hs (Reads.tokenSeq hs ?_)) fun hs _ => Reads.right hs ?_
    · exact (ret (some t.location) t).weaken (by omega)
    exact (Reads.simple n (some t.location) (t :: ts)).weaken (by omega)
  · intro d rest hy
    show statementOf (placeOf d.yield) d.value = _
    rw [placeOf_yield d (by decide) hy]

end ReadsStatements

theorem readsStatements : ∀ n, ReadsStatements n
  | 0 =>
    { statement := fun _ _ => Reads.outOfFuel (Nat.succ_pos _)
      block := fun hshort _ _ => Reads.outOfFuel (hshort (Nat.succ_pos _))
      otherwise := fun hshort _ _ => Reads.outOfFuel (hshort (Nat.succ_pos _)) }
  | n + 1 =>
    have ih := readsStatements n
    { statement := fun _ => ih.statement_succ
      block := ih.block_succ
      otherwise := ih.otherwise_succ }

/-! ## Programs -/

namespace Reads

theorem moreParameters (n : Nat) (ts : List Token) :
    Reads (.list (.rule .param)) (n < 16 * ts.length + 1)
      (fun v => List.cons v.1 (List.map Prod.snd v.2)) ts (Parse.moreParameters n ts) := by
  induction n generalizing ts with
  | zero => exact outOfFuel (Nat.succ_pos _)
  | succ n ih =>
      refine ruleSeq (n := .param) (c := .many (.seq (.word ",") (.rule .param)))
        (f := fun v => List.cons (Nonterminal.tree .param [] v.1) (List.map Prod.snd v.2)) ?_
        (fun _ => rfl) fun _ _ _ _ => rfl
      refine assoc (seq (expectName fun _ => rfl) fun _ ts₁ h₁ => ?_)
      refine seq (colonName fun _ => rfl) fun _ ts₂ h₂ => ?_
      have h₁ : ts₁.length + 1 ≤ ts.length := h₁
      have h₂ : ts₂.length ≤ ts₁.length := h₂
      refine byWord (.seq (.word ",") (.rule .param)) rfl rfl (fun hs _ => ?_) fun hs _ => done hs
      refine more hs (assoc (seq (next hs) fun _ ts₃ h₃ => ?_))
      have h₃ : ts₃.length + 1 ≤ ts₂.length := h₃
      exact map ((ih ts₃).weaken (by omega)) fun _ _ => rfl

/-- The parameters are read together with what comes after them, which the test is for. -/
theorem parameters {γ : Type} {c : Phrase} {short : Prop} {n : Nat} {ts : List Token}
    {g : (Phrase.seq (.opt (.rule .params)) (.seq (.word ")") c)).Value → γ}
    {k : Leaving (List (String × String)) → Except ParseFailure (Leaving γ)}
    (hshort : n < 16 * ts.length + 1 → short)
    (hk : ∀ v rest, rest.length ≤ ts.length →
      Reads (.seq (.word ")") c) short (fun w => g (v, w)) rest (k (Option.getD v [], rest))) :
    Reads (.seq (.opt (.rule .params)) (.seq (.word ")") c)) short g ts
      (Parse.parameters n ts >>= k) := by
  have heq : Parse.parameters n ts >>= k =
      if Parse.at? ")" ts = true then k ([], ts) else Parse.moreParameters n ts >>= k := by
    unfold Parse.parameters
    split <;> rfl
  rw [heq]
  refine byWord (.seq (.word ")") c) rfl rfl (fun hs _ => ?_) fun hs _ => ?_
  · exact absentSeq (hs.disjoint (by simp [Phrase.first, Phrase.width, Nonterminal.first]))
      (hk none ts (Nat.le_refl _))
  · refine presentSeq_of_fails Nat.one_pos (.first (.token hs)) ?_
    have hps : Reads (.rule .params) short (fun v => Option.getD (some v) []) ts
        (Parse.moreParameters n ts) :=
      rule (n := .params) ((moreParameters n ts).weaken hshort) (fun _ => rfl) fun _ _ _ => rfl
    exact seq hps fun v rest hlen => hk (some v) rest (Nat.le_of_add_right_le hlen)

theorem method (n : Nat) (t : Token) (ts : List Token) :
    Reads (.row .name [.word "(", .opt (.rule .params), .word ")", .typed, .word "DO", .body])
      (n < 16 * ts.length + 1) (fun v => methodOf (t, v)) ts
      (Parse.method n (some t.location) ts) := by
  refine seq (expectName fun _ => rfl) fun _ ts₁ h₁ => ?_
  refine seq (expect rfl fun _ => rfl) fun _ ts₂ h₂ => ?_
  have h₁ : ts₁.length + 1 ≤ ts.length := h₁
  have h₂ : ts₂.length + 1 ≤ ts₁.length := h₂
  refine parameters (by omega) fun _ ts₃ h₃ => ?_
  refine seq (expect rfl fun _ => rfl) fun _ ts₄ h₄ => ?_
  refine seq (colonName fun _ => rfl) fun _ ts₅ h₅ => ?_
  refine seq (expect rfl fun _ => rfl) fun _ ts₆ h₆ => ?_
  have h₄ : ts₄.length + 1 ≤ ts₃.length := h₄
  have h₅ : ts₅.length ≤ ts₄.length := h₅
  have h₆ : ts₆.length + 1 ≤ ts₅.length := h₆
  refine (readsStatements n).body ?_ fun _ _ _ => rfl
  omega

theorem fields (n : Nat) (ts : List Token) :
    Reads (.many (.rule .field)) (n < 16 * ts.length + 1) (fun v : List (Field Place) => v) ts
      (Parse.fields n ts) := by
  induction n generalizing ts with
  | zero => exact outOfFuel (Nat.succ_pos _)
  | succ n ih =>
      refine byWord (.rule .field) rfl rfl (fun hs _ => more hs ?_) fun hs _ => done hs
      refine ruleSeq (n := .field) (c := .many (.rule .field))
        (f := fun v => List.cons
          (⟨some v.1.1.location, v.1.2.name, v.1.2.typeName, v.1.2.value⟩ : Field Place) v.2)
        ?_ (fun _ => rfl) fun d _ _ _ => ?_
      · refine assoc (seq (next hs) fun _ ts₁ h₁ => ?_)
        have h₁ : ts₁.length + 1 ≤ ts.length := h₁
        refine seq ((declaration n ts₁).weaken (by omega)) fun _ ts₂ h₂ => ?_
        have h₂ : ts₂.length + 1 ≤ ts₁.length := h₂
        exact map ((ih ts₂).weaken (by omega)) fun _ _ => rfl
      · -- the place is that of `LET`
        cases d with
        | seq d e =>
            cases d with
            | token t h => rfl

theorem methods (n : Nat) (ts : List Token) :
    Reads (.many (.rule .method)) (n < 16 * ts.length + 1) (fun v : List (Method Place) => v) ts
      (Parse.methods n ts) := by
  induction n generalizing ts with
  | zero => exact outOfFuel (Nat.succ_pos _)
  | succ n ih =>
      refine byWord (.rule .method) rfl rfl (fun hs _ => more hs ?_) fun hs _ => done hs
      refine ruleSeq (n := .method) (c := .many (.rule .method))
        (f := fun v => List.cons (methodOf v.1) v.2) ?_ (fun _ => rfl) fun _ _ _ _ => rfl
      refine assoc (seq (next hs) fun t ts₁ h₁ => ?_)
      have h₁ : ts₁.length + 1 ≤ ts.length := h₁
      refine seq ((method n t ts₁).weaken (by omega)) fun _ ts₂ h₂ => ?_
      have h₂ : ts₂.length + 5 ≤ ts₁.length := h₂
      exact map ((ih ts₂).weaken (by omega)) fun _ _ => rfl

/-- Fields and methods, before the test that nothing is left. -/
theorem parts (n : Nat) (ts : List Token) :
    Reads Nonterminal.source.definition (n < 16 * ts.length + 1)
      (fun v : List (Field Place) × List (Method Place) => v) ts
      (Parse.fields n ts >>= fun x => Parse.methods n x.2 >>= fun y => .ok ((x.1, y.1), y.2)) := by
  refine seq (fields n ts) fun _ ts₁ h₁ => ?_
  have h₁ : ts₁.length ≤ ts.length := h₁
  exact map ((methods n ts₁).weaken (by omega)) fun _ _ => rfl

end Reads

end QuillLang
