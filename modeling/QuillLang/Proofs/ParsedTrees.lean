/-
# Trees that are read are well-formed

Whatever is read from the tokens of a text is well-formed: names come from
identifiers that are not reserved, an operand is read at a tighter level than
its operator, a parenthesis is refused unless a binary expression is in it, and
every literal comes from a lexeme.  The functions that read trees are taken
together by induction on the fuel; an integer with too many digits is no
obstacle, since reading it fails.

No token is made up on the way: those left after a tree, and those that an
error stands at, are among the tokens there were.
-/
import QuillLang.Proofs.Outcome
import QuillLang.Proofs.WrittenTrees

namespace QuillLang

open Grammar

variable {β γ : Type}

/-! ## Names and literals

What is known of a token that comes from a text is its lexeme.  From this the bounds on literals
follow, and that a name is a name. -/

theorem Token.Lexical.isNameText {t : Token} (ht : t.Lexical) (h : t.isName = true) :
    isNameText t.lexeme = true := by
  simp only [Token.isName, Bool.and_eq_true, decide_eq_true_eq] at h
  unfold Token.Lexical at ht
  rw [h.1] at ht
  unfold QuillLang.isNameText
  generalize t.lexeme.toList = cs at ht
  cases ht with
  | identifier hc hcs =>
      simp only [Bool.and_eq_true]
      exact ⟨⟨hc, List.all_eq_true.mpr hcs⟩, h.2⟩

/-- The value of a character literal is one character. -/
theorem length_unquote_of_lexeme {lexeme : String} (h : Lexeme .character lexeme.toList) :
    (unquote lexeme).toList.length = 1 := by
  unfold unquote
  generalize lexeme.toList = cs at h
  cases h with
  | character h =>
      have hitem := unescape_append h []
      rw [List.append_nil] at hitem
      rw [String.toList_ofList, List.drop_one, List.tail_cons, List.dropLast_concat, hitem]
      rfl

theorem length_repr_of_read {cs : List Char} {n : Int} (h : Lexeme .integer cs)
    (hn : Numeral.read cs = .ok n) : (Nat.repr n.natAbs).length ≤ maxDigits := by
  cases h with
  | integer hs hds =>
      have hsign := Numeral.sign_append hs hds []
      simp only [List.append_nil] at hsign
      unfold Numeral.read at hn
      simp only [hsign] at hn
      split at hn
      · next hle =>
          cases hn
          rw [Numeral.natAbs_signed]
          exact Nat.le_trans (Numeral.length_repr_ofDigits hds) hle
      · cases hn

theorem exponent_of_lexeme {cs : List Char} (h : Lexeme .decimal cs) :
    ((Decimal.read? cs).getD default).exponent ≤ -1 := by
  cases h with
  | @decimal s ds fs hs hds hfs =>
      have hpos := List.length_pos_iff.mpr hfs.1
      rw [Decimal.read?_lexeme hs hds hfs]
      show -(fs.length : Int) ≤ -1
      omega

/-- A literal is well-formed, and no operator is in it. -/
theorem wellFormed_literal? {t : Token} {e : Expr Place} (ht : t.Lexical)
    (h : Parse.literal? t = some (.ok e)) : e.wellFormed = true ∧ e.isBinary = false := by
  unfold Parse.literal? at h
  dsimp only at h
  split at h
  · cases h; exact ⟨rfl, rfl⟩
  split at h
  · cases h; exact ⟨rfl, rfl⟩
  split at h
  · cases h; exact ⟨rfl, rfl⟩
  unfold Token.Lexical at ht
  cases hk : t.kind with
  | integer =>
      rw [hk] at h ht
      cases hread : Numeral.read t.lexeme.toList with
      | error e =>
          rw [hread] at h
          cases h
      | ok n =>
          rw [hread] at h
          cases h
          exact ⟨decide_eq_true (length_repr_of_read ht hread), rfl⟩
  | decimal =>
      rw [hk] at h ht
      cases h
      exact ⟨decide_eq_true (exponent_of_lexeme ht), rfl⟩
  | character =>
      rw [hk] at h ht
      cases h
      exact ⟨decide_eq_true (length_unquote_of_lexeme ht), rfl⟩
  | string =>
      rw [hk] at h
      cases h
      exact ⟨rfl, rfl⟩
  | identifier | operator =>
      rw [hk] at h
      cases h

/-! ## Single tokens

What is read and what is left are followed together.  The class of tokens is a parameter: for
well-formed trees it is that of all lexemes, and for errors that of the tokens there were. -/

/-- A class of tokens as they come from a text. -/
structure TokenClass where
  Holds : Token → Prop
  lexical : ∀ {t : Token}, Holds t → t.Lexical

/-- All tokens of a list are of a class. -/
def TokenClass.All (P : TokenClass) (ts : List Token) : Prop := ∀ t ∈ ts, P.Holds t

theorem TokenClass.All.nil {P : TokenClass} : P.All [] := fun _ ht => absurd ht List.not_mem_nil

/-- A property of what is read, if something is.  The tokens left are of a class, and so are those
that an error stands at. -/
def Gives (P : TokenClass) (Q : β → Prop) : Except ParseFailure (Leaving β) → Prop
  | .ok (v, rest) => Q v ∧ P.All rest
  | .error (.unexpected e) => P.All e.rest
  | .error _ => True

variable {P : TokenClass}

namespace Gives

variable {Q : β → Prop} {R : γ → Prop} {ts : List Token}

theorem bind {m : Except ParseFailure (Leaving β)}
    {k : Leaving β → Except ParseFailure (Leaving γ)} (hm : Gives P Q m)
    (hk : ∀ v rest, Q v → P.All rest → Gives P R (k (v, rest))) : Gives P R (m >>= k) := by
  match m with
  | .ok (v, rest) => exact hk v rest hm.1 hm.2
  | .error (.unexpected _) => exact hm
  | .error (.digits _) | .error .outOfFuel | .error .noToken => trivial

theorem imp {R : β → Prop} {m : Except ParseFailure (Leaving β)} (hm : Gives P Q m)
    (hR : ∀ v, Q v → R v) : Gives P R m := by
  match m with
  | .ok (v, rest) => exact ⟨hR v hm.1, hm.2⟩
  | .error (.unexpected _) => exact hm
  | .error (.digits _) | .error .outOfFuel | .error .noToken => trivial

theorem next (hts : P.All ts) : Gives P P.Holds (Parse.next ts) := by
  cases ts with
  | nil => trivial
  | cons t ts => exact List.forall_mem_cons.mp hts

theorem expect {text : String} {cause : ParseCause} (hts : P.All ts) :
    Gives P (fun _ => True) (Parse.expect text cause ts) := by
  cases ts with
  | nil => exact hts
  | cons t ts =>
      rw [Parse.expect]
      split
      · exact ⟨trivial, (List.forall_mem_cons.mp hts).2⟩
      · exact hts

theorem expectName {cause : ParseCause} (hts : P.All ts) :
    Gives P (fun t => isNameText t.lexeme = true) (Parse.expectName cause ts) := by
  cases ts with
  | nil => exact hts
  | cons t ts =>
      obtain ⟨ht, htail⟩ := List.forall_mem_cons.mp hts
      rw [Parse.expectName]
      split
      · next hname => exact ⟨(P.lexical ht).isNameText hname, htail⟩
      · exact hts

theorem colonName {cause : ParseCause} (hts : P.All ts) :
    Gives P (fun type => type.all isNameText = true) (Parse.colonName cause ts) := by
  unfold Parse.colonName
  split
  · refine (next hts).bind fun _ ts _ hts => ?_
    exact (expectName hts).bind fun t ts ht hts => ⟨ht, hts⟩
  · exact ⟨rfl, hts⟩

end Gives

/-! ## Expressions

The functions for expressions call each other, so they are taken together by induction on the fuel.
An expression that is read at a level holds together at least as tightly as the level. -/

/-- A well-formed expression that holds together as tightly as those of a symbol. -/
def Expr.Tight (r : Rank) (e : Expr Place) : Prop :=
  e.wellFormed = true ∧ r.tightness ≤ e.rank.tightness

/-- With so much fuel, every function for expressions returns well-formed ones. -/
structure BuildsExpressions (P : TokenClass) (n : Nat) : Prop where
  level : ∀ lv ts, P.All ts → Gives P (Expr.Tight lv.rank) (Parse.level n lv ts)
  operand : ∀ lv ts, P.All ts → Gives P (Expr.Tight lv.operandRank) (Parse.operand n lv ts)
  operations : ∀ lv left ts, left.Tight lv.rank → P.All ts →
    Gives P (Expr.Tight lv.rank) (Parse.operations n lv left ts)
  secondary : ∀ ts, P.All ts → Gives P (Expr.Tight .secondary) (Parse.secondary n ts)
  members : ∀ receiver ts, receiver.Tight .secondary → P.All ts →
    Gives P (Expr.Tight .secondary) (Parse.members n receiver ts)
  arguments : ∀ ts, P.All ts →
    Gives P (fun es => Expr.allWellFormed es = true) (Parse.arguments n ts)
  moreArguments : ∀ ts, P.All ts →
    Gives P (fun es => Expr.allWellFormed es = true) (Parse.moreArguments n ts)
  primary : ∀ ts, P.All ts → Gives P (Expr.Tight .secondary) (Parse.primary n ts)

theorem Parse.Level.level_of_mem {lv : Level} {op : Operator} (h : op ∈ lv.operators) :
    op.level = lv := by
  have hall : ∀ op ∈ lv.operators, op.level = lv := by cases lv <;> decide
  exact hall op h

namespace BuildsExpressions

variable {n : Nat} {ts : List Token}

theorem level_succ (ih : BuildsExpressions P n) (lv : Parse.Level) (hts : P.All ts) :
    Gives P (Expr.Tight lv.rank) (Parse.level (n + 1) lv ts) := by
  refine (ih.operand lv ts hts).bind fun left ts hleft hts => ?_
  have hlooser : lv.rank.tightness ≤ lv.operandRank.tightness := by cases lv <;> decide
  exact ih.operations lv left ts ⟨hleft.1, Nat.le_trans hlooser hleft.2⟩ hts

theorem operand_succ (ih : BuildsExpressions P n) (lv : Parse.Level) (hts : P.All ts) :
    Gives P (Expr.Tight lv.operandRank) (Parse.operand (n + 1) lv ts) := by
  cases lv with
  | logical => exact ih.level .comparison ts hts
  | comparison => exact ih.level .additive ts hts
  | additive => exact ih.level .multiplicative ts hts
  | multiplicative => exact ih.secondary ts hts

theorem operations_succ (ih : BuildsExpressions P n) (lv : Parse.Level) {left : Expr Place}
    (hleft : left.Tight lv.rank) (hts : P.All ts) :
    Gives P (Expr.Tight lv.rank) (Parse.operations (n + 1) lv left ts) := by
  cases ts with
  | nil => exact ⟨hleft, hts⟩
  | cons t ts =>
      simp only [Parse.operations]
      split
      · exact ⟨hleft, hts⟩
      · next op hop =>
          have hlevel := Parse.Level.level_of_mem (List.mem_of_find?_eq_some hop)
          subst hlevel
          have htail := (List.forall_mem_cons.mp hts).2
          refine (ih.operand _ ts htail).bind fun right ts hright hts => ?_
          refine ih.operations _ _ ts ⟨?_, Nat.le_refl _⟩ hts
          have hoperand := op.rank_tightness.2
          have htight : op.level.rank.tightness < right.rank.tightness := by
            have := hright.2
            omega
          simp only [Expr.wellFormed, Bool.and_eq_true, decide_eq_true_eq]
          exact ⟨⟨⟨hleft.2, htight⟩, hleft.1⟩, hright.1⟩

theorem secondary_succ (ih : BuildsExpressions P n) (hts : P.All ts) :
    Gives P (Expr.Tight .secondary) (Parse.secondary (n + 1) ts) :=
  (ih.primary ts hts).bind fun e ts he hts => ih.members e ts he hts

theorem members_succ (ih : BuildsExpressions P n) {receiver : Expr Place}
    (hreceiver : receiver.Tight .secondary) (hts : P.All ts) :
    Gives P (Expr.Tight .secondary) (Parse.members (n + 1) receiver ts) := by
  have hbinary := Expr.secondary_le_rank.mp hreceiver.2
  simp only [Parse.members]
  split
  · refine (Gives.next hts).bind fun _ ts _ hts => ?_
    refine (Gives.expectName hts).bind fun name ts hname hts => ?_
    dsimp only
    split
    · refine (Gives.next hts).bind fun _ ts _ hts => ?_
      refine (ih.arguments ts hts).bind fun args ts hargs hts => ?_
      refine ih.members _ ts ⟨?_, Nat.le_refl _⟩ hts
      simp [Expr.wellFormed, hbinary, hreceiver.1, hname, hargs]
    · refine ih.members _ ts ⟨?_, Nat.le_refl _⟩ hts
      simp [Expr.wellFormed, hbinary, hreceiver.1, hname]
  · exact ⟨hreceiver, hts⟩

theorem arguments_succ (ih : BuildsExpressions P n) (hts : P.All ts) :
    Gives P (fun es => Expr.allWellFormed es = true) (Parse.arguments (n + 1) ts) := by
  simp only [Parse.arguments]
  split
  · exact (Gives.next hts).bind fun _ ts _ hts => ⟨rfl, hts⟩
  · exact ih.moreArguments ts hts

theorem moreArguments_succ (ih : BuildsExpressions P n) (hts : P.All ts) :
    Gives P (fun es => Expr.allWellFormed es = true) (Parse.moreArguments (n + 1) ts) := by
  refine (ih.level .logical ts hts).bind fun e ts he hts => ?_
  dsimp only
  split
  · refine (Gives.next hts).bind fun _ ts _ hts => ?_
    refine (ih.moreArguments ts hts).bind fun es ts hes hts => ⟨?_, hts⟩
    exact Bool.and_eq_true_iff.mpr ⟨he.1, hes⟩
  · refine (Gives.expect hts).bind fun _ ts _ hts => ⟨?_, hts⟩
    exact Bool.and_eq_true_iff.mpr ⟨he.1, rfl⟩

theorem primary_succ (ih : BuildsExpressions P n) (hts : P.All ts) :
    Gives P (Expr.Tight .secondary) (Parse.primary (n + 1) ts) := by
  cases ts with
  | nil => exact hts
  | cons t ts =>
      obtain ⟨ht, htail⟩ := List.forall_mem_cons.mp hts
      simp only [Parse.primary]
      split
      · next e he =>
          obtain ⟨hwf, hbinary⟩ := wellFormed_literal? (P.lexical ht) he
          exact ⟨⟨hwf, Expr.secondary_le_rank.mpr hbinary⟩, htail⟩
      · trivial
      · split
        · refine (ih.level .logical ts htail).bind fun inner rest hinner hrest => ?_
          refine (Gives.expect hrest).bind fun _ rest _ hrest => ?_
          dsimp only
          split
          · next hbinary =>
              exact ⟨⟨Bool.and_eq_true_iff.mpr ⟨hbinary, hinner.1⟩, Nat.le_succ _⟩, hrest⟩
          · exact hts
        · split
          · next hname =>
              have hname := (P.lexical ht).isNameText hname
              split
              · refine (Gives.next htail).bind fun _ ts _ hts => ?_
                refine (ih.arguments ts hts).bind fun args ts hargs hts => ?_
                exact ⟨⟨Bool.and_eq_true_iff.mpr ⟨hname, hargs⟩, Nat.le_succ _⟩, hts⟩
              · exact ⟨⟨hname, Nat.le_succ _⟩, htail⟩
          · exact hts

end BuildsExpressions

theorem buildsExpressions (n : Nat) : BuildsExpressions P n := by
  induction n with
  | zero => constructor <;> intros <;> trivial
  | succ n ih =>
      exact {
        level := fun lv _ => ih.level_succ lv
        operand := fun lv _ => ih.operand_succ lv
        operations := fun lv _ _ => ih.operations_succ lv
        secondary := fun _ => ih.secondary_succ
        members := fun _ _ => ih.members_succ
        arguments := fun _ => ih.arguments_succ
        moreArguments := fun _ => ih.moreArguments_succ
        primary := fun _ => ih.primary_succ }

theorem Gives.expression {n : Nat} {ts : List Token} (hts : P.All ts) :
    Gives P (fun e => e.wellFormed = true) (Parse.expression n ts) :=
  ((buildsExpressions n).level .logical ts hts).imp fun _ he => he.1

/-! ## Statements -/

namespace Gives

variable {n : Nat} {ts : List Token}

theorem initialValue (hts : P.All ts) :
    Gives P (fun e => e.all Expr.wellFormed = true) (Parse.initialValue n ts) := by
  unfold Parse.initialValue
  split
  · refine (next hts).bind fun _ ts _ hts => ?_
    exact (expression hts).bind fun e ts he hts => ⟨he, hts⟩
  · exact ⟨rfl, hts⟩

theorem declaration (hts : P.All ts) :
    Gives P (fun d : Parse.Declaration => isNameText d.name = true ∧
      d.typeName.all isNameText = true ∧ d.value.all Expr.wellFormed = true)
      (Parse.declaration n ts) := by
  refine (expectName hts).bind fun name ts hname hts => ?_
  refine (colonName hts).bind fun type ts htype hts => ?_
  refine (initialValue hts).bind fun value ts hvalue hts => ?_
  exact (expect hts).bind fun _ ts _ hts => ⟨⟨hname, htype, hvalue⟩, hts⟩

theorem simple {p : Place} (hts : P.All ts) :
    Gives P (fun s => s.wellFormed = true) (Parse.simple n p ts) := by
  refine (expression hts).bind fun e ts he hts => ?_
  dsimp only
  split
  · refine (next hts).bind fun _ ts _ hts => ?_
    refine (expression hts).bind fun value ts hvalue hts => ?_
    refine (expect hts).bind fun _ ts _ hts => ⟨?_, hts⟩
    exact Bool.and_eq_true_iff.mpr ⟨he, hvalue⟩
  · exact (expect hts).bind fun _ ts _ hts => ⟨he, hts⟩

end Gives

/-- With so much fuel, every function for statements returns well-formed ones. -/
structure BuildsStatements (P : TokenClass) (n : Nat) : Prop where
  block : ∀ stop ts, P.All ts →
    Gives P (fun ss => Stmt.allWellFormed ss = true) (Parse.block n stop ts)
  statement : ∀ ts, P.All ts → Gives P (fun s => s.wellFormed = true) (Parse.statement n ts)
  otherwise : ∀ ts, P.All ts →
    Gives P (fun ss => Stmt.allWellFormed ss = true) (Parse.otherwise n ts)

namespace BuildsStatements

variable {n : Nat} {ts : List Token}

theorem block_succ (ih : BuildsStatements P n) (stop : BlockEnd) (hts : P.All ts) :
    Gives P (fun ss => Stmt.allWellFormed ss = true) (Parse.block (n + 1) stop ts) := by
  simp only [Parse.block]
  split
  · exact ⟨rfl, hts⟩
  · split
    · exact .nil
    · refine (ih.statement ts hts).bind fun s ts hs hts => ?_
      refine (ih.block stop ts hts).bind fun ss ts hss hts => ⟨?_, hts⟩
      exact Bool.and_eq_true_iff.mpr ⟨hs, hss⟩

theorem otherwise_succ (ih : BuildsStatements P n) (hts : P.All ts) :
    Gives P (fun ss => Stmt.allWellFormed ss = true) (Parse.otherwise (n + 1) ts) := by
  simp only [Parse.otherwise]
  split
  · exact (Gives.next hts).bind fun _ ts _ hts => ih.block .atEnd ts hts
  · exact ⟨rfl, hts⟩

theorem statement_succ (ih : BuildsStatements P n) (hts : P.All ts) :
    Gives P (fun s => s.wellFormed = true) (Parse.statement (n + 1) ts) := by
  cases ts with
  | nil => trivial
  | cons t ts =>
      have htail := (List.forall_mem_cons.mp hts).2
      simp only [Parse.statement]
      split
      · refine (Gives.declaration htail).bind fun d ts hd hts => ⟨?_, hts⟩
        simp [Stmt.wellFormed, hd]
      split
      · refine (Gives.expression htail).bind fun c ts hc hts => ?_
        refine (Gives.expect hts).bind fun _ ts _ hts => ?_
        refine (ih.block _ ts hts).bind fun thenBody ts hthen hts => ?_
        refine (ih.otherwise ts hts).bind fun elseBody ts helse hts => ?_
        refine (Gives.next hts).bind fun _ ts _ hts => ⟨?_, hts⟩
        simp [Stmt.wellFormed, hc, hthen, helse]
      split
      · refine (Gives.expectName htail).bind fun name ts hname hts => ?_
        refine (Gives.expect hts).bind fun _ ts _ hts => ?_
        refine (Gives.expression hts).bind fun e ts he hts => ?_
        refine (Gives.expect hts).bind fun _ ts _ hts => ?_
        refine (ih.block _ ts hts).bind fun body ts hbody hts => ?_
        refine (Gives.next hts).bind fun _ ts _ hts => ⟨?_, hts⟩
        simp [Stmt.wellFormed, hname, he, hbody]
      split
      · refine (Gives.expression htail).bind fun c ts hc hts => ?_
        refine (Gives.expect hts).bind fun _ ts _ hts => ?_
        refine (ih.block _ ts hts).bind fun body ts hbody hts => ?_
        refine (Gives.next hts).bind fun _ ts _ hts => ⟨?_, hts⟩
        simp [Stmt.wellFormed, hc, hbody]
      split
      · refine (Gives.expression htail).bind fun e ts he hts => ?_
        exact (Gives.expect hts).bind fun _ ts _ hts => ⟨he, hts⟩
      · exact Gives.simple hts

end BuildsStatements

theorem buildsStatements (n : Nat) : BuildsStatements P n := by
  induction n with
  | zero => constructor <;> intros <;> trivial
  | succ n ih =>
      exact {
        block := fun stop _ => ih.block_succ stop
        statement := fun _ => ih.statement_succ
        otherwise := fun _ => ih.otherwise_succ }

/-! ## Programs -/

namespace Gives

variable {n : Nat} {ts : List Token}

/-- A parameter without a type gets one that is a name. -/
theorem moreParameters (hts : P.All ts) :
    Gives P (fun ps : List (String × String) =>
      ∀ p ∈ ps, isNameText p.1 = true ∧ isNameText p.2 = true) (Parse.moreParameters n ts) := by
  induction n generalizing ts with
  | zero => trivial
  | succ n ih =>
      refine (expectName hts).bind fun name ts hname hts => ?_
      refine (colonName hts).bind fun type ts htype hts => ?_
      have htype : isNameText (type.getD Parse.defaultParameterType) = true := by
        cases type with
        | none => decide
        | some type => exact htype
      dsimp only
      split
      · refine (next hts).bind fun _ ts _ hts => ?_
        refine (ih hts).bind fun ps ts hps hts => ⟨?_, hts⟩
        exact List.forall_mem_cons.mpr ⟨⟨hname, htype⟩, hps⟩
      · refine ⟨List.forall_mem_cons.mpr ⟨⟨hname, htype⟩, ?_⟩, hts⟩
        exact fun p hp => absurd hp List.not_mem_nil

theorem parameters (hts : P.All ts) :
    Gives P (fun ps : List (String × String) =>
      ∀ p ∈ ps, isNameText p.1 = true ∧ isNameText p.2 = true) (Parse.parameters n ts) := by
  unfold Parse.parameters
  split
  · exact ⟨fun p hp => absurd hp List.not_mem_nil, hts⟩
  · exact moreParameters hts

theorem method {p : Place} (hts : P.All ts) :
    Gives P (fun d => d.wellFormed = true) (Parse.method n p ts) := by
  refine (expectName hts).bind fun name ts hname hts => ?_
  refine (expect hts).bind fun _ ts _ hts => ?_
  refine (parameters hts).bind fun ps ts hps hts => ?_
  refine (expect hts).bind fun _ ts _ hts => ?_
  refine (colonName hts).bind fun type ts htype hts => ?_
  refine (expect hts).bind fun _ ts _ hts => ?_
  refine ((buildsStatements n).block _ ts hts).bind fun body ts hbody hts => ?_
  refine (next hts).bind fun _ ts _ hts => ⟨?_, hts⟩
  have hnames : (ps.map Prod.fst).all isNameText = true :=
    List.all_eq_true.mpr fun x hx => by
      obtain ⟨p, hp, rfl⟩ := List.mem_map.mp hx
      exact (hps p hp).1
  have htypes : (ps.map Prod.snd).all isNameText = true :=
    List.all_eq_true.mpr fun x hx => by
      obtain ⟨p, hp, rfl⟩ := List.mem_map.mp hx
      exact (hps p hp).2
  simp only [Method.wellFormed, Bool.and_eq_true, decide_eq_true_eq, List.length_map]
  exact ⟨⟨⟨⟨⟨hname, trivial⟩, hnames⟩, htypes⟩, htype⟩, hbody⟩

theorem fields (hts : P.All ts) :
    Gives P (fun fs => fs.all Field.wellFormed = true) (Parse.fields n ts) := by
  induction n generalizing ts with
  | zero => trivial
  | succ n ih =>
      unfold Parse.fields
      split
      · refine (next hts).bind fun t ts _ hts => ?_
        refine (declaration hts).bind fun d ts hd hts => ?_
        refine (ih hts).bind fun fs ts hfs hts => ⟨?_, hts⟩
        simp only [List.all_cons, Field.wellFormed, hd, hfs, Bool.and_self]
      · exact ⟨rfl, hts⟩

theorem methods (hts : P.All ts) :
    Gives P (fun ds => ds.all Method.wellFormed = true) (Parse.methods n ts) := by
  induction n generalizing ts with
  | zero => trivial
  | succ n ih =>
      unfold Parse.methods
      split
      · refine (next hts).bind fun t ts _ hts => ?_
        refine (method hts).bind fun d ts hd hts => ?_
        refine (ih hts).bind fun ds ts hds hts => ⟨?_, hts⟩
        exact Bool.and_eq_true_iff.mpr ⟨hd, hds⟩
      · exact ⟨rfl, hts⟩

end Gives

/-! ## Entry points

Reading a program or statements ends the row of tokens, so only the error still has tokens to be
followed. -/

/-- The tokens that an error stands at are of a class. -/
def Blames (P : TokenClass) : Except ParseFailure β → Prop
  | .error (.unexpected e) => P.All e.rest
  | _ => True

theorem Gives.blames {Q : β → Prop} {m : Except ParseFailure (Leaving β)} (hm : Gives P Q m) :
    Blames P m := by
  match m with
  | .error (.unexpected _) => exact hm
  | .ok _ | .error (.digits _) | .error .outOfFuel | .error .noToken => trivial

theorem Gives.blames_bind {Q : β → Prop} {m : Except ParseFailure (Leaving β)}
    {k : Leaving β → Except ParseFailure γ} (hm : Gives P Q m)
    (hk : ∀ v rest, P.All rest → Blames P (k (v, rest))) : Blames P (m >>= k) := by
  match m with
  | .ok (v, rest) => exact hk v rest hm.2
  | .error (.unexpected _) => exact hm
  | .error (.digits _) | .error .outOfFuel | .error .noToken => trivial

theorem Blames.map {m : Except ParseFailure β} (hm : Blames P m) (f : β → γ) :
    Blames P (m >>= fun v => .ok (f v)) := by
  match m with
  | .error (.unexpected _) => exact hm
  | .ok _ | .error (.digits _) | .error .outOfFuel | .error .noToken => trivial

theorem blames_program {n : Nat} {ts : List Token} (hts : P.All ts) :
    Blames P (Parse.program n ts) := by
  unfold Parse.program
  refine (Gives.fields hts).blames_bind fun fs rest hrest => ?_
  refine (Gives.methods hrest).blames_bind fun ms rest hrest => ?_
  dsimp only
  split
  · trivial
  · split <;> exact hrest

theorem blames_statements {n : Nat} {ts : List Token} (hts : P.All ts) :
    Blames P (Parse.statements n ts) := by
  induction n generalizing ts with
  | zero => trivial
  | succ n ih =>
      unfold Parse.statements
      split
      · trivial
      · refine ((buildsStatements n).statement ts hts).blames_bind fun s rest hrest => ?_
        exact (ih hrest).map _

/-- A program that is read from the tokens of a text is well-formed. -/
theorem wellFormed_of_parseProgram {ts : List Token} {p : Program Place}
    (hts : ∀ t ∈ ts, t.Lexical) (h : parseProgram ts = .ok p) : p.wellFormed = true := by
  let P : TokenClass := ⟨Token.Lexical, id⟩
  obtain ⟨⟨fs, rest⟩, hfields, h⟩ := except_bind_eq_ok.mp h
  obtain ⟨⟨ds, rest'⟩, hmethods, h⟩ := except_bind_eq_ok.mp h
  have hfs : Gives P _ (.ok (fs, rest)) := hfields ▸ Gives.fields (P := P) hts
  have hds : Gives P _ (.ok (ds, rest')) := hmethods ▸ Gives.methods hfs.2
  dsimp only at h
  split at h
  · cases h
    exact Bool.and_eq_true_iff.mpr ⟨hfs.1, hds.1⟩
  · split at h <;> cases h

/-- Statements that are read from the tokens of a text are well-formed. -/
theorem wellFormed_of_parseStatements {ts : List Token} {ss : List (Stmt Place)}
    (hts : ∀ t ∈ ts, t.Lexical) (h : parseStatements ts = .ok ss) :
    Stmt.allWellFormed ss = true := by
  let P : TokenClass := ⟨Token.Lexical, id⟩
  unfold parseStatements at h
  generalize Parse.fuelFor ts = n at h
  induction n generalizing ts ss with
  | zero => cases h
  | succ n ih =>
      unfold Parse.statements at h
      split at h
      · cases h
        rfl
      · obtain ⟨⟨s, rest⟩, hs, h⟩ := except_bind_eq_ok.mp h
        obtain ⟨ss', hss, h⟩ := except_bind_eq_ok.mp h
        cases h
        have hgives : Gives P _ (.ok (s, rest)) :=
          hs ▸ (buildsStatements (P := P) n).statement ts hts
        exact Bool.and_eq_true_iff.mpr ⟨hgives.1, ih hgives.2 hss⟩

end QuillLang
