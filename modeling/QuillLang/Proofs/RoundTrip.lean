/-
# Writing and reading back

The words of a well-formed tree spell it: an expression at the tightest symbol
it can be derived from, and so at all looser ones.  Written as a text, read as
tokens and read as a program, a well-formed program is itself again, but for
the places of its nodes.
-/
import QuillLang.Proofs.ParsedPrograms
import QuillLang.Proofs.ParsedTrees
import QuillLang.Proofs.WrittenPhrases

namespace QuillLang

open Grammar

/-! ## Ranks

The symbols for expressions form a chain, from the loosest to the tightest.  What a tighter symbol
derives, a looser one does too, by one rule for each step. -/

namespace Grammar.Rank

/-- The symbol whose expressions hold together next more tightly. -/
def tighter : Rank → Rank
  | .expression => .logical
  | .logical => .comparison
  | .comparison => .additive
  | .additive => .multiplicative
  | .multiplicative => .secondary
  | .secondary | .primary => .primary

theorem tightness_tighter {r : Rank} (h : r.tightness < 6) :
    r.tighter.tightness = r.tightness + 1 := by
  cases r with
  | primary => exact absurd h (by decide)
  | _ => rfl

theorem tightness_le (r : Rank) : r.tightness ≤ 6 := by
  cases r <;> decide

theorem tightness_injective {r s : Rank} (h : r.tightness = s.tightness) : r = s := by
  cases r <;> cases s <;> first | rfl | cases h

end Grammar.Rank

namespace Spells

variable {ws : List Word} {r s : Rank} {Q : Expr Place → Prop}

/-- An expression without an operator or a member is one of the next looser symbol. -/
theorem loosen_once (h : Spells (.rule (.expr r.tighter)) ws Q) :
    Spells (.rule (.expr r)) ws Q := by
  refine ⟨h.readable, fun ts hts => ?_⟩
  obtain ⟨d, hy, hp, hv⟩ := h.derives ts hts
  cases r with
  | expression => exact ⟨.rule d, hy, ⟨hp, rfl⟩, hv⟩
  | primary => exact ⟨d, hy, hp, hv⟩
  | logical | comparison | additive | multiplicative | secondary =>
      refine ⟨.rule (.seq d .done), ?_, ⟨⟨hp, trivial⟩, rfl⟩, hv⟩
      rw [← hy]
      exact List.append_nil _

theorem loosen (h : Spells (.rule (.expr s)) ws Q) (hr : r.tightness ≤ s.tightness) :
    Spells (.rule (.expr r)) ws Q := by
  -- by induction on how much tighter one symbol is than the other
  generalize hk : s.tightness - r.tightness = k
  induction k generalizing r with
  | zero =>
      have hrs : r = s := Rank.tightness_injective (by omega)
      exact hrs ▸ h
  | succ k ih =>
      have hle := s.tightness_le
      have htighter := Rank.tightness_tighter (r := r) (by omega)
      exact loosen_once (ih (by omega) (by omega))

end Spells

/-! ## Expressions

An operand is written without parentheses, which is right because in a well-formed tree it holds
together as tightly as its place asks for; parentheses are nodes of their own. -/

namespace Expr

variable {α : Type}

/-- The words of an expression spell a symbol, with the expression as its tree. -/
def Spelled (r : Rank) (e : Expr α) : Prop :=
  Spells (.rule (.expr r)) e.words fun v : Expr Place => v.bare = e.bare

theorem spells_literal {w : Word} {Q : Expr Place → Prop} (hw : w.Readable)
    (h : w.terminal ∈ Phrase.literals.first) (hQ : ∀ p, Q (literalOf ⟨w.kind, w.text, p⟩)) :
    Spells (.rule (.expr .primary)) [w] Q := by
  refine Spells.rule_of_admits (n := .expr .primary) (Spells.token hw h).left ?_
  rintro ts _ ⟨⟨kind, text, p⟩, rfl, ht⟩
  cases ht
  exact ⟨admits_literalOf _, hQ p⟩

/-- After an expression of a level, one operator and one operand more. -/
theorem spells_operation {lv : Parse.Level} {ws us : List Word} {Q S : Expr Place → Prop}
    {R : Token × Expr Place → Prop} (hl : Spells (.rule (.expr lv.rank)) ws Q)
    (hr : Spells (.seq (.words lv.texts) (.rule (.expr lv.operandRank))) us R)
    (hS : ∀ left v, Q left → R v → S (operation left v)) :
    Spells (.rule (.expr lv.rank)) (ws ++ us) S := by
  cases lv with
  | logical | comparison | additive | multiplicative =>
      refine Spells.rule (by decide) (hl.definition.snoc hr) ?_
      rintro ts ⟨e, _⟩ ⟨vs, v, rfl, ⟨_, hQ⟩, hR⟩
      exact (congrArg S List.foldl_append).mpr (hS _ _ hQ hR)

theorem spelled_binary {tag : α} {op : Operator} {l r : Expr α} (hl : l.Spelled op.level.rank)
    (hr : r.Spelled op.level.operandRank) :
    (Expr.binary tag op l r).Spelled op.level.rank := by
  have hword : (Word.fixed op.lexeme).Readable := Word.readable_fixed (by cases op <;> decide)
  have hterminal : (Word.fixed op.lexeme).terminal ∈ op.level.texts.map Terminal.word := by
    rw [Word.terminal_fixed]
    cases op <;> decide
  refine spells_operation hl ((Spells.token hword hterminal).seq hr) ?_
  rintro left ⟨t, v⟩ hleft ⟨ht, hv⟩
  have hoperator : operatorOf t = op := by
    have hlexeme : t.lexeme = op.lexeme := congrArg Word.text ht
    rw [operatorOf, hlexeme]
    cases op <;> decide
  exact congr (congr (congrArg (Expr.binary ()) hoperator) hleft) hv

/-- After a receiver, one member more. -/
theorem spells_member {ws us : List Word} {Q S : Expr Place → Prop}
    {R : Phrase.member.Value → Prop} (he : Spells (.rule (.expr .secondary)) ws Q)
    (hm : Spells .member us R) (hS : ∀ receiver v, Q receiver → R v → S (memberOf receiver v)) :
    Spells (.rule (.expr .secondary)) (ws ++ us) S := by
  refine Spells.rule (by decide) (he.definition.snoc hm) ?_
  rintro ts ⟨e, _⟩ ⟨vs, v, rfl, ⟨_, hQ⟩, hR⟩
  exact (congrArg S List.foldl_append).mpr (hS _ _ hQ hR)

/-- Arguments in parentheses. -/
theorem spells_call {es : List (Expr α)} (hes : ∀ e ∈ es, e.Spelled .expression) :
    Spells .call (.fixed "(" :: (Expr.argumentWords es ++ [.fixed ")"]))
      fun v => Expr.bareAll (argumentsOf v) = Expr.bareAll es := by
  have hlist : Spells (.opt (.rule .arguments)) (Expr.argumentWords es)
      fun v : Option (List (Expr Place)) => (v.getD []).map Expr.bare = es.map Expr.bare := by
    rw [Expr.argumentWords_eq]
    cases es with
    | nil => exact Spells.absent.imp fun v hv => by rw [hv]; rfl
    | cons e es =>
        have hargs : Spells (.rule .arguments) (Word.commas Expr.words (e :: es))
            fun v : List (Expr Place) => v.map Expr.bare = (e :: es).map Expr.bare :=
          Spells.rule (n := .arguments) (by decide) (Spells.list hes) fun ts v hv => hv
        refine hargs.present.imp ?_
        rintro _ ⟨v, rfl, hv⟩
        exact hv
  refine ((Spells.word (by decide)).seq (hlist.seq (Spells.word (by decide)))).imp ?_
  rintro v ⟨_, hv, _⟩
  exact (Expr.bareAll_eq_map _).trans (hv.trans (Expr.bareAll_eq_map es).symm)

/-- A name, which may be called. -/
theorem spells_named {x : String} (hx : isNameText x = true) {ws : List Word}
    {Q : Option Phrase.call.Value → Prop} (h : Spells (.opt .call) ws Q) {R : Expr Place → Prop}
    (hR : ∀ (t : Token) (v : Option Phrase.call.Value), t.lexeme = x → Q v →
      R (primaryOf (.inr (.inr (t, v))))) :
    Spells (.rule (.expr .primary)) (.named x :: ws) R := by
  refine Spells.rule_of_admits (n := .expr .primary) ((Spells.name hx).seq h).right.right ?_
  rintro ts _ ⟨_, rfl, ⟨t, v⟩, rfl, ht, hv⟩
  refine ⟨?_, hR t v ht hv⟩
  cases v <;> rfl

theorem isBinary_bare (e : Expr α) : e.bare.isBinary = e.isBinary := by
  cases e <;> rfl

theorem isBinary_of_bare_eq {β : Type} {e : Expr α} {e' : Expr β} (h : e.bare = e'.bare) :
    e.isBinary = e'.isBinary := by
  rw [← isBinary_bare, h, isBinary_bare]

mutual

/-- A well-formed expression is spelled by its words, at the tightest symbol it belongs to. -/
theorem spelled : (e : Expr α) → e.wellFormed = true → e.Spelled e.rank
  | .nil _, _ => spells_literal (Word.readable_fixed (by decide)) (by decide) fun _ => rfl
  | .boolean _ b, _ => by
      cases b <;>
        exact spells_literal (Word.readable_fixed (by decide)) (by decide) fun _ => rfl
  | .character _ s, h => by
      refine spells_literal (Word.readable_character (of_decide_eq_true h))
        (show Terminal.literal .character ∈ _ by decide) fun p => ?_
      exact congrArg (Expr.character ()) (unquote_quotedWith _ s (.inl rfl))
  | .string _ s, _ => by
      refine spells_literal (Word.readable_string s)
        (show Terminal.literal .string ∈ _ by decide) fun p => ?_
      exact congrArg (Expr.string ()) (unquote_quotedWith _ s (.inr rfl))
  | .integer _ n, h => by
      refine spells_literal (Word.readable_integer (of_decide_eq_true h))
        (show Terminal.literal .integer ∈ _ by decide) fun p => ?_
      exact congrArg (Expr.integer ()) (Numeral.signed_sign_text n)
  | .decimal _ d, h => by
      have hd : d.exponent ≤ -1 := of_decide_eq_true h
      refine spells_literal (Word.readable_decimal hd)
        (show Terminal.literal .decimal ∈ _ by decide) fun p => ?_
      show Expr.decimal () ((Decimal.read? d.plain.toList).getD default) = .decimal () d
      rw [(Decimal.plain_readable hd).2]
      rfl
  | .group _ e, h => by
      obtain ⟨hbinary, he⟩ := Bool.and_eq_true_iff.mp h
      have hinner : Spells .expression e.words fun v : Expr Place => v.bare = e.bare :=
        (spelled e he).loosen (Nat.zero_le _)
      refine Spells.rule_of_admits (n := .expr .primary)
        ((Spells.word (by decide)).seq (hinner.seq (Spells.word (by decide)))).left.right ?_
      rintro ts _ ⟨_, rfl, ⟨t, v, _⟩, rfl, _, hv, _⟩
      exact ⟨(isBinary_of_bare_eq hv).trans hbinary, congrArg (Expr.group ()) hv⟩
  | .binary _ op l r, h => by
      simp only [wellFormed, Bool.and_eq_true, decide_eq_true_eq] at h
      obtain ⟨⟨⟨htl, htr⟩, hl⟩, hr⟩ := h
      have hoperand := op.rank_tightness.2
      exact spelled_binary ((spelled l hl).loosen htl) ((spelled r hr).loosen (by omega))
  | .var _ x, h => by
      refine spells_named h Spells.absent ?_
      rintro t _ ht rfl
      exact congrArg (Expr.var ()) ht
  | .field _ e x, h => by
      simp only [wellFormed, Bool.and_eq_true, Bool.not_eq_true'] at h
      obtain ⟨⟨hbinary, he⟩, hx⟩ := h
      have hmember : Spells .member [.fixed ".", .named x] _ :=
        (Spells.word (by decide)).seq ((Spells.name hx).seq Spells.absent)
      refine spells_member ((spelled e he).loosen (secondary_le_rank.mpr hbinary)) hmember ?_
      rintro receiver ⟨_, t, _⟩ hreceiver ⟨_, ht, rfl⟩
      exact congr (congrArg (Expr.field ()) hreceiver) ht
  | .call _ f es, h => by
      obtain ⟨hf, hes⟩ := Bool.and_eq_true_iff.mp h
      refine spells_named hf (spells_call (allSpelled es hes)).present ?_
      rintro t _ ht ⟨v, rfl, hv⟩
      exact congr (congrArg (Expr.call ()) ht) hv
  | .invoke _ e f es, h => by
      simp only [wellFormed, Bool.and_eq_true, Bool.not_eq_true'] at h
      obtain ⟨⟨⟨hbinary, he⟩, hf⟩, hes⟩ := h
      have hmember : Spells .member
          (.fixed "." :: .named f :: .fixed "(" :: (argumentWords es ++ [.fixed ")"])) _ :=
        (Spells.word (by decide)).seq
          ((Spells.name hf).seq (spells_call (allSpelled es hes)).present)
      refine spells_member ((spelled e he).loosen (secondary_le_rank.mpr hbinary)) hmember ?_
      rintro receiver ⟨_, t, _⟩ hreceiver ⟨_, ht, v, rfl, hv⟩
      exact congr (congr (congrArg (Expr.invoke ()) hreceiver) ht) hv

theorem allSpelled : (es : List (Expr α)) → allWellFormed es = true →
    ∀ e ∈ es, e.Spelled .expression
  | [], _ => nofun
  | e :: es, h => by
      obtain ⟨he, hes⟩ := Bool.and_eq_true_iff.mp h
      exact List.forall_mem_cons.mpr ⟨(spelled e he).loosen (Nat.zero_le _), allSpelled es hes⟩

end

theorem spelled_expression (e : Expr α) (h : e.wellFormed = true) : e.Spelled .expression :=
  (spelled e h).loosen (Nat.zero_le _)

end Expr

/-! ## Statements

By induction on the statement, with the parts of the grammar in the order in which they are
written. -/

section

variable {α : Type}

theorem spells_initial {e : Option (Expr α)} (h : e.all Expr.wellFormed = true) :
    Spells (.opt (.seq (.word "=") .expression)) (Expr.initialWords e)
      fun v : Option (Token × Expr Place) => (v.map Prod.snd).map Expr.bare = e.map Expr.bare := by
  cases e with
  | none => exact Spells.absent.imp fun v hv => by rw [hv]; rfl
  | some e =>
      refine ((Spells.word (by decide)).seq (e.spelled_expression h)).present.imp ?_
      rintro _ ⟨v, rfl, _, hv⟩
      exact congrArg some hv

theorem spells_declaration {x : String} {type : Option String} {e : Option (Expr α)}
    (hx : isNameText x = true) (htype : type.all isNameText = true)
    (he : e.all Expr.wellFormed = true) :
    Spells (.rule .declaration) (declarationWords x type e) fun d : Parse.Declaration =>
      d.name = x ∧ d.typeName = type ∧ d.value.map Expr.bare = e.map Expr.bare := by
  refine Spells.rule (n := .declaration) (by decide) ((Spells.name hx).seq ((Spells.typed htype).seq
    ((spells_initial he).seq (Spells.word (by decide))))) ?_
  rintro ts v ⟨hname, htypeName, hvalue, _⟩
  exact ⟨hname, htypeName, hvalue⟩

namespace Stmt

/-- The words of a statement spell it. -/
def Spelled (s : Stmt α) : Prop :=
  Spells (.rule .statement) s.words fun v : Stmt Place => v.bare = s.bare

theorem spells_all {ss : List (Stmt α)} (h : ∀ s ∈ ss, s.Spelled) :
    Spells (.many (.rule .statement)) (allWords ss)
      fun vs : List (Stmt Place) => bareAll vs = bareAll ss := by
  rw [allWords_eq]
  exact (Spells.many h).imp fun vs hvs =>
    (bareAll_eq_map vs).trans (hvs.trans (bareAll_eq_map ss).symm)

theorem spells_body {ss : List (Stmt α)} (h : ∀ s ∈ ss, s.Spelled) :
    Spells .body (allWords ss ++ [.fixed "END"])
      fun v : List (Stmt Place) × Token => bareAll v.1 = bareAll ss :=
  ((spells_all h).seq (Spells.word (by decide))).imp fun _ hv => hv.1

/-- An `ELSE` that is left out stands for no statements. -/
theorem spells_else {ss : List (Stmt α)} (h : ∀ s ∈ ss, s.Spelled) :
    Spells (.opt (.seq (.word "ELSE") (.many (.rule .statement))))
      (if ss.isEmpty then [] else .fixed "ELSE" :: allWords ss)
      fun v : Option (Token × List (Stmt Place)) =>
        bareAll ((v.map Prod.snd).getD []) = bareAll ss := by
  cases ss with
  | nil => exact Spells.absent.imp fun v hv => by rw [hv]; rfl
  | cons s ss =>
      refine ((Spells.word (by decide)).seq (spells_all h)).present.imp ?_
      rintro _ ⟨v, rfl, _, hv⟩
      exact hv

/-- An expression as a statement, or the target of an assignment. -/
theorem spells_simple {e : Expr α} (he : e.Spelled .expression) {ws : List Word}
    {Q : Option (Token × Expr Place) → Prop}
    (h : Spells (.opt (.seq (.word "=") .expression)) ws Q) {R : Stmt Place → Prop}
    (hexpr : ∀ p (v : Expr Place), v.bare = e.bare → Q none → R (.expr p v))
    (hassign : ∀ p (v : Expr Place) t value, v.bare = e.bare → Q (some (t, value)) →
      R (.assign p v value)) :
    Spells (.rule .statement) (e.words ++ (ws ++ [.fixed ";"])) R := by
  refine Spells.rule (n := .statement) (by decide)
    (he.seq (h.seq (Spells.word (by decide)))).right.right.right.right.right ?_
  rintro ts _ ⟨_, rfl, _, rfl, _, rfl, _, rfl, ⟨v, o, _⟩, rfl, hv, ho, _⟩
  match o with
  | none => exact hexpr _ v hv ho
  | some (t, value) => exact hassign _ v t value hv ho

theorem spelled_branch {tag : α} {c : Expr α} {thenBody elseBody : List (Stmt α)}
    (hc : c.Spelled .expression) (hthen : ∀ s ∈ thenBody, s.Spelled)
    (helse : ∀ s ∈ elseBody, s.Spelled) : (Stmt.branch tag c thenBody elseBody).Spelled := by
  have hbranch : Spells (.rule .branch) (c.words ++ .fixed "DO" :: (allWords thenBody ++
      ((if elseBody.isEmpty then [] else .fixed "ELSE" :: allWords elseBody) ++ [.fixed "END"])))
      fun v : Expr Place × List (Stmt Place) × List (Stmt Place) =>
        v.1.bare = c.bare ∧ bareAll v.2.1 = bareAll thenBody ∧
          bareAll v.2.2 = bareAll elseBody := by
    refine Spells.rule (n := .branch) (by decide) (hc.seq ((Spells.word (by decide)).seq
      ((spells_all hthen).seq ((spells_else helse).seq (Spells.word (by decide)))))) ?_
    rintro ts v ⟨hv, _, hthen, helse, _⟩
    exact ⟨hv, hthen, helse⟩
  refine Spells.rule (n := .statement) (by decide)
    ((Spells.word (by decide)).seq hbranch).left.right ?_
  rintro ts _ ⟨_, rfl, v, rfl, _, hv, hthen, helse⟩
  exact congr (congr (congrArg (Stmt.branch ()) hv) hthen) helse

theorem spelled_forIn {tag : α} {x : String} {e : Expr α} {body : List (Stmt α)}
    (hx : isNameText x = true) (he : e.Spelled .expression) (hbody : ∀ s ∈ body, s.Spelled) :
    (Stmt.forIn tag x e body).Spelled := by
  have hloop : Spells (.rule .forIn) (.named x :: .fixed "IN" :: (e.words ++
      .fixed "DO" :: (allWords body ++ [.fixed "END"])))
      fun v : String × Expr Place × List (Stmt Place) =>
        v.1 = x ∧ v.2.1.bare = e.bare ∧ bareAll v.2.2 = bareAll body := by
    refine Spells.rule (n := .forIn) (by decide) ((Spells.name hx).seq
      ((Spells.word (by decide)).seq (he.seq ((Spells.word (by decide)).seq
        (spells_body hbody))))) ?_
    rintro ts v ⟨hx, _, hv, _, hbody⟩
    exact ⟨hx, hv, hbody⟩
  refine Spells.rule (n := .statement) (by decide)
    ((Spells.word (by decide)).seq hloop).left.right.right ?_
  rintro ts _ ⟨_, rfl, _, rfl, v, rfl, _, hx, hv, hbody⟩
  exact congr (congr (congrArg (Stmt.forIn ()) hx) hv) hbody

theorem spelled_loop {tag : α} {c : Expr α} {body : List (Stmt α)} (hc : c.Spelled .expression)
    (hbody : ∀ s ∈ body, s.Spelled) : (Stmt.loop tag c body).Spelled := by
  have hloop : Spells (.rule .loop) (c.words ++ .fixed "DO" :: (allWords body ++ [.fixed "END"]))
      fun v : Expr Place × List (Stmt Place) =>
        v.1.bare = c.bare ∧ bareAll v.2 = bareAll body := by
    refine Spells.rule (n := .loop) (by decide)
      (hc.seq ((Spells.word (by decide)).seq (spells_body hbody))) ?_
    rintro ts v ⟨hv, _, hbody⟩
    exact ⟨hv, hbody⟩
  refine Spells.rule (n := .statement) (by decide)
    ((Spells.word (by decide)).seq hloop).left.right.right.right ?_
  rintro ts _ ⟨_, rfl, _, rfl, _, rfl, v, rfl, _, hv, hbody⟩
  exact congr (congrArg (Stmt.loop ()) hv) hbody

theorem spelled_ret {tag : α} {e : Expr α} (he : e.Spelled .expression) :
    (Stmt.ret tag e).Spelled := by
  have hret : Spells (.rule .ret) (e.words ++ [.fixed ";"])
      fun v : Expr Place => v.bare = e.bare :=
    Spells.rule (n := .ret) (by decide) (he.seq (Spells.word (by decide))) fun ts v hv => hv.1
  refine Spells.rule (n := .statement) (by decide)
    ((Spells.word (by decide)).seq hret).left.right.right.right.right ?_
  rintro ts _ ⟨_, rfl, _, rfl, _, rfl, _, rfl, v, rfl, _, hv⟩
  exact congrArg (Stmt.ret ()) hv

mutual

/-- A well-formed statement is spelled by its words. -/
theorem spelled : (s : Stmt α) → s.wellFormed = true → s.Spelled
  | .expr _ e, h => by
      refine spells_simple (e.spelled_expression h) Spells.absent ?_ ?_
      · exact fun p v hv _ => congrArg (Stmt.expr ()) hv
      · rintro p v t value hv ⟨⟩
  | .declare _ x type e, h => by
      simp only [wellFormed, Bool.and_eq_true] at h
      obtain ⟨⟨hx, htype⟩, he⟩ := h
      refine Spells.rule (n := .statement) (by decide)
        ((Spells.word (by decide)).seq (spells_declaration hx htype he)).left ?_
      rintro ts _ ⟨⟨_, d⟩, rfl, _, hname, htypeName, hvalue⟩
      exact congr (congr (congrArg (Stmt.declare ()) hname) htypeName) hvalue
  | .assign _ target e, h => by
      obtain ⟨htarget, he⟩ := Bool.and_eq_true_iff.mp h
      refine spells_simple (target.spelled_expression htarget)
        ((Spells.word (by decide)).seq (e.spelled_expression he)).present ?_ ?_
      · rintro p v hv ⟨_, ⟨⟩, _⟩
      · rintro p v t value hv ⟨_, ⟨⟩, _, hvalue⟩
        exact congr (congrArg (Stmt.assign ()) hv) hvalue
  | .branch _ c thenBody elseBody, h => by
      simp only [wellFormed, Bool.and_eq_true] at h
      exact spelled_branch (c.spelled_expression h.1.1) (allSpelled thenBody h.1.2)
        (allSpelled elseBody h.2)
  | .forIn _ x e body, h => by
      simp only [wellFormed, Bool.and_eq_true] at h
      exact spelled_forIn h.1.1 (e.spelled_expression h.1.2) (allSpelled body h.2)
  | .loop _ c body, h => by
      obtain ⟨hc, hbody⟩ := Bool.and_eq_true_iff.mp h
      exact spelled_loop (c.spelled_expression hc) (allSpelled body hbody)
  | .ret _ e, h => spelled_ret (e.spelled_expression h)

theorem allSpelled : (ss : List (Stmt α)) → allWellFormed ss = true → ∀ s ∈ ss, s.Spelled
  | [], _ => nofun
  | s :: ss, h => by
      obtain ⟨hs, hss⟩ := Bool.and_eq_true_iff.mp h
      exact List.forall_mem_cons.mpr ⟨spelled s hs, allSpelled ss hss⟩

end

end Stmt

/-! ## Programs -/

theorem spells_field {f : Field α} (h : f.wellFormed = true) :
    Spells (.rule .field) f.words fun v : Field Place => v.bare = f.bare := by
  simp only [Field.wellFormed, Bool.and_eq_true] at h
  obtain ⟨⟨hname, htype⟩, hvalue⟩ := h
  refine Spells.rule (n := .field) (by decide)
    ((Spells.word (by decide)).seq (spells_declaration hname htype hvalue)) ?_
  rintro ts ⟨_, d⟩ ⟨_, hname, htype, hvalue⟩
  exact congr (congr (congrArg (Field.mk ()) hname) htype) hvalue

theorem spells_parameter {p : String × String} (h₁ : isNameText p.1 = true)
    (h₂ : isNameText p.2 = true) :
    Spells (.rule .param) (parameterWords p) fun v : String × String => id v = id p := by
  refine Spells.rule (n := .param) (by decide)
    ((Spells.name h₁).seq (@Spells.typed (some p.2) h₂)) ?_
  rintro ts v ⟨hname, htype⟩
  refine Prod.ext hname ?_
  show (typeName v.2).getD "Any" = p.2
  rw [htype]
  rfl

theorem spells_parameters {ps : List (String × String)}
    (h : ∀ p ∈ ps, isNameText p.1 = true ∧ isNameText p.2 = true) :
    Spells (.opt (.rule .params)) (Word.commas parameterWords ps)
      fun v : Option (List (String × String)) => v.getD [] = ps := by
  cases ps with
  | nil => exact Spells.absent.imp fun v hv => by rw [hv]; rfl
  | cons p ps =>
      have hparams : Spells (.rule .params) (Word.commas parameterWords (p :: ps))
          fun v : List (String × String) => v.map id = (p :: ps).map id :=
        Spells.rule (n := .params) (by decide)
          (Spells.list fun q hq => spells_parameter (h q hq).1 (h q hq).2) fun ts v hv => hv
      refine hparams.present.imp ?_
      rintro _ ⟨v, rfl, hv⟩
      exact (List.map_id v).symm.trans (hv.trans (List.map_id _))

theorem spells_method {d : Method α} (h : d.wellFormed = true) :
    Spells (.rule .method) d.words fun v : Method Place => v.bare = d.bare := by
  simp only [Method.wellFormed, Bool.and_eq_true, decide_eq_true_eq] at h
  obtain ⟨⟨⟨⟨⟨hname, hlength⟩, hparameters⟩, htypes⟩, hresult⟩, hbody⟩ := h
  have hpairs : ∀ p ∈ d.parameters.zip d.parameterTypes,
      isNameText p.1 = true ∧ isNameText p.2 = true := fun p hp =>
    ⟨List.all_eq_true.mp hparameters _ (List.of_mem_zip hp).1,
      List.all_eq_true.mp htypes _ (List.of_mem_zip hp).2⟩
  refine Spells.rule (n := .method) (by decide) ((Spells.word (by decide)).seq
    ((Spells.name hname).seq ((Spells.word (by decide)).seq ((spells_parameters hpairs).seq
      ((Spells.word (by decide)).seq ((Spells.typed hresult).seq ((Spells.word (by decide)).seq
        (Stmt.spells_body (Stmt.allSpelled d.body hbody))))))))) ?_
  rintro ts ⟨_, t, _, params, _, type, _, body, _⟩ ⟨_, hname, _, hparams, _, htype, _, hbody⟩
  have hfst := (congrArg (List.map Prod.fst) hparams).trans
    (List.map_fst_zip (Nat.le_of_eq hlength))
  have hsnd := (congrArg (List.map Prod.snd) hparams).trans
    (List.map_snd_zip (Nat.le_of_eq hlength.symm))
  exact congr (congr (congr (congr (congrArg (Method.mk ()) hname) hfst) hsnd) htype) hbody

theorem spells_program {p : Program α} (h : p.wellFormed = true) :
    Spells (.rule .source) p.words fun v : Program Place => v.bare = p.bare := by
  obtain ⟨hfields, hmethods⟩ := Bool.and_eq_true_iff.mp h
  have hf : ∀ f ∈ p.fields, Spells (.rule .field) f.words fun v : Field Place => v.bare = f.bare :=
    fun f hf => spells_field (List.all_eq_true.mp hfields f hf)
  have hm : ∀ d ∈ p.methods,
      Spells (.rule .method) d.words fun v : Method Place => v.bare = d.bare :=
    fun d hd => spells_method (List.all_eq_true.mp hmethods d hd)
  refine Spells.rule (n := .source) (by decide) ((Spells.many hf).seq (Spells.many hm)) ?_
  rintro ts v ⟨hfields, hmethods⟩
  exact congr (congrArg (Program.mk ()) hfields) hmethods

/-- A well-formed program, written and read again, is the same but for its tags. -/
theorem parseProgram_text {p : Program α} (h : p.wellFormed = true) (file : Option String) :
    ∃ ts q, tokenize p.text file = .ok ts ∧ parseProgram ts = .ok q ∧ q.bare = p.bare := by
  have hspells := spells_program h
  have hlexical : ∀ w ∈ p.words, w.Lexical := fun w hw => (hspells.readable w hw).lexical
  obtain ⟨ts, hts, hwords⟩ := Word.tokenize_spaced hlexical file
  obtain ⟨d, hy, hp, hv⟩ := hspells.derives ts hwords
  have hlegible : Legible ts := tokenize_legible hts fun t ht =>
    (hspells.readable t.word (hwords ▸ List.mem_map_of_mem ht)).digits
  have hdecides := parseProgram_decides hlegible
  generalize hr : parseProgram ts = r at hdecides
  match r, hdecides with
  | .ok q, ⟨d', hy', _, hq⟩ =>
      refine ⟨ts, q, hts, hr, ?_⟩
      rw [← hq, Derivation.source_unique d' d (hy'.trans hy.symm)]
      exact hv
  | .error (.unexpected e), hnot => exact absurd ⟨d, hy, hp⟩ hnot

/-- Writing and reading go together on well-formed programs: each of them is read back from its
text, the same but for its tags, and no text is read as a program that is not well-formed. -/
theorem program_text_round_trip :
    (∀ (p : Program α) (file : Option String), p.wellFormed = true →
      ∃ ts q, tokenize p.text file = .ok ts ∧ parseProgram ts = .ok q ∧ q.bare = p.bare) ∧
    (∀ (source : String) (file : Option String) (ts : List Token) (q : Program Place),
      tokenize source file = .ok ts → parseProgram ts = .ok q → q.wellFormed = true) :=
  ⟨fun _ file h => parseProgram_text h file,
    fun _ _ _ _ hts h => wellFormed_of_parseProgram (fun _ => tokenize_lexical hts) h⟩

end

/-- A program with signs beside operators, a dash in a name, escapes and a parenthesis in it. -/
def thornyProgram : Program Unit :=
  { tag := ()
    fields := [⟨(), "low-mark", some "Decimal", some (.decimal () ⟨true, 5, -2⟩)⟩]
    methods := [
      { tag := ()
        name := "main"
        parameters := ["x", "y"]
        parameterTypes := ["Any", "String"]
        returnType := none
        body := [
          .assign () (.field () (.call () "f" [.var () "x", .nil ()]) "_z")
            (.binary () .sub (.binary () .sub (.integer () 1) (.integer () (-2)))
              (.binary () .mul (.group () (.binary () .or (.boolean () true) (.var () "y")))
                (.invoke () (.string () "\"a\\\n\t'") "size" []))),
          .branch () (.binary () .ne (.var () "y") (.character () "'"))
            [.ret () (.nil ())] [.declare () "q" none none] ] }] }

theorem thornyProgram_round_trip :
    thornyProgram.text =
      "LET low-mark : Decimal = -0.05 ; DEF main ( x : Any , y : String ) DO " ++
        "f ( x , NIL ) . _z = 1 - -2 - ( TRUE OR y ) * \"\\\"a\\\\\\n\t\\'\" . size ( ) ; " ++
        "IF y != '\\'' DO RETURN NIL ; ELSE LET q ; END END" ∧
    ∃ ts q, tokenize thornyProgram.text none = .ok ts ∧ parseProgram ts = .ok q ∧
      q.bare = thornyProgram.bare ∧ q.wellFormed = true := by
  have htext := program_text_round_trip.1 thornyProgram none (by decide +kernel)
  obtain ⟨ts, q, hts, hq, hbare⟩ := htext
  refine ⟨by decide +kernel, ts, q, hts, hq, hbare, ?_⟩
  exact (program_text_round_trip (α := Unit)).2 _ none ts q hts hq

end QuillLang
