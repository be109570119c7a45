/-
# Uses of names and their tokens

A program uses names: in variables, fields, calls and calls on receivers.  Each
use stands at a token that is that name, and no two uses stand at the same
token (`parseProgram_uses`).  The uses are not in the order of their tokens,
since a member stands before its receiver in the tree and behind it in the text;
so it is their numbers that are compared.  However some of the names are picked
by their text and place, no more uses than tokens are picked.

The tree is that of a derivation, and the numbers are compared symbol by symbol
(`Nonterminal.countUses_tree`).
-/
import QuillLang.Proofs.TreePlaces
import QuillLang.Tree.References

namespace QuillLang

section

variable {α : Type}

/-! ## Uses are nodes

The uses of names are collected by a walk of their own.  It goes over the nodes in their order, so
it gives the nodes that are uses. -/

/-- The use of a name that an expression is, apart from those inside it. -/
def Expr.reference? : Expr α → Option (Reference α)
  | .var t x => some ⟨t, .var, x⟩
  | .field t _ x => some ⟨t, .field, x⟩
  | .call t f _ => some ⟨t, .function, f⟩
  | .invoke t _ f _ => some ⟨t, .method, f⟩
  | _ => none

def Node.reference? : Node α → Option (Reference α)
  | .expr e => e.reference?
  | _ => none

mutual

theorem Expr.references_eq : ∀ e : Expr α, e.references = e.nodes.filterMap Node.reference?
  | .nil _ | .boolean _ _ | .character _ _ | .string _ _ | .integer _ _ | .decimal _ _ => rfl
  | .var _ _ => rfl
  | .group _ e => e.references_eq
  | .field _ e _ => congrArg (List.cons _) e.references_eq
  | .binary _ _ l r =>
      (congrArg₂ (· ++ ·) l.references_eq r.references_eq).trans List.filterMap_append.symm
  | .call _ _ es => congrArg (List.cons _) (Expr.referencesAll_eq es)
  | .invoke _ e _ es =>
      congrArg (List.cons _) ((congrArg₂ (· ++ ·) e.references_eq (Expr.referencesAll_eq es)).trans
        List.filterMap_append.symm)

theorem Expr.referencesAll_eq : ∀ es : List (Expr α),
    Expr.referencesAll es = (Expr.nodesOf es).filterMap Node.reference?
  | [] => rfl
  | e :: es =>
      (congrArg₂ (· ++ ·) e.references_eq (Expr.referencesAll_eq es)).trans
        List.filterMap_append.symm

end

theorem Expr.references?_eq : ∀ e : Option (Expr α),
    Expr.references? e = (Expr.nodes? e).filterMap Node.reference?
  | none => rfl
  | some e => e.references_eq

mutual

theorem Stmt.references_eq : ∀ s : Stmt α, s.references = s.nodes.filterMap Node.reference?
  | .expr _ e => e.references_eq
  | .declare _ _ _ e => Expr.references?_eq e
  | .assign _ l e => by
      rw [Stmt.references, Stmt.nodes, l.references_eq, e.references_eq, ← List.filterMap_append]
      rfl
  | .branch _ c a b => by
      rw [Stmt.references, Stmt.nodes, c.references_eq, Stmt.referencesAll_eq a,
        Stmt.referencesAll_eq b, List.append_assoc, ← List.filterMap_append,
        ← List.filterMap_append]
      rfl
  | .forIn _ _ e b => by
      rw [Stmt.references, Stmt.nodes, e.references_eq, Stmt.referencesAll_eq b,
        ← List.filterMap_append]
      rfl
  | .loop _ c b => by
      rw [Stmt.references, Stmt.nodes, c.references_eq, Stmt.referencesAll_eq b,
        ← List.filterMap_append]
      rfl
  | .ret _ e => e.references_eq

theorem Stmt.referencesAll_eq : ∀ ss : List (Stmt α),
    Stmt.referencesAll ss = (Stmt.nodesOf ss).filterMap Node.reference?
  | [] => rfl
  | s :: ss =>
      (congrArg₂ (· ++ ·) s.references_eq (Stmt.referencesAll_eq ss)).trans
        List.filterMap_append.symm

end

/-- The uses of names in a program are its nodes that are uses of names. -/
theorem Program.references_eq (p : Program α) :
    p.references = p.nodes.filterMap Node.reference? := by
  have hfield : Field.references = fun f : Field α => f.nodes.filterMap Node.reference? :=
    funext fun f => Expr.references?_eq f.value
  have hmethod : Method.references = fun d : Method α => d.nodes.filterMap Node.reference? :=
    funext fun d => Stmt.referencesAll_eq d.body
  rw [Program.references, Program.nodes, hfield, hmethod, List.filterMap_append,
    List.filterMap_flatMap, List.filterMap_flatMap]

end

/-! ## Numbering keeps the uses

Names and places are untouched by numbering.  So what is counted before it holds afterwards. -/

/-- A use without the number of its node. -/
def Reference.unmarked (r : Reference Mark) : Reference Place := ⟨r.tag.place, r.use, r.name⟩

mutual

theorem Expr.references_mark : ∀ (e : Expr Place) (n : Nat),
    (e.mark n).1.references.map Reference.unmarked = e.references
  | .nil _, _ | .boolean _ _, _ | .character _ _, _ | .string _ _, _ | .integer _ _, _
  | .decimal _ _, _ | .var _ _, _ => rfl
  | .group _ e, n => e.references_mark (n + 1)
  | .field _ e _, n => congrArg (List.cons _) (e.references_mark (n + 1))
  | .binary _ _ l r, n =>
      List.map_append.trans (congrArg₂ (· ++ ·) (l.references_mark (n + 1)) (r.references_mark _))
  | .call _ _ es, n => congrArg (List.cons _) (Expr.referencesAll_mark es (n + 1))
  | .invoke _ e _ es, n =>
      congrArg (List.cons _) (List.map_append.trans
        (congrArg₂ (· ++ ·) (e.references_mark (n + 1)) (Expr.referencesAll_mark es _)))

theorem Expr.referencesAll_mark : ∀ (es : List (Expr Place)) (n : Nat),
    (Expr.referencesAll (Expr.markAll es n).1).map Reference.unmarked = Expr.referencesAll es
  | [], _ => rfl
  | e :: es, n =>
      List.map_append.trans
        (congrArg₂ (· ++ ·) (e.references_mark n) (Expr.referencesAll_mark es _))

end

theorem Expr.references?_mark : ∀ (e : Option (Expr Place)) (n : Nat),
    (Expr.references? (Expr.mark? e n).1).map Reference.unmarked = Expr.references? e
  | none, _ => rfl
  | some e, n => e.references_mark n

mutual

theorem Stmt.references_mark : ∀ (s : Stmt Place) (n : Nat),
    (s.mark n).1.references.map Reference.unmarked = s.references
  | .expr _ e, n => e.references_mark (n + 1)
  | .declare _ _ _ e, n => Expr.references?_mark e (n + 1)
  | .assign _ l e, n =>
      List.map_append.trans (congrArg₂ (· ++ ·) (l.references_mark (n + 1)) (e.references_mark _))
  | .branch _ c a b, n =>
      List.map_append.trans (congrArg₂ (· ++ ·)
        (List.map_append.trans
          (congrArg₂ (· ++ ·) (c.references_mark (n + 1)) (Stmt.referencesAll_mark a _)))
        (Stmt.referencesAll_mark b _))
  | .forIn _ _ e b, n =>
      List.map_append.trans
        (congrArg₂ (· ++ ·) (e.references_mark (n + 1)) (Stmt.referencesAll_mark b _))
  | .loop _ c b, n =>
      List.map_append.trans
        (congrArg₂ (· ++ ·) (c.references_mark (n + 1)) (Stmt.referencesAll_mark b _))
  | .ret _ e, n => e.references_mark (n + 1)

theorem Stmt.referencesAll_mark : ∀ (ss : List (Stmt Place)) (n : Nat),
    (Stmt.referencesAll (Stmt.markAll ss n).1).map Reference.unmarked = Stmt.referencesAll ss
  | [], _ => rfl
  | s :: ss, n =>
      List.map_append.trans
        (congrArg₂ (· ++ ·) (s.references_mark n) (Stmt.referencesAll_mark ss _))

end

theorem Field.references_markAll : ∀ (fs : List (Field Place)) (n : Nat),
    ((Field.markAll fs n).1.flatMap Field.references).map Reference.unmarked =
      fs.flatMap Field.references
  | [], _ => rfl
  | f :: fs, n =>
      List.map_append.trans (congrArg₂ (· ++ ·) (Expr.references?_mark f.value (n + 1))
        (Field.references_markAll fs _))

theorem Method.references_markAll : ∀ (ds : List (Method Place)) (n : Nat),
    ((Method.markAll ds n).1.flatMap Method.references).map Reference.unmarked =
      ds.flatMap Method.references
  | [], _ => rfl
  | d :: ds, n =>
      List.map_append.trans (congrArg₂ (· ++ ·) (Stmt.referencesAll_mark d.body (n + 1))
        (Method.references_markAll ds _))

theorem Program.references_mark (p : Program Place) (n : Nat) :
    (p.mark n).1.references.map Reference.unmarked = p.references :=
  List.map_append.trans (congrArg₂ (· ++ ·) (Field.references_markAll p.fields (n + 1))
    (Method.references_markAll p.methods _))

/-! ## Numbers of uses

Uses and tokens are counted along a derivation.  Each use comes from a place in the grammar where a
name is asked for, and each such place from one token; names of declarations and of types are
tokens that are no uses, so there may be more of these. -/

/-- What a function gives for the members of a list, taken together. -/
def total {β : Type} (f : β → Nat) : List β → Nat
  | [] => 0
  | b :: l => f b + total f l

section

variable (q : String → Place → Bool)

/-- How many of some uses `q` picks. -/
def countUses (rs : List (Reference Place)) : Nat := rs.countP fun r => q r.name r.tag

@[simp] theorem countUses_cons (r : Reference Place) (rs : List (Reference Place)) :
    countUses q (r :: rs) = (q r.name r.tag).toNat + countUses q rs := by
  cases h : q r.name r.tag <;> simp [countUses, h, Nat.add_comm]

@[simp] theorem countUses_append (rs rs' : List (Reference Place)) :
    countUses q (rs ++ rs') = countUses q rs + countUses q rs' := List.countP_append

theorem countUses_flatMap {β : Type} (f : β → List (Reference Place)) (l : List β) :
    countUses q (l.flatMap f) = total (fun b => countUses q (f b)) l := by
  induction l with
  | nil => rfl
  | cons b l ih => rw [List.flatMap_cons, countUses_append, ih, total]

theorem countUses_statements (ss : List (Stmt Place)) :
    countUses q (Stmt.referencesAll ss) = total (fun s => countUses q s.references) ss := by
  induction ss with
  | nil => rfl
  | cons s ss ih => rw [Stmt.referencesAll, countUses_append, ih, total]

namespace Grammar

/-- The uses of names in the tree of a symbol. -/
def Nonterminal.references : (n : Nonterminal) → n.Tree → List (Reference Place)
  | source, p => Program.references p
  | field, f => Field.references f
  | method, d => Method.references d
  | params, _ | param, _ => []
  | statement, s => Stmt.references s
  | declaration, d => Expr.references? d.value
  | branch, (c, t, e) => c.references ++ Stmt.referencesAll t ++ Stmt.referencesAll e
  | forIn, (_, e, b) => e.references ++ Stmt.referencesAll b
  | loop, (c, b) => c.references ++ Stmt.referencesAll b
  | ret, e => Expr.references e
  | expr _, e => Expr.references e
  | arguments, es => Expr.referencesAll es

/-- How many names are picked in the parts of a phrase, where a token counts if it must be a name,
and a tree counts as many as it uses. -/
def Phrase.countNames : (p : Phrase) → p.Value → Nat
  | token cs, t => if cs = [.name] then (q (Token.lexeme t) (some (Token.location t))).toNat else 0
  | rule n, v => countUses q (n.references v)
  | seq a b, v => a.countNames v.1 + b.countNames v.2
  | alt a _, .inl v => a.countNames v
  | alt _ b, .inr v => b.countNames v
  | opt a, v => Option.elim v 0 a.countNames
  | many a, vs => total a.countNames vs

theorem countUses_foldl {a : Phrase} {f : Expr Place → a.Value → Expr Place}
    (hf : ∀ e v, countUses q (f e v).references ≤ countUses q e.references + a.countNames q v)
    (e : Expr Place) (vs : List a.Value) : countUses q (vs.foldl f e).references ≤
      countUses q e.references + total (a.countNames q) vs := by
  induction vs generalizing e with
  | nil => exact Nat.le_refl _
  | cons v vs ih =>
      have hv := hf e v
      have hvs := ih (f e v)
      rw [List.foldl_cons, total]
      omega

theorem countUses_chainOf {operand : Rank} {operators : List String}
    (v : (Phrase.chain operand operators).Value) : countUses q (chainOf v).references ≤
      (Phrase.chain operand operators).countNames q v := by
  refine countUses_foldl q (fun e w => ?_) v.1 v.2
  show countUses q (e.references ++ w.2.references) ≤ _
  rw [countUses_append]
  exact Nat.add_le_add_left (Nat.le_add_left _ _) _

theorem countUses_argumentsOf (v : Phrase.call.Value) :
    countUses q (Expr.referencesAll (argumentsOf v)) ≤ Phrase.call.countNames q v := by
  obtain ⟨_, arguments, _⟩ := v
  cases arguments with
  | none => exact Nat.zero_le _
  | some es => exact Nat.le_add_left _ _

theorem countUses_further (rest : List (Token × Expr Place)) :
    countUses q (Expr.referencesAll (rest.map Prod.snd)) ≤
      (Phrase.many (.seq (.word ",") .expression)).countNames q rest := by
  induction rest with
  | nil => exact Nat.le_refl _
  | cons v rest ih =>
      rw [List.map_cons, Expr.referencesAll, countUses_append]
      exact Nat.add_le_add (Nat.le_add_left _ _) ih

theorem countUses_memberOf (e : Expr Place) (v : Phrase.member.Value) :
    countUses q (memberOf e v).references ≤
      countUses q e.references + Phrase.member.countNames q v := by
  obtain ⟨_, name, arguments⟩ := v
  cases arguments with
  | none =>
      show countUses q (⟨some name.location, .field, name.lexeme⟩ :: e.references) ≤
        _ + (_ + ((q name.lexeme (some name.location)).toNat + 0))
      simp only [countUses_cons]
      omega
  | some args =>
      have hargs := countUses_argumentsOf q args
      show countUses q (⟨some name.location, .method, name.lexeme⟩ ::
          (e.references ++ Expr.referencesAll (argumentsOf args))) ≤
        _ + (_ + ((q name.lexeme (some name.location)).toNat + Phrase.call.countNames q args))
      simp only [countUses_cons, countUses_append]
      omega

theorem countUses_literalOf (t : Token) : countUses q (literalOf t).references = 0 := by
  unfold literalOf
  split <;> rfl

theorem countUses_primaryOf : ∀ v : (Nonterminal.expr .primary).definition.Value,
    countUses q (primaryOf v).references ≤
      (Nonterminal.expr .primary).definition.countNames q v
  | .inl t => Nat.le_trans (Nat.le_of_eq (countUses_literalOf q t)) (Nat.zero_le _)
  | .inr (.inl (_, _, _)) => Nat.le_add_left _ _
  | .inr (.inr (t, none)) => Nat.le_of_eq (countUses_cons q ⟨some t.location, .var, t.lexeme⟩ [])
  | .inr (.inr (t, some args)) => by
      refine Nat.le_trans (Nat.le_of_eq (countUses_cons q _ _)) ?_
      exact Nat.add_le_add_left (countUses_argumentsOf q args) _

theorem countUses_statementOf (p : Place) : ∀ v : Nonterminal.statement.definition.Value,
    countUses q (statementOf p v).references ≤ Nonterminal.statement.definition.countNames q v
  | .inl (_, _) => Nat.le_add_left _ _
  | .inr (.inl (_, _, _, _)) => Nat.le_add_left _ _
  | .inr (.inr (.inl (_, _, _, _))) => Nat.le_add_left _ _
  | .inr (.inr (.inr (.inl (_, _, _)))) => Nat.le_add_left _ _
  | .inr (.inr (.inr (.inr (.inl (_, _))))) => Nat.le_add_left _ _
  | .inr (.inr (.inr (.inr (.inr (_, none, _))))) => Nat.le_add_right _ _
  | .inr (.inr (.inr (.inr (.inr (l, some (_, e), _))))) =>
      Nat.le_trans (Nat.le_of_eq (countUses_append q l.references e.references))
        (Nat.add_le_add_left (Nat.le_add_right_of_le (Nat.le_add_left _ _)) _)

theorem countUses_body (v : Phrase.body.Value) :
    countUses q (Stmt.referencesAll v.1) ≤ Phrase.body.countNames q v :=
  Nat.le_trans (Nat.le_of_eq (countUses_statements q v.1)) (Nat.le_add_right _ _)

/-- The tree of a symbol uses no more names than the parts of its definition have. -/
theorem Nonterminal.countUses_tree : ∀ (n : Nonterminal) (ts : List Token)
    (v : n.definition.Value), countUses q (n.references (n.tree ts v)) ≤
      n.definition.countNames q v
  | source, _, (fields, methods) => by
      refine Nat.le_of_eq ((countUses_append q _ _).trans ?_)
      exact congrArg₂ (· + ·) (countUses_flatMap q _ fields) (countUses_flatMap q _ methods)
  | field, _, (_, _) => Nat.le_add_left _ _
  | method, _, (_, _, _, _, _, _, _, body) => by
      iterate 7 refine Nat.le_add_left_of_le ?_
      exact countUses_body q body
  | params, _, _ => Nat.zero_le _
  | param, _, _ => Nat.zero_le _
  | statement, ts, v => countUses_statementOf q (placeOf ts) v
  | declaration, _, (_, _, none, _) => Nat.zero_le _
  | declaration, _, (_, _, some (_, _), _) =>
      Nat.le_add_left_of_le (Nat.le_add_left_of_le (Nat.le_add_right_of_le (Nat.le_add_left _ _)))
  | branch, _, (c, _, thenBody, elseBody, _) => by
      have helse : countUses q (Stmt.referencesAll ((Option.map Prod.snd elseBody).getD [])) ≤
          (Phrase.opt (.seq (.word "ELSE") (.many (.rule .statement)))).countNames q elseBody := by
        cases elseBody with
        | none => exact Nat.zero_le _
        | some w => exact Nat.le_add_left_of_le (Nat.le_of_eq (countUses_statements q w.2))
      show countUses q (c.references ++ Stmt.referencesAll thenBody ++ Stmt.referencesAll _) ≤ _
      rw [countUses_append, countUses_append, Nat.add_assoc, countUses_statements q thenBody]
      exact Nat.add_le_add_left (Nat.le_add_left_of_le
        (Nat.add_le_add_left (Nat.le_add_right_of_le helse) _)) _
  | forIn, _, (_, _, e, _, body) =>
      Nat.le_trans (Nat.le_of_eq (countUses_append q e.references (Stmt.referencesAll body.1)))
        (Nat.le_add_left_of_le (Nat.le_add_left_of_le
          (Nat.add_le_add_left (Nat.le_add_left_of_le (countUses_body q body)) _)))
  | loop, _, (c, _, body) =>
      Nat.le_trans (Nat.le_of_eq (countUses_append q c.references (Stmt.referencesAll body.1)))
        (Nat.add_le_add_left (Nat.le_add_left_of_le (countUses_body q body)) _)
  | ret, _, (_, _) => Nat.le_add_right _ _
  | expr .expression, _, _ => Nat.le_refl _
  | expr .logical, _, v => countUses_chainOf q v
  | expr .comparison, _, v => countUses_chainOf q v
  | expr .additive, _, v => countUses_chainOf q v
  | expr .multiplicative, _, v => countUses_chainOf q v
  | expr .secondary, _, (e, members) => countUses_foldl q (countUses_memberOf q) e members
  | expr .primary, _, v => countUses_primaryOf q v
  | arguments, _, (first, rest) =>
      Nat.le_trans (Nat.le_of_eq (countUses_append q first.references _))
        (Nat.add_le_add_left (countUses_further q rest) _)

theorem Derivation.countNames_value {p : Phrase} (d : Derivation p) : p.countNames q d.value ≤
    d.yield.countP fun t => t.isName && q t.lexeme (some t.location) := by
  induction d with
  | @token cs t h =>
      show (if cs = [.name] then (q t.lexeme (some t.location)).toNat else 0) ≤ List.countP _ [t]
      split
      · next hcs =>
          subst hcs
          have hname : t.isName = true := Token.isName_iff.mpr (List.mem_singleton.mp h)
          cases hq : q t.lexeme (some t.location) <;> simp [hname, hq]
      · exact Nat.zero_le _
  | @rule n d ih => exact Nat.le_trans (n.countUses_tree q d.yield d.value) ih
  | seq d e ihd ihe =>
      rw [yield, List.countP_append]
      exact Nat.add_le_add ihd ihe
  | left d ih => exact ih
  | right d ih => exact ih
  | absent => exact Nat.zero_le _
  | present d ih => exact ih
  | done => exact Nat.zero_le _
  | more d e ihd ihe =>
      rw [yield, List.countP_append]
      exact Nat.add_le_add ihd ihe

end Grammar

/-- However names are picked by their text and place, a program has no more uses of such names
than there are tokens. -/
theorem parseProgram_uses {ts : List Token} (hts : Plain ts) {p : Program Place}
    (hp : parseProgram ts = .ok p) : countUses q p.references ≤
      ts.countP fun t => t.isName && q t.lexeme (some t.location) := by
  have hexplained := parseProgram_outcome hts
  rw [hp] at hexplained
  obtain ⟨d, rfl, -, rfl⟩ := hexplained
  exact d.countNames_value q

end

end QuillLang
