/-
# Where the nodes of a tree stand

Every node of a program that is read from tokens stands at one of the tokens:
a statement at its first, a member at its name, a binary expression where its
left operand stands.  The tree is that of a derivation, so this is shown for
derivations, symbol by symbol (`Nonterminal.tree_at`).

Numbering the nodes leaves their places as they are.
-/
import QuillLang.Proofs.Numbering
import QuillLang.Proofs.ParsedPrograms

namespace QuillLang

section

variable {α : Type} {P : α → Prop}

theorem Expr.tag_of_nodes {e : Expr α} (h : ∀ x ∈ e.nodes, P x.tag) : P e.tag := by
  cases e <;> exact h _ List.mem_cons_self

theorem Expr.forall_mem_nodesOf {es : List (Expr α)} :
    (∀ x ∈ Expr.nodesOf es, P x.tag) ↔ ∀ e ∈ es, ∀ x ∈ e.nodes, P x.tag := by
  induction es with
  | nil => simp [Expr.nodesOf]
  | cons e es ih => rw [Expr.nodesOf, List.forall_mem_append, List.forall_mem_cons, ih]

theorem Stmt.forall_mem_nodesOf {ss : List (Stmt α)} :
    (∀ x ∈ Stmt.nodesOf ss, P x.tag) ↔ ∀ s ∈ ss, ∀ x ∈ s.nodes, P x.tag := by
  induction ss with
  | nil => simp [Stmt.nodesOf]
  | cons s ss ih => rw [Stmt.nodesOf, List.forall_mem_append, List.forall_mem_cons, ih]

end

namespace Grammar

variable {P : Place → Prop}

/-- The nodes of the tree of a symbol. -/
def Nonterminal.nodes : (n : Nonterminal) → n.Tree → List (Node Place)
  | source, p => Program.nodes p
  | field, f => Field.nodes f
  | method, d => Method.nodes d
  | params, _ | param, _ => []
  | statement, s => Stmt.nodes s
  | declaration, d => Expr.nodes? d.value
  | branch, (c, t, e) => c.nodes ++ (Stmt.nodesOf t ++ Stmt.nodesOf e)
  | forIn, (_, e, b) => e.nodes ++ Stmt.nodesOf b
  | loop, (c, b) => c.nodes ++ Stmt.nodesOf b
  | ret, e => Expr.nodes e
  | expr _, e => Expr.nodes e
  | arguments, es => Expr.nodesOf es

/-- All tokens and all nodes in the parts of a phrase stand at certain places. -/
def Phrase.At (P : Place → Prop) : (p : Phrase) → p.Value → Prop
  | token _, t => P (some (Token.location t))
  | rule n, v => ∀ x ∈ n.nodes v, P x.tag
  | seq a b, v => a.At P v.1 ∧ b.At P v.2
  | alt a _, .inl v => a.At P v
  | alt _ b, .inr v => b.At P v
  | opt a, v => ∀ w, v = some w → a.At P w
  | many a, vs => ∀ v, List.Mem v vs → a.At P v

theorem operation_at {e : Expr Place} {v : Token × Expr Place} (he : ∀ x ∈ e.nodes, P x.tag)
    (hv : ∀ x ∈ v.2.nodes, P x.tag) : ∀ x ∈ (operation e v).nodes, P x.tag :=
  List.forall_mem_cons.mpr ⟨Expr.tag_of_nodes he, List.forall_mem_append.mpr ⟨he, hv⟩⟩

theorem argumentsOf_at {v : Phrase.call.Value} (hv : Phrase.call.At P v) :
    ∀ x ∈ Expr.nodesOf (argumentsOf v), P x.tag := by
  obtain ⟨_, arguments, _⟩ := v
  cases arguments with
  | none => exact fun x hx => absurd hx List.not_mem_nil
  | some es => exact hv.2.1 es rfl

theorem memberOf_at {e : Expr Place} {v : Phrase.member.Value} (he : ∀ x ∈ e.nodes, P x.tag)
    (hv : Phrase.member.At P v) : ∀ x ∈ (memberOf e v).nodes, P x.tag := by
  obtain ⟨_, name, arguments⟩ := v
  obtain ⟨_, hname, harguments⟩ := hv
  cases arguments with
  | none => exact List.forall_mem_cons.mpr ⟨hname, he⟩
  | some args =>
      exact List.forall_mem_cons.mpr
        ⟨hname, List.forall_mem_append.mpr ⟨he, argumentsOf_at (harguments args rfl)⟩⟩

theorem chainOf_at {operand : Rank} {operators : List String}
    {v : (Phrase.chain operand operators).Value} (hv : (Phrase.chain operand operators).At P v) :
    ∀ x ∈ (chainOf v).nodes, P x.tag :=
  List.foldlRecOn (motive := fun e : Expr Place => ∀ x ∈ e.nodes, P x.tag) v.2 operation hv.1
    fun _ he w hw => operation_at he (hv.2 w hw).2

theorem literalOf_at {t : Token} (ht : P (some t.location)) :
    ∀ x ∈ (literalOf t).nodes, P x.tag := by
  unfold literalOf
  split <;> exact List.forall_mem_singleton.mpr ht

theorem primaryOf_at : ∀ {v : (Nonterminal.expr .primary).definition.Value},
    (Nonterminal.expr .primary).definition.At P v → ∀ x ∈ (primaryOf v).nodes, P x.tag
  | .inl _, hv => literalOf_at hv
  | .inr (.inl (_, _, _)), hv => List.forall_mem_cons.mpr ⟨hv.1, hv.2.1⟩
  | .inr (.inr (_, none)), hv => List.forall_mem_singleton.mpr hv.1
  | .inr (.inr (_, some args)), hv =>
      List.forall_mem_cons.mpr ⟨hv.1, argumentsOf_at (hv.2 args rfl)⟩

theorem statementOf_at {p : Place} (hp : P p) : ∀ {v : Nonterminal.statement.definition.Value},
    Nonterminal.statement.definition.At P v → ∀ x ∈ (statementOf p v).nodes, P x.tag
  | .inl (_, _), hv => List.forall_mem_cons.mpr ⟨hp, hv.2⟩
  | .inr (.inl (_, _, _, _)), hv => List.forall_mem_cons.mpr ⟨hp, hv.2⟩
  | .inr (.inr (.inl (_, _, _, _))), hv => List.forall_mem_cons.mpr ⟨hp, hv.2⟩
  | .inr (.inr (.inr (.inl (_, _, _)))), hv => List.forall_mem_cons.mpr ⟨hp, hv.2⟩
  | .inr (.inr (.inr (.inr (.inl (_, _))))), hv => List.forall_mem_cons.mpr ⟨hp, hv.2⟩
  | .inr (.inr (.inr (.inr (.inr (_, none, _))))), hv => List.forall_mem_cons.mpr ⟨hp, hv.1⟩
  | .inr (.inr (.inr (.inr (.inr (_, some w, _))))), hv =>
      List.forall_mem_cons.mpr ⟨hp, List.forall_mem_append.mpr ⟨hv.1, (hv.2.1 w rfl).2⟩⟩

theorem body_at {v : Phrase.body.Value} (hv : Phrase.body.At P v) :
    ∀ x ∈ Stmt.nodesOf v.1, P x.tag := Stmt.forall_mem_nodesOf.mpr hv.1

/-- The nodes of a tree stand where the parts of its definition do. -/
theorem Nonterminal.tree_at : ∀ (n : Nonterminal) {ts : List Token} {v : n.definition.Value},
    (0 < n.width → P (placeOf ts)) → n.definition.At P v → ∀ x ∈ n.nodes (n.tree ts v), P x.tag
  | source, _, (_, _), _, hv => by
      refine List.forall_mem_append.mpr ⟨?_, ?_⟩
      · intro x hx
        obtain ⟨f, hf, hx⟩ := List.mem_flatMap.mp hx
        exact hv.1 f hf x hx
      · intro x hx
        obtain ⟨d, hd, hx⟩ := List.mem_flatMap.mp hx
        exact hv.2 d hd x hx
  | field, _, (_, _), hts, hv => List.forall_mem_cons.mpr ⟨hts (by decide), hv.2⟩
  | method, _, (_, _, _, _, _, _, _, _, _), _, hv => by
      obtain ⟨hdef, -, -, -, -, -, -, hbody⟩ := hv
      exact List.forall_mem_cons.mpr ⟨hdef, body_at hbody⟩
  | params, _, _, _, _ => fun x hx => absurd hx List.not_mem_nil
  | param, _, _, _, _ => fun x hx => absurd hx List.not_mem_nil
  | statement, _, _, hts, hv => statementOf_at (hts (by decide)) hv
  | declaration, _, (_, _, none, _), _, _ => fun x hx => absurd hx List.not_mem_nil
  | declaration, _, (_, _, some w, _), _, hv => (hv.2.2.1 w rfl).2
  | branch, _, (_, _, _, elseBody, _), _, hv => by
      obtain ⟨hcondition, -, hthen, helse, -⟩ := hv
      refine List.forall_mem_append.mpr ⟨hcondition, List.forall_mem_append.mpr ⟨?_, ?_⟩⟩
      · exact Stmt.forall_mem_nodesOf.mpr hthen
      · cases elseBody with
        | none => exact fun x hx => absurd hx List.not_mem_nil
        | some w => exact Stmt.forall_mem_nodesOf.mpr (helse w rfl).2
  | forIn, _, (_, _, _, _, _, _), _, hv =>
      List.forall_mem_append.mpr ⟨hv.2.2.1, body_at hv.2.2.2.2⟩
  | loop, _, (_, _, _, _), _, hv => List.forall_mem_append.mpr ⟨hv.1, body_at hv.2.2⟩
  | ret, _, (_, _), _, hv => hv.1
  | expr .expression, _, _, _, hv => hv
  | expr .logical, _, _, _, hv => chainOf_at hv
  | expr .comparison, _, _, _, hv => chainOf_at hv
  | expr .additive, _, _, _, hv => chainOf_at hv
  | expr .multiplicative, _, _, _, hv => chainOf_at hv
  | expr .secondary, _, (_, members), _, hv =>
      List.foldlRecOn (motive := fun e : Expr Place => ∀ x ∈ e.nodes, P x.tag) members memberOf hv.1
        fun _ he w hw => memberOf_at he (hv.2 w hw)
  | expr .primary, _, _, _, hv => primaryOf_at hv
  | arguments, _, (_, rest), _, hv => by
      refine List.forall_mem_append.mpr ⟨hv.1, Expr.forall_mem_nodesOf.mpr ?_⟩
      intro e he
      obtain ⟨w, hw, rfl⟩ := List.mem_map.mp he
      exact (hv.2 w hw).2

theorem Derivation.value_at {p : Phrase} (d : Derivation p)
    (h : ∀ t ∈ d.yield, P (some t.location)) : p.At P d.value := by
  induction d with
  | token t _ => exact h t List.mem_cons_self
  | @rule n d ih =>
      refine n.tree_at (fun hwidth => ?_) (ih h)
      have hlen : 0 < d.yield.length := by
        have := (Derivation.rule d).width_le
        exact Nat.lt_of_lt_of_le hwidth this
      cases hyield : d.yield with
      | nil => rw [hyield] at hlen; cases hlen
      | cons t ts => exact h t (hyield ▸ List.mem_cons_self)
  | seq d e ihd ihe =>
      exact ⟨ihd fun t ht => h t (List.mem_append_left _ ht),
        ihe fun t ht => h t (List.mem_append_right _ ht)⟩
  | left d ih => exact ih h
  | right d ih => exact ih h
  | absent => intro w hw; cases hw
  | present d ih => intro w hw; cases hw; exact ih h
  | done => intro w hw; cases hw
  | more d e ihd ihe =>
      intro w hw
      cases hw with
      | head => exact ihd fun t ht => h t (List.mem_append_left _ ht)
      | tail _ hw => exact ihe (fun t ht => h t (List.mem_append_right _ ht)) w hw

end Grammar

/-! ## Trees that are read

What reading a phrase returns is the tree of a derivation, and its places are those of the tokens
that it covers. -/

/-- A place of one of some tokens. -/
def StandsAmong (ts : List Token) (place : Place) : Prop := ∃ t ∈ ts, place = some t.location

theorem StandsAmong.mono {ts us : List Token} {place : Place} (h : StandsAmong ts place)
    (hts : ts ⊆ us) : StandsAmong us place := by
  obtain ⟨t, ht, hplace⟩ := h
  exact ⟨t, hts ht, hplace⟩

theorem parseExpression_places {ts rest : List Token} (hts : Plain ts) {e : Expr Place}
    (he : parseExpression ts = .ok (e, rest)) : ∀ x ∈ e.nodes, StandsAmong ts x.tag := by
  have hanswers := Reads.expression (Parse.fuelFor ts) ts hts
  rw [show Parse.expression (Parse.fuelFor ts) ts = _ from he] at hanswers
  obtain ⟨d, rfl, -, -, rfl⟩ := hanswers
  exact d.value_at fun t ht => ⟨t, List.mem_append_left _ ht, rfl⟩

theorem parseStatements_places {ts : List Token} (hts : Plain ts) {ss : List (Stmt Place)}
    (hss : parseStatements ts = .ok ss) : ∀ x ∈ Stmt.nodesOf ss, StandsAmong ts x.tag := by
  unfold parseStatements at hss
  generalize Parse.fuelFor ts = n at hss
  induction n generalizing ts ss with
  | zero => cases hss
  | succ n ih =>
      unfold Parse.statements at hss
      split at hss
      · cases hss
        exact fun x hx => absurd hx List.not_mem_nil
      · next hne =>
          obtain ⟨⟨s, rest⟩, hs, hss⟩ := except_bind_eq_ok.mp hss
          obtain ⟨ss', hrest, hss⟩ := except_bind_eq_ok.mp hss
          cases hss
          have hanswers := (readsStatements n).statement ts (by simpa using hne) hts
          rw [hs] at hanswers
          obtain ⟨d, rfl, -, -, rfl⟩ := hanswers
          refine List.forall_mem_append.mpr ⟨?_, ?_⟩
          · exact d.value_at fun t ht => ⟨t, List.mem_append_left _ ht, rfl⟩
          · intro x hx
            exact (ih hts.append_right hrest x hx).mono (List.subset_append_right _ _)

theorem parseProgram_places {ts : List Token} (hts : Plain ts) {p : Program Place}
    (hp : parseProgram ts = .ok p) : ∀ x ∈ p.nodes, StandsAmong ts x.tag := by
  have hexplained := parseProgram_outcome hts
  rw [hp] at hexplained
  obtain ⟨d, rfl, -, rfl⟩ := hexplained
  exact d.value_at fun t ht => ⟨t, ht, rfl⟩

theorem parseProgram_tag {ts : List Token} {p : Program Place} (hp : parseProgram ts = .ok p) :
    p.tag = Grammar.placeOf ts := by
  obtain ⟨x, -, hp⟩ := except_bind_eq_ok.mp hp
  obtain ⟨y, -, hp⟩ := except_bind_eq_ok.mp hp
  dsimp only at hp
  split at hp
  · cases hp
    rfl
  · split at hp <;> cases hp

end QuillLang
