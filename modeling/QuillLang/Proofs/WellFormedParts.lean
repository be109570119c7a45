/-
# Parts of trees that are read

A tree that is read from the tokens of a text is well-formed, and so are all of
its parts: each node, taken alone, is one that could have been read.
-/
import QuillLang.Proofs.Numbering
import QuillLang.Proofs.Positions

namespace QuillLang

/-! ## Nodes

Being well-formed is checked along a tree, so that it goes from a node to all nodes below it. -/

section

variable {α : Type}

def Node.wellFormed : Node α → Bool
  | .field f => f.wellFormed
  | .method d => d.wellFormed
  | .stmt s => s.wellFormed
  | .expr e => e.wellFormed

/-- All nodes of some are well-formed. -/
def AllWellFormed (ns : List (Node α)) : Prop := ∀ x ∈ ns, x.wellFormed = true

namespace AllWellFormed

variable {x : Node α} {ns ns' : List (Node α)}

theorem nil : AllWellFormed ([] : List (Node α)) := fun _ hx => absurd hx List.not_mem_nil

theorem cons (hx : x.wellFormed = true) (h : AllWellFormed ns) : AllWellFormed (x :: ns) :=
  List.forall_mem_cons.mpr ⟨hx, h⟩

theorem append (h : AllWellFormed ns) (h' : AllWellFormed ns') : AllWellFormed (ns ++ ns') :=
  List.forall_mem_append.mpr ⟨h, h'⟩

theorem flatMap {β : Type} {f : β → List (Node α)} {bs : List β}
    (h : ∀ b ∈ bs, AllWellFormed (f b)) : AllWellFormed (bs.flatMap f) := by
  intro y hy
  obtain ⟨b, hb, hy⟩ := List.mem_flatMap.mp hy
  exact h b hb y hy

end AllWellFormed

mutual

theorem Expr.wellFormed_nodes : (e : Expr α) → e.wellFormed = true → AllWellFormed e.nodes
  | .nil _, h | .boolean _ _, h | .character _ _, h | .string _ _, h | .integer _ _, h
  | .decimal _ _, h | .var _ _, h => .cons h .nil
  | .group _ e, h => .cons h (e.wellFormed_nodes (Bool.and_eq_true_iff.mp h).2)
  | .binary _ _ l r, h => by
      obtain ⟨hl, hr⟩ := Bool.and_eq_true_iff.mp h
      exact .cons h (.append (l.wellFormed_nodes (Bool.and_eq_true_iff.mp hl).2)
        (r.wellFormed_nodes hr))
  | .field _ e _, h => by
      obtain ⟨he, -⟩ := Bool.and_eq_true_iff.mp h
      exact .cons h (e.wellFormed_nodes (Bool.and_eq_true_iff.mp he).2)
  | .call _ _ es, h => .cons h (Expr.wellFormed_nodesOf es (Bool.and_eq_true_iff.mp h).2)
  | .invoke _ e _ es, h => by
      obtain ⟨hf, hes⟩ := Bool.and_eq_true_iff.mp h
      obtain ⟨he, -⟩ := Bool.and_eq_true_iff.mp hf
      exact .cons h (.append (e.wellFormed_nodes (Bool.and_eq_true_iff.mp he).2)
        (Expr.wellFormed_nodesOf es hes))

theorem Expr.wellFormed_nodesOf : (es : List (Expr α)) → Expr.allWellFormed es = true →
    AllWellFormed (Expr.nodesOf es)
  | [], _ => .nil
  | e :: es, h =>
      have ⟨he, hes⟩ := Bool.and_eq_true_iff.mp h
      .append (e.wellFormed_nodes he) (Expr.wellFormed_nodesOf es hes)

end

theorem Expr.wellFormed_nodes? : (e : Option (Expr α)) → e.all Expr.wellFormed = true →
    AllWellFormed (Expr.nodes? e)
  | none, _ => .nil
  | some e, h => e.wellFormed_nodes h

mutual

theorem Stmt.wellFormed_nodes : (s : Stmt α) → s.wellFormed = true → AllWellFormed s.nodes
  | .expr _ e, h | .ret _ e, h => .cons h (e.wellFormed_nodes h)
  | .declare _ _ _ e, h => .cons h (Expr.wellFormed_nodes? e (Bool.and_eq_true_iff.mp h).2)
  | .assign _ l e, h =>
      have ⟨hl, he⟩ := Bool.and_eq_true_iff.mp h
      .cons h (.append (l.wellFormed_nodes hl) (e.wellFormed_nodes he))
  | .branch _ c a b, h =>
      have ⟨hca, hb⟩ := Bool.and_eq_true_iff.mp h
      have ⟨hc, ha⟩ := Bool.and_eq_true_iff.mp hca
      .cons h (.append (c.wellFormed_nodes hc)
        (.append (Stmt.wellFormed_nodesOf a ha) (Stmt.wellFormed_nodesOf b hb)))
  | .forIn _ _ e b, h =>
      have ⟨he, hb⟩ := Bool.and_eq_true_iff.mp h
      .cons h (.append (e.wellFormed_nodes (Bool.and_eq_true_iff.mp he).2)
        (Stmt.wellFormed_nodesOf b hb))
  | .loop _ c b, h =>
      have ⟨hc, hb⟩ := Bool.and_eq_true_iff.mp h
      .cons h (.append (c.wellFormed_nodes hc) (Stmt.wellFormed_nodesOf b hb))

theorem Stmt.wellFormed_nodesOf : (ss : List (Stmt α)) → Stmt.allWellFormed ss = true →
    AllWellFormed (Stmt.nodesOf ss)
  | [], _ => .nil
  | s :: ss, h =>
      have ⟨hs, hss⟩ := Bool.and_eq_true_iff.mp h
      .append (s.wellFormed_nodes hs) (Stmt.wellFormed_nodesOf ss hss)

end

theorem Program.wellFormed_nodes (p : Program α) (h : p.wellFormed = true) :
    AllWellFormed p.nodes := by
  obtain ⟨hfields, hmethods⟩ := Bool.and_eq_true_iff.mp h
  refine .append (.flatMap fun f hf => ?_) (.flatMap fun d hd => ?_)
  · have hf := List.all_eq_true.mp hfields f hf
    exact .cons hf (Expr.wellFormed_nodes? f.value (Bool.and_eq_true_iff.mp hf).2)
  · have hd := List.all_eq_true.mp hmethods d hd
    exact .cons hd (Stmt.wellFormed_nodesOf d.body (Bool.and_eq_true_iff.mp hd).2)

end

/-! ## Texts

Programs, expressions and statements are read in the same way from the tokens of a text. -/

namespace Source

theorem program_wellFormed {s : Source} {p : Program Place} (h : s.program = .ok p) :
    AllWellFormed p.nodes := by
  obtain ⟨ts, hts, hp⟩ := parseWith_eq_ok h
  exact p.wellFormed_nodes (wellFormed_of_parseProgram (fun _ => tokenize_lexical hts) hp)

theorem expression_wellFormed {s : Source} {e : Expr Place} {rest : List Token}
    (h : s.expression = .ok (e, rest)) : AllWellFormed e.nodes := by
  obtain ⟨ts, hts, he⟩ := parseWith_eq_ok h
  let P : TokenClass := ⟨Token.Lexical, id⟩
  have hgives := Gives.expression (P := P) (n := Parse.fuelFor ts) fun _ => tokenize_lexical hts
  rw [show Parse.expression (Parse.fuelFor ts) ts = _ from he] at hgives
  exact e.wellFormed_nodes hgives.1

theorem statements_wellFormed {s : Source} {ss : List (Stmt Place)} (h : s.statements = .ok ss) :
    AllWellFormed (Stmt.nodesOf ss) := by
  obtain ⟨ts, hts, hss⟩ := parseWith_eq_ok h
  exact Stmt.wellFormed_nodesOf ss
    (wellFormed_of_parseStatements (fun _ => tokenize_lexical hts) hss)

end Source

end QuillLang
