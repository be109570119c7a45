/-
# Building derivations

A row of operators, of members or of statements is derived from its first part
on, while its tree is built up to the last.  So a derivation is needed that has
one part more at its end (`snoc`), and for a chain of operands, one operator
and one operand more (`extend`).

A token can be made for every terminal of the grammar (`Terminal.sample`), and
every symbol derives something: `Filled` says that a phrase has a proper
derivation.  For a symbol this follows from the symbols that its definition
cannot do without, and these are of a smaller height.
-/
import QuillLang.Proofs.LookAhead

namespace QuillLang

/-- A token of a terminal. -/
def Terminal.sample : Terminal → Token
  | .word text =>
    ⟨if keywords.contains text then .identifier else .operator, text, Location.start none⟩
  | .name => ⟨.identifier, "x", Location.start none⟩
  | .literal .decimal => ⟨.decimal, "0.0", Location.start none⟩
  | .literal .character => ⟨.character, "'x'", Location.start none⟩
  | .literal .string => ⟨.string, "\"\"", Location.start none⟩
  | .literal _ => ⟨.integer, "0", Location.start none⟩

namespace Grammar

open Phrase

namespace Derivation

/-! ## One part more

A repetition is a list from its first part on.  For a chain of operands, the tree of the longer one
has that of the shorter as its left operand (`chainOf_extend`). -/

/-- A repetition with one part more at its end. -/
def snoc {a : Phrase} : Derivation (many a) → Derivation a → Derivation (many a)
  | done, e => more e done
  | more d ds, e => more d (ds.snoc e)

section

variable {a : Phrase}

theorem yield_snoc : ∀ (ds : Derivation (many a)) (e : Derivation a),
    (ds.snoc e).yield = ds.yield ++ e.yield
  | done, e => by simp [snoc, yield]
  | more d ds, e => by simp [snoc, yield, yield_snoc ds e]

theorem value_snoc : ∀ (ds : Derivation (many a)) (e : Derivation a),
    (ds.snoc e).value = List.append ds.value [e.value]
  | done, e => by
      rw [snoc]
      rfl
  | more d ds, e => by
      rw [snoc]
      exact congrArg (List.cons d.value) (value_snoc ds e)

theorem proper_snoc : ∀ {ds : Derivation (many a)} {e : Derivation a}, ds.Proper → e.Proper →
    (ds.snoc e).Proper
  | done, e, _, he => by
      rw [snoc]
      exact ⟨he, trivial⟩
  | more d ds, e, hds, he => by
      rw [snoc]
      exact ⟨hds.1, proper_snoc hds.2 he⟩

end

section

variable {operand : Rank} {operators : List String}

/-- A chain with one operator and one operand more at its end. -/
def extend (d : Derivation (chain operand operators)) (t : Token)
    (h : t.terminal ∈ operators.map Terminal.word) (e : Derivation (Phrase.rule (.expr operand))) :
    Derivation (chain operand operators) :=
  match d with
  | seq d ds => seq d (ds.snoc (seq (token t h) e))

variable {d : Derivation (chain operand operators)} {t : Token}
  {h : t.terminal ∈ operators.map Terminal.word} {e : Derivation (Phrase.rule (.expr operand))}

theorem yield_extend : (d.extend t h e).yield = d.yield ++ t :: e.yield := by
  cases d with
  | seq d ds =>
      show (seq d (ds.snoc (seq (token t h) e))).yield = _
      simp [yield, yield_snoc]

theorem chainOf_extend :
    chainOf (d.extend t h e).value = operation (chainOf d.value) (t, e.value) := by
  cases d with
  | seq d ds =>
      show List.foldl operation d.value (ds.snoc (seq (token t h) e)).value = _
      rw [value_snoc]
      exact List.foldl_append

theorem proper_extend (hd : d.Proper) (he : e.Proper) : (d.extend t h e).Proper := by
  cases d with
  | seq d ds => exact ⟨hd.1, proper_snoc hd.2 ⟨trivial, he⟩⟩

end

/-- An expression becomes a binary one if an operator and an operand are put after it. -/
theorem exists_binary (d : Derivation .expression) (hd : d.Proper) (t : Token)
    (h : t.terminal ∈ ["AND", "OR"].map Terminal.word)
    (e : Derivation (Phrase.rule (.expr .comparison))) (he : e.Proper) :
    ∃ d' : Derivation .expression, d'.yield = d.yield ++ t :: e.yield ∧ d'.Proper ∧
      Expr.isBinary (α := Place) d'.value = true := by
  cases d with
  | rule d =>
      cases d with
      | rule d =>
          refine ⟨.rule (.rule (extend d t h e)), yield_extend, ?_, ?_⟩
          · exact ⟨⟨proper_extend hd.1.1 he, rfl⟩, rfl⟩
          · exact (congrArg Expr.isBinary (chainOf_extend (d := d) (h := h) (e := e))).trans rfl

end Derivation

/-! ## Filling a phrase

That every symbol derives something is not evident, because symbols refer to each other in circles.
A phrase can do without its optional parts and repetitions, though, and along what is left the
height goes down. -/

/-- A phrase has a proper derivation. -/
def Phrase.Filled (p : Phrase) : Prop := ∃ d : Derivation p, d.Proper

/-- Every place for a token, in all of a phrase, can be taken by a sample. -/
def Phrase.completable : Phrase → Bool
  | token cs => cs.any fun c => c.sample.terminal = c
  | rule _ => true
  | seq a b | alt a b => a.completable && b.completable
  | opt a | many a => a.completable

/-- The symbols that a phrase cannot do without, if it takes the first of its alternatives. -/
def Phrase.needed : Phrase → List Nonterminal
  | token _ | opt _ | many _ => []
  | rule n => [n]
  | seq a b => a.needed ++ b.needed
  | alt a _ => a.needed

theorem Phrase.filled_of_needed {p : Phrase} (hp : p.completable = true)
    (h : ∀ n ∈ p.needed, (rule n).Filled) : p.Filled := by
  induction p with
  | token cs =>
      obtain ⟨c, hc, hsample⟩ := List.any_eq_true.mp hp
      have hsample : c.sample.terminal = c := of_decide_eq_true hsample
      exact ⟨.token c.sample (hsample.symm ▸ hc), trivial⟩
  | rule n => exact h n List.mem_cons_self
  | seq a b iha ihb =>
      obtain ⟨ha, hb⟩ := Bool.and_eq_true_iff.mp hp
      obtain ⟨d, hd⟩ := iha ha fun n hn => h n (List.mem_append_left _ hn)
      obtain ⟨e, he⟩ := ihb hb fun n hn => h n (List.mem_append_right _ hn)
      exact ⟨.seq d e, hd, he⟩
  | alt a b iha _ =>
      obtain ⟨d, hd⟩ := iha (Bool.and_eq_true_iff.mp hp).1 h
      exact ⟨.left d, hd⟩
  | opt a => exact ⟨.absent, trivial⟩
  | many a => exact ⟨.done, trivial⟩

theorem Nonterminal.completable (n : Nonterminal) : n.definition.completable = true := by
  cases n with
  | expr r => cases r <;> decide
  | _ => decide

/-- How many symbols are derived inside each other, where as few as possible are. -/
def Nonterminal.height : Nonterminal → Nat
  | source | method | param | declaration | expr .primary => 0
  | field | params | statement | expr .secondary => 1
  | expr .multiplicative => 2
  | expr .additive => 3
  | expr .comparison => 4
  | expr .logical => 5
  | expr .expression => 6
  | arguments | branch | forIn | loop | ret => 7

theorem Nonterminal.needed_height (n : Nonterminal) :
    ∀ m ∈ n.definition.needed, m.height < n.height := by
  cases n with
  | expr r => cases r <;> decide
  | _ => decide

theorem Phrase.filled_primary : (rule (.expr .primary)).Filled := by
  refine ⟨.rule (.left (.token (Terminal.word "NIL").sample ?_)), ?_⟩
  · decide
  · exact ⟨trivial, rfl⟩

theorem Nonterminal.admits_of_ne {n : Nonterminal} (hn : n ≠ .expr .primary) (v : n.Tree) :
    n.admits v = true := by
  cases h : n.admits v with
  | true => rfl
  | false => exact absurd (eq_primary_of_admits h) hn

/-- Every symbol has a proper derivation. -/
theorem Nonterminal.filled (n : Nonterminal) : (rule n).Filled := by
  by_cases hn : n = .expr .primary
  · rw [hn]
    exact filled_primary
  · obtain ⟨d, hd⟩ := filled_of_needed n.completable fun m _ => m.filled
    exact ⟨.rule d, hd, admits_of_ne hn _⟩
termination_by n.height
decreasing_by exact n.needed_height m ‹_›

theorem Phrase.filled {p : Phrase} (hp : p.completable = true) : p.Filled :=
  filled_of_needed hp fun n _ => n.filled

end Grammar

end QuillLang
