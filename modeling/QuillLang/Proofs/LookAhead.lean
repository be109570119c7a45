/-
# One token of look-ahead

The next token decides every choice that the grammar leaves open: which
alternative to take, whether an optional part is there, and whether a
repetition goes on.  Two tables say which terminals a symbol can start with and
which can follow it, and the rules are checked against the tables.

A derivation is closed before the tokens that follow it if each optional part
it leaves out, and each repetition it ends, could not have gone on with the
token that comes next.  Closed derivations of one phrase that cover the
beginning of the same tokens are equal, and a derivation before a token that
can follow its phrase is closed, so that the grammar is unambiguous.

`Fails` says where such a reading gets stuck, and that no proper derivation is
there to be found then.
-/
import QuillLang.Proofs.Grammar

namespace QuillLang.Grammar

open Phrase

/-! ## The first token

The table of first tokens is correct if it holds what each definition can start with according to
the table itself, and that is decided by computation.  Only a program can be without tokens. -/

/-- A lower bound for the tokens that a symbol covers. -/
def Nonterminal.width : Nonterminal → Nat
  | source => 0
  | _ => 1

/-- A lower bound for the tokens that a phrase covers. -/
def Phrase.width : Phrase → Nat
  | token _ => 1
  | rule n => n.width
  | seq a b => a.width + b.width
  | alt a b => min a.width b.width
  | opt _ | many _ => 0

/-- The terminals that an expression can start with. -/
def expressionStarts : List Terminal :=
  [.word "NIL", .word "TRUE", .word "FALSE", .literal .integer, .literal .decimal,
    .literal .character, .literal .string, .word "(", .name]

/-- The terminals that a symbol can start with. -/
def Nonterminal.first : Nonterminal → List Terminal
  | source => [.word "LET", .word "DEF"]
  | field => [.word "LET"]
  | method => [.word "DEF"]
  | params | param | declaration | forIn => [.name]
  | statement =>
    [.word "LET", .word "IF", .word "FOR", .word "WHILE", .word "RETURN"] ++ expressionStarts
  | branch | loop | ret | expr _ | arguments => expressionStarts

/-- The terminals that a phrase can start with. -/
def Phrase.first : Phrase → List Terminal
  | token cs => cs
  | rule n => n.first
  | seq a b => if a.width = 0 then a.first ++ b.first else a.first
  | alt a b => a.first ++ b.first
  | opt a | many a => a.first

theorem Phrase.first_subset_seq (a b : Phrase) : a.first ⊆ (seq a b).first := by
  simp only [Phrase.first]
  split
  · exact List.subset_append_left ..
  · exact fun _ h => h

theorem Nonterminal.width_le (n : Nonterminal) : n.width ≤ n.definition.width := by
  cases n with
  | expr r => cases r <;> decide
  | _ => decide

theorem Nonterminal.first_subset (n : Nonterminal) : n.definition.first ⊆ n.first := by
  cases n with
  | expr r => cases r <;> decide
  | _ => decide

/-- The next token is one that a phrase can start with. -/
def Phrase.Starts (p : Phrase) : List Token → Prop
  | [] => False
  | t :: _ => t.terminal ∈ p.first

instance Phrase.decidableStarts (p : Phrase) : (ts : List Token) → Decidable (p.Starts ts)
  | [] => inferInstanceAs (Decidable False)
  | t :: _ => inferInstanceAs (Decidable (t.terminal ∈ p.first))

theorem Phrase.Starts.mono {p q : Phrase} {ts : List Token} (h : p.Starts ts)
    (hsub : p.first ⊆ q.first) : q.Starts ts := by
  cases ts with
  | nil => exact h
  | cons t rest => exact hsub h

namespace Derivation

variable {p : Phrase}

theorem width_le (d : Derivation p) : p.width ≤ d.yield.length := by
  induction d with
  | token t h => exact Nat.le_refl 1
  | @rule n d ih => exact Nat.le_trans n.width_le ih
  | seq d e ihd ihe =>
      simp only [yield, Phrase.width, List.length_append]
      omega
  | left d ih => exact Nat.le_trans (Nat.min_le_left ..) ih
  | right d ih => exact Nat.le_trans (Nat.min_le_right ..) ih
  | absent => exact Nat.zero_le _
  | present d ih => exact Nat.zero_le _
  | done => exact Nat.zero_le _
  | more d e ihd ihe => exact Nat.zero_le _

theorem yield_eq_nil_or_starts (d : Derivation p) (rest : List Token) :
    d.yield = [] ∨ p.Starts (d.yield ++ rest) := by
  induction d generalizing rest with
  | token t h => exact .inr h
  | @rule n d ih => exact (ih rest).imp_right (·.mono n.first_subset)
  | @seq a b d e ihd ihe =>
      cases hd : d.yield with
      | nil =>
          have hw : a.width = 0 := by simpa [hd] using d.width_le
          simp only [yield, hd, List.nil_append]
          refine (ihe rest).imp_right fun h => h.mono ?_
          simp [Phrase.first, hw]
      | cons t ts =>
          refine .inr ?_
          have h := (ihd (e.yield ++ rest)).resolve_left (by simp [hd])
          rw [yield, List.append_assoc]
          exact h.mono (first_subset_seq a b)
  | left d ih => exact (ih rest).imp_right (·.mono (List.subset_append_left ..))
  | right d ih => exact (ih rest).imp_right (·.mono (List.subset_append_right ..))
  | absent => exact .inl rfl
  | present d ih => exact ih rest
  | done => exact .inl rfl
  | @more a d e ihd ihe =>
      cases hd : d.yield with
      | nil => simpa [yield, hd] using ihe rest
      | cons t ts =>
          refine .inr ?_
          rw [yield, List.append_assoc]
          exact (ihd (e.yield ++ rest)).resolve_left (by simp [hd])

/-- What covers a token at least starts with one that it can start with. -/
theorem starts (d : Derivation p) (hp : 0 < p.width) (rest : List Token) :
    p.Starts (d.yield ++ rest) := by
  refine (d.yield_eq_nil_or_starts rest).resolve_left fun h => ?_
  have := d.width_le
  rw [h, List.length_nil] at this
  omega

end Derivation

/-! ## Closed derivations

At each choice the next token is looked at.  Alternatives begin with different tokens and what is
optional covers at least one, so that the choice is the same for every closed derivation. -/

/-- No part that is left out and no repetition that is ended could go on. -/
def Derivation.Closed {p : Phrase} : Derivation p → List Token → Prop
  | token _ _, _ => True
  | rule d, rest | left d, rest | right d, rest | present d, rest => d.Closed rest
  | seq d e, rest | more d e, rest => d.Closed (e.yield ++ rest) ∧ e.Closed rest
  | absent (a := a), rest | done (a := a), rest => ¬ a.Starts rest

/-- Alternatives start differently, and what is left open covers a token. -/
def Phrase.decided : Phrase → Bool
  | token _ | rule _ => true
  | seq a b => a.decided && b.decided
  | alt a b =>
    decide (∀ c ∈ a.first, c ∉ b.first) && decide (0 < a.width) && decide (0 < b.width) &&
      a.decided && b.decided
  | opt a | many a => decide (0 < a.width) && a.decided

theorem Nonterminal.decided (n : Nonterminal) : n.definition.decided = true := by
  cases n with
  | expr r => cases r <;> decide
  | _ => decide

theorem Phrase.Starts.disjoint {a b : Phrase} {ts : List Token}
    (h : ∀ c ∈ a.first, c ∉ b.first) (ha : a.Starts ts) : ¬ b.Starts ts := by
  cases ts with
  | nil => exact fun h => h
  | cons t rest => exact h _ ha

/-- There is one closed derivation at most at the beginning of some tokens. -/
theorem Derivation.closed_unique {p : Phrase} (hp : p.decided = true) (d d' : Derivation p)
    {rest rest' : List Token} (h : d.Closed rest) (h' : d'.Closed rest')
    (hy : d.yield ++ rest = d'.yield ++ rest') : d = d' ∧ rest = rest' := by
  induction d generalizing rest rest' with
  | token t ht =>
      cases d' with
      | token t' ht' =>
          obtain ⟨rfl, rfl⟩ := List.cons.inj hy
          exact ⟨rfl, rfl⟩
  | @rule n d ih =>
      cases d' with
      | rule d' =>
          obtain ⟨rfl, rfl⟩ := ih n.decided d' h h' hy
          exact ⟨rfl, rfl⟩
  | seq d e ihd ihe =>
      cases d' with
      | seq d' e' =>
          obtain ⟨ha, hb⟩ := Bool.and_eq_true_iff.mp hp
          simp only [yield, List.append_assoc] at hy
          obtain ⟨rfl, he⟩ := ihd ha d' h.1 h'.1 hy
          obtain ⟨rfl, rfl⟩ := ihe hb e' h.2 h'.2 he
          exact ⟨rfl, rfl⟩
  | left d ih =>
      simp only [Phrase.decided, Bool.and_eq_true, decide_eq_true_eq] at hp
      obtain ⟨⟨⟨⟨hdis, hwa⟩, hwb⟩, ha⟩, -⟩ := hp
      cases d' with
      | left d' =>
          obtain ⟨rfl, rfl⟩ := ih ha d' h h' hy
          exact ⟨rfl, rfl⟩
      | right d' =>
          have hs := d.starts hwa rest
          rw [show d.yield ++ rest = d'.yield ++ rest' from hy] at hs
          exact absurd (d'.starts hwb rest') (hs.disjoint hdis)
  | right d ih =>
      simp only [Phrase.decided, Bool.and_eq_true, decide_eq_true_eq] at hp
      obtain ⟨⟨⟨⟨hdis, hwa⟩, hwb⟩, -⟩, hb⟩ := hp
      cases d' with
      | left d' =>
          have hs := d'.starts hwa rest'
          rw [show d'.yield ++ rest' = d.yield ++ rest from hy.symm] at hs
          exact absurd (d.starts hwb rest) (hs.disjoint hdis)
      | right d' =>
          obtain ⟨rfl, rfl⟩ := ih hb d' h h' hy
          exact ⟨rfl, rfl⟩
  | absent =>
      simp only [Phrase.decided, Bool.and_eq_true, decide_eq_true_eq] at hp
      cases d' with
      | absent => exact ⟨rfl, hy⟩
      | present d' =>
          rw [show rest = d'.yield ++ rest' from hy] at h
          exact absurd (d'.starts hp.1 rest') h
  | present d ih =>
      simp only [Phrase.decided, Bool.and_eq_true, decide_eq_true_eq] at hp
      cases d' with
      | absent =>
          rw [show rest' = d.yield ++ rest from hy.symm] at h'
          exact absurd (d.starts hp.1 rest) h'
      | present d' =>
          obtain ⟨rfl, rfl⟩ := ih hp.2 d' h h' hy
          exact ⟨rfl, rfl⟩
  | done =>
      simp only [Phrase.decided, Bool.and_eq_true, decide_eq_true_eq] at hp
      cases d' with
      | done => exact ⟨rfl, hy⟩
      | more d' e' =>
          rw [show rest = d'.yield ++ (e'.yield ++ rest') by simpa [yield] using hy] at h
          exact absurd (d'.starts hp.1 _) h
  | more d e ihd ihe =>
      have hp' := hp
      simp only [Phrase.decided, Bool.and_eq_true, decide_eq_true_eq] at hp
      cases d' with
      | done =>
          rw [show rest' = d.yield ++ (e.yield ++ rest) by simpa [yield] using hy.symm] at h'
          exact absurd (d.starts hp.1 _) h'
      | more d' e' =>
          simp only [yield, List.append_assoc] at hy
          obtain ⟨rfl, he⟩ := ihd hp.2 d' h.1 h'.1 hy
          obtain ⟨rfl, rfl⟩ := ihe hp' e' h.2 h'.2 he
          exact ⟨rfl, rfl⟩

/-! ## The token after

The table of following tokens is checked against the rules like the first one.  An optional part
cannot be mistaken for what comes after it, so what is followed by such a token is closed. -/

/-- What comes next; `none` is the end of the tokens. -/
def nextOf (ts : List Token) : Option Terminal := ts.head?.map Token.terminal

/-- What can come after an expression. -/
def expressionEnds : List (Option Terminal) :=
  [some (.word ")"), some (.word ","), some (.word ";"), some (.word "="), some (.word "DO")]

def textsAfter (texts : List String) : List (Option Terminal) :=
  texts.map fun text => some (.word text)

/-- What can come after an expression of some rank. -/
def Rank.follow : Rank → List (Option Terminal)
  | expression | logical => expressionEnds
  | comparison => textsAfter ["AND", "OR"] ++ expressionEnds
  | additive =>
    textsAfter ["<", "<=", ">", ">=", "==", "!=", "AND", "OR"] ++ expressionEnds
  | multiplicative =>
    textsAfter ["+", "-", "<", "<=", ">", ">=", "==", "!=", "AND", "OR"] ++ expressionEnds
  | secondary =>
    textsAfter ["*", "/", "+", "-", "<", "<=", ">", ">=", "==", "!=", "AND", "OR"] ++
      expressionEnds
  | primary =>
    textsAfter [".", "*", "/", "+", "-", "<", "<=", ">", ">=", "==", "!=", "AND", "OR"] ++
      expressionEnds

/-- What can come after a statement. -/
def statementEnds : List (Option Terminal) :=
  Nonterminal.statement.first.map some ++ [some (.word "ELSE"), some (.word "END")]

/-- What can come after a symbol. -/
def Nonterminal.follow : Nonterminal → List (Option Terminal)
  | source => [none]
  | field => [some (.word "LET"), some (.word "DEF"), none]
  | method => [some (.word "DEF"), none]
  | params | arguments => [some (.word ")")]
  | param => [some (.word ","), some (.word ")")]
  | declaration => statementEnds ++ [some (.word "DEF"), none]
  | statement | branch | forIn | loop | ret => statementEnds
  | expr rank => rank.follow

/-- No part that can be left out and no repetition can go on with what comes after it. -/
def Phrase.endsBefore : Phrase → List (Option Terminal) → Bool
  | token _, _ => true
  | rule n, follow => decide (follow ⊆ n.follow)
  | seq a b, follow =>
    a.endsBefore (b.first.map some ++ if b.width = 0 then follow else []) && b.endsBefore follow
  | alt a b, follow => a.endsBefore follow && b.endsBefore follow
  | opt a, follow => decide (∀ c ∈ a.first, some c ∉ follow) && a.endsBefore follow
  | many a, follow =>
    decide (∀ c ∈ a.first, some c ∉ follow) && a.endsBefore (a.first.map some ++ follow)

theorem Nonterminal.endsBefore_follow (n : Nonterminal) :
    n.definition.endsBefore n.follow = true := by
  cases n with
  | expr r => cases r <;> decide
  | _ => decide

theorem Phrase.Starts.next {p : Phrase} {ts : List Token} (h : p.Starts ts) :
    ∃ c ∈ p.first, nextOf ts = some c := by
  cases ts with
  | nil => exact h.elim
  | cons t rest => exact ⟨t.terminal, h, rfl⟩

theorem not_starts_of_next {p : Phrase} {follow : List (Option Terminal)} {ts : List Token}
    (hp : ∀ c ∈ p.first, some c ∉ follow) (h : nextOf ts ∈ follow) : ¬ p.Starts ts := by
  intro hs
  obtain ⟨c, hc, hn⟩ := hs.next
  rw [hn] at h
  exact hp c hc h

theorem Derivation.nextOf_mem {p : Phrase} (d : Derivation p) {follow : List (Option Terminal)}
    {rest : List Token} (h : nextOf rest ∈ follow) :
    nextOf (d.yield ++ rest) ∈ p.first.map some ++ if p.width = 0 then follow else [] := by
  rcases d.yield_eq_nil_or_starts rest with hd | hd
  · have hw : p.width = 0 := by simpa [hd] using d.width_le
    rw [hd, if_pos hw]
    exact List.mem_append_right _ h
  · obtain ⟨c, hc, hn⟩ := hd.next
    rw [hn]
    exact List.mem_append_left _ (List.mem_map_of_mem hc)

/-- A derivation is closed before what can come after its phrase. -/
theorem Derivation.closed_of_follow {p : Phrase} (d : Derivation p)
    {follow : List (Option Terminal)} (hp : p.endsBefore follow = true) {rest : List Token}
    (h : nextOf rest ∈ follow) : d.Closed rest := by
  induction d generalizing follow rest with
  | token t ht => trivial
  | @rule n d ih => exact ih n.endsBefore_follow (of_decide_eq_true hp h)
  | seq d e ihd ihe =>
      obtain ⟨ha, hb⟩ := Bool.and_eq_true_iff.mp hp
      exact ⟨ihd ha (e.nextOf_mem h), ihe hb h⟩
  | left d ih => exact ih (Bool.and_eq_true_iff.mp hp).1 h
  | right d ih => exact ih (Bool.and_eq_true_iff.mp hp).2 h
  | absent => exact not_starts_of_next (of_decide_eq_true (Bool.and_eq_true_iff.mp hp).1) h
  | present d ih => exact ih (Bool.and_eq_true_iff.mp hp).2 h
  | done => exact not_starts_of_next (of_decide_eq_true (Bool.and_eq_true_iff.mp hp).1) h
  | @more a d e ihd ihe =>
      obtain ⟨-, ha⟩ := Bool.and_eq_true_iff.mp hp
      refine ⟨ihd ha ?_, ihe hp h⟩
      -- another part, or what comes after the repetition
      simpa [Phrase.width, Phrase.first] using e.nextOf_mem h

theorem Derivation.source_closed (d : Derivation (.rule .source)) : d.Closed [] :=
  d.closed_of_follow (show (Phrase.rule .source).endsBefore [none] = true from rfl)
    (List.mem_singleton_self none)

/-- The grammar is unambiguous. -/
theorem Derivation.source_unique (d d' : Derivation (.rule .source)) (h : d.yield = d'.yield) :
    d = d' :=
  (closed_unique rfl d d' d.source_closed d'.source_closed (by rw [h])).1

/-! ## Failure

A failure follows the same choices as a closed derivation, up to where the next token fits nowhere.
Since the choices are forced, there is no way around it. -/

/-- Why and where no derivation is found. -/
inductive Stop where
  /-- The first token of these is not one that can come here. -/
  | stuck (rest : List Token)
  /-- The symbol at the start of these is derived in a way that is not admitted. -/
  | refused (rest : List Token)

/-- The next token leads to a place where a phrase cannot go on.  What is covered before that
place is covered properly. -/
inductive Fails : Phrase → List Token → Stop → Prop where
  | token {cs : List Terminal} {ts : List Token} :
      ¬ (token cs).Starts ts → Fails (token cs) ts (.stuck ts)
  | rule {n : Nonterminal} {ts : List Token} {s : Stop} :
      Fails n.definition ts s → Fails (rule n) ts s
  | refused {n : Nonterminal} (d : Derivation n.definition) {rest : List Token} :
      d.Closed rest → d.Proper → n.admits (n.tree d.yield d.value) = false →
      Fails (rule n) (d.yield ++ rest) (.refused (d.yield ++ rest))
  | first {a b : Phrase} {ts : List Token} {s : Stop} : Fails a ts s → Fails (seq a b) ts s
  | second {a b : Phrase} (d : Derivation a) {rest : List Token} {s : Stop} :
      d.Closed rest → d.Proper → Fails b rest s → Fails (seq a b) (d.yield ++ rest) s
  | left {a b : Phrase} {ts : List Token} {s : Stop} :
      a.Starts ts → Fails a ts s → Fails (alt a b) ts s
  | right {a b : Phrase} {ts : List Token} {s : Stop} :
      ¬ a.Starts ts → Fails b ts s → Fails (alt a b) ts s
  | present {a : Phrase} {ts : List Token} {s : Stop} :
      a.Starts ts → Fails a ts s → Fails (opt a) ts s
  | head {a : Phrase} {ts : List Token} {s : Stop} :
      a.Starts ts → Fails a ts s → Fails (many a) ts s
  | tail {a : Phrase} (d : Derivation a) {rest : List Token} {s : Stop} :
      d.Closed rest → d.Proper → Fails (many a) rest s → Fails (many a) (d.yield ++ rest) s

/-- Where a phrase fails, no closed and proper derivation of it begins. -/
theorem Fails.not_derived {p : Phrase} {ts : List Token} {s : Stop} (hf : Fails p ts s)
    (hp : p.decided = true) (d : Derivation p) {rest : List Token} (hc : d.Closed rest)
    (hd : d.Proper) : ts ≠ d.yield ++ rest := by
  induction hf generalizing rest with
  | token hs =>
      rintro rfl
      exact hs (d.starts Nat.one_pos rest)
  | @rule n _ _ _ ih =>
      cases d with
      | rule d => exact ih n.decided d hc hd.1
  | @refused n e rest' hc' _ ha =>
      cases d with
      | rule d =>
          intro hy
          obtain ⟨rfl, -⟩ := Derivation.closed_unique n.decided e d hc' hc hy
          simp [hd.2] at ha
  | first _ ih =>
      cases d with
      | seq d e =>
          intro hy
          refine ih (Bool.and_eq_true_iff.mp hp).1 d hc.1 hd.1 ?_
          rw [hy, Derivation.yield, List.append_assoc]
  | second e hc' _ _ ih =>
      cases d with
      | seq d d' =>
          intro hy
          obtain ⟨ha, hb⟩ := Bool.and_eq_true_iff.mp hp
          simp only [Derivation.yield, List.append_assoc] at hy
          obtain ⟨rfl, hy'⟩ := Derivation.closed_unique ha e d hc' hc.1 hy
          exact ih hb d' hc.2 hd.2 hy'
  | left hs _ ih =>
      simp only [Phrase.decided, Bool.and_eq_true, decide_eq_true_eq] at hp
      obtain ⟨⟨⟨⟨hdis, -⟩, hwb⟩, ha⟩, -⟩ := hp
      cases d with
      | left d => exact ih ha d hc hd
      | right d =>
          rintro rfl
          exact hs.disjoint hdis (d.starts hwb rest)
  | right hs _ ih =>
      simp only [Phrase.decided, Bool.and_eq_true, decide_eq_true_eq] at hp
      obtain ⟨⟨⟨⟨-, hwa⟩, -⟩, -⟩, hb⟩ := hp
      cases d with
      | left d =>
          rintro rfl
          exact hs (d.starts hwa rest)
      | right d => exact ih hb d hc hd
  | present hs _ ih =>
      cases d with
      | absent =>
          rintro rfl
          exact hc hs
      | present d => exact ih (Bool.and_eq_true_iff.mp hp).2 d hc hd
  | head hs _ ih =>
      cases d with
      | done =>
          rintro rfl
          exact hc hs
      | more d e =>
          intro hy
          refine ih (Bool.and_eq_true_iff.mp hp).2 d hc.1 hd.1 ?_
          rw [hy, Derivation.yield, List.append_assoc]
  | tail e hc' _ _ ih =>
      have hp' := hp
      simp only [Phrase.decided, Bool.and_eq_true, decide_eq_true_eq] at hp
      cases d with
      | done =>
          rintro hy
          rw [show rest = e.yield ++ _ from hy.symm] at hc
          exact hc (e.starts hp.1 _)
      | more d d' =>
          intro hy
          simp only [Derivation.yield, List.append_assoc] at hy
          obtain ⟨rfl, hy'⟩ := Derivation.closed_unique hp.2 e d hc' hc.1 hy
          exact ih hp' d' hc.2 hd.2 hy'

theorem Nonterminal.eq_primary_of_admits {n : Nonterminal} {v : n.Tree}
    (h : n.admits v = false) : n = .expr .primary := by
  cases n with
  | expr r =>
      cases r with
      | primary => rfl
      | _ => cases h
  | _ => cases h

/-- A phrase that the next token cannot start fails at once. -/
theorem Fails.eq_stuck {p : Phrase} {ts : List Token} {s : Stop} (hf : Fails p ts s)
    (hs : ¬ p.Starts ts) : s = .stuck ts := by
  induction hf with
  | token _ => rfl
  | @rule n _ _ _ ih => exact ih fun h => hs (h.mono n.first_subset)
  | @refused n d rest _ _ ha =>
      obtain rfl := Nonterminal.eq_primary_of_admits ha
      exact absurd ((Derivation.rule d).starts Nat.one_pos rest) hs
  | @first a b _ _ _ ih => exact ih fun h => hs (h.mono (first_subset_seq a b))
  | @second a b d rest _ _ _ _ ih =>
      have hd := (d.yield_eq_nil_or_starts rest).resolve_right
        fun h => hs (h.mono (first_subset_seq a b))
      have hw : a.width = 0 := by simpa [hd] using d.width_le
      rw [hd, List.nil_append] at hs ⊢
      exact ih fun h => hs (h.mono (by simp [Phrase.first, hw]))
  | left h _ _ => exact absurd (h.mono (List.subset_append_left ..)) hs
  | right _ _ ih => exact ih fun h => hs (h.mono (List.subset_append_right ..))
  | present h _ _ => exact absurd h hs
  | head h _ _ => exact absurd h hs
  | tail d _ _ _ ih =>
      have hd := (d.yield_eq_nil_or_starts _).resolve_right hs
      rw [hd, List.nil_append] at hs ⊢
      exact ih hs

end QuillLang.Grammar
