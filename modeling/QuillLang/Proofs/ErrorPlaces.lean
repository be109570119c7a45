/-
# Where errors stand

Tokens are viable if some program begins with them.  An error in the order of
tokens stands at the first token that ends viability: the tokens before it are
viable, and with it they are not.  At the end of the input it stands after
tokens that are viable and are no program yet.

A parenthesis that does not hold a binary expression is another matter.  Its
error is placed at the opening parenthesis, but up to the closing one the
tokens are viable: any expression can still become an operand.

Both parts follow from where a phrase fails.  What was covered properly before
can be completed, since every symbol derives something; and the failure itself
has seen nothing beyond the one token that it stands at.
-/
import QuillLang.Proofs.Derivations
import QuillLang.Proofs.ParsedPrograms

namespace QuillLang

/-- Tokens that a program begins with. -/
def Viable (ts : List Token) : Prop := ∃ more, Derivable (ts ++ more)

/-! ## Parentheses

Every symbol closes the parentheses that it opens, in the right order.  This is checked rule by
rule, and tells which parenthesis closes the one that an error is placed at. -/

/-- How many parentheses are open after a terminal, if `k` are before it; nothing if one is closed
that was not opened. -/
def Terminal.openAfter? (k : Nat) (c : Terminal) : Option Nat :=
  if c = .word "(" then some (k + 1)
  else if c = .word ")" then if k = 0 then none else some (k - 1)
  else some k

/-- How many parentheses are open after some tokens. -/
def openAfter? (k : Nat) (ts : List Token) : Option Nat :=
  ts.foldlM (fun k t => t.terminal.openAfter? k) k

theorem openAfter?_append {ts us : List Token} {k j : Nat} (h : openAfter? k ts = some j) :
    openAfter? k (ts ++ us) = openAfter? j us := by
  unfold openAfter? at h ⊢
  rw [List.foldlM_append, h]
  rfl

theorem Terminal.openAfter?_add (i : Nat) {c : Terminal} {k j : Nat}
    (h : c.openAfter? k = some j) : c.openAfter? (k + i) = some (j + i) := by
  unfold Terminal.openAfter? at h ⊢
  split at h
  · next ho =>
      cases h
      rw [if_pos ho, Nat.add_right_comm]
  · next ho =>
      rw [if_neg ho]
      split at h
      · next hc =>
          rw [if_pos hc]
          split at h
          · cases h
          · next hk =>
              cases h
              rw [if_neg (by omega), show k + i - 1 = k - 1 + i by omega]
      · next hc =>
          cases h
          rw [if_neg hc]

/-- Parentheses that were open before make no difference. -/
theorem openAfter?_add (i : Nat) {ts : List Token} {k j : Nat} (h : openAfter? k ts = some j) :
    openAfter? (k + i) ts = some (j + i) := by
  induction ts generalizing k with
  | nil =>
      cases h
      rfl
  | cons t ts ih =>
      unfold openAfter? at h ih ⊢
      rw [List.foldlM_cons] at h ⊢
      obtain ⟨l, hl, h⟩ := Option.bind_eq_some_iff.mp h
      rw [Terminal.openAfter?_add i hl]
      exact ih h

namespace Grammar

open Phrase

/-- How many parentheses are open after a phrase.  A symbol closes those that it opens. -/
def Phrase.openAfter? : Phrase → Nat → Option Nat
  | token [], k | rule _, k => some k
  | token (c :: cs), k =>
    if ∀ c' ∈ cs, c'.openAfter? k = c.openAfter? k then c.openAfter? k else none
  | seq a b, k => (a.openAfter? k).bind b.openAfter?
  | alt a b, k => if a.openAfter? k = b.openAfter? k then a.openAfter? k else none
  | opt a, k | many a, k => if a.openAfter? k = some k then some k else none

theorem Nonterminal.openAfter?_definition (n : Nonterminal) :
    n.definition.openAfter? 0 = some 0 := by
  cases n with
  | expr r => cases r <;> decide
  | _ => decide

theorem Phrase.openAfter?_token {cs : List Terminal} {c : Terminal} (hc : c ∈ cs) {k j : Nat}
    (h : (token cs).openAfter? k = some j) : c.openAfter? k = some j := by
  cases cs with
  | nil => cases hc
  | cons b cs =>
      simp only [Phrase.openAfter?] at h
      split at h
      · next hall =>
          rcases List.mem_cons.mp hc with rfl | hc
          · exact h
          · exact (hall c hc).trans h
      · cases h

/-- What a phrase covers opens and closes as many parentheses as the phrase does. -/
theorem Derivation.openAfter? {p : Phrase} (d : Derivation p) {k j : Nat}
    (h : p.openAfter? k = some j) : QuillLang.openAfter? k d.yield = some j := by
  induction d generalizing k j with
  | token t ht =>
      show Option.bind (t.terminal.openAfter? k) _ = some j
      rw [openAfter?_token ht h]
      rfl
  | @rule n d ih =>
      cases h
      have hd := openAfter?_add k (ih n.openAfter?_definition)
      rwa [Nat.zero_add] at hd
  | seq d e ihd ihe =>
      obtain ⟨i, hi, hj⟩ := Option.bind_eq_some_iff.mp h
      rw [yield, openAfter?_append (ihd hi)]
      exact ihe hj
  | left d ih =>
      simp only [Phrase.openAfter?] at h
      split at h
      · exact ih h
      · cases h
  | right d ih =>
      simp only [Phrase.openAfter?] at h
      split at h
      · next heq => exact ih (heq.symm.trans h)
      · cases h
  | absent =>
      simp only [Phrase.openAfter?] at h
      split at h
      · exact h
      · cases h
  | present d ih =>
      simp only [Phrase.openAfter?] at h
      split at h
      · next hk => exact ih (hk.trans h)
      · cases h
  | done =>
      simp only [Phrase.openAfter?] at h
      split at h
      · exact h
      · cases h
  | more d e ihd ihe =>
      have hmany := h
      simp only [Phrase.openAfter?] at h
      split at h
      · next hk =>
          cases h
          rw [yield, openAfter?_append (ihd hk)]
          exact ihe hmany
      · cases h

/-! ## One token is all that is seen

Whether a derivation is closed depends on what follows it by one token only.  So the rest of the
input can be exchanged behind that token. -/

theorem head?_append_cons (front : List Token) (t : Token) (after after' : List Token) :
    (front ++ t :: after).head? = (front ++ t :: after').head? := by
  cases front <;> rfl

theorem Phrase.Starts.congr {p : Phrase} {ts ts' : List Token} (h : ts.head? = ts'.head?)
    (hs : p.Starts ts) : p.Starts ts' := by
  cases ts with
  | nil => exact hs.elim
  | cons t ts =>
      cases ts' with
      | nil => cases h
      | cons t' ts' =>
          cases h
          exact hs

theorem Derivation.Closed.congr {p : Phrase} {d : Derivation p} {rest rest' : List Token}
    (h : rest.head? = rest'.head?) (hc : d.Closed rest) : d.Closed rest' := by
  induction d generalizing rest rest' with
  | token t ht => trivial
  | rule d ih | left d ih | right d ih | present d ih => exact ih h hc
  | seq d e ihd ihe | more d e ihd ihe =>
      refine ⟨ihd ?_ hc.1, ihe h hc.2⟩
      rw [List.head?_append, List.head?_append, h]
  | absent | done => exact fun hs => hc (hs.congr h.symm)

/-! ## Failing past some tokens

A failure has two sides: what was covered can be completed, with something still to come, and the
next token rules this out whatever comes after it.  Both are carried through the ways of putting
phrases together. -/

/-- A phrase fails after the tokens `front`: it can be completed from there on, but not with the
token that comes next. -/
structure FailsPast (p : Phrase) (front rest : List Token) : Prop where
  completes : ∃ d : Derivation p, d.Proper ∧ ∃ more, more ≠ [] ∧ d.yield = front ++ more
  fatal : ∀ t after, rest = t :: after → ∀ after', ∃ s, Fails p (front ++ t :: after') s

namespace FailsPast

variable {a b p : Phrase} {n : Nonterminal} {front rest : List Token}

theorem token {cs : List Terminal} (hcs : (Phrase.token cs).completable = true)
    (hs : ¬ (Phrase.token cs).Starts rest) : FailsPast (.token cs) [] rest where
  completes := by
    obtain ⟨d, hd⟩ := Phrase.filled hcs
    refine ⟨d, hd, d.yield, ?_, rfl⟩
    cases d with
    | token t ht => exact List.cons_ne_nil t []
  fatal := by
    rintro t after rfl after'
    exact ⟨_, .token fun h => hs (h.congr rfl)⟩

theorem first (hb : b.completable = true) (h : FailsPast a front rest) :
    FailsPast (.seq a b) front rest where
  completes := by
    obtain ⟨d, hd, more, hmore, hy⟩ := h.completes
    obtain ⟨e, he⟩ := Phrase.filled hb
    refine ⟨.seq d e, ⟨hd, he⟩, more ++ e.yield, by simp [hmore], ?_⟩
    rw [Derivation.yield, hy, List.append_assoc]
  fatal t after ht after' := by
    obtain ⟨s, hs⟩ := h.fatal t after ht after'
    exact ⟨s, .first hs⟩

theorem second (d : Derivation a) (hc : d.Closed (front ++ rest)) (hd : d.Proper)
    (h : FailsPast b front rest) : FailsPast (.seq a b) (d.yield ++ front) rest where
  completes := by
    obtain ⟨e, he, more, hmore, hy⟩ := h.completes
    refine ⟨.seq d e, ⟨hd, he⟩, more, hmore, ?_⟩
    rw [Derivation.yield, hy, List.append_assoc]
  fatal := by
    rintro t after rfl after'
    obtain ⟨s, hs⟩ := h.fatal t after rfl after'
    rw [List.append_assoc]
    exact ⟨s, .second d (hc.congr (head?_append_cons front t after after')) hd hs⟩

theorem left (hs : a.Starts (front ++ rest)) (h : FailsPast a front rest) :
    FailsPast (.alt a b) front rest where
  completes := by
    obtain ⟨d, hd, hmore⟩ := h.completes
    exact ⟨.left d, hd, hmore⟩
  fatal := by
    rintro t after rfl after'
    obtain ⟨s, hf⟩ := h.fatal t after rfl after'
    exact ⟨s, .left (hs.congr (head?_append_cons front t after after')) hf⟩

theorem right (hs : ¬ a.Starts (front ++ rest)) (h : FailsPast b front rest) :
    FailsPast (.alt a b) front rest where
  completes := by
    obtain ⟨d, hd, hmore⟩ := h.completes
    exact ⟨.right d, hd, hmore⟩
  fatal := by
    rintro t after rfl after'
    obtain ⟨s, hf⟩ := h.fatal t after rfl after'
    exact ⟨s, .right (fun h => hs (h.congr (head?_append_cons front t after' after))) hf⟩

theorem present (hs : a.Starts (front ++ rest)) (h : FailsPast a front rest) :
    FailsPast (.opt a) front rest where
  completes := by
    obtain ⟨d, hd, hmore⟩ := h.completes
    exact ⟨.present d, hd, hmore⟩
  fatal := by
    rintro t after rfl after'
    obtain ⟨s, hf⟩ := h.fatal t after rfl after'
    exact ⟨s, .present (hs.congr (head?_append_cons front t after after')) hf⟩

theorem head (hs : a.Starts (front ++ rest)) (h : FailsPast a front rest) :
    FailsPast (.many a) front rest where
  completes := by
    obtain ⟨d, hd, more, hmore, hy⟩ := h.completes
    refine ⟨.more d .done, ⟨hd, trivial⟩, more, hmore, ?_⟩
    rw [Derivation.yield, Derivation.yield, List.append_nil, hy]
  fatal := by
    rintro t after rfl after'
    obtain ⟨s, hf⟩ := h.fatal t after rfl after'
    exact ⟨s, .head (hs.congr (head?_append_cons front t after after')) hf⟩

theorem tail (d : Derivation a) (hc : d.Closed (front ++ rest)) (hd : d.Proper)
    (h : FailsPast (.many a) front rest) : FailsPast (.many a) (d.yield ++ front) rest where
  completes := by
    obtain ⟨e, he, more, hmore, hy⟩ := h.completes
    refine ⟨.more d e, ⟨hd, he⟩, more, hmore, ?_⟩
    rw [Derivation.yield, hy, List.append_assoc]
  fatal := by
    rintro t after rfl after'
    obtain ⟨s, hs⟩ := h.fatal t after rfl after'
    rw [List.append_assoc]
    exact ⟨s, .tail d (hc.congr (head?_append_cons front t after after')) hd hs⟩

end FailsPast

/-! ## Parentheses that are refused

The only rule with a condition on its tree is the one for parentheses.  Before the closing one, an
operator and an operand can still be put in, which make a binary expression of what is there. -/

/-- Only a parenthesis around an expression that is not binary is refused. -/
theorem Derivation.group_of_refused (d : Derivation (Nonterminal.expr .primary).definition)
    (h : (Nonterminal.expr .primary).admits ((Nonterminal.expr .primary).tree d.yield d.value) =
      false) :
    ∃ (o c : Token) (ho : o.terminal ∈ [Terminal.word "("]) (hc : c.terminal ∈ [Terminal.word ")"])
      (inner : Derivation .expression),
      d = .right (.left (.seq (.token o ho) (.seq inner (.token c hc)))) := by
  match d with
  | .left (.token t ht) => exact absurd (admits_literalOf t) (Bool.eq_false_iff.mp h)
  | .right (.left (.seq (.token o ho) (.seq inner (.token c hc)))) =>
      exact ⟨o, c, ho, hc, inner, rfl⟩
  | .right (.right (.seq (.token t ht) .absent)) => cases h
  | .right (.right (.seq (.token t ht) (.present e))) => cases h

/-- A parenthesis can be completed as long as it is not closed. -/
theorem Derivation.exists_group {o c : Token} (ho : o.terminal ∈ [Terminal.word "("])
    (hc : c.terminal ∈ [Terminal.word ")"]) (inner : Derivation .expression)
    (hinner : inner.Proper) :
    ∃ d : Derivation (Phrase.rule (.expr .primary)), d.Proper ∧ ∃ more, more ≠ [] ∧
      d.yield = o :: inner.yield ++ more := by
  obtain ⟨e, he⟩ := (Nonterminal.expr .comparison).filled
  obtain ⟨inner', hy, hproper, hbinary⟩ :=
    inner.exists_binary hinner (Terminal.word "AND").sample (by decide) e he
  refine ⟨.rule (.right (.left (.seq (.token o ho) (.seq inner' (.token c hc))))), ?_,
    (Terminal.word "AND").sample :: (e.yield ++ [c]), List.cons_ne_nil _ _, ?_⟩
  · exact ⟨⟨trivial, hproper, trivial⟩, hbinary⟩
  · simp [yield, hy]

namespace FailsPast

variable {n : Nonterminal} {front rest : List Token}

theorem rule (h : FailsPast n.definition front rest) : FailsPast (.rule n) front rest where
  completes := by
    obtain ⟨d, hd, more, hmore, hy⟩ := h.completes
    cases hadmits : n.admits (n.tree d.yield d.value) with
    | true => exact ⟨.rule d, ⟨hd, hadmits⟩, more, hmore, hy⟩
    | false =>
        -- the last token covered is the closing parenthesis, which can still be put off
        obtain rfl := Nonterminal.eq_primary_of_admits hadmits
        obtain ⟨o, c, ho, hc, inner, rfl⟩ := d.group_of_refused hadmits
        obtain ⟨e, he, more', hmore', hy'⟩ := Derivation.exists_group ho hc inner hd.2.1
        have hcovered : front ++ more = o :: inner.yield ++ [c] := by
          rw [← hy]
          simp [Derivation.yield]
        have hfront : front <+: o :: inner.yield := by
          refine (List.prefix_concat_iff.mp ⟨more, hcovered⟩).resolve_left fun hall => ?_
          rw [hall] at hcovered
          exact hmore (List.append_right_eq_self.mp hcovered)
        obtain ⟨between, hbetween⟩ := hfront
        refine ⟨e, he, between ++ more', by simp [hmore'], ?_⟩
        rw [hy', ← hbetween, List.append_assoc]
  fatal t after ht after' := by
    obtain ⟨s, hs⟩ := h.fatal t after ht after'
    exact ⟨s, .rule hs⟩

/-- A parenthesis that is refused fails past everything that it holds. -/
theorem group {o c : Token} (ho : o.terminal ∈ [Terminal.word "("])
    (hc : c.terminal ∈ [Terminal.word ")"]) {inner : Derivation .expression}
    (hinner : inner.Proper) (hclosed : inner.Closed (c :: rest))
    (hbinary : Expr.isBinary (α := Place) inner.value = false) :
    FailsPast (.rule (.expr .primary)) (o :: inner.yield) (c :: rest) where
  completes := Derivation.exists_group ho hc inner hinner
  fatal := by
    rintro t after ⟨⟩ after'
    have hafter : inner.Closed (c :: after') :=
      hclosed.congr (show (c :: rest).head? = (c :: after').head? from rfl)
    have hf := Fails.refused (n := .expr .primary)
      (.right (.left (.seq (.token o ho) (.seq inner (.token c hc)))))
      ⟨trivial, hafter, trivial⟩ ⟨trivial, hinner, trivial⟩ hbinary
    simp only [Derivation.yield, List.append_assoc] at hf
    exact ⟨_, hf⟩

end FailsPast

/-! ## Every failure

By induction on the failure.  It marks some tokens as viable beyond the place that it is reported
at: none if the reading is stuck, and all up to the closing parenthesis if a parenthesis is
refused. -/

/-- The tokens that are still viable from where a failure is placed, and the rest. -/
inductive Stop.Marks : Stop → List Token → List Token → Prop where
  | stuck {rest : List Token} : Marks (.stuck rest) [] rest
  | refused {o c : Token} {inner after : List Token} :
      o.terminal = .word "(" → c.terminal = .word ")" → openAfter? 0 inner = some 0 →
      Marks (.refused (o :: (inner ++ c :: after))) (o :: inner) (c :: after)

/-- A phrase that fails does so past the tokens that are marked as viable. -/
theorem Fails.past {p : Phrase} {ts : List Token} {s : Stop} (hf : Fails p ts s)
    (hp : p.completable = true) :
    ∃ front good rest, s.Marks good rest ∧ ts = front ++ good ++ rest ∧
      FailsPast p (front ++ good) rest := by
  induction hf with
  | @token cs ts hs => exact ⟨[], [], ts, .stuck, rfl, .token hp hs⟩
  | @rule n ts s _ ih =>
      obtain ⟨front, good, rest, hmarks, hts, h⟩ := ih n.completable
      exact ⟨front, good, rest, hmarks, hts, h.rule⟩
  | @refused n d rest hc hd ha =>
      obtain rfl := Nonterminal.eq_primary_of_admits ha
      obtain ⟨o, c, ho, hclose, inner, hgroup⟩ := d.group_of_refused ha
      have hy : d.yield ++ rest = o :: (inner.yield ++ c :: rest) := by
        rw [hgroup]
        simp [Derivation.yield]
      rw [hy]
      subst hgroup
      exact ⟨[], o :: inner.yield, c :: rest,
        .refused (List.mem_singleton.mp ho) (List.mem_singleton.mp hclose) (inner.openAfter? rfl),
        rfl, .group ho hclose hd.2.1 hc.2.1 ha⟩
  | @first a b ts s _ ih =>
      obtain ⟨ha, hb⟩ := Bool.and_eq_true_iff.mp hp
      obtain ⟨front, good, rest, hmarks, hts, h⟩ := ih ha
      exact ⟨front, good, rest, hmarks, hts, h.first hb⟩
  | @second a b d rest s hc hd _ ih =>
      obtain ⟨front, good, rest', hmarks, rfl, h⟩ := ih (Bool.and_eq_true_iff.mp hp).2
      refine ⟨d.yield ++ front, good, rest', hmarks, by simp, ?_⟩
      rw [List.append_assoc]
      exact .second d hc hd h
  | @left a b ts s hs _ ih =>
      obtain ⟨front, good, rest, hmarks, rfl, h⟩ := ih (Bool.and_eq_true_iff.mp hp).1
      exact ⟨front, good, rest, hmarks, rfl, .left hs h⟩
  | @right a b ts s hs _ ih =>
      obtain ⟨front, good, rest, hmarks, rfl, h⟩ := ih (Bool.and_eq_true_iff.mp hp).2
      exact ⟨front, good, rest, hmarks, rfl, .right hs h⟩
  | @present a ts s hs _ ih =>
      obtain ⟨front, good, rest, hmarks, rfl, h⟩ := ih hp
      exact ⟨front, good, rest, hmarks, rfl, .present hs h⟩
  | @head a ts s hs _ ih =>
      obtain ⟨front, good, rest, hmarks, rfl, h⟩ := ih hp
      exact ⟨front, good, rest, hmarks, rfl, .head hs h⟩
  | @tail a d rest s hc hd _ ih =>
      obtain ⟨front, good, rest', hmarks, rfl, h⟩ := ih hp
      refine ⟨d.yield ++ front, good, rest', hmarks, by simp, ?_⟩
      rw [List.append_assoc]
      exact .tail d hc hd h

end Grammar

open Grammar

/-! ## Errors of programs

A whole program can also fail by having tokens left when it is complete.  Then these tokens are no
beginning of a further declaration. -/

/-- Viability ends between some tokens and the next: they are viable, with the next they are not,
and if there is no next, they are no program yet. -/
structure ViableUpTo (front rest : List Token) : Prop where
  viable : Viable front
  unfinished : rest = [] → ∃ more, more ≠ [] ∧ Derivable (front ++ more)
  blocked : ∀ t after, rest = t :: after → ¬ Viable (front ++ [t])

theorem ViableUpTo.viable_take {front rest : List Token} (h : ViableUpTo front rest) :
    Viable ((front ++ rest).take front.length) := by
  rw [List.take_left]
  exact h.viable

theorem ViableUpTo.not_viable_take {front rest : List Token} (h : ViableUpTo front rest)
    (hrest : rest ≠ []) : ¬ Viable ((front ++ rest).take (front.length + 1)) := by
  obtain ⟨t, after, rfl⟩ := List.exists_cons_of_ne_nil hrest
  rw [List.take_length_add_append]
  exact h.blocked t after rfl

theorem Grammar.FailsPast.viableUpTo {front rest : List Token}
    (h : FailsPast (.rule .source) front rest) : ViableUpTo front rest := by
  obtain ⟨d, hd, more, hmore, hy⟩ := h.completes
  refine ⟨⟨more, d, hy, hd⟩, fun _ => ⟨more, hmore, d, hy, hd⟩, ?_⟩
  rintro t after ht ⟨more', d', hy', hd'⟩
  obtain ⟨s, hs⟩ := h.fatal t after ht more'
  refine hs.not_derived rfl d' d'.source_closed hd' ?_
  rw [hy']
  simp

theorem ViableUpTo.of_overrun {d : Derivation (.rule .source)} {t : Token} {after : List Token}
    (hc : d.Closed (t :: after)) (hp : d.Proper) : ViableUpTo d.yield (t :: after) where
  viable := ⟨[], d, by simp, hp⟩
  unfinished := nofun
  blocked := by
    rintro _ _ ⟨⟩ ⟨more, d', hy', -⟩
    have hc' : d.Closed (t :: more) :=
      hc.congr (show (t :: after).head? = (t :: more).head? from rfl)
    have hyield : d.yield ++ t :: more = d'.yield ++ [] := by
      rw [hy']
      simp
    cases (Derivation.closed_unique rfl d d' hc' d'.source_closed hyield).2

/-- An error of a program stands where viability ends. -/
theorem Misses.viableUpTo {ts : List Token} {e : ParseError} (h : Misses ts e) :
    ∃ front good rest, e.stop.Marks good rest ∧ ts = front ++ good ++ rest ∧
      ViableUpTo (front ++ good) rest := by
  cases h with
  | fails hf =>
      obtain ⟨front, good, rest, hmarks, hts, h⟩ := hf.past rfl
      exact ⟨front, good, rest, hmarks, hts, h.viableUpTo⟩
  | overrun d t after hy hc hp hrest hstop =>
      refine ⟨d.yield, [], t :: after, ?_, by simp [hy], ?_⟩
      · rw [hstop, hrest]
        exact .stuck
      · rw [List.append_nil]
        exact .of_overrun hc hp

/-- The parenthesis at `j` closes the one at `i`. -/
def Closes (ts : List Token) (i j : Nat) : Prop :=
  ∃ before o inner c after, ts = before ++ o :: (inner ++ c :: after) ∧
    before.length = i ∧ (before ++ o :: inner).length = j ∧
    o.terminal = .word "(" ∧ c.terminal = .word ")" ∧ openAfter? 0 inner = some 0

theorem ParseError.stop_of_group {e : ParseError} (h : e.cause = .binaryInGroup) :
    e.stop = .refused e.rest := by
  rw [stop, h]

theorem ParseError.stop_of_ne_group {e : ParseError} (h : e.cause ≠ .binaryInGroup) :
    e.stop = .stuck e.rest := by
  unfold stop
  split
  · contradiction
  · rfl

theorem ParseError.fault_location {e : ParseError} {ts : List Token} {i : Nat} {t : Token}
    (hrest : e.rest = ts.drop i) (ht : ts[i]? = some t) (source : String)
    (file : Option String) : (e.fault ts source file).location = some t.location := by
  obtain ⟨hi, rfl⟩ := List.getElem?_eq_some_iff.mp ht
  rw [List.drop_eq_getElem_cons hi] at hrest
  show some (e.location ts source file) = _
  rw [location, hrest]

/-- An error in the order of tokens stands at the first token that no program has after those
before it; at the end of the input it stands after tokens that a program goes on from.  Only where
a parenthesis holds no binary expression does the error stand at the opening parenthesis, while
the first such token is the closing one. -/
theorem parseProgram_error_place {source : String} {file : Option String} {ts : List Token}
    {e : ParseError} (hts : tokenize source file = .ok ts)
    (hdigits : ∀ t ∈ ts, t.kind = .integer →
      (Numeral.sign t.lexeme.toList).2.length ≤ maxDigits)
    (he : parseProgram ts = .error (.unexpected e)) :
    ∃ i ≤ ts.length, e.rest = ts.drop i ∧
      (∀ t, ts[i]? = some t → (e.fault ts source file).location = some t.location) ∧
      (e.cause ≠ .binaryInGroup →
        Viable (ts.take i) ∧ (i < ts.length → ¬ Viable (ts.take (i + 1))) ∧
        (i = ts.length → ∃ more, more ≠ [] ∧ Derivable (ts ++ more))) ∧
      (e.cause = .binaryInGroup →
        ∃ j, Closes ts i j ∧ Viable (ts.take j) ∧ ¬ Viable (ts.take (j + 1))) := by
  have hmisses := parseProgram_explained (tokenize_legible hts hdigits)
  rw [he] at hmisses
  obtain ⟨front, good, rest, hmarks, rfl, hup⟩ := Misses.viableUpTo hmisses
  by_cases hcause : e.cause = .binaryInGroup
  · rw [ParseError.stop_of_group hcause] at hmarks
    generalize hr : e.rest = r at hmarks
    cases hmarks with
    | @refused o c inner after ho hc hinner =>
        have hrest : e.rest = (front ++ o :: inner ++ c :: after).drop front.length := by
          simp [hr]
        refine ⟨front.length, by simp, hr ▸ hrest,
          fun t ht => e.fault_location hrest ht source file, fun h => absurd hcause h, fun _ => ?_⟩
        exact ⟨(front ++ o :: inner).length,
          ⟨front, o, inner, c, after, by simp, rfl, rfl, ho, hc, hinner⟩,
          hup.viable_take, hup.not_viable_take (List.cons_ne_nil c after)⟩
  · rw [ParseError.stop_of_ne_group hcause] at hmarks
    cases hmarks
    rw [List.append_nil] at hup ⊢
    have hrest : e.rest = (front ++ e.rest).drop front.length := List.drop_left.symm
    refine ⟨front.length, by simp, hrest, fun t ht => e.fault_location hrest ht source file,
      fun _ => ⟨hup.viable_take, fun hlt => ?_, fun hlen => ?_⟩, fun h => absurd h hcause⟩
    · refine hup.not_viable_take fun hnil => ?_
      rw [hnil, List.append_nil] at hlt
      exact Nat.lt_irrefl _ hlt
    · have hnil : e.rest = [] := by
        rw [hrest, hlen]
        exact List.drop_length
      rw [hnil, List.append_nil]
      exact hup.unfinished hnil

/-- A text in which a parenthesis holds a call. -/
def wrappedText : String := "DEF f(x) DO RETURN 2 * ((x.y(1, 2)) - 3); END"

/-- The error at which reading stopped, if it stopped at a token. -/
def tokenError? : Except ParseFailure (Program Place) → Option ParseError
  | .error (.unexpected e) => some e
  | _ => none

theorem eq_of_tokenError? {r : Except ParseFailure (Program Place)} {e : ParseError}
    (h : tokenError? r = some e) : r = .error (.unexpected e) := by
  unfold tokenError? at h
  split at h
  · cases h
    rfl
  · cases h

theorem wrappedText_error_place : ∃ ts e, tokenize wrappedText none = .ok ts ∧
    (∀ t ∈ ts, t.kind = .integer → (Numeral.sign t.lexeme.toList).2.length ≤ maxDigits) ∧
    parseProgram ts = .error (.unexpected e) ∧ e.cause = .binaryInGroup ∧
    ∃ i j, e.rest = ts.drop i ∧ Closes ts i j ∧ Viable (ts.take j) ∧
      ¬ Viable (ts.take (j + 1)) := by
  have hread : (tokenize wrappedText none).toOption.any (fun ts =>
      ts.all (fun t => decide (t.kind = .integer →
        (Numeral.sign t.lexeme.toList).2.length ≤ maxDigits)) &&
      (tokenError? (parseProgram ts)).any fun e => decide (e.cause = .binaryInGroup)) = true := by
    decide +kernel
  cases hts : tokenize wrappedText none with
  | error e => rw [hts] at hread; cases hread
  | ok ts =>
      rw [hts] at hread
      obtain ⟨hdigits, herror⟩ := Bool.and_eq_true_iff.mp hread
      have hdigits : ∀ t ∈ ts, t.kind = .integer →
          (Numeral.sign t.lexeme.toList).2.length ≤ maxDigits :=
        fun t ht => of_decide_eq_true (List.all_eq_true.mp hdigits t ht)
      obtain ⟨e, he, hcause⟩ := (Option.any_eq_true _ _).mp herror
      have he := eq_of_tokenError? he
      have hcause := of_decide_eq_true hcause
      obtain ⟨i, -, hrest, -, -, hgroup⟩ := parseProgram_error_place hts hdigits he
      obtain ⟨j, hcloses, hviable, hblocked⟩ := hgroup hcause
      exact ⟨ts, e, rfl, hdigits, he, hcause, i, j, hrest, hcloses, hviable, hblocked⟩

end QuillLang
