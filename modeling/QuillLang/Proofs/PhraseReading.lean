/-
# Functions that read phrases

A function that takes tokens and leaves some reads a phrase (`Reads`) if it
follows the grammar with one token of look-ahead: what it takes has a closed
derivation, whose tree it returns, and where it gives an error the phrase
fails.  The lemmas here go with the ways of putting phrases together and with
the ways such functions are written; a choice is made with a test of the next
token, either for what the optional part starts with or for what comes after
it.

Running out of fuel is held against a condition, `short`, that the lemmas hand
on unchanged.
-/
import QuillLang.Proofs.Lexemes
import QuillLang.Proofs.LookAhead

namespace QuillLang

/-! ## Tokens as terminals

The reader compares texts where the grammar compares terminals.  The two agree if no identifier has
the text of a mark; integers that are too long are told apart, since a tree cannot be made of
them. -/

/-- What reading relies on: no identifier looks like a mark. -/
def Token.Plain (t : Token) : Prop := t.kind = .identifier → beginsLikeName t.lexeme = true

/-- The number of digits of a token. -/
def Token.digitCount (t : Token) : Nat := (Numeral.sign t.lexeme.toList).2.length

/-- An integer that is too long to be read. -/
structure Token.Overlong (t : Token) (limit : DigitLimit) : Prop where
  kind : t.kind = .integer
  digits : maxDigits < t.digitCount
  limit : limit = .reading t.digitCount

/-- What reading takes without fail: no identifier looks like a mark, and no integer is too
long. -/
structure Token.Legible (t : Token) : Prop where
  name : t.Plain
  digits : t.kind = .integer → t.digitCount ≤ maxDigits

def Plain (ts : List Token) : Prop := ∀ t ∈ ts, t.Plain

def Legible (ts : List Token) : Prop := ∀ t ∈ ts, t.Legible

theorem Legible.plain {ts : List Token} (h : Legible ts) : Plain ts := fun t ht => (h t ht).name

theorem Plain.append_right {ts rest : List Token} (h : Plain (ts ++ rest)) : Plain rest :=
  fun t ht => h t (List.mem_append_right _ ht)

theorem Legible.not_overlong {ts : List Token} (h : Legible ts) {t : Token} (ht : t ∈ ts)
    {limit : DigitLimit} : ¬ t.Overlong limit :=
  fun hover => Nat.not_lt.mpr ((h t ht).digits hover.kind) hover.digits

/-- A text that no name has. -/
def isReserved (text : String) : Bool := keywords.contains text || !beginsLikeName text

theorem Token.is_iff {t : Token} {text : String} (ht : t.Plain)
    (hx : isReserved text = true) : t.is text = true ↔ t.terminal = .word text := by
  unfold Token.is Token.terminal
  cases hk : t.kind with
  | identifier =>
      have hn := ht hk
      by_cases hw : t.lexeme ∈ keywords
      · simp [hw]
      · -- a name that begins like one is not the text
        have hne : t.lexeme ≠ text := by
          rintro rfl
          simp [isReserved, hn, hw] at hx
        simp [hw, hne]
  | operator => simp
  | integer | decimal | character | string => simp

theorem Token.isName_iff {t : Token} : t.isName = true ↔ t.terminal = .name := by
  unfold Token.isName Token.terminal
  cases hk : t.kind with
  | identifier => by_cases hw : t.lexeme ∈ keywords <;> simp [hw]
  | operator | integer | decimal | character | string => simp

/-- Why and where an error stands, in the grammar's terms. -/
def ParseError.stop (e : ParseError) : Grammar.Stop :=
  match e.cause with
  | .binaryInGroup => .refused e.rest
  | _ => .stuck e.rest

open Grammar

/-! ## Reading a phrase

One predicate for both outcomes: a result answers with a closed and proper derivation, an error
with a failure of the phrase. -/

/-- What a result says of a phrase and some tokens. -/
def Answers (p : Phrase) (short : Prop) {β : Type} (f : p.Value → β) (ts : List Token) :
    Except ParseFailure (Leaving β) → Prop
  | .ok (b, rest) =>
    ∃ d : Derivation p, ts = d.yield ++ rest ∧ d.Closed rest ∧ d.Proper ∧ f d.value = b
  | .error (.unexpected e) => Fails p ts e.stop
  | .error .outOfFuel => short
  | .error (.digits limit) => ∃ t ∈ ts, t.Overlong limit
  | .error .noToken => False

/-- A phrase is read at the start of some tokens, with a result made from its tree by `f`. -/
def Reads (p : Phrase) (short : Prop) {β : Type} (f : p.Value → β) (ts : List Token)
    (r : Except ParseFailure (Leaving β)) : Prop :=
  Plain ts → Answers p short f ts r

namespace Reads

variable {a b c p q : Phrase} {n : Nonterminal} {short : Prop} {β γ : Type} {ts : List Token}

/-- Another phrase is read if derivations and failures carry over to it. -/
theorem imp {short' : Prop} {f : p.Value → β} {g : q.Value → β}
    {r : Except ParseFailure (Leaving β)} (h : Reads p short' f ts r)
    (hok : ∀ (d : Derivation p) (rest : List Token), ts = d.yield ++ rest → d.Closed rest →
      d.Proper → ∃ e : Derivation q, e.yield = d.yield ∧ e.Closed rest ∧ e.Proper ∧
        g e.value = f d.value)
    (hfail : ∀ s, Fails p ts s → Fails q ts s) (hshort : short' → short) :
    Reads q short g ts r := by
  intro hts
  have h := h hts
  match r with
  | .ok (v, rest) =>
      obtain ⟨d, hy, hc, hp, rfl⟩ := h
      obtain ⟨e, he, hce, hpe, hv⟩ := hok d rest hy hc hp
      exact ⟨e, he.symm ▸ hy, hce, hpe, hv⟩
  | .error (.unexpected e) => exact hfail _ h
  | .error .outOfFuel => exact hshort h
  | .error (.digits _) => exact h
  | .error .noToken => exact h

theorem weaken {short' : Prop} {f : p.Value → β} {r : Except ParseFailure (Leaving β)}
    (h : Reads p short' f ts r) (hshort : short' → short) : Reads p short f ts r :=
  h.imp (fun d _ _ hc hp => ⟨d, rfl, hc, hp, rfl⟩) (fun _ hf => hf) hshort

theorem of_plain {f : p.Value → β} {r : Except ParseFailure (Leaving β)}
    (h : Plain ts → Reads p short f ts r) : Reads p short f ts r :=
  fun hts => h hts hts

theorem outOfFuel {f : p.Value → β} (h : short) :
    Reads p short f ts (.error .outOfFuel) := fun _ => h

/-- The result is made into another. -/
theorem map {f : p.Value → β} {g : p.Value → γ} {m : Except ParseFailure (Leaving β)}
    {k : Leaving β → Except ParseFailure (Leaving γ)} (hm : Reads p short f ts m)
    (hk : ∀ v rest, k (f v, rest) = .ok (g v, rest)) : Reads p short g ts (m >>= k) := by
  intro hts
  have hm := hm hts
  match m with
  | .ok (v, rest) =>
      obtain ⟨d, hy, hc, hp, rfl⟩ := hm
      show Answers p short g ts (k (f d.value, rest))
      rw [hk]
      exact ⟨d, hy, hc, hp, rfl⟩
  | .error (.unexpected e) => exact hm
  | .error .outOfFuel => exact hm
  | .error (.digits _) => exact hm
  | .error .noToken => exact hm

/-- One phrase is read, and then another. -/
theorem seq {f : a.Value → β} {g : (Phrase.seq a b).Value → γ}
    {m : Except ParseFailure (Leaving β)} {k : Leaving β → Except ParseFailure (Leaving γ)}
    (hm : Reads a short f ts m)
    (hk : ∀ v rest, rest.length + a.width ≤ ts.length →
      Reads b short (fun w => g (v, w)) rest (k (f v, rest))) :
    Reads (.seq a b) short g ts (m >>= k) := by
  intro hts
  have hm := hm hts
  match m with
  | .ok (v, rest) =>
      obtain ⟨d, rfl, hc, hp, rfl⟩ := hm
      have hlen : rest.length + a.width ≤ (d.yield ++ rest).length := by
        have := d.width_le
        rw [List.length_append]
        omega
      have hk := hk d.value rest hlen hts.append_right
      show Answers (.seq a b) short g _ (k (f d.value, rest))
      match k (f d.value, rest), hk with
      | .ok (w, rest'), ⟨e, he, hce, hpe, hw⟩ =>
          subst he
          exact ⟨.seq d e, (List.append_assoc ..).symm, ⟨hc, hce⟩, ⟨hp, hpe⟩, hw⟩
      | .error (.unexpected _), hk => exact .second d hc hp hk
      | .error .outOfFuel, hk => exact hk
      | .error (.digits _), hk =>
          obtain ⟨t, ht, hover⟩ := hk
          exact ⟨t, List.mem_append_right _ ht, hover⟩
      | .error .noToken, hk => exact hk
  | .error (.unexpected e) => exact .first hm
  | .error .outOfFuel => exact hm
  | .error (.digits _) => exact hm
  | .error .noToken => exact hm

/-! ## Rules and rows

A function may read a symbol together with what follows it, so the lemmas come in two forms, for a
phrase alone and for one in front of another. -/

theorem rule {f : n.definition.Value → β} {g : (Phrase.rule n).Value → β}
    {r : Except ParseFailure (Leaving β)} (h : Reads n.definition short f ts r)
    (hadmits : ∀ v, n.admits v = true)
    (hf : ∀ (d : Derivation n.definition) (rest : List Token), ts = d.yield ++ rest →
      g (n.tree d.yield d.value) = f d.value) : Reads (.rule n) short g ts r :=
  h.imp (fun d rest hy hc hp => ⟨.rule d, rfl, hc, ⟨hp, hadmits _⟩, hf d rest hy⟩)
    (fun _ => .rule) id

/-- A symbol is read by reading its definition, also in front of a phrase. -/
theorem ruleSeq {f : (Phrase.seq n.definition c).Value → β}
    {g : (Phrase.seq (.rule n) c).Value → β} {r : Except ParseFailure (Leaving β)}
    (h : Reads (.seq n.definition c) short f ts r) (hadmits : ∀ v, n.admits v = true)
    (hf : ∀ (d : Derivation n.definition) (rest : List Token) (w : c.Value),
      ts = d.yield ++ rest → g (n.tree d.yield d.value, w) = f (d.value, w)) :
    Reads (.seq (.rule n) c) short g ts r := by
  refine h.imp (fun d rest hy hc hp => ?_) (fun s hf => ?_) id
  · cases d with
    | seq d e =>
        refine ⟨.seq (.rule d) e, rfl, hc, ⟨⟨hp.1, hadmits _⟩, hp.2⟩, ?_⟩
        exact hf d (e.yield ++ rest) e.value (by rw [hy, Derivation.yield, List.append_assoc])
  · cases hf with
    | first hf => exact .first (.rule hf)
    | second d hc hp hf => exact .second (.rule d) hc ⟨hp, hadmits _⟩ hf

theorem assoc {g : (Phrase.seq (.seq a b) c).Value → β} {r : Except ParseFailure (Leaving β)}
    (h : Reads (.seq a (.seq b c)) short (fun v => g ((v.1, v.2.1), v.2.2)) ts r) :
    Reads (.seq (.seq a b) c) short g ts r := by
  refine h.imp (fun d rest hy hc hp => ?_) (fun s hf => ?_) id
  · cases d with
    | seq d e =>
        cases e with
        | seq e e' =>
            refine ⟨.seq (.seq d e) e', ?_, ⟨⟨?_, hc.2.1⟩, hc.2.2⟩, ⟨⟨hp.1, hp.2.1⟩, hp.2.2⟩, rfl⟩
            · simp only [Derivation.yield, List.append_assoc]
            · simpa only [Derivation.yield, List.append_assoc] using hc.1
  · cases hf with
    | first hf => exact .first (.first hf)
    | second d hc hp hf =>
        cases hf with
        | first hf => exact .first (.second d hc hp hf)
        | second e hce hpe hf =>
            rw [← List.append_assoc]
            exact .second (.seq d e) ⟨hc, hce⟩ ⟨hp, hpe⟩ hf

/-! ## Choices

The next token is tested for what the optional part, the repetition or the first alternative starts
with.  The outcome of the test is a hypothesis here. -/

theorem left {g : (Phrase.alt a b).Value → β} {r : Except ParseFailure (Leaving β)}
    (hs : a.Starts ts) (h : Reads a short (fun v => g (.inl v)) ts r) :
    Reads (.alt a b) short g ts r :=
  h.imp (fun d _ _ hc hp => ⟨.left d, rfl, hc, hp, rfl⟩) (fun _ => .left hs) id

theorem right {g : (Phrase.alt a b).Value → β} {r : Except ParseFailure (Leaving β)}
    (hs : ¬ a.Starts ts) (h : Reads b short (fun v => g (.inr v)) ts r) :
    Reads (.alt a b) short g ts r :=
  h.imp (fun d _ _ hc hp => ⟨.right d, rfl, hc, hp, rfl⟩) (fun _ => .right hs) id

theorem present {g : (Phrase.opt a).Value → β} {r : Except ParseFailure (Leaving β)}
    (hs : a.Starts ts) (h : Reads a short (fun v => g (some v)) ts r) :
    Reads (.opt a) short g ts r :=
  h.imp (fun d _ _ hc hp => ⟨.present d, rfl, hc, hp, rfl⟩) (fun _ => .present hs) id

theorem absent {g : (Phrase.opt a).Value → β} (hs : ¬ a.Starts ts) :
    Reads (.opt a) short g ts (.ok (g none, ts)) :=
  fun _ => ⟨.absent, rfl, hs, trivial, rfl⟩

theorem presentSeq {g : (Phrase.seq (.opt a) c).Value → β}
    {r : Except ParseFailure (Leaving β)} (hs : a.Starts ts)
    (h : Reads (.seq a c) short (fun v => g (some v.1, v.2)) ts r) :
    Reads (.seq (.opt a) c) short g ts r := by
  refine h.imp (fun d _ _ hc hp => ?_) (fun s hf => ?_) id
  · cases d with
    | seq d e => exact ⟨.seq (.present d) e, rfl, hc, hp, rfl⟩
  · cases hf with
    | first hf => exact .first (.present hs hf)
    | second d hc hp hf => exact .second (.present d) hc hp hf

theorem absentSeq {g : (Phrase.seq (.opt a) c).Value → β}
    {r : Except ParseFailure (Leaving β)} (hs : ¬ a.Starts ts)
    (h : Reads c short (fun w => g (none, w)) ts r) : Reads (.seq (.opt a) c) short g ts r :=
  h.imp (fun d _ hy hc hp => ⟨.seq .absent d, rfl, ⟨hy ▸ hs, hc⟩, ⟨trivial, hp⟩, rfl⟩)
    (fun _ hf => .second .absent hs trivial hf) id

theorem more {g : (Phrase.many a).Value → β} {r : Except ParseFailure (Leaving β)}
    (hs : a.Starts ts)
    (h : Reads (.seq a (.many a)) short (fun v => g (List.cons v.1 v.2)) ts r) :
    Reads (.many a) short g ts r := by
  refine h.imp (fun d _ _ hc hp => ?_) (fun s hf => ?_) id
  · cases d with
    | seq d e => exact ⟨.more d e, rfl, hc, hp, rfl⟩
  · cases hf with
    | first hf => exact .head hs hf
    | second d hc hp hf => exact .tail d hc hp hf

theorem done {g : (Phrase.many a).Value → β} (hs : ¬ a.Starts ts) :
    Reads (.many a) short g ts (.ok (g [], ts)) :=
  fun _ => ⟨.done, rfl, hs, trivial, rfl⟩

theorem doneSeq {g : (Phrase.seq (.many a) c).Value → β} {r : Except ParseFailure (Leaving β)}
    (hs : ¬ a.Starts ts) (h : Reads c short (fun w => g ([], w)) ts r) :
    Reads (.seq (.many a) c) short g ts r :=
  h.imp (fun d _ hy hc hp => ⟨.seq .done d, rfl, ⟨hy ▸ hs, hc⟩, ⟨trivial, hp⟩, rfl⟩)
    (fun _ hf => .second .done hs trivial hf) id

theorem moreSeq {g : (Phrase.seq (.many a) c).Value → β} {r : Except ParseFailure (Leaving β)}
    (hs : a.Starts ts)
    (h : Reads (.seq a (.seq (.many a) c)) short (fun v => g (List.cons v.1 v.2.1, v.2.2)) ts r) :
    Reads (.seq (.many a) c) short g ts r := by
  refine h.imp (fun d rest hy hc hp => ?_) (fun s hf => ?_) id
  · cases d with
    | seq d e =>
        cases e with
        | seq e e' =>
            refine ⟨.seq (.more d e) e', ?_, ⟨⟨?_, hc.2.1⟩, hc.2.2⟩, ⟨⟨hp.1, hp.2.1⟩, hp.2.2⟩, rfl⟩
            · simp only [Derivation.yield, List.append_assoc]
            · simpa only [Derivation.yield, List.append_assoc] using hc.1
  · cases hf with
    | first hf => exact .first (.head hs hf)
    | second d hc hp hf =>
        cases hf with
        | first hf => exact .first (.tail d hc hp hf)
        | second e hce hpe hf =>
            rw [← List.append_assoc]
            exact .second (.more d e) ⟨hc, hce⟩ ⟨hp, hpe⟩ hf

/-! ## Choices by what comes after

A part that may be left out is also read where only the absence of what comes
after it is known.  If the next token does not start the part, then the part
and what comes after it fail at the same place.
-/

theorem not_starts_seq (hw : 0 < a.width) (hs : ¬ a.Starts ts) : ¬ (Phrase.seq a c).Starts ts :=
  fun h => hs (h.mono (by simp [Phrase.first, Nat.ne_of_gt hw]))

theorem presentSeq_of_fails {g : (Phrase.seq (.opt a) c).Value → β}
    {r : Except ParseFailure (Leaving β)} (hw : 0 < a.width) (hfail : Fails c ts (.stuck ts))
    (h : Reads (.seq a c) short (fun v => g (some v.1, v.2)) ts r) :
    Reads (.seq (.opt a) c) short g ts r := by
  by_cases hs : a.Starts ts
  · exact presentSeq hs h
  · refine h.imp (fun d rest hy _ _ => ?_) (fun s hf => ?_) id
    · rw [hy] at hs
      exact absurd (d.starts (Nat.add_pos_left hw _) rest) (not_starts_seq hw hs)
    · rw [hf.eq_stuck (not_starts_seq hw hs)]
      exact .second .absent hs trivial hfail

theorem moreSeq_of_fails {g : (Phrase.seq (.many a) c).Value → β}
    {r : Except ParseFailure (Leaving β)} (hw : 0 < a.width) (hfail : Fails c ts (.stuck ts))
    (h : Reads (.seq a (.seq (.many a) c)) short (fun v => g (List.cons v.1 v.2.1, v.2.2)) ts r) :
    Reads (.seq (.many a) c) short g ts r := by
  by_cases hs : a.Starts ts
  · exact moreSeq hs h
  · refine h.imp (fun d rest hy _ _ => ?_) (fun s hf => ?_) id
    · rw [hy] at hs
      exact absurd (d.starts (Nat.add_pos_left hw _) rest) (not_starts_seq hw hs)
    · rw [hf.eq_stuck (not_starts_seq hw hs)]
      exact .second .done hs trivial hfail

end Reads

/-! ## Single tokens

The tests and the functions that take one token are the only ones that look at tokens; they are
matched with the grammar here. -/

theorem Parse.at?_iff {text : String} {ts : List Token} {a : Phrase} (hts : Plain ts)
    (hx : isReserved text = true) (ha : a.first = [.word text]) :
    Parse.at? text ts = true ↔ a.Starts ts := by
  cases ts with
  | nil => exact ⟨Bool.false_ne_true, False.elim⟩
  | cons t rest =>
      show t.is text = true ↔ t.terminal ∈ a.first
      rw [ha, List.mem_singleton]
      exact Token.is_iff (hts t List.mem_cons_self) hx

namespace Reads

variable {a p : Phrase} {short : Prop} {β : Type} {ts : List Token} {text : String}
  {cause : ParseCause}

/-- A choice by a test of the next token. -/
theorem byWord (a : Phrase) (hx : isReserved text = true) (ha : a.first = [.word text])
    {f : p.Value → β} {x y : Except ParseFailure (Leaving β)}
    (hyes : a.Starts ts → Parse.at? text ts = true → Reads p short f ts x)
    (hno : ¬ a.Starts ts → Parse.at? text ts = false → Reads p short f ts y) :
    Reads p short f ts (if Parse.at? text ts = true then x else y) := by
  intro hts
  have hiff := Parse.at?_iff hts hx ha
  split
  · next h => exact hyes (hiff.mp h) h hts
  · next h => exact hno (fun hs => h (hiff.mpr hs)) (Bool.eq_false_iff.mpr h) hts

theorem token {cs : List Terminal} {t : Token} {rest : List Token} (h : t.terminal ∈ cs) :
    Reads (.token cs) short (fun t : Token => t) (t :: rest) (.ok (t, rest)) :=
  fun _ => ⟨.token t h, rfl, trivial, trivial, rfl⟩

/-- A token that is known is taken, and then a phrase is read. -/
theorem tokenSeq {b : Phrase} {cs : List Terminal} {t : Token} {rest : List Token}
    {g : (Phrase.seq (.token cs) b).Value → β} {r : Except ParseFailure (Leaving β)}
    (h : t.terminal ∈ cs) (hr : Reads b short (fun w => g (t, w)) rest r) :
    Reads (.seq (.token cs) b) short g (t :: rest) r := by
  intro hts
  match r, hr (fun u hu => hts u (List.mem_cons_of_mem _ hu)) with
  | .ok (w, rest'), ⟨e, he, hce, hpe, hw⟩ =>
      subst he
      exact ⟨.seq (.token t h) e, rfl, ⟨trivial, hce⟩, ⟨trivial, hpe⟩, hw⟩
  | .error (.unexpected _), hr => exact .second (.token t h) trivial trivial hr
  | .error .outOfFuel, hr => exact hr
  | .error (.digits _), hr =>
      obtain ⟨u, hu, hover⟩ := hr
      exact ⟨u, List.mem_cons_of_mem _ hu, hover⟩
  | .error .noToken, hr => exact hr

theorem next (h : (Phrase.word text).Starts ts) :
    Reads (.word text) short (fun t : Token => t) ts (Parse.next ts) := by
  cases ts with
  | nil => exact h.elim
  | cons t rest => exact token h

theorem expect (hx : isReserved text = true)
    (hcause : ∀ rest, (ParseError.mk cause rest).stop = .stuck rest) :
    Reads (.word text) short (fun t : Token => t) ts (Parse.expect text cause ts) := by
  intro hts
  have hfail : ¬ (Phrase.word text).Starts ts →
      Fails (.word text) ts (ParseError.mk cause ts).stop := fun hs => hcause ts ▸ .token hs
  cases ts with
  | nil => exact hfail id
  | cons t rest =>
      simp only [Parse.expect]
      have hiff := Token.is_iff (hts t List.mem_cons_self) hx
      split
      · next h => exact token (List.mem_singleton.mpr (hiff.mp h)) hts
      · next h => exact hfail fun hs => h (hiff.mpr (List.mem_singleton.mp hs))

theorem expectName (hcause : ∀ rest, (ParseError.mk cause rest).stop = .stuck rest) :
    Reads .name short (fun t : Token => t) ts (Parse.expectName cause ts) := by
  intro hts
  have hfail : ¬ Phrase.name.Starts ts → Fails .name ts (ParseError.mk cause ts).stop :=
    fun hs => hcause ts ▸ .token hs
  cases ts with
  | nil => exact hfail id
  | cons t rest =>
      simp only [Parse.expectName]
      split
      · next h => exact token (List.mem_singleton.mpr (Token.isName_iff.mp h)) hts
      · next h => exact hfail fun hs => h (Token.isName_iff.mpr (List.mem_singleton.mp hs))

theorem colonName (hcause : ∀ rest, (ParseError.mk cause rest).stop = .stuck rest) :
    Reads .typed short typeName ts (Parse.colonName cause ts) := by
  refine byWord (.seq (.word ":") .name) rfl rfl (fun hs _ => ?_) (fun hs _ => absent hs)
  refine present hs (seq (next hs) fun t rest _ => ?_)
  exact map (expectName hcause) fun _ _ => rfl

end Reads

end QuillLang
