/-
# Words that spell phrases

Words spell a phrase (`Spells`) if they can be read and every row of tokens
with these words, wherever the tokens stand, has a proper derivation from the
phrase.  What is known of its tree goes along as a property.  There is one
lemma for each way of putting phrases together, so that the words of a tree can
be followed through the grammar part by part.
-/
import QuillLang.Proofs.Derivations
import QuillLang.Proofs.WrittenTrees

namespace QuillLang

open Grammar

/-! ## Single words

A word has no place, so the terminal of a word stands for that of all tokens with the word. -/

namespace Word

/-- What the grammar sees of a word. -/
def terminal (w : Word) : Terminal := Token.terminal ⟨w.kind, w.text, Location.start none⟩

/-- A word that is read as a token, and its token as part of a program. -/
structure Readable (w : Word) : Prop where
  lexical : w.Lexical
  digits : w.kind = .integer → (Numeral.sign w.text.toList).2.length ≤ maxDigits

theorem terminal_fixed (text : String) : (fixed text).terminal = .word text := by
  unfold terminal fixed Token.terminal
  by_cases h : keywords.contains text = true
  · rw [if_pos h]
    exact if_pos h
  · rw [if_neg h]

/-- A text that a reserved word or a mark can have. -/
def isFixed (text : String) : Bool :=
  match text.toList with
  | [] => false
  | c :: cs =>
    if keywords.contains text then isNameStart c && cs.all isNamePart
    else isMark c && cs.isEmpty || isComparisonStart c && cs = ['=']

theorem readable_fixed {text : String} (h : isFixed text = true) : (fixed text).Readable := by
  unfold isFixed at h
  split at h
  · cases h
  · next c cs hcs =>
      split at h
      · next hkeyword =>
          obtain ⟨hc, hall⟩ := Bool.and_eq_true_iff.mp h
          have hfixed : fixed text = ⟨.identifier, text⟩ := by rw [fixed, if_pos hkeyword]
          rw [hfixed]
          refine ⟨?_, nofun⟩
          show Lexeme .identifier text.toList
          rw [hcs]
          exact .identifier hc (List.all_eq_true.mp hall)
      · next hkeyword =>
          have hfixed : fixed text = ⟨.operator, text⟩ := by rw [fixed, if_neg hkeyword]
          rw [hfixed]
          refine ⟨?_, nofun⟩
          show Lexeme .operator text.toList
          rw [hcs]
          rcases Bool.or_eq_true_iff.mp h with h | h
          · obtain ⟨hc, hempty⟩ := Bool.and_eq_true_iff.mp h
            cases List.isEmpty_iff.mp hempty
            exact .mark hc
          · obtain ⟨hc, hequals⟩ := Bool.and_eq_true_iff.mp h
            cases of_decide_eq_true hequals
            exact .comparison hc

/-- A name is an identifier, and the grammar sees a name in it. -/
theorem readable_named {x : String} (h : isNameText x = true) :
    (named x).Readable ∧ (named x).terminal = .name := by
  unfold isNameText at h
  split at h
  · cases h
  · next c cs hcs =>
      simp only [Bool.and_eq_true, Bool.not_eq_true'] at h
      refine ⟨⟨?_, nofun⟩, ?_⟩
      · show Lexeme .identifier x.toList
        rw [hcs]
        exact .identifier h.1.1 (List.all_eq_true.mp h.1.2)
      · show (if keywords.contains x then Terminal.word x else .name) = .name
        rw [h.2]
        rfl

end Word

/-! ## Literals

Literals are written so that they are lexemes: quotes, backslashes and line ends become escapes,
and numbers have their digits in full. -/

theorem item_escaped (quote c : Char) (hquote : quote = '\'' ∨ quote = '"') :
    Item quote c (escaped c) := by
  unfold escaped
  split
  · next hc =>
      have hc : (c = '\'' ∨ c = '"') ∨ c = '\\' := by simpa using hc
      rcases hc with (rfl | rfl) | rfl <;> exact .escape rfl
  · next hc =>
      have hc : (c ≠ '\'' ∧ c ≠ '"') ∧ c ≠ '\\' := by simpa using hc
      split
      · next hline => subst hline; exact .escape rfl
      · next hline =>
          split
          · next hreturn => subst hreturn; exact .escape rfl
          · next hreturn =>
              refine .raw ⟨?_, hc.2, hline, hreturn⟩
              rcases hquote with rfl | rfl
              · exact hc.1.1
              · exact hc.1.2

theorem spelling_escaped (quote : Char) (cs : List Char) (hquote : quote = '\'' ∨ quote = '"') :
    Spelling quote cs (cs.flatMap escaped) := by
  induction cs with
  | nil => exact .nil
  | cons c cs ih => exact .cons (item_escaped quote c hquote) ih

theorem unquote_quotedWith (quote : Char) (s : String) (hquote : quote = '\'' ∨ quote = '"') :
    unquote (quotedWith quote s) = s := by
  unfold unquote quotedWith
  rw [String.toList_ofList, List.drop_one, List.tail_cons, List.dropLast_concat,
    (spelling_escaped quote s.toList hquote).unescape_eq, String.ofList_toList]

namespace Word

theorem readable_string (s : String) : Readable ⟨.string, quotedWith '"' s⟩ := by
  refine ⟨?_, nofun⟩
  show Lexeme .string (quotedWith '"' s).toList
  rw [quotedWith, String.toList_ofList]
  exact .string (spelling_escaped '"' s.toList (.inr rfl))

theorem readable_character {s : String} (hs : s.toList.length = 1) :
    Readable ⟨.character, quotedWith '\'' s⟩ := by
  obtain ⟨c, hc⟩ := List.length_eq_one_iff.mp hs
  refine ⟨?_, nofun⟩
  show Lexeme .character (quotedWith '\'' s).toList
  rw [quotedWith, String.toList_ofList, hc, List.flatMap_singleton]
  exact .character (item_escaped '\'' c (.inl rfl))

theorem readable_integer {n : Int} (hn : (Nat.repr n.natAbs).length ≤ maxDigits) :
    Readable ⟨.integer, Numeral.text n⟩ := by
  refine ⟨Numeral.lexeme_text n, fun _ => ?_⟩
  show (Numeral.sign (Numeral.text n).toList).2.length ≤ maxDigits
  rw [Numeral.sign_text]
  show (Nat.toDigits 10 n.natAbs).length ≤ maxDigits
  rwa [← Nat.toList_repr, String.length_toList]

theorem readable_decimal {d : Decimal} (hd : d.exponent ≤ -1) : Readable ⟨.decimal, d.plain⟩ :=
  ⟨(Decimal.plain_readable hd).1, nofun⟩

end Word

/-! ## Phrases

The lemmas go along with the constructors of derivations.  Only a parenthesis has to be admitted as
well. -/

/-- Words that spell a phrase, with a property of its trees. -/
structure Spells (p : Phrase) (ws : List Word) (Q : p.Value → Prop) : Prop where
  readable : ∀ w ∈ ws, w.Readable
  derives : ∀ ts : List Token, ts.map Token.word = ws →
    ∃ d : Derivation p, d.yield = ts ∧ d.Proper ∧ Q d.value

namespace Spells

variable {a b p : Phrase} {n : Nonterminal} {ws us : List Word} {β γ : Type}

theorem imp {Q R : p.Value → Prop} (h : Spells p ws Q) (hR : ∀ v, Q v → R v) : Spells p ws R := by
  refine ⟨h.readable, fun ts hts => ?_⟩
  obtain ⟨d, hy, hp, hv⟩ := h.derives ts hts
  exact ⟨d, hy, hp, hR _ hv⟩

theorem token {cs : List Terminal} {w : Word} (hw : w.Readable) (h : w.terminal ∈ cs) :
    Spells (.token cs) [w] fun t : Token => t.word = w := by
  refine ⟨by simpa using hw, fun ts hts => ?_⟩
  obtain ⟨t, rest, rfl, rfl, hrest⟩ := List.map_eq_cons_iff.mp hts
  cases List.map_eq_nil_iff.mp hrest
  exact ⟨.token t h, rfl, trivial, rfl⟩

theorem word {text : String} (h : Word.isFixed text = true) :
    Spells (.word text) [.fixed text] fun _ => True :=
  (token (Word.readable_fixed h) (by simp [Word.terminal_fixed])).imp fun _ _ => trivial

theorem name {x : String} (h : isNameText x = true) :
    Spells .name [.named x] fun t : Token => t.lexeme = x := by
  obtain ⟨hreadable, hterminal⟩ := Word.readable_named h
  exact (token hreadable (by simp [hterminal])).imp fun t ht => congrArg Word.text ht

theorem rule_of_admits {Q : n.definition.Value → Prop} {R : n.Tree → Prop}
    (h : Spells n.definition ws Q)
    (hR : ∀ ts v, Q v → n.admits (n.tree ts v) = true ∧ R (n.tree ts v)) :
    Spells (.rule n) ws R := by
  refine ⟨h.readable, fun ts hts => ?_⟩
  obtain ⟨d, hy, hp, hv⟩ := h.derives ts hts
  obtain ⟨hadmits, hR⟩ := hR d.yield d.value hv
  exact ⟨.rule d, hy, ⟨hp, hadmits⟩, hR⟩

theorem rule (hn : n ≠ .expr .primary) {Q : n.definition.Value → Prop} {R : n.Tree → Prop}
    (h : Spells n.definition ws Q) (hR : ∀ ts v, Q v → R (n.tree ts v)) :
    Spells (.rule n) ws R :=
  h.rule_of_admits fun ts v hv => ⟨n.admits_of_ne hn _, hR ts v hv⟩

theorem seq {Q : a.Value → Prop} {R : b.Value → Prop} (ha : Spells a ws Q) (hb : Spells b us R) :
    Spells (.seq a b) (ws ++ us) fun v : a.Value × b.Value => Q v.1 ∧ R v.2 := by
  refine ⟨fun w hw => (List.mem_append.mp hw).elim (ha.readable w) (hb.readable w),
    fun ts hts => ?_⟩
  obtain ⟨us, vs, rfl, hus, hvs⟩ := List.map_eq_append_iff.mp hts
  obtain ⟨d, rfl, hd, hQ⟩ := ha.derives us hus
  obtain ⟨e, rfl, he, hR⟩ := hb.derives vs hvs
  exact ⟨.seq d e, rfl, ⟨hd, he⟩, hQ, hR⟩

/-- What spells a symbol spells its definition. -/
theorem definition {R : n.Tree → Prop} (h : Spells (.rule n) ws R) :
    Spells n.definition ws fun v => ∃ ts, R (n.tree ts v) := by
  refine ⟨h.readable, fun ts hts => ?_⟩
  obtain ⟨d, hy, hp, hv⟩ := h.derives ts hts
  cases d with
  | rule d => exact ⟨d, hy, hp.1, d.yield, hv⟩

/-- One part more at the end of a repetition. -/
theorem snoc {Q : a.Value × List b.Value → Prop} {R : b.Value → Prop}
    (h : Spells (.seq a (.many b)) ws Q) (hb : Spells b us R) :
    Spells (.seq a (.many b)) (ws ++ us) fun v : a.Value × List b.Value =>
      ∃ vs w, v.2 = vs ++ [w] ∧ Q (v.1, vs) ∧ R w := by
  refine ⟨fun w hw => (List.mem_append.mp hw).elim (h.readable w) (hb.readable w),
    fun ts hts => ?_⟩
  obtain ⟨us, vs, rfl, hus, hvs⟩ := List.map_eq_append_iff.mp hts
  obtain ⟨d, rfl, hd, hQ⟩ := h.derives us hus
  obtain ⟨e, rfl, he, hR⟩ := hb.derives vs hvs
  cases d with
  | seq d ds =>
      refine ⟨.seq d (ds.snoc e), ?_, ⟨hd.1, Derivation.proper_snoc hd.2 he⟩, ?_⟩
      · show d.yield ++ (ds.snoc e).yield = d.yield ++ ds.yield ++ e.yield
        rw [Derivation.yield_snoc, List.append_assoc]
      · exact ⟨ds.value, e.value, Derivation.value_snoc ds e, hQ, hR⟩

theorem left {Q : a.Value → Prop} (h : Spells a ws Q) :
    Spells (.alt a b) ws fun v : a.Value ⊕ b.Value => ∃ x, v = .inl x ∧ Q x := by
  refine ⟨h.readable, fun ts hts => ?_⟩
  obtain ⟨d, hy, hp, hv⟩ := h.derives ts hts
  exact ⟨.left d, hy, hp, d.value, rfl, hv⟩

theorem right {Q : b.Value → Prop} (h : Spells b ws Q) :
    Spells (.alt a b) ws fun v : a.Value ⊕ b.Value => ∃ x, v = .inr x ∧ Q x := by
  refine ⟨h.readable, fun ts hts => ?_⟩
  obtain ⟨d, hy, hp, hv⟩ := h.derives ts hts
  exact ⟨.right d, hy, hp, d.value, rfl, hv⟩

theorem absent : Spells (.opt a) [] fun v : Option a.Value => v = none := by
  refine ⟨nofun, fun ts hts => ?_⟩
  cases List.map_eq_nil_iff.mp hts
  exact ⟨.absent, rfl, trivial, rfl⟩

theorem present {Q : a.Value → Prop} (h : Spells a ws Q) :
    Spells (.opt a) ws fun v : Option a.Value => ∃ x, v = some x ∧ Q x := by
  refine ⟨h.readable, fun ts hts => ?_⟩
  obtain ⟨d, hy, hp, hv⟩ := h.derives ts hts
  exact ⟨.present d, hy, hp, d.value, rfl, hv⟩

/-- A part for each of some things. -/
theorem many {f : a.Value → γ} {g : β → γ} {words : β → List Word} {bs : List β}
    (h : ∀ x ∈ bs, Spells a (words x) fun v => f v = g x) :
    Spells (.many a) (bs.flatMap words) fun vs : List a.Value => vs.map f = bs.map g := by
  induction bs with
  | nil =>
      refine ⟨nofun, fun ts hts => ?_⟩
      cases List.map_eq_nil_iff.mp hts
      exact ⟨.done, rfl, trivial, rfl⟩
  | cons x bs ih =>
      obtain ⟨hx, hbs⟩ := List.forall_mem_cons.mp h
      have hmore := ih hbs
      refine ⟨?_, fun ts hts => ?_⟩
      · intro w hw
        rw [List.flatMap_cons] at hw
        exact (List.mem_append.mp hw).elim (hx.readable w) (hmore.readable w)
      · rw [List.flatMap_cons] at hts
        obtain ⟨us, vs, rfl, hus, hvs⟩ := List.map_eq_append_iff.mp hts
        obtain ⟨d, rfl, hd, hv⟩ := hx.derives us hus
        obtain ⟨e, rfl, he, hvs⟩ := hmore.derives vs hvs
        exact ⟨.more d e, rfl, ⟨hd, he⟩, congr (congrArg List.cons hv) hvs⟩

/-- A part for each of some things, with commas between. -/
theorem list {f : a.Value → γ} {g : β → γ} {words : β → List Word} {x : β} {bs : List β}
    (h : ∀ y ∈ x :: bs, Spells a (words y) fun v => f v = g y) :
    Spells (.list a) (Word.commas words (x :: bs)) fun v : a.Value × List (Token × a.Value) =>
      (v.1 :: v.2.map Prod.snd).map f = (x :: bs).map g := by
  obtain ⟨hx, hbs⟩ := List.forall_mem_cons.mp h
  have hmore : ∀ y ∈ bs, Spells (.seq (.word ",") a) (.fixed "," :: words y)
      fun v : Token × a.Value => (f ∘ Prod.snd) v = g y :=
    fun y hy => ((word (by decide)).seq (hbs y hy)).imp fun v hv => hv.2
  refine (hx.seq (many hmore)).imp ?_
  rintro ⟨v, vs⟩ ⟨hv, hvs⟩
  exact congr (congrArg List.cons hv) (List.map_map.trans hvs)

/-- The type that may follow a name. -/
theorem typed {type : Option String} (h : type.all isNameText = true) :
    Spells .typed (Word.typed type) fun v => typeName v = type := by
  cases type with
  | none => exact absent.imp fun v hv => by rw [hv]; rfl
  | some x =>
      have hcolon : Spells (.word ":") [.fixed ":"] fun _ => True := word (by decide)
      refine (hcolon.seq (name h)).present.imp ?_
      rintro _ ⟨v, rfl, hv⟩
      exact congrArg some hv.2

end Spells

end QuillLang
