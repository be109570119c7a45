/-
# Literals between quotes

A value between double quotes can be spelt in several ways, since most
characters stand for themselves and seven have an escape, some of them both.
Whichever way is taken, the text is a single token and the literal read from it
is the value, and the same holds of a single character between single quotes.

Nothing else is ever read: the body of every token between quotes, also of those
before an error, is such a spelling.  So replacing its escapes never comes to a
backslash that stands for itself (`Stray`), and every character literal in a
tree that is read is one character long (`quoted_literals_decode`).
-/
import QuillLang.Proofs.ReadBack

namespace QuillLang

/-! ## Escapes

The table of escapes goes from letters to characters, and read the other way it is a function as
well.  That a spelling never runs into a stray backslash is shown item by item. -/

/-- The letter that a character is written as behind a backslash, for the seven that have one. -/
def escapeLetter? : Char → Option Char
  | '\x08' => some 'b'
  | '\n' => some 'n'
  | '\r' => some 'r'
  | '\t' => some 't'
  | '\'' => some '\''
  | '"' => some '"'
  | '\\' => some '\\'
  | _ => none

/-- What escapes are read as is what they are written for. -/
theorem lookup_escapes_iff {letter c : Char} :
    escapes.lookup letter = some c ↔ escapeLetter? c = some letter := by
  constructor
  · intro h
    have hmem : (letter, c) ∈ escapes := lookup_mem h
    simp only [escapes, List.mem_cons, List.not_mem_nil, Prod.mk.injEq, or_false] at hmem
    obtain ⟨rfl, rfl⟩ | ⟨rfl, rfl⟩ | ⟨rfl, rfl⟩ | ⟨rfl, rfl⟩ | ⟨rfl, rfl⟩ | ⟨rfl, rfl⟩ |
      ⟨rfl, rfl⟩ := hmem <;> rfl
  · intro h
    unfold escapeLetter? at h
    split at h <;> cases h <;> rfl

/-- Replacing escapes comes to a backslash at the end of the text, or to one in front of a letter
that is no escape. -/
inductive Stray : List Char → Prop where
  | last : Stray ['\\']
  | unknown {letter : Char} {cs : List Char} :
      escapes.lookup letter = none → Stray ('\\' :: letter :: cs)
  | escape {letter : Char} {cs : List Char} : Stray cs → Stray ('\\' :: letter :: cs)
  | raw {c : Char} {cs : List Char} : c ≠ '\\' → Stray cs → Stray (c :: cs)

theorem Item.stray_append {quote c : Char} {item rest : List Char} (h : Item quote c item)
    (hrest : ¬ Stray rest) : ¬ Stray (item ++ rest) := by
  intro hstray
  cases h with
  | raw h =>
      cases hstray with
      | last => exact h.2.1 rfl
      | unknown => exact h.2.1 rfl
      | escape => exact h.2.1 rfl
      | raw _ hs => exact hrest hs
  | escape h =>
      cases hstray with
      | unknown hnone =>
          rw [h] at hnone
          cases hnone
      | escape hs => exact hrest hs
      | raw hc => exact hc rfl

theorem Spelling.not_stray {quote : Char} {cs body : List Char} (h : Spelling quote cs body) :
    ¬ Stray body := by
  induction h with
  | nil => rintro ⟨⟩
  | cons hitem _ ih => exact hitem.stray_append ih

/-- A single character is spelt by its item. -/
theorem Item.spelling {quote c : Char} {item : List Char} (h : Item quote c item) :
    Spelling quote [c] item := by
  have hs : Spelling quote [c] (item ++ []) := .cons h .nil
  rwa [List.append_nil] at hs

/-! ## Texts between quotes

The quotes are taken off before the escapes are replaced.  What is between them is a spelling, for
every token of the kind. -/

/-- A text put between quotes. -/
def quoted (quote : Char) (body : List Char) : String := String.ofList (quote :: (body ++ [quote]))

theorem toList_quoted (quote : Char) (body : List Char) :
    (quoted quote body).toList = quote :: (body ++ [quote]) :=
  String.toList_ofList

theorem eq_quoted {text : String} {quote : Char} {body : List Char}
    (h : text.toList = quote :: (body ++ [quote])) : text = quoted quote body := by
  rw [quoted, ← h, String.ofList_toList]

/-- A text between quotes stands for the value that it spells. -/
theorem Spelling.unquote_quoted {quote : Char} {cs body : List Char}
    (h : Spelling quote cs body) : unquote (quoted quote body) = String.ofList cs := by
  rw [unquote, toList_quoted, List.drop_one, List.tail_cons, List.dropLast_concat, h.unescape_eq]

/-- The text of a token is a spelling of a value between quotes, which the token stands for and in
which every backslash begins an escape. -/
def Token.Spells (t : Token) (quote : Char) (v : List Char) : Prop :=
  ∃ body, t.lexeme = quoted quote body ∧ Spelling quote v body ∧ ¬ Stray body ∧
    unquote t.lexeme = String.ofList v

theorem Spelling.spells {quote : Char} {v body : List Char} (h : Spelling quote v body)
    {t : Token} (ht : t.lexeme.toList = quote :: (body ++ [quote])) : t.Spells quote v := by
  have htext := eq_quoted ht
  refine ⟨body, htext, h, h.not_stray, ?_⟩
  rw [htext, h.unquote_quoted]

theorem Token.Lexical.spells_string {t : Token} (ht : t.Lexical) (hk : t.kind = .string) :
    ∃ v, t.Spells '"' v := by
  unfold Token.Lexical at ht
  rw [hk] at ht
  generalize htext : t.lexeme.toList = cs at ht
  cases ht with
  | string h => exact ⟨_, h.spells htext⟩

theorem Token.Lexical.spells_character {t : Token} (ht : t.Lexical) (hk : t.kind = .character) :
    ∃ c, t.Spells '\'' [c] := by
  unfold Token.Lexical at ht
  rw [hk] at ht
  generalize htext : t.lexeme.toList = cs at ht
  cases ht with
  | character h => exact ⟨_, h.spelling.spells htext⟩

/-! ## Literals alone

A source that is one lexeme is one token, and an expression that is one token is a literal. -/

namespace Source

/-- A source is a single token of a kind, with the whole text, and is read as a literal. -/
def IsLiteral (s : Source) (kind : TokenKind) (literal : Place → Expr Place) : Prop :=
  ∃ t : Token, s.tokens = .ok [t] ∧ t.kind = kind ∧ t.lexeme = s.text ∧
    s.expression = .ok (literal (some t.location), [])

/-- A source that is one word is read as the literal that its token is. -/
theorem isLiteral_of_lexeme {s : Source} {kind : TokenKind} {literal : Place → Expr Place}
    (h : Lexeme kind s.text.toList)
    (hread : ∀ t : Token, t.kind = kind → t.lexeme = s.text →
      Parse.literal? t = some (.ok (literal (some t.location)))) : s.IsLiteral kind literal := by
  obtain ⟨t, ht, hword⟩ := Word.tokenize_single (w := ⟨kind, s.text⟩) h s.file
  obtain ⟨hkind, hlexeme⟩ := Word.mk.inj hword
  have htokens : s.tokens = .ok [t] := by
    rw [tokens, show tokenize s.text s.file = _ from ht]
    rfl
  refine ⟨t, htokens, hkind, hlexeme, ?_⟩
  rw [expression, parseWith, htokens]
  show (parseExpression [t]).mapError _ = _
  rw [parseExpression_literal (hread t hkind hlexeme)]
  rfl

theorem isLiteral_string {s : Source} {v body : List Char} (h : Spelling '"' v body)
    (hs : s.text = quoted '"' body) :
    s.IsLiteral .string fun p => .string p (String.ofList v) := by
  refine isLiteral_of_lexeme ?_ fun t hkind hlexeme => ?_
  · rw [hs, toList_quoted]
    exact .string h
  · have hvalue := h.unquote_quoted
    simp [Parse.literal?, Token.is, hkind, hlexeme, hs, hvalue]

theorem isLiteral_character {s : Source} {c : Char} {item : List Char} (h : Item '\'' c item)
    (hs : s.text = quoted '\'' item) :
    s.IsLiteral .character fun p => .character p (String.ofList [c]) := by
  refine isLiteral_of_lexeme ?_ fun t hkind hlexeme => ?_
  · rw [hs, toList_quoted]
    exact .character h
  · have hvalue := h.spelling.unquote_quoted
    simp [Parse.literal?, Token.is, hkind, hlexeme, hs, hvalue]

end Source

/-! ## Literals in trees -/

/-- Every character literal among nodes is one character long. -/
def SingleCharacters (ns : List (Node Place)) : Prop :=
  ∀ p s, Node.expr (.character p s) ∈ ns → s.length = 1

theorem AllWellFormed.singleCharacters {ns : List (Node Place)} (h : AllWellFormed ns) :
    SingleCharacters ns := by
  intro p s hs
  rw [← String.length_toList]
  exact of_decide_eq_true (h _ hs)

/-! ## What is written and what is read -/

/-- Seven characters have an escape.  A string between double quotes, each of whose characters is
written as itself or as its escape, is a single token and read as the string, and so is a character
between single quotes.  The other way round, every token between quotes that is read from a text is
such a spelling, with no backslash but those of escapes, and every character literal of a tree that
is read is one character. -/
theorem quoted_literals_decode :
    (∀ letter c, escapes.lookup letter = some c ↔ escapeLetter? c = some letter) ∧
    (∀ (s : Source) (v body : List Char), Spelling '"' v body → s.text = quoted '"' body →
      s.IsLiteral .string fun p => .string p (String.ofList v)) ∧
    (∀ (s : Source) (c : Char) (item : List Char), Item '\'' c item → s.text = quoted '\'' item →
      s.IsLiteral .character fun p => .character p (String.ofList [c])) ∧
    (∀ (source : String) (file : Option String), ∀ t ∈ (Scan.ofText source.toList file).tokens,
      (t.kind = .string → ∃ v, t.Spells '"' v) ∧
      (t.kind = .character → ∃ c, t.Spells '\'' [c])) ∧
    ∀ s : Source,
      (∀ p, s.program = .ok p → SingleCharacters p.nodes) ∧
      (∀ e rest, s.expression = .ok (e, rest) → SingleCharacters e.nodes) ∧
      (∀ ss, s.statements = .ok ss → SingleCharacters (Stmt.nodesOf ss)) := by
  refine ⟨fun _ _ => lookup_escapes_iff, fun _ _ _ h hs => Source.isLiteral_string h hs,
    fun _ _ _ h hs => Source.isLiteral_character h hs, ?_, ?_⟩
  · intro source file t ht
    have hlexical : t.Lexical := Scan.scanFrom_lexical ht
    exact ⟨hlexical.spells_string, hlexical.spells_character⟩
  · intro s
    refine ⟨?_, ?_, ?_⟩
    · intro p hp
      exact (Source.program_wellFormed hp).singleCharacters
    · intro e rest he
      exact (Source.expression_wellFormed he).singleCharacters
    · intro ss hss
      exact (Source.statements_wellFormed hss).singleCharacters

/-- A tab as its escape and as itself, an apostrophe, and a quote that only its escape can stand
for. -/
theorem spelling_tabs : Spelling '"' ['\t', '\t', '\'', '"'] ['\\', 't', '\t', '\'', '\\', '"'] :=
  .cons (.escape rfl) (.cons (.raw (by decide)) (.cons (.raw (by decide))
    (.cons (.escape rfl) .nil)))

/-- A quote between single quotes is written as itself. -/
theorem item_quote : Item '\'' '"' ['"'] := .raw (by decide)

/-- Both spellings of a tab in one string, a quote between single quotes, and a string that is read
before one with an unknown escape. -/
theorem quoted_tabs_decode :
    ({ text := "\"\\t\t'\\\"\"" } : Source).IsLiteral .string (fun p => .string p "\t\t'\"") ∧
    ({ text := "'\"'" } : Source).IsLiteral .character (fun p => .character p "\"") ∧
    (Scan.ofText "'\\\\' \"\\q\"".toList none).error.isSome = true ∧
    ∃ t ∈ (Scan.ofText "'\\\\' \"\\q\"".toList none).tokens, ∃ c, t.Spells '\'' [c] := by
  obtain ⟨-, hstring, hcharacter, htokens, -⟩ := quoted_literals_decode
  have hread : (Scan.ofText "'\\\\' \"\\q\"".toList none).tokens.any
      (fun t => t.kind = .character) = true := by
    decide
  obtain ⟨t, ht, hkind⟩ := List.any_eq_true.mp hread
  exact ⟨hstring _ _ _ spelling_tabs rfl, hcharacter _ _ _ item_quote rfl, by decide, t, ht,
    (htokens _ none t ht).2 (of_decide_eq_true hkind)⟩

end QuillLang
