/-
# Words with blanks between them

A token may end where it does only because of what follows it: a point that no
digit follows, a mark that is no equals sign.  Before a blank none of this
matters.  There a lexeme is read whole, so a row of lexemes with single spaces
between them is read as just these lexemes.
-/
import QuillLang.Proofs.Lexemes

namespace QuillLang

/-! ## Classes of characters

A blank is one of five characters, so that it has none of the properties that decide how a token
goes on can be computed. -/

/-- No blank has a property. -/
abbrev NoBlank (p : Char → Bool) : Prop :=
  [' ', '\x08', '\n', '\r', '\t'].any p = false

theorem NoBlank.of_isBlank {p : Char → Bool} (hp : NoBlank p) {c : Char}
    (hc : isBlank c = true) : p c = false :=
  Bool.eq_false_iff.mpr (List.any_eq_false.mp hp c (by simpa [isBlank, or_assoc] using hc))

theorem isDigit_of_isNameStart {c : Char} (hc : isNameStart c = true) : c.isDigit = false := by
  have hrange : 65 ≤ c.toNat := by
    rcases Bool.or_eq_true_iff.mp hc with hletter | hline
    · rcases Bool.or_eq_true_iff.mp hletter with hupper | hlower
      · exact UInt32.le_iff_toNat_le.mp (of_decide_eq_true hupper).1
      · have h97 : 97 ≤ c.toNat :=
          UInt32.le_iff_toNat_le.mp (of_decide_eq_true (Bool.and_eq_true_iff.mp hlower).1)
        omega
    · rw [of_decide_eq_true hline]
      decide
  refine Bool.eq_false_iff.mpr fun hd => ?_
  have hd := toNat_of_isDigit hd
  omega

theorem isNumberStart {c : Char} (hc : c.isDigit = true ∨ isSign c = true) :
    c ≠ '\'' ∧ c ≠ '"' ∧ isBlank c = false := by
  have hb : isBlank c = true → False := fun hb => by
    have hdigit := (show NoBlank Char.isDigit by decide).of_isBlank hb
    have hsign := (show NoBlank isSign by decide).of_isBlank hb
    simp [hdigit, hsign] at hc
  refine ⟨?_, ?_, Bool.eq_false_iff.mpr hb⟩
  · rintro rfl
    exact absurd hc (by decide)
  · rintro rfl
    exact absurd hc (by decide)

theorem isNameStart_ne {c : Char} (hc : isNameStart c = true) :
    c ≠ '\'' ∧ c ≠ '"' ∧ isSign c = false := by
  refine ⟨?_, ?_, Bool.eq_false_iff.mpr fun hs => ?_⟩
  · rintro rfl
    exact absurd hc (by decide)
  · rintro rfl
    exact absurd hc (by decide)
  · have hs : c = '+' ∨ c = '-' := by simpa [isSign] using hs
    rcases hs with rfl | rfl <;> exact absurd hc (by decide)

theorem isBlank_of_isMark {c : Char} (hc : isMark c = true) : isBlank c = false := by
  simp only [isMark, Bool.not_eq_true', Bool.or_eq_false_iff] at hc
  exact hc.1.1.1.1.1

theorem isMark_of_isComparisonStart {c : Char} (hc : isComparisonStart c = true) :
    isMark c = true := by
  have hall : ['<', '>', '!', '='].all isMark = true := by decide
  exact List.all_eq_true.mp hall c (by simpa [isComparisonStart, or_assoc] using hc)

/-! ## One lexeme before a blank

Each kind of token is read to its end if a blank or nothing follows.  The reader chooses the kind
by how the text begins, and a lexeme of a kind begins in the way that leads to it. -/

/-- Nothing follows, or a blank does. -/
def Spaced (rest : List Char) : Prop := ∀ c ∈ rest.head?, isBlank c = true

theorem Spaced.head {rest : List Char} (h : Spaced rest) {p : Char → Bool} (hp : NoBlank p) :
    ∀ c ∈ rest.head?, p c = false :=
  fun c hc => hp.of_isBlank (h c hc)

namespace Reading

variable {rest : List Char}

theorem isEscape_of_lookup {letter c : Char} (h : escapes.lookup letter = some c) :
    isEscape letter = true := by
  unfold isEscape
  rw [h]
  rfl

theorem character_item {c : Char} {item : List Char} (h : Item '\'' c item) :
    character (item ++ '\'' :: rest) = .token .character ('\'' :: (item ++ ['\''])) rest := by
  cases h with
  | raw h =>
      show character (c :: '\'' :: rest) = _
      unfold character
      split
      · contradiction
      · next heq => cases heq
      · next heq =>
          cases heq
          exact absurd rfl h.2.1
      · next heq =>
          cases heq
          simp [closeCharacter, h]
  | escape h => exact if_pos (isEscape_of_lookup h)

theorem stringBody_item {c : Char} {item : List Char} (h : Item '"' c item) (cs : List Char) :
    stringBody (item ++ cs) = after item (stringBody cs) := by
  cases h with
  | raw h =>
      show stringBody (c :: cs) = _
      rw [stringBody.eq_4]
      · simp [h]
      · rintro rfl
        exact absurd rfl h.2.1
      · rintro _ _ rfl
        exact absurd rfl h.2.1
  | escape h => exact if_pos (isEscape_of_lookup h)

theorem stringBody_spelling {cs body : List Char} (h : Spelling '"' cs body) :
    stringBody (body ++ '"' :: rest) = .token .string (body ++ ['"']) rest := by
  induction h with
  | nil => rfl
  | cons hitem _ ih =>
      rw [List.append_assoc, stringBody_item hitem, ih, List.append_assoc]
      rfl

/-! A token begins with a quote, like a number, like a name or with a mark. -/

theorem start_number {c : Char} {cs : List Char}
    (h : c.isDigit = true ∨ isSign c = true ∧ startsWithDigit cs = true) :
    start c cs = number c cs := by
  obtain ⟨hquote, hdouble, _⟩ := isNumberStart (h.imp_right And.left)
  rw [start, if_neg hquote, if_neg hdouble, if_pos]
  simpa using h

theorem start_name {c : Char} {cs : List Char} (h : isNameStart c = true) :
    start c cs = .token .identifier (c :: cs.takeWhile isNamePart) (cs.dropWhile isNamePart) := by
  obtain ⟨hquote, hdouble, hsign⟩ := isNameStart_ne h
  rw [start, if_neg hquote, if_neg hdouble, if_neg, if_pos h]
  simp [isDigit_of_isNameStart h, hsign]

theorem start_mark {c : Char} {cs : List Char} (h : isMark c = true)
    (hcs : isSign c = true → startsWithDigit cs = false) : start c cs = operator c cs := by
  simp only [isMark, Bool.not_eq_true', Bool.or_eq_false_iff, decide_eq_false_iff_not] at h
  obtain ⟨⟨⟨⟨⟨_, hquote⟩, hdouble⟩, hdigit⟩, hname⟩, hseparator⟩ := h
  have hsign : (isSign c && startsWithDigit cs) = false := by
    cases hc : isSign c with
    | true => exact hcs hc
    | false => rfl
  simp [start, hquote, hdouble, hdigit, hname, hseparator, hsign]

theorem startsWithDigit_append {ds : List Char} (h : Digits ds) (rest : List Char) :
    startsWithDigit (ds ++ rest) = true := by
  cases ds with
  | nil => exact absurd rfl h.1
  | cons d ds => exact h.2 d List.mem_cons_self

/-- How the whole part of a number begins and goes on. -/
theorem exists_cons_of_signed {s ds : List Char} (hs : SignText s) (hds : Digits ds) :
    ∃ c cs, s ++ ds = c :: cs ∧ (∀ d ∈ cs, d.isDigit = true) ∧
      ∀ rest, c.isDigit = true ∨ isSign c = true ∧ startsWithDigit (cs ++ rest) = true := by
  rcases hs with rfl | ⟨c, hc, rfl⟩
  · obtain ⟨d, ds, rfl⟩ := List.exists_cons_of_ne_nil hds.1
    exact ⟨d, ds, rfl, fun d hd => hds.2 d (List.mem_cons_of_mem _ hd),
      fun _ => .inl (hds.2 d List.mem_cons_self)⟩
  · exact ⟨c, ds, rfl, hds.2, fun rest => .inr ⟨hc, startsWithDigit_append hds rest⟩⟩

theorem number_integer {c : Char} {cs : List Char} (hcs : ∀ d ∈ cs, d.isDigit = true)
    (hrest : Spaced rest) : number c (cs ++ rest) = .token .integer (c :: cs) rest := by
  obtain ⟨htake, hdrop⟩ := span_eq hcs (hrest.head (show NoBlank Char.isDigit by decide))
  have hpoint : fraction rest = none := by
    unfold fraction
    split
    · exact absurd (hrest '.' rfl) (by decide)
    · rfl
  simp only [number, htake, hdrop, hpoint]

theorem number_decimal {c : Char} {cs fs : List Char} (hcs : ∀ d ∈ cs, d.isDigit = true)
    (hfs : Digits fs) (hrest : Spaced rest) :
    number c (cs ++ '.' :: (fs ++ rest)) = .token .decimal (c :: (cs ++ '.' :: fs)) rest := by
  obtain ⟨htake, hdrop⟩ := @span_eq _ cs ('.' :: (fs ++ rest)) hcs (by rintro _ ⟨⟩; rfl)
  obtain ⟨htake', hdrop'⟩ := span_eq hfs.2 (hrest.head (show NoBlank Char.isDigit by decide))
  have hpoint : fraction ('.' :: (fs ++ rest)) = some ('.' :: fs, rest) := by
    simp only [fraction, startsWithDigit_append hfs rest, htake', hdrop', if_true]
  simp only [number, htake, hdrop, hpoint, List.cons_append]

/-- Before a blank a lexeme is read whole. -/
theorem start_lexeme {kind : TokenKind} {c : Char} {cs : List Char} (h : Lexeme kind (c :: cs))
    (hrest : Spaced rest) : start c (cs ++ rest) = .token kind (c :: cs) rest := by
  generalize hw : c :: cs = w at h
  cases h with
  | identifier hc hcs =>
      cases hw
      obtain ⟨htake, hdrop⟩ := span_eq hcs (hrest.head (show NoBlank isNamePart by decide))
      rw [start_name hc, htake, hdrop]
  | integer hs hds =>
      obtain ⟨d, ds, hwhole, hds, hstart⟩ := exists_cons_of_signed hs hds
      rw [hwhole] at hw ⊢
      cases hw
      rw [start_number (hstart rest), number_integer hds hrest]
  | decimal hs hds hfs =>
      obtain ⟨d, ds, hwhole, hds, hstart⟩ := exists_cons_of_signed hs hds
      rw [hwhole, List.cons_append] at hw ⊢
      cases hw
      rw [List.append_assoc, List.cons_append, start_number (hstart _),
        number_decimal hds hfs hrest]
  | character h =>
      cases hw
      rw [start, if_pos rfl, List.append_assoc]
      exact character_item h
  | string h =>
      cases hw
      rw [start, if_neg (by decide), if_pos rfl, List.append_assoc]
      exact congrArg (after ['"']) (stringBody_spelling h)
  | comparison hc =>
      cases hw
      rw [start_mark (isMark_of_isComparisonStart hc) fun _ => rfl]
      exact if_pos hc
  | mark hc =>
      cases hw
      rw [List.nil_append, start_mark hc]
      · unfold operator
        split
        · exact absurd (hrest '=' rfl) (by decide)
        · rfl
      · intro _
        cases rest with
        | nil => rfl
        | cons d rest => exact hrest.head (show NoBlank Char.isDigit by decide) d rfl

end Reading

/-- No lexeme is empty or begins with a blank. -/
theorem Lexeme.exists_cons {kind : TokenKind} {w : List Char} (h : Lexeme kind w) :
    ∃ c cs, w = c :: cs ∧ isBlank c = false := by
  cases h with
  | identifier hc hcs =>
      refine ⟨_, _, rfl, Bool.eq_false_iff.mpr fun hb => ?_⟩
      rw [(show NoBlank isNameStart by decide).of_isBlank hb] at hc
      cases hc
  | integer hs hds =>
      obtain ⟨c, cs, hwhole, _, hstart⟩ := Reading.exists_cons_of_signed hs hds
      exact ⟨c, cs, hwhole, (isNumberStart ((hstart []).imp_right And.left)).2.2⟩
  | decimal hs hds hfs =>
      obtain ⟨c, cs, hwhole, _, hstart⟩ := Reading.exists_cons_of_signed hs hds
      rw [hwhole]
      exact ⟨c, _, rfl, (isNumberStart ((hstart []).imp_right And.left)).2.2⟩
  | character h => exact ⟨_, _, rfl, rfl⟩
  | string h => exact ⟨_, _, rfl, rfl⟩
  | comparison hc => exact ⟨_, _, rfl, isBlank_of_isMark (isMark_of_isComparisonStart hc)⟩
  | mark hc => exact ⟨_, _, rfl, isBlank_of_isMark hc⟩

/-! ## Rows of words

A word with a space behind it is read whole, then the space is skipped.  So a row of words is read
word by word, whatever the words are. -/

/-- What a token is apart from its place. -/
structure Word where
  kind : TokenKind
  text : String
deriving DecidableEq, Repr

def Token.word (t : Token) : Word := ⟨t.kind, t.lexeme⟩

namespace Word

/-- Words as a text, with single spaces between them. -/
def spaced (ws : List Word) : String := " ".intercalate (ws.map text)

/-- A word that can be read. -/
def Lexical (w : Word) : Prop := Lexeme w.kind w.text.toList

/-- What stands between a word and the end of the text. -/
def gap : List Word → List Char
  | [] => []
  | w :: ws => ' ' :: (spaced (w :: ws)).toList

theorem toList_spaced_cons (w : Word) (ws : List Word) :
    (spaced (w :: ws)).toList = w.text.toList ++ gap ws := by
  cases ws with
  | nil => simp [spaced, gap]
  | cons v ws => simp [spaced, gap, String.toList_intercalate]

theorem spaced_gap (ws : List Word) : Spaced (gap ws) := by
  cases ws with
  | nil => nofun
  | cons w ws => rintro _ ⟨⟩; rfl

theorem dropWhile_spaced {ws : List Word} (hws : ∀ w ∈ ws, w.Lexical) :
    (spaced ws).toList.dropWhile isBlank = (spaced ws).toList := by
  cases ws with
  | nil => rfl
  | cons w ws =>
      obtain ⟨c, cs, hw, hc⟩ := (hws w List.mem_cons_self).exists_cons
      rw [toList_spaced_cons, hw, List.cons_append]
      exact List.dropWhile_cons_of_neg (by simp [hc])

theorem dropWhile_gap {ws : List Word} (hws : ∀ w ∈ ws, w.Lexical) :
    (gap ws).dropWhile isBlank = (spaced ws).toList := by
  cases ws with
  | nil => rfl
  | cons w ws => exact dropWhile_spaced hws

/-- Blanks and then words with spaces between them are read as these words. -/
theorem scanFrom_spaced {ws : List Word} (hws : ∀ w ∈ ws, w.Lexical) {fuel : Nat}
    (hfuel : ws.length ≤ fuel) (k : Cursor) {cs : List Char}
    (hcs : cs.dropWhile isBlank = (spaced ws).toList) :
    ∃ ts, Scan.scanFrom fuel k cs = ⟨ts, none⟩ ∧ ts.map Token.word = ws := by
  induction ws generalizing fuel k cs with
  | nil =>
      cases fuel with
      | zero => exact ⟨[], rfl, rfl⟩
      | succ fuel =>
          refine ⟨[], ?_, rfl⟩
          unfold Scan.scanFrom
          rw [hcs]
          rfl
  | cons w ws ih =>
      obtain ⟨hw, hws⟩ := List.forall_mem_cons.mp hws
      obtain ⟨fuel, rfl⟩ : ∃ n, fuel = n + 1 := ⟨fuel - 1, by simp at hfuel; omega⟩
      obtain ⟨c, w', htext, _⟩ := hw.exists_cons
      have hstart : Reading.start c (w' ++ gap ws) = .token w.kind (c :: w') (gap ws) :=
        Reading.start_lexeme (htext ▸ hw) (spaced_gap ws)
      obtain ⟨ts, hts, rfl⟩ := ih hws (Nat.le_of_succ_le_succ hfuel)
        ((k.advanceAll (cs.takeWhile isBlank)).advanceAll (c :: w')) (dropWhile_gap hws)
      refine ⟨⟨w.kind, String.ofList (c :: w'),
        (k.advanceAll (cs.takeWhile isBlank)).location⟩ :: ts, ?_, ?_⟩
      · unfold Scan.scanFrom
        rw [toList_spaced_cons, htext, List.cons_append] at hcs
        simp only [hcs, hstart, hts]
      · rw [← htext, String.ofList_toList]
        rfl

theorem length_le_spaced {ws : List Word} (hws : ∀ w ∈ ws, w.Lexical) :
    ws.length ≤ (spaced ws).toList.length := by
  induction ws with
  | nil => exact Nat.zero_le _
  | cons w ws ih =>
      obtain ⟨hw, hws⟩ := List.forall_mem_cons.mp hws
      obtain ⟨c, w', htext, _⟩ := hw.exists_cons
      have hrest := ih hws
      rw [toList_spaced_cons, htext]
      cases ws with
      | nil => simp [gap]
      | cons v ws => simp [gap] at hrest ⊢; omega

/-- Words with spaces between them are the tokens of the text they make up. -/
theorem tokenize_spaced {ws : List Word} (hws : ∀ w ∈ ws, w.Lexical) (file : Option String) :
    ∃ ts, tokenize (spaced ws) file = .ok ts ∧ ts.map Token.word = ws := by
  obtain ⟨ts, hts, hwords⟩ := scanFrom_spaced hws (length_le_spaced hws) (Cursor.start file)
    (dropWhile_spaced hws)
  refine ⟨ts, ?_, hwords⟩
  unfold tokenize Scan.ofText
  rw [hts]
  rfl

end Word

end QuillLang
