/-
# The lexemes of tokens

For each kind of token, the texts that a token of the kind can have.  A literal
between quotes spells a value, character by character: most characters stand
for themselves, and some only for others, behind a backslash.

Whatever is read as a token is a lexeme of its kind, and with the text left it
makes up the text there was.  Where reading stops, it has come some way into
the text.
-/
import Mathlib.Data.List.TakeWhile
import QuillLang.Token.Escape

namespace QuillLang

/-! ## Values between quotes

A value and its text are related character by character, so that a value can have several
spellings.  No character that would end the literal or the line stands for itself. -/

/-- A character and what it is written as between quotes. -/
inductive Item (quote : Char) : Char → List Char → Prop where
  | raw {c : Char} (h : c ≠ quote ∧ c ≠ '\\' ∧ c ≠ '\n' ∧ c ≠ '\r') : Item quote c [c]
  | escape {letter c : Char} (h : escapes.lookup letter = some c) : Item quote c ['\\', letter]

/-- Characters and what they are written as between quotes. -/
inductive Spelling (quote : Char) : List Char → List Char → Prop where
  | nil : Spelling quote [] []
  | cons {c : Char} {cs item rest : List Char} (h : Item quote c item)
      (hs : Spelling quote cs rest) : Spelling quote (c :: cs) (item ++ rest)

theorem unescape_append {quote c : Char} {item : List Char} (h : Item quote c item)
    (rest : List Char) : unescape (item ++ rest) = c :: unescape rest := by
  cases h with
  | raw h =>
      show unescape (c :: rest) = _
      rw [unescape.eq_4]
      · rintro rfl
        exact absurd rfl h.2.1
      · rintro _ _ rfl
        exact absurd rfl h.2.1
  | escape h =>
      show (escapes.lookup _).getD _ :: unescape rest = _
      rw [h]
      rfl

/-- A spelling stands for the value it spells. -/
theorem Spelling.unescape_eq {quote : Char} {cs body : List Char} (h : Spelling quote cs body) :
    unescape body = cs := by
  induction h with
  | nil => rfl
  | cons hitem _ ih => rw [unescape_append hitem, ih]

/-! ## Texts of each kind

The texts are given by their shape, without reference to the reader, which may stop earlier or go
on further depending on what follows. -/

/-- One digit or more. -/
def Digits (ds : List Char) : Prop := ds ≠ [] ∧ ∀ d ∈ ds, d.isDigit = true

theorem toNat_of_isDigit {c : Char} (hc : c.isDigit = true) : 48 ≤ c.toNat ∧ c.toNat ≤ 57 := by
  simp only [Char.isDigit, Bool.and_eq_true, decide_eq_true_eq, ge_iff_le,
    UInt32.le_iff_toNat_le] at hc
  exact hc

/-- A sign, or none. -/
def SignText (s : List Char) : Prop := s = [] ∨ ∃ c, isSign c = true ∧ s = [c]

theorem SignText.minus (p : Prop) [Decidable p] : SignText (if p then ['-'] else []) := by
  split
  · exact .inr ⟨'-', rfl, rfl⟩
  · exact .inl rfl

/-- The characters that are tokens on their own, unless they go together with others. -/
def isMark (c : Char) : Bool :=
  !(isBlank c || c = '\'' || c = '"' || c.isDigit || isNameStart c || isSeparator c)

/-- The texts of the tokens of each kind. -/
inductive Lexeme : TokenKind → List Char → Prop where
  | identifier {c : Char} {cs : List Char} (hc : isNameStart c = true)
      (hcs : ∀ d ∈ cs, isNamePart d = true) : Lexeme .identifier (c :: cs)
  | integer {s ds : List Char} (hs : SignText s) (hds : Digits ds) : Lexeme .integer (s ++ ds)
  | decimal {s ds fs : List Char} (hs : SignText s) (hds : Digits ds) (hfs : Digits fs) :
      Lexeme .decimal (s ++ ds ++ '.' :: fs)
  | character {c : Char} {item : List Char} (h : Item '\'' c item) :
      Lexeme .character ('\'' :: (item ++ ['\'']))
  | string {cs body : List Char} (h : Spelling '"' cs body) :
      Lexeme .string ('"' :: (body ++ ['"']))
  | comparison {c : Char} (hc : isComparisonStart c = true) : Lexeme .operator [c, '=']
  | mark {c : Char} (hc : isMark c = true) : Lexeme .operator [c]

/-! ## What is read

Each of the functions that read one token gives a lexeme of its kind and leaves the rest of the
text.  Where it stops, it has gone over text that is there. -/

/-- A token that was read is a lexeme of its kind, and nothing was lost.  Text that leads up to a
stop is there. -/
def Reading.Sound (cs : List Char) : Reading → Prop
  | .token kind lexeme rest => Lexeme kind lexeme ∧ cs = lexeme ++ rest
  | .stop _ before => before <+: cs

/-- The characters of a class are taken up to the first that is in another. -/
theorem span_eq {p : Char → Bool} {w rest : List Char} (hw : ∀ c ∈ w, p c = true)
    (hrest : ∀ c ∈ rest.head?, p c = false) :
    (w ++ rest).takeWhile p = w ∧ (w ++ rest).dropWhile p = rest := by
  rw [List.takeWhile_append_of_pos hw, List.dropWhile_append_of_pos hw]
  cases rest with
  | nil => simp
  | cons c rest => simp [hrest c rfl]

namespace Reading

theorem closeCharacter_sound {c : Char} {item : List Char} (h : Item '\'' c item)
    (cs : List Char) : (closeCharacter ('\'' :: item) cs).Sound ('\'' :: (item ++ cs)) := by
  unfold closeCharacter
  split
  · refine ⟨.character h, ?_⟩
    simp
  · exact List.prefix_append _ cs

theorem character_sound (cs : List Char) : (character cs).Sound ('\'' :: cs) := by
  unfold character
  split
  · exact List.prefix_rfl
  · exact List.prefix_rfl
  · next letter cs =>
      split
      · next hletter =>
          obtain ⟨c, hc⟩ := Option.isSome_iff_exists.mp hletter
          exact closeCharacter_sound (.escape hc) cs
      · exact List.prefix_append _ (letter :: cs)
  · next c cs hlast hescape =>
      split
      · exact List.prefix_append _ (c :: cs)
      · next hc =>
          simp only [Bool.or_eq_true, decide_eq_true_eq, not_or] at hc
          refine closeCharacter_sound (.raw ⟨hc.1.1, ?_, hc.1.2, hc.2⟩) cs
          rintro rfl
          cases cs with
          | nil => exact hlast rfl rfl
          | cons letter cs => exact hescape letter cs rfl rfl

theorem after_eq_token {front lexeme rest : List Char} {kind : TokenKind} {r : Reading}
    (h : after front r = .token kind lexeme rest) :
    ∃ lexeme', r = .token kind lexeme' rest ∧ lexeme = front ++ lexeme' := by
  cases r with
  | token kind' lexeme' rest' =>
      cases h
      exact ⟨lexeme', rfl, rfl⟩
  | stop cause before => cases h

/-- The body of a string is read up to the quote that closes it. -/
theorem stringBody_sound {cs lexeme rest : List Char} {kind : TokenKind}
    (h : stringBody cs = .token kind lexeme rest) :
    ∃ value body, kind = .string ∧ Spelling '"' value body ∧ lexeme = body ++ ['"'] ∧
      cs = lexeme ++ rest := by
  fun_induction stringBody cs generalizing lexeme with
  | case1 => cases h
  | case2 => cases h
  | case3 letter cs hletter ih =>
      obtain ⟨c, hc⟩ := Option.isSome_iff_exists.mp hletter
      obtain ⟨lexeme, hr, rfl⟩ := after_eq_token h
      obtain ⟨value, body, hkind, hbody, rfl, rfl⟩ := ih hr
      exact ⟨c :: value, _, hkind, .cons (.escape hc) hbody, rfl, rfl⟩
  | case4 => cases h
  | case5 cs =>
      cases h
      exact ⟨[], [], rfl, .nil, rfl, rfl⟩
  | case6 => cases h
  | case7 c cs hlast hescape hquote hline ih =>
      have hc : c ≠ '\\' := by
        rintro rfl
        cases cs with
        | nil => exact hlast rfl rfl
        | cons letter cs => exact hescape letter cs rfl rfl
      simp only [Bool.or_eq_true, decide_eq_true_eq, not_or] at hline
      obtain ⟨lexeme, hr, rfl⟩ := after_eq_token h
      obtain ⟨value, body, hkind, hbody, rfl, rfl⟩ := ih hr
      exact ⟨c :: value, _, hkind, .cons (.raw ⟨hquote, hc, hline⟩) hbody, rfl, rfl⟩

theorem after_eq_stop {front before : List Char} {cause : ScanCause} {r : Reading}
    (h : after front r = .stop cause before) :
    ∃ before', r = .stop cause before' ∧ before = front ++ before' := by
  cases r with
  | token kind lexeme rest => cases h
  | stop cause' before' =>
      cases h
      exact ⟨before', rfl, rfl⟩

/-- The body of a string is followed up to where it stops. -/
theorem stringBody_stopped {cs before : List Char} {cause : ScanCause}
    (h : stringBody cs = .stop cause before) : before <+: cs := by
  fun_induction stringBody cs generalizing before with
  | case1 => cases h; exact List.prefix_rfl
  | case2 => cases h; exact List.prefix_rfl
  | case3 letter cs _ ih =>
      obtain ⟨before, hr, rfl⟩ := after_eq_stop h
      exact List.prefix_append_right_inj ['\\', letter] |>.mpr (ih hr)
  | case4 letter cs _ => cases h; exact List.prefix_append _ (letter :: cs)
  | case5 => cases h
  | case6 => cases h; exact List.nil_prefix
  | case7 c cs _ _ _ _ ih =>
      obtain ⟨before, hr, rfl⟩ := after_eq_stop h
      exact List.prefix_append_right_inj [c] |>.mpr (ih hr)

theorem digits_takeWhile {cs : List Char} (h : startsWithDigit cs = true) :
    Digits (cs.takeWhile Char.isDigit) := by
  refine ⟨?_, fun d hd => List.mem_takeWhile_imp hd⟩
  cases cs with
  | nil => cases h
  | cons c cs =>
      rw [List.takeWhile_cons_of_pos (show c.isDigit = true from h)]
      exact List.cons_ne_nil _ _

/-- The whole part of a number: a sign and digits. -/
theorem exists_signed_digits {c : Char} {cs : List Char}
    (h : (c.isDigit || (isSign c && startsWithDigit cs)) = true) :
    ∃ s ds, SignText s ∧ Digits ds ∧ c :: cs.takeWhile Char.isDigit = s ++ ds := by
  rcases Bool.or_eq_true_iff.mp h with hc | hc
  · refine ⟨[], _, .inl rfl, ⟨List.cons_ne_nil _ _, ?_⟩, rfl⟩
    intro d hd
    rcases List.mem_cons.mp hd with rfl | hd
    · exact hc
    · exact List.mem_takeWhile_imp hd
  · obtain ⟨hc, hcs⟩ := Bool.and_eq_true_iff.mp hc
    exact ⟨[c], _, .inr ⟨c, hc, rfl⟩, digits_takeWhile hcs, rfl⟩

theorem number_sound {c : Char} {cs : List Char}
    (h : (c.isDigit || (isSign c && startsWithDigit cs)) = true) :
    (number c cs).Sound (c :: cs) := by
  obtain ⟨s, ds, hs, hds, hwhole⟩ := exists_signed_digits h
  have hcs : c :: cs = s ++ ds ++ cs.dropWhile Char.isDigit := by
    rw [← hwhole, List.cons_append, List.takeWhile_append_dropWhile]
  unfold number
  simp only [hwhole]
  split
  · next digits rest hfraction =>
      unfold fraction at hfraction
      split at hfraction
      · next cs' hpoint =>
          split at hfraction
          · next hdigit =>
              cases hfraction
              refine ⟨.decimal hs hds (digits_takeWhile hdigit), ?_⟩
              rw [hcs, hpoint]
              simp only [List.append_assoc, List.cons_append, List.takeWhile_append_dropWhile]
          · cases hfraction
      · cases hfraction
  · exact ⟨.integer hs hds, hcs⟩

theorem operator_sound {c : Char} {cs : List Char} (hc : isMark c = true) :
    (operator c cs).Sound (c :: cs) := by
  unfold operator
  split
  · split
    · next hstart => exact ⟨.comparison hstart, rfl⟩
    · exact ⟨.mark hc, rfl⟩
  · exact ⟨.mark hc, rfl⟩

theorem start_sound {c : Char} {cs : List Char} (hb : isBlank c = false) :
    (start c cs).Sound (c :: cs) := by
  unfold start
  split
  · next hc =>
      subst hc
      exact character_sound cs
  · next hquote =>
      split
      · next hc =>
          subst hc
          cases hr : stringBody cs with
          | stop cause before =>
              exact List.prefix_append_right_inj ['"'] |>.mpr (stringBody_stopped hr)
          | token kind lexeme rest =>
              obtain ⟨value, body, rfl, hbody, rfl, rfl⟩ := stringBody_sound hr
              exact ⟨.string hbody, rfl⟩
      · next hdouble =>
          split
          · next hnumber => exact number_sound hnumber
          · next hnumber =>
              split
              · next hname =>
                  refine ⟨.identifier hname fun d hd => List.mem_takeWhile_imp hd, ?_⟩
                  rw [List.cons_append, List.takeWhile_append_dropWhile]
              · next hname =>
                  split
                  · exact List.nil_prefix
                  · next hseparator =>
                      refine operator_sound ?_
                      simp only [Bool.or_eq_true, not_or] at hnumber
                      simp [isMark, hb, hquote, hdouble, hnumber.1, hname, hseparator]

end Reading

/-! ## Tokens of a text -/

/-- The lexeme of a token is one of its kind. -/
def Token.Lexical (t : Token) : Prop := Lexeme t.kind t.lexeme.toList

theorem isBlank_of_dropWhile {cs rest : List Char} {c : Char}
    (h : cs.dropWhile isBlank = c :: rest) : isBlank c = false := by
  have hhead := List.head?_dropWhile_not isBlank cs
  rw [h] at hhead
  exact hhead

theorem Scan.scanFrom_lexical {fuel : Nat} {k : Cursor} {cs : List Char} {t : Token}
    (ht : t ∈ (scanFrom fuel k cs).tokens) : t.Lexical := by
  induction fuel generalizing k cs with
  | zero => cases ht
  | succ fuel ih =>
      unfold scanFrom at ht
      dsimp only at ht
      split at ht
      · cases ht
      · next c rest hrest =>
          split at ht
          · next kind lexeme rest' hr =>
              rcases List.mem_cons.mp ht with rfl | ht
              · have hsound := @Reading.start_sound c rest (isBlank_of_dropWhile hrest)
                rw [hr] at hsound
                show Lexeme kind (String.ofList lexeme).toList
                rw [String.toList_ofList]
                exact hsound.1
              · exact ih ht
          · cases ht

theorem tokenize_lexical {source : String} {file : Option String} {ts : List Token}
    (h : tokenize source file = .ok ts) {t : Token} (ht : t ∈ ts) : t.Lexical := by
  unfold tokenize Scan.result at h
  split at h
  · cases h
    exact Scan.scanFrom_lexical ht
  · cases h

/-- A text begins like a name. -/
def beginsLikeName (text : String) : Bool := text.toList.head?.any isNameStart

/-- The lexeme of an identifier begins like a name, so that it is never taken for a mark. -/
theorem Token.Lexical.beginsLikeName {t : Token} (ht : t.Lexical) (hk : t.kind = .identifier) :
    beginsLikeName t.lexeme = true := by
  unfold Token.Lexical at ht
  rw [hk] at ht
  unfold QuillLang.beginsLikeName
  generalize t.lexeme.toList = cs at ht
  cases ht with
  | identifier hc hcs => exact hc

end QuillLang
