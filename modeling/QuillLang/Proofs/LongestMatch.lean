/-
# Tokens are longest matches

What the token reader does can be said without reading: skip the blanks, take
the longest beginning of the text that has the pattern of a token, and go on
after it.  A pattern is a lexeme of some kind; a sign is a mark of its own only
where no digit follows it.

This determines all tokens, their kinds and their places.  The text is read to
its end if it can be taken apart in this way, and there is an error if at some
point text is left of which no beginning has a pattern
(`tokenize_longest_match`).

The reader decides by the first character and one more, and never compares
candidates.  That it finds the longest one comes down to `Reading.start_match`:
wherever a beginning of the text has a pattern, the reader takes at least as
much of it.
-/
import QuillLang.Proofs.SpacedText

namespace QuillLang

/-! ## Patterns

A pattern depends on what follows at one point only: a sign before a digit is not a mark but the
beginning of a number. -/

/-- Text has the pattern of a kind of token where other text follows it. -/
structure Pattern (kind : TokenKind) (w rest : List Char) : Prop where
  lexeme : Lexeme kind w
  /-- A sign before a digit is a part of the number. -/
  unsigned : ∀ c, w = [c] → isSign c = true → startsWithDigit rest = false

/-- Text has the pattern of a kind of token, and no longer beginning of the text has any. -/
structure LongestMatch (kind : TokenKind) (w rest : List Char) : Prop where
  pattern : Pattern kind w rest
  longest : ∀ kind' w' rest', w' ++ rest' = w ++ rest → Pattern kind' w' rest' →
    w'.length ≤ w.length

/-- There is text, and no beginning of it has the pattern of a token. -/
structure Stuck (text : List Char) : Prop where
  nonempty : text ≠ []
  unmatched : ∀ kind w rest, w ++ rest = text → ¬ Pattern kind w rest

namespace Reading

/-! ## One token

For each kind of token, the reader takes at least as much as the pattern covers.  It may take more,
and then it is another kind that matches further. -/

variable {c : Char} {cs w rest : List Char} {kind : TokenKind}

/-- A reading takes at least as much as a given beginning of the text, and if it takes no more it
is a token of the given kind. -/
def Takes (kind : TokenKind) (length : Nat) (r : Reading) : Prop :=
  ∃ kind' w' rest', r = .token kind' w' rest' ∧ length ≤ w'.length ∧
    (length = w'.length → kind' = kind)

theorem number_takes_integer (hcs : ∀ d ∈ cs, d.isDigit = true) :
    (number c (cs ++ rest)).Takes .integer (c :: cs).length := by
  unfold number
  rw [List.takeWhile_append_of_pos hcs]
  dsimp only
  split
  · next digits rest' hfraction =>
      refine ⟨_, _, _, rfl, by simp, fun hlength => ?_⟩
      -- a fraction has a point at least
      have hdigits : digits ≠ [] := by
        rintro rfl
        unfold fraction at hfraction
        split at hfraction
        · split at hfraction <;> cases hfraction
        · cases hfraction
      have hpos := List.length_pos_iff.mpr hdigits
      simp only [List.length_append, List.length_cons] at hlength
      omega
  · exact ⟨_, _, _, rfl, by simp, fun _ => rfl⟩

theorem number_takes_decimal {fs : List Char} (hcs : ∀ d ∈ cs, d.isDigit = true)
    (hfs : Digits fs) :
    (number c (cs ++ '.' :: (fs ++ rest))).Takes .decimal (c :: (cs ++ '.' :: fs)).length := by
  obtain ⟨htake, hdrop⟩ := @span_eq _ cs ('.' :: (fs ++ rest)) hcs (by rintro _ ⟨⟩; rfl)
  have hpoint : fraction ('.' :: (fs ++ rest)) =
      some ('.' :: (fs ++ rest.takeWhile Char.isDigit), rest.dropWhile Char.isDigit) := by
    simp only [fraction, startsWithDigit_append hfs rest, List.takeWhile_append_of_pos hfs.2,
      List.dropWhile_append_of_pos hfs.2, if_true]
  refine ⟨.decimal, c :: cs ++ '.' :: (fs ++ rest.takeWhile Char.isDigit),
    rest.dropWhile Char.isDigit, ?_, ?_, fun _ => rfl⟩
  · simp only [number, htake, hdrop, hpoint]
  · simp

theorem operator_takes : (operator c rest).Takes .operator [c].length := by
  unfold operator
  split
  · split
    · exact ⟨_, _, _, rfl, by simp, fun _ => rfl⟩
    · exact ⟨_, _, _, rfl, Nat.le_refl _, fun _ => rfl⟩
  · exact ⟨_, _, _, rfl, Nat.le_refl _, fun _ => rfl⟩

/-- Wherever a beginning of the text has a pattern, the reader takes at least as much. -/
theorem start_match (h : Pattern kind (c :: cs) rest) :
    (start c (cs ++ rest)).Takes kind (c :: cs).length := by
  obtain ⟨hlexeme, hunsigned⟩ := h
  generalize hw : c :: cs = w at hlexeme hunsigned
  cases hlexeme with
  | identifier hc hcs =>
      cases hw
      rw [start_name hc, List.takeWhile_append_of_pos hcs]
      exact ⟨_, _, _, rfl, by simp, fun _ => rfl⟩
  | integer hs hds =>
      obtain ⟨d, ds, hwhole, hds, hstart⟩ := exists_cons_of_signed hs hds
      rw [hwhole] at hw ⊢
      cases hw
      rw [start_number (hstart rest)]
      exact number_takes_integer hds
  | decimal hs hds hfs =>
      obtain ⟨d, ds, hwhole, hds, hstart⟩ := exists_cons_of_signed hs hds
      rw [hwhole, List.cons_append] at hw ⊢
      cases hw
      rw [List.append_assoc, List.cons_append, start_number (hstart _)]
      exact number_takes_decimal hds hfs
  | character h =>
      cases hw
      rw [start, if_pos rfl, List.append_assoc]
      exact ⟨_, _, _, character_item h, Nat.le_refl _, fun _ => rfl⟩
  | string h =>
      cases hw
      rw [start, if_neg (by decide), if_pos rfl, List.append_assoc]
      exact ⟨_, _, _, congrArg (after ['"']) (stringBody_spelling h), Nat.le_refl _, fun _ => rfl⟩
  | comparison hc =>
      cases hw
      rw [start_mark (isMark_of_isComparisonStart hc) fun _ => rfl]
      exact ⟨_, _, _, if_pos hc, Nat.le_refl _, fun _ => rfl⟩
  | mark hc =>
      cases hw
      rw [List.nil_append, start_mark hc (hunsigned c rfl)]
      exact operator_takes

/-- What is read as a token has its pattern. -/
theorem start_pattern (hb : isBlank c = false) (h : start c cs = .token kind w rest) :
    Pattern kind w rest ∧ c :: cs = w ++ rest := by
  have hsound := @start_sound c cs hb
  rw [h] at hsound
  obtain ⟨hlexeme, htext⟩ := hsound
  refine ⟨⟨hlexeme, ?_⟩, htext⟩
  rintro d rfl hsign
  obtain ⟨rfl, rfl⟩ : c = d ∧ cs = rest := by simpa using htext
  -- before a digit the sign would have been read as the start of a number
  refine Bool.eq_false_iff.mpr fun hdigit => ?_
  obtain ⟨d, ds, rfl⟩ : ∃ d ds, cs = d :: ds := by
    cases cs with
    | nil => cases hdigit
    | cons d ds => exact ⟨d, ds, rfl⟩
  rw [start_number (.inr ⟨hsign, hdigit⟩)] at h
  obtain ⟨kind', w', rest', htoken, hlength, -⟩ :=
    @number_takes_integer c [d] ds (by simpa [startsWithDigit] using hdigit)
  rw [show [d] ++ ds = d :: ds from rfl, h] at htoken
  cases htoken
  simp at hlength

/-- The reader takes the longest match. -/
theorem start_longest (hb : isBlank c = false) (h : start c cs = .token kind w rest) :
    LongestMatch kind w rest := by
  obtain ⟨hpattern, htext⟩ := start_pattern hb h
  refine ⟨hpattern, fun kind' w' rest' htext' hpattern' => ?_⟩
  rw [← htext] at htext'
  obtain ⟨d, ds, rfl, -⟩ := hpattern'.lexeme.exists_cons
  obtain ⟨rfl, rfl⟩ : d = c ∧ ds ++ rest' = cs := by simpa using htext'
  obtain ⟨_, _, _, htoken, hlength, -⟩ := start_match hpattern'
  rw [h] at htoken
  cases htoken
  exact hlength

/-- Where the reader stops, there is no match. -/
theorem start_stuck {cause : ScanCause} {before : List Char}
    (h : start c cs = .stop cause before) : Stuck (c :: cs) := by
  refine ⟨List.cons_ne_nil c cs, fun kind w rest htext hpattern => ?_⟩
  obtain ⟨d, ds, rfl, -⟩ := hpattern.lexeme.exists_cons
  obtain ⟨rfl, rfl⟩ : d = c ∧ ds ++ rest = cs := by simpa using htext
  obtain ⟨_, _, _, htoken, -⟩ := start_match hpattern
  rw [h] at htoken
  cases htoken

end Reading

/-- There is at most one longest match. -/
theorem LongestMatch.unique {kind kind' : TokenKind} {w w' rest rest' : List Char}
    (h : LongestMatch kind w rest) (h' : LongestMatch kind' w' rest')
    (htext : w ++ rest = w' ++ rest') : kind = kind' ∧ w = w' ∧ rest = rest' := by
  have hlength : w.length = w'.length :=
    Nat.le_antisymm (h'.longest kind w rest htext h.pattern)
      (h.longest kind' w' rest' htext.symm h'.pattern)
  obtain ⟨rfl, rfl⟩ := List.append_inj htext hlength
  refine ⟨?_, rfl, rfl⟩
  -- the reader settles the kind
  obtain ⟨c, cs, rfl, hb⟩ := h.pattern.lexeme.exists_cons
  obtain ⟨k, v, _, htoken, hle, hkind⟩ := Reading.start_match h.pattern
  obtain ⟨_, _, _, htoken', -, hkind'⟩ := Reading.start_match h'.pattern
  rw [htoken] at htoken'
  cases htoken'
  obtain ⟨hpattern, hsame⟩ := Reading.start_pattern hb htoken
  have hlength : (c :: cs).length = v.length :=
    Nat.le_antisymm hle (h.longest k v _ hsame.symm hpattern)
  exact (hkind hlength).symm.trans (hkind' hlength)

/-! ## All tokens

A text is taken apart by skipping blanks and cutting off the longest match, again and again.  There
is one way to do so, and it is the reader's. -/

/-- The text from an offset of a source on is taken apart into tokens.  Before each of them there
may be blanks, and each is the longest match of what follows; `left` is over after the last one
and the blanks behind it. -/
inductive Cut (source : List Char) (file : Option String) :
    (offset : Nat) → List Char → List Token → (left : List Char) → Prop where
  | done {offset : Nat} {blanks left : List Char} (hblanks : ∀ c ∈ blanks, isBlank c = true)
      (hleft : ∀ c ∈ left.head?, isBlank c = false) :
      Cut source file offset (blanks ++ left) [] left
  | token {offset : Nat} {blanks w rest left : List Char} {kind : TokenKind} {ts : List Token}
      (hblanks : ∀ c ∈ blanks, isBlank c = true) (hmatch : LongestMatch kind w rest)
      (hrest : Cut source file (offset + blanks.length + w.length) rest ts left) :
      Cut source file offset (blanks ++ (w ++ rest))
        (⟨kind, String.ofList w, .ofOffset source (offset + blanks.length : Nat) file⟩ :: ts) left

/-- Blanks before text that begins with none are all that can be skipped. -/
theorem blanks_unique {blanks blanks' text text' : List Char}
    (hblanks : ∀ c ∈ blanks, isBlank c = true) (hblanks' : ∀ c ∈ blanks', isBlank c = true)
    (htext : ∀ c ∈ text.head?, isBlank c = false) (htext' : ∀ c ∈ text'.head?, isBlank c = false)
    (h : blanks ++ text = blanks' ++ text') : blanks = blanks' ∧ text = text' := by
  obtain ⟨htake, hdrop⟩ := span_eq hblanks htext
  obtain ⟨htake', hdrop'⟩ := span_eq hblanks' htext'
  rw [h] at htake hdrop
  exact ⟨htake.symm.trans htake', hdrop.symm.trans hdrop'⟩

theorem Pattern.head {kind : TokenKind} {w rest : List Char} (h : Pattern kind w rest) :
    ∀ c ∈ (w ++ rest).head?, isBlank c = false := by
  obtain ⟨c, cs, rfl, hb⟩ := h.lexeme.exists_cons
  rintro _ ⟨⟩
  exact hb

theorem Pattern.length_pos {kind : TokenKind} {w rest : List Char} (h : Pattern kind w rest) :
    0 < w.length := by
  obtain ⟨c, cs, rfl, -⟩ := h.lexeme.exists_cons
  exact Nat.succ_pos _

/-- What is left at an end has no match, so one way of taking a text apart cannot stop before
another. -/
theorem Pattern.ne_of_ends {kind : TokenKind} {w rest left : List Char} (h : Pattern kind w rest)
    (hend : left = [] ∨ Stuck left) : left ≠ w ++ rest := by
  rintro rfl
  rcases hend with hnil | hstuck
  · obtain ⟨c, cs, rfl, -⟩ := h.lexeme.exists_cons
    cases hnil
  · exact hstuck.unmatched kind w rest rfl h

/-- A text can be taken apart to the end, or as far as it goes, in one way only. -/
theorem Cut.unique {source text : List Char} {file : Option String} {offset : Nat}
    {ts ts' : List Token} {left left' : List Char} (h : Cut source file offset text ts left)
    (h' : Cut source file offset text ts' left') (hend : left = [] ∨ Stuck left)
    (hend' : left' = [] ∨ Stuck left') : ts = ts' ∧ left = left' := by
  induction h generalizing ts' with
  | @done offset blanks left hblanks hleft =>
      generalize htext : blanks ++ left = text at h'
      cases h' with
      | done hblanks' hleft' =>
          exact ⟨rfl, (blanks_unique hblanks hblanks' hleft hleft' htext).2⟩
      | token hblanks' hmatch' _ =>
          have heq := (blanks_unique hblanks hblanks' hleft hmatch'.pattern.head htext).2
          exact absurd heq (hmatch'.pattern.ne_of_ends hend)
  | @token offset blanks w rest left kind ts hblanks hmatch _ ih =>
      generalize htext : blanks ++ (w ++ rest) = text at h'
      cases h' with
      | done hblanks' hleft' =>
          have heq := (blanks_unique hblanks hblanks' hmatch.pattern.head hleft' htext).2
          exact absurd heq.symm (hmatch.pattern.ne_of_ends hend')
      | token hblanks' hmatch' hrest' =>
          obtain ⟨rfl, heq⟩ :=
            blanks_unique hblanks hblanks' hmatch.pattern.head hmatch'.pattern.head htext
          obtain ⟨rfl, rfl, rfl⟩ := hmatch.unique hmatch' heq
          obtain ⟨rfl, rfl⟩ := ih hrest' hend
          exact ⟨rfl, rfl⟩

/-- What is left when reading ends: nothing, or text without a match and an error within it. -/
inductive Scan.Remains (source : List Char) (file : Option String) :
    Option ScanError → List Char → Prop where
  | nothing : Remains source file none []
  | stuck {e : ScanError} {left : List Char} (hstuck : Stuck left)
      (hcursor : ∃ front rest, source = front ++ rest ∧
        e.toCursor = (Cursor.start file).advanceAll front) :
      Remains source file (some e) left

section

variable {source before : List Char} {file : Option String} {c : Char} {cs : List Char}

/-- What is read as a token is cut off. -/
theorem Cut.read {blanks w rest left : List Char} {kind : TokenKind} {ts : List Token}
    (hblanks : ∀ b ∈ blanks, isBlank b = true) (hc : isBlank c = false)
    (hr : Reading.start c cs = .token kind w rest)
    (hsource : source = before ++ blanks ++ (c :: cs))
    (hrest : Cut source file (before ++ blanks ++ w).length rest ts left) :
    Cut source file before.length (blanks ++ (c :: cs))
      (⟨kind, String.ofList w, ((Cursor.start file).advanceAll (before ++ blanks)).location⟩ :: ts)
      left := by
  have hplace : ((Cursor.start file).advanceAll (before ++ blanks)).location =
      .ofOffset source (before.length + blanks.length : Nat) file := by
    rw [Cursor.location_advanceAll, hsource, List.length_append.symm]
    exact Location.advanceAll_start _ (c :: cs) file
  rw [hplace, (Reading.start_pattern hc hr).2]
  rw [List.length_append, List.length_append] at hrest
  exact .token hblanks (Reading.start_longest hc hr) hrest

/-- Where reading stops there is no match, and the error is in the text. -/
theorem Scan.Remains.stop {inside : List Char} {cause : ScanCause} (hc : isBlank c = false)
    (hr : Reading.start c cs = .stop cause inside) (hsource : source = before ++ (c :: cs)) :
    Remains source file
      (some ⟨((Cursor.start file).advanceAll before).advanceAll inside, cause⟩) (c :: cs) := by
  have hsound := @Reading.start_sound c cs hc
  rw [hr] at hsound
  obtain ⟨after, hafter⟩ := hsound
  refine .stuck (Reading.start_stuck hr) ⟨before ++ inside, after, ?_, ?_⟩
  · rw [hsource, ← hafter, List.append_assoc]
  · exact (Cursor.advanceAll_append ..).symm

end

/-- Reading takes a text apart as far as it goes. -/
theorem Scan.scanFrom_cuts {source : List Char} {file : Option String} {fuel : Nat}
    (before : List Char) {cs : List Char} (hsource : source = before ++ cs)
    (hfuel : cs.length ≤ fuel) :
    ∃ left, Cut source file before.length cs
        (scanFrom fuel ((Cursor.start file).advanceAll before) cs).tokens left ∧
      Remains source file
        (scanFrom fuel ((Cursor.start file).advanceAll before) cs).error left := by
  induction fuel generalizing before cs with
  | zero =>
      obtain rfl := List.length_eq_zero_iff.mp (Nat.le_zero.mp hfuel)
      exact ⟨[], @Cut.done source file _ [] [] (by simp) (by simp), .nothing⟩
  | succ fuel ih =>
      have hblanks : ∀ c ∈ cs.takeWhile isBlank, isBlank c = true := fun c => List.mem_takeWhile_imp
      have hsplit := List.takeWhile_append_dropWhile (p := isBlank) (l := cs)
      generalize hb : cs.takeWhile isBlank = blanks at hblanks hsplit
      unfold scanFrom
      simp only [hb]
      split
      · next hnil =>
          rw [hnil] at hsplit
          subst hsplit
          exact ⟨[], .done hblanks (by simp), .nothing⟩
      · next c rest hcons =>
          have hc := isBlank_of_dropWhile hcons
          rw [hcons] at hsplit
          subst hsplit
          rw [← List.append_assoc] at hsource
          rw [← Cursor.advanceAll_append]
          split
          · next kind w rest' hr =>
              obtain ⟨hpattern, htext⟩ := Reading.start_pattern hc hr
              have hlength : rest'.length ≤ fuel := by
                have hw := congrArg List.length htext
                have hpos := hpattern.length_pos
                simp only [List.length_append, List.length_cons] at hw hfuel
                omega
              rw [htext, ← List.append_assoc] at hsource
              obtain ⟨left, hcut, hremains⟩ := ih _ hsource hlength
              rw [Cursor.advanceAll_append] at hcut hremains
              refine ⟨left, .read hblanks hc hr ?_ hcut, hremains⟩
              rw [hsource, htext, List.append_assoc]
          · next cause inside hr =>
              refine ⟨c :: rest, .done hblanks ?_, .stop hc hr hsource⟩
              rintro _ ⟨⟩
              exact hc

theorem Scan.ofText_cuts (source : List Char) (file : Option String) :
    ∃ left, Cut source file 0 source (ofText source file).tokens left ∧
      Remains source file (ofText source file).error left :=
  scanFrom_cuts [] rfl (Nat.le_refl _)

theorem Scan.Remains.ends {source left : List Char} {file : Option String}
    {e : Option ScanError} (h : Remains source file e left) : left = [] ∨ Stuck left := by
  cases h with
  | nothing => exact .inl rfl
  | stuck hstuck _ => exact .inr hstuck

/-- Tokens are what a text is made up of, apart from blanks, if each of them is the longest match
of what follows the blanks before it.  Reading finds them; it fails if there is text left at some
point of which no beginning is a match, and only then. -/
theorem tokenize_longest_match (source : String) (file : Option String) :
    (∀ ts, tokenize source file = .ok ts ↔ Cut source.toList file 0 source.toList ts []) ∧
    ((∃ e, tokenize source file = .error e) ↔
      ∃ ts left, Cut source.toList file 0 source.toList ts left ∧ Stuck left) := by
  obtain ⟨left, hcut, hremains⟩ := Scan.ofText_cuts source.toList file
  have hends := hremains.ends
  unfold tokenize Scan.result
  generalize (Scan.ofText source.toList file).tokens = tokens at hcut
  generalize (Scan.ofText source.toList file).error = error at hremains
  cases hremains with
  | nothing =>
      refine ⟨fun ts => ⟨?_, fun h => ?_⟩, ?_, ?_⟩
      · rintro ⟨⟩
        exact hcut
      · exact congrArg Except.ok (hcut.unique h hends (.inl rfl)).1
      · rintro ⟨e, ⟨⟩⟩
      · rintro ⟨ts, left, h, hstuck⟩
        exact absurd (hcut.unique h hends (.inr hstuck)).2.symm hstuck.nonempty
  | @stuck e _ hstuck _ =>
      refine ⟨fun ts => ⟨?_, fun h => ?_⟩, fun _ => ⟨tokens, left, hcut, hstuck⟩, fun _ => ⟨e, rfl⟩⟩
      · rintro ⟨⟩
      · exact absurd (hcut.unique h hends (.inl rfl)).2 hstuck.nonempty

end QuillLang
