/-
# All positions agree

A location can be found in three ways.  The reader of tokens counts as it goes
over the text; an offset can be looked up in the text (`Location.ofOffset`);
and the end of the last token, when the text is no longer at hand, is counted
from where the token begins.  Whatever is reported about the tokens or the tree
of a text, the three agree (`Source.locations_agree`).

The last way adds the length of a token to a column, so it rests on tokens not
going over the end of a line (`Lexeme.newline_not_mem`).  For an error in the
order of tokens it has to be known that it stands at one of the tokens of the
text.
-/
import QuillLang.Proofs.LongestMatch
import QuillLang.Proofs.ParsedTrees
import QuillLang.Source

namespace QuillLang

/-- A location is what its own offset in a text leads to. -/
def Location.IsIn (p : Location) (source : List Char) (file : Option String) : Prop :=
  p = ofOffset source p.offset file

theorem Location.ofOffset_isIn (source : List Char) (offset : Int) (file : Option String) :
    (ofOffset source offset file).IsIn source file :=
  (ofOffset_offset source offset file).symm

/-! ## Tokens stay on their line

By the shape of lexemes.  Inside quotes a line feed could only be written as an escape, which does
not contain it. -/

theorem Item.newline_not_mem {quote c : Char} {item : List Char} (h : Item quote c item) :
    '\n' ∉ item := by
  cases h with
  | raw h =>
      intro hmem
      exact h.2.2.1 (List.mem_singleton.mp hmem).symm
  | escape h =>
      intro hmem
      rcases List.mem_cons.mp hmem with hmem | hmem
      · cases hmem
      · cases List.mem_singleton.mp hmem
        cases h

theorem Spelling.newline_not_mem {quote : Char} {cs body : List Char}
    (h : Spelling quote cs body) : '\n' ∉ body := by
  induction h with
  | nil => exact List.not_mem_nil
  | cons hitem _ ih => exact fun hmem => (List.mem_append.mp hmem).elim hitem.newline_not_mem ih

theorem SignText.newline_not_mem {s : List Char} (h : SignText s) : '\n' ∉ s := by
  rcases h with rfl | ⟨c, hc, rfl⟩
  · exact List.not_mem_nil
  · intro hmem
    cases List.mem_singleton.mp hmem
    cases hc

theorem Digits.newline_not_mem {ds : List Char} (h : Digits ds) : '\n' ∉ ds :=
  fun hmem => absurd (h.2 '\n' hmem) (by decide)

theorem Lexeme.newline_not_mem {kind : TokenKind} {w : List Char} (h : Lexeme kind w) :
    '\n' ∉ w := by
  cases h with
  | identifier hc hcs =>
      intro hmem
      rcases List.mem_cons.mp hmem with rfl | hmem
      · cases hc
      · exact absurd (hcs '\n' hmem) (by decide)
  | integer hs hds => simp [hs.newline_not_mem, hds.newline_not_mem]
  | decimal hs hds hfs =>
      simp [hs.newline_not_mem, hds.newline_not_mem, hfs.newline_not_mem]
  | character h => simp [h.newline_not_mem]
  | string h => simp [h.newline_not_mem]
  | comparison hc =>
      intro hmem
      rcases List.mem_cons.mp hmem with rfl | hmem
      · cases hc
      · cases List.mem_singleton.mp hmem
  | mark hc =>
      intro hmem
      cases List.mem_singleton.mp hmem
      cases hc

/-! ## Where tokens stand

The reader of tokens carries a cursor along.  At each point its location is the one that is looked
up in the text, and a token is the stretch of text from there on. -/

/-- A token is a stretch of a text that begins at its location. -/
structure Token.StandsIn (t : Token) (source : List Char) (file : Option String) : Prop where
  lexical : t.Lexical
  stretch : ∃ before rest, source = before ++ (t.lexeme.toList ++ rest) ∧
    t.location = .ofOffset source before.length file

theorem Token.StandsIn.isIn {t : Token} {source : List Char} {file : Option String}
    (h : t.StandsIn source file) : t.location.IsIn source file := by
  obtain ⟨before, rest, -, hlocation⟩ := h.stretch
  rw [hlocation]
  exact Location.ofOffset_isIn ..

theorem Token.endOffset_eq {t : Token} {before rest : List Char} {file : Option String}
    (h : t.location = .ofOffset (before ++ rest) before.length file) :
    t.endOffset = (before ++ t.lexeme.toList).length := by
  rw [endOffset, h, Location.ofOffset_append, Location.ofOffset_length, List.length_append,
    String.length_toList, Int.natCast_add]

/-- The point after a token, counted from where the token begins. -/
theorem Token.StandsIn.after {t : Token} {source : List Char} {file : Option String}
    (h : t.StandsIn source file) :
    (⟨t.location.line, t.location.column + t.lexeme.length, t.endOffset, file⟩ : Location) =
      .ofOffset source t.endOffset file := by
  obtain ⟨before, rest, rfl, hlocation⟩ := h.stretch
  have hstart : t.location = (Location.start file).advanceAll before := by
    rw [hlocation, Location.advanceAll_start]
  have hfile : t.location.file = file := by
    rw [hlocation]
    rfl
  have hoffset := Token.endOffset_eq hlocation
  calc (⟨t.location.line, t.location.column + t.lexeme.length, t.endOffset, file⟩ : Location)
      = t.location.advanceAll t.lexeme.toList := by
        rw [Location.advanceAll_of_line h.lexical.newline_not_mem, hfile, String.length_toList]
        rfl
    _ = (Location.start file).advanceAll (before ++ t.lexeme.toList) := by
        rw [Location.advanceAll_append, ← hstart]
    _ = .ofOffset (before ++ (t.lexeme.toList ++ rest)) t.endOffset file := by
        rw [hoffset, ← List.append_assoc, Location.advanceAll_start]

/-- A token that a text is taken apart into is the longest match where it stands, and what follows
it is taken apart into other tokens of the text. -/
theorem Cut.exists_rest {source : List Char} {file : Option String} {offset : Nat}
    {cs left : List Char} {ts : List Token} (h : Cut source file offset cs ts left)
    (before : List Char) (hsource : source = before ++ cs) (hoffset : offset = before.length)
    {t : Token} (ht : t ∈ ts) :
    ∃ front rest us, source = front ++ (t.lexeme.toList ++ rest) ∧
      t.location = .ofOffset source front.length file ∧
      LongestMatch t.kind t.lexeme.toList rest ∧ us ⊆ ts ∧
      Cut source file (front.length + t.lexeme.toList.length) rest us left := by
  induction h generalizing before with
  | done => exact absurd ht List.not_mem_nil
  | @token offset blanks w rest left kind ts _ hmatch hrest ih =>
      rcases List.mem_cons.mp ht with rfl | ht
      · refine ⟨before ++ blanks, rest, ts, ?_, ?_, ?_, List.subset_cons_self _ _, ?_⟩
        · rw [hsource, String.toList_ofList, List.append_assoc]
        · rw [hoffset, List.length_append]
        · rw [String.toList_ofList]
          exact hmatch
        · rw [String.toList_ofList, List.length_append, ← hoffset]
          exact hrest
      · obtain ⟨front, rest', us, hsource', hlocation, hmatch', hsubset, hcut⟩ :=
          ih (before ++ blanks ++ w) (by simp only [hsource, List.append_assoc])
            (by simp only [hoffset, List.length_append]) ht
        exact ⟨front, rest', us, hsource', hlocation, hmatch',
          List.subset_cons_of_subset _ hsubset, hcut⟩

variable {source : String} {file : Option String} {ts : List Token}

theorem cut_of_tokenize (h : tokenize source file = .ok ts) :
    Cut source.toList file 0 source.toList ts [] := by
  obtain ⟨left, hcut, hremains⟩ := Scan.ofText_cuts source.toList file
  unfold tokenize Scan.result at h
  split at h
  · next hnone =>
      cases h
      rw [hnone] at hremains
      cases hremains
      exact hcut
  · cases h

/-- The tokens of a text stand in it. -/
theorem standsIn_of_tokenize (h : tokenize source file = .ok ts) :
    ∀ t ∈ ts, t.StandsIn source.toList file := by
  intro t ht
  obtain ⟨front, rest, _, hsource, hlocation, hmatch, -⟩ :=
    (cut_of_tokenize h).exists_rest [] rfl rfl ht
  exact ⟨hmatch.pattern.lexeme, front, rest, hsource, hlocation⟩

/-- Reading stops where the cursor is after some part of the text. -/
theorem ScanError.exists_cursor {e : ScanError} (h : tokenize source file = .error e) :
    ∃ front rest, source.toList = front ++ rest ∧
      e.toCursor = (Cursor.start file).advanceAll front := by
  obtain ⟨left, -, hremains⟩ := Scan.ofText_cuts source.toList file
  unfold tokenize Scan.result at h
  split at h
  · cases h
  · next e' he =>
      cases h
      rw [he] at hremains
      cases hremains with
      | stuck _ hcursor => exact hcursor

/-- The location of a cursor is the one that is counted. -/
theorem Cursor.location_start {source front rest : List Char} (hsource : source = front ++ rest)
    (file : Option String) :
    ((start file).advanceAll front).location = .ofOffset source front.length file := by
  rw [location_advanceAll, hsource]
  exact Location.advanceAll_start front rest file

theorem ScanError.isIn {e : ScanError} (h : tokenize source file = .error e) :
    e.location.IsIn source.toList file := by
  obtain ⟨front, rest, hsource, hcursor⟩ := ScanError.exists_cursor h
  rw [hcursor, Cursor.location_start hsource]
  exact Location.ofOffset_isIn ..

/-! ## Where errors stand

An error in the order of tokens stands at a token or after the last one.  The first is known
already, and the second is counted from the last token or from the end of the text, whichever is at
hand. -/

/-- The end of the input, whether or not the text is at hand. -/
theorem endLocation_isIn (h : ∀ t ∈ ts, t.StandsIn source.toList file) {shown : String}
    (hshown : shown = source ∨ shown = "") :
    (endLocation ts shown file).IsIn source.toList file := by
  unfold endLocation
  split
  · rw [show Location.start file = .ofOffset source.toList 0 file by simp [Location.ofOffset]; rfl]
    exact Location.ofOffset_isIn ..
  · next t ht =>
      have ht := h t (List.mem_of_getLast? ht)
      split
      · rw [ht.after]
        exact Location.ofOffset_isIn ..
      · next hnonempty =>
          rcases hshown with rfl | rfl
          · exact Location.ofOffset_isIn ..
          · exact absurd rfl hnonempty

/-- An error in the order of tokens stands at one of them or at their end. -/
theorem ParseError.isIn (h : ∀ t ∈ ts, t.StandsIn source.toList file) {e : ParseError}
    (he : ∀ t ∈ e.rest, t ∈ ts) {shown : String} (hshown : shown = source ∨ shown = "") :
    (e.location ts shown file).IsIn source.toList file := by
  unfold ParseError.location
  split
  · next t _ hrest => exact (h t (he t (by simp [hrest]))).isIn
  · exact endLocation_isIn h hshown

namespace Source

/-- A fault has a location, and it is one in the text. -/
def Places (s : Source) (f : Fault) : Prop :=
  ∃ p, f.location = some p ∧ p.IsIn s.text.toList s.file

theorem shown_eq (s : Source) : s.shown = s.text ∨ s.shown = "" := by
  unfold shown
  split
  · exact .inl rfl
  · exact .inr rfl

theorem tokenize_of_tokens {s : Source} (h : s.tokens = .ok ts) :
    tokenize s.text s.file = .ok ts := by
  unfold tokens at h
  cases hts : tokenize s.text s.file with
  | error e =>
      rw [hts] at h
      cases h
  | ok ts' =>
      rw [hts] at h
      cases h
      rfl

/-- What is read is read from the tokens of the text. -/
theorem parseWith_eq_ok {α : Type} {s : Source} {parse : List Token → Except ParseFailure α} {a : α}
    (h : s.parseWith parse = .ok a) : ∃ ts, tokenize s.text s.file = .ok ts ∧ parse ts = .ok a := by
  obtain ⟨ts, hts, h⟩ := except_bind_eq_ok.mp h
  refine ⟨ts, tokenize_of_tokens hts, ?_⟩
  cases hp : parse ts with
  | error e => rw [hp] at h; cases h
  | ok b => rw [hp] at h; cases h; rfl

theorem places_of_tokens {s : Source} {f : Fault} (h : s.tokens = .error (.fault f)) :
    s.Places f := by
  unfold tokens at h
  cases hts : tokenize s.text s.file with
  | error e =>
      rw [hts] at h
      cases h
      exact ⟨e.location, rfl, ScanError.isIn hts⟩
  | ok ts =>
      rw [hts] at h
      cases h

/-- Where reading a tree blames only tokens that it was given, a fault is one in the tokens or one
in the order of tokens, at some of them. -/
theorem fault_of_parseWith {α : Type} {s : Source} {parse : List Token → Except ParseFailure α}
    (hparse : ∀ (P : TokenClass) ts, P.All ts → Blames P (parse ts)) {f : Fault}
    (h : s.parseWith parse = .error (.fault f)) : s.tokens = .error (.fault f) ∨
      ∃ ts e, tokenize s.text s.file = .ok ts ∧ (∀ t ∈ e.rest, t ∈ ts) ∧
        f = ParseError.fault e ts s.shown s.file := by
  unfold parseWith at h
  cases hts : s.tokens with
  | error e =>
      rw [hts] at h
      cases h
      exact .inl rfl
  | ok ts =>
      rw [hts] at h
      replace h : (parse ts).mapError (ParseFailure.failure ts s.shown s.file) = _ := h
      have hts := tokenize_of_tokens hts
      have hblames := hparse ⟨(· ∈ ts), fun ht => tokenize_lexical hts ht⟩ ts fun t ht => ht
      generalize parse ts = outcome at h hblames
      match outcome with
      | .error (.unexpected e) =>
          cases h
          exact .inr ⟨ts, e, hts, hblames, rfl⟩
      | .ok _ | .error (.digits _) | .error .outOfFuel | .error .noToken => cases h

theorem places_of_parseWith {α : Type} {s : Source} {parse : List Token → Except ParseFailure α}
    (hparse : ∀ (P : TokenClass) ts, P.All ts → Blames P (parse ts)) {f : Fault}
    (h : s.parseWith parse = .error (.fault f)) : s.Places f := by
  rcases fault_of_parseWith hparse h with hf | ⟨ts, e, hts, hrest, rfl⟩
  · exact places_of_tokens hf
  · exact ⟨_, rfl, ParseError.isIn (standsIn_of_tokenize hts) hrest s.shown_eq⟩

/-- The location of every token of a text, of the error in its tokens if there is one, and of
every error in their order, is the one that its own offset in the text leads to.  This holds for
each of the ways to read the tokens, and whether or not the text is kept for that. -/
theorem locations_agree (s : Source) :
    (∀ ts, s.tokens = .ok ts → ∀ t ∈ ts, t.location.IsIn s.text.toList s.file) ∧
    (∀ f, s.tokens = .error (.fault f) → s.Places f) ∧
    (∀ f, s.program = .error (.fault f) → s.Places f) ∧
    (∀ f, s.expression = .error (.fault f) → s.Places f) ∧
    (∀ f, s.statements = .error (.fault f) → s.Places f) := by
  refine ⟨?_, ?_, ?_, ?_, ?_⟩
  · exact fun ts h t ht => (standsIn_of_tokenize (tokenize_of_tokens h) t ht).isIn
  · exact fun f => places_of_tokens
  · exact fun f => places_of_parseWith fun P ts hts => blames_program hts
  · exact fun f => places_of_parseWith fun P ts hts => (Gives.expression hts).blames
  · exact fun f => places_of_parseWith fun P ts hts => blames_statements hts

/-- A program that breaks off, with blanks after its last token. -/
def brokenOff : Source := { text := "DEF main() DO\n  RETURN 12 +\n ", kept := false }

/-- A string that is never closed, on its second line. -/
def neverClosed : Source := { text := "LET s:\n  \"a\\n" }

theorem fault_of_isFault {α : Type} {r : Except Failure α}
    (h : (match r with | .error (.fault _) => true | _ => false) = true) :
    ∃ f, r = .error (.fault f) := by
  split at h
  · next f => exact ⟨f, rfl⟩
  · cases h

/-- The fault of an outcome, if it is one. -/
def faultOf? {α : Type} : Except Failure α → Option Fault
  | .error (.fault f) => some f
  | _ => none

theorem exists_fault_of_map {α β : Type} {r : Except Failure α} {g : Fault → β} {b : β}
    (h : (faultOf? r).map g = some b) : ∃ f, r = .error (.fault f) ∧ g f = b := by
  unfold faultOf? at h
  split at h
  · next f => exact ⟨f, rfl, Option.some.inj h⟩
  · cases h

theorem brokenOff_neverClosed_agree :
    (∃ ts, brokenOff.tokens = .ok ts ∧
      ∀ t ∈ ts, t.location.IsIn brokenOff.text.toList brokenOff.file) ∧
    (∃ f, brokenOff.program = .error (.fault f) ∧ brokenOff.Places f) ∧
    (∃ f, brokenOff.expression = .error (.fault f) ∧ brokenOff.Places f) ∧
    (∃ f, brokenOff.statements = .error (.fault f) ∧ brokenOff.Places f) ∧
    (∃ f, neverClosed.tokens = .error (.fault f) ∧ neverClosed.Places f) := by
  obtain ⟨htokens, -, hprogram, hexpression, hstatements⟩ := brokenOff.locations_agree
  obtain ⟨ts, hts⟩ := exists_ok_of_isSome (r := brokenOff.tokens) (by decide +kernel)
  obtain ⟨f, hf⟩ := fault_of_isFault (r := brokenOff.program) (by decide +kernel)
  obtain ⟨g, hg⟩ := fault_of_isFault (r := brokenOff.expression) (by decide +kernel)
  obtain ⟨i, hi⟩ := fault_of_isFault (r := brokenOff.statements) (by decide +kernel)
  obtain ⟨e, he⟩ := fault_of_isFault (r := neverClosed.tokens) (by decide +kernel)
  exact ⟨⟨ts, hts, htokens ts hts⟩, ⟨f, hf, hprogram f hf⟩, ⟨g, hg, hexpression g hg⟩,
    ⟨i, hi, hstatements i hi⟩, ⟨e, he, neverClosed.locations_agree.2.1 e he⟩⟩

end Source

end QuillLang
