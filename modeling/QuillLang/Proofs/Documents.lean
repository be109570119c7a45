/-
# Every document is reported

Analysing a document ends in one of four ways: with everything a document can
have and no notice, or with one notice, from the tokens, the tree or the check
of the text, and with what the stages before it produced (`Document.Reported`).

For this every fault must have a place in the text, or none, since a diagnostic
cannot show one before its start.  Places in the tokens and in their order are
offsets of the text; a fault of the check stands at a node of the tree, and so
at a token.

There is one exception.  An integer with too many digits is no fault that a
document could be told of, and where the reader of the tree comes upon one, the
analysis fails (`Document.analyze_reports`).
-/
import QuillLang.Editor.Document
import QuillLang.Proofs.Positions
import QuillLang.Proofs.TreePlaces
import QuillLang.Proofs.WrittenFacts
import QuillLang.Proofs.WrittenPhrases

namespace QuillLang

/-! ## Diagnostics

A fault is shown at an offset of the text, and one that stands before its start could not be.  The
places of all stages are offsets of the text, so every fault has a diagnostic. -/

theorem Location.IsIn.offset_nonneg {p : Location} {source : List Char} {file : Option String}
    (h : p.IsIn source file) : 0 ≤ p.offset := by
  have hoffset : p.offset = (source.take p.offset.toNat).length := congrArg Location.offset h
  omega

/-- A fault that stands at no place, or not before the start of the text, can be shown. -/
theorem Fault.exists_diagnostic {f : Fault} (h : ∀ p, f.location = some p → 0 ≤ p.offset)
    (source file : String) : ∃ d, f.diagnose source file = .ok d := by
  unfold Fault.diagnose Diagnostic.ofFault
  cases hp : f.location with
  | none => exact ⟨_, rfl⟩
  | some p =>
      have hword : ∃ length, wordLength? source.toList p.offset = some length := by
        unfold wordLength? textFrom?
        rw [if_pos (h p hp)]
        exact ⟨_, rfl⟩
      obtain ⟨length, hlength⟩ := hword
      simp only [Option.mapM_some, Span.ofLocation, hlength]
      exact ⟨_, rfl⟩

section

variable {source uri : String} {ts : List Token}

theorem ScanError.exists_diagnostic {e : ScanError} (h : tokenize source (some uri) = .error e) :
    ∃ d, (e.fault source).diagnose source uri = .ok d := by
  refine Fault.exists_diagnostic (fun p hp => ?_) source uri
  cases hp
  exact (ScanError.isIn h).offset_nonneg

theorem ParseError.exists_diagnostic (hts : tokenize source (some uri) = .ok ts) {e : ParseError}
    (h : parseProgram ts = .error (.unexpected e)) :
    ∃ d, (e.fault ts source (some uri)).diagnose source uri = .ok d := by
  refine Fault.exists_diagnostic (fun p hp => ?_) source uri
  cases hp
  have hrest : ∀ t ∈ e.rest, t ∈ ts := by
    have hblames : Blames ⟨(· ∈ ts), fun ht => tokenize_lexical hts ht⟩ (parseProgram ts) :=
      blames_program fun t ht => ht
    rw [h] at hblames
    exact hblames
  exact (ParseError.isIn (standsIn_of_tokenize hts) hrest (.inl rfl)).offset_nonneg

/-- An error of the check stands at a token, or at no place. -/
theorem CheckError.exists_diagnostic (hts : tokenize source (some uri) = .ok ts)
    {p : Program Place} (hp : parseProgram ts = .ok p) {e : CheckFailure}
    (h : ((Checker.start {}).check (p.mark 0).1).1 = .error e) :
    ∃ error d, e = .error error ∧ (error.fault source).diagnose source uri = .ok d := by
  have hoffset : ∀ place, StandsAmong ts place → ∀ l, place = some l → 0 ≤ l.offset := by
    rintro _ ⟨t, ht, rfl⟩ l hl
    cases hl
    exact (standsIn_of_tokenize hts t ht).isIn.offset_nonneg
  have hnodes : BlamesAll (fun place => ∀ l, place = some l → 0 ≤ l.offset)
      (p.mark 0).1.nodes := by
    intro y hy
    obtain ⟨x, hx, hmarks⟩ := p.mark_marksOf 0 y hy
    rw [hmarks.place]
    exact hoffset _ (parseProgram_places (tokenize_plain hts) hp x hx)
  have htag : ∀ l, p.tag = some l → 0 ≤ l.offset := by
    rw [parseProgram_tag hp]
    cases ts with
    | nil => intro l hl; cases hl
    | cons t ts => exact hoffset _ ⟨t, List.mem_cons_self, rfl⟩
  obtain ⟨cause, place, rfl, hplace⟩ :=
    Checker.error_of_check StaticOutside.keyed_empty _ hnodes (fun l hl => by cases hl) htag h
  obtain ⟨d, hd⟩ := Fault.exists_diagnostic (f := CheckError.fault source ⟨cause, place⟩) hplace
    source uri
  exact ⟨_, d, rfl, hd⟩

end

/-- A program must have a method, and so a token. -/
theorem ne_nil_of_check {ts : List Token} {p : Program Place} {M : Model}
    (hp : parseProgram ts = .ok p) (hM : ((Checker.start {}).check (p.mark 0).1).1 = .ok M) :
    ts ≠ [] := by
  rintro rfl
  cases hp
  cases hM

/-! ## Outcomes

The stages run one after the other, and the first that fails ends the analysis.  Each way to end is
a constructor, with all that the document holds then. -/

namespace Editor.Document

/-- What a document is after its analysis: what the stages produced, up to the first that failed,
and the notice of its fault. -/
inductive Reported (uri text : String) : Document → Prop where
  | clean {ts : List Token} {p : Program Place} {M : Model} :
      tokenize text (some uri) = .ok ts → ts ≠ [] → parseProgram ts = .ok p →
      ((Checker.start {}).check (p.mark 0).1).1 = .ok M →
      Reported uri text { uri, text, tokens := ts, tree := some (p.mark 0).1, model := some M }
  | tokens {e : ScanError} {d : Diagnostic} :
      tokenize text (some uri) = .error e → (e.fault text).diagnose text uri = .ok d →
      Reported uri text { uri, text, notices := [.ofDiagnostic d] }
  | tree {ts : List Token} {e : ParseError} {d : Diagnostic} :
      tokenize text (some uri) = .ok ts → parseProgram ts = .error (.unexpected e) →
      (e.fault ts text (some uri)).diagnose text uri = .ok d →
      Reported uri text { uri, text, tokens := ts, notices := [.ofDiagnostic d] }
  | model {ts : List Token} {p : Program Place} {e : CheckError} {d : Diagnostic} :
      tokenize text (some uri) = .ok ts → parseProgram ts = .ok p →
      ((Checker.start {}).check (p.mark 0).1).1 = .error (.error e) →
      (e.fault text).diagnose text uri = .ok d →
      Reported uri text
        { uri, text, tokens := ts, tree := some (p.mark 0).1, notices := [.ofDiagnostic d] }

theorem Reported.notices_length {uri text : String} {d : Document} (h : Reported uri text d) :
    d.notices.length ≤ 1 := by
  cases h <;> simp

theorem report_fault {d : Document} {f : Fault} {diagnostic : Diagnostic}
    (h : f.diagnose d.text d.uri = .ok diagnostic) :
    d.report (.fault f) = .ok { d with notices := [.ofDiagnostic diagnostic] } := by
  simp only [report, h]
  rfl

section

variable {d : Document} {ts : List Token}

theorem analyzeTree_reports (hts : tokenize d.text (some d.uri) = .ok ts) {p : Program Place}
    (hp : parseProgram ts = .ok p) :
    ∃ d', analyzeTree { uri := d.uri, text := d.text, tokens := ts } (p.mark 0).1 = .ok d' ∧
      Reported d.uri d.text d' := by
  unfold analyzeTree
  cases hM : ((Checker.start {}).check (p.mark 0).1).1 with
  | ok M => exact ⟨_, rfl, .clean hts (ne_nil_of_check hp hM) hp hM⟩
  | error e =>
      obtain ⟨error, diagnostic, rfl, hd⟩ := CheckError.exists_diagnostic hts hp hM
      exact ⟨_, report_fault hd, .model hts hp hM hd⟩

theorem analyze_of_error {e : ScanError} (h : tokenize d.text (some d.uri) = .error e) :
    ∃ d', d.analyze = .ok d' ∧ Reported d.uri d.text d' := by
  obtain ⟨diagnostic, hd⟩ := ScanError.exists_diagnostic h
  refine ⟨_, ?_, .tokens h hd⟩
  unfold analyze
  simp only [h]
  exact report_fault (d := { uri := d.uri, text := d.text }) hd

theorem analyze_of_tokens (hts : tokenize d.text (some d.uri) = .ok ts) :
    (∃ d', d.analyze = .ok d' ∧ Reported d.uri d.text d') ∨
    ∃ t ∈ ts, ∃ limit, t.Overlong limit ∧ parseProgram ts = .error (.digits limit) ∧
      d.analyze = .error (.digits limit) := by
  have houtcome := parseProgram_outcome (tokenize_plain hts)
  unfold analyze analyzeTokens
  simp only [hts]
  cases hp : parseProgram ts with
  | ok p => exact .inl (analyzeTree_reports hts hp)
  | error e =>
      rw [hp] at houtcome
      cases e with
      | unexpected e =>
          obtain ⟨diagnostic, hd⟩ := ParseError.exists_diagnostic hts hp
          exact .inl ⟨_, report_fault hd, .tree hts hp hd⟩
      | digits limit =>
          obtain ⟨t, ht, hover⟩ := houtcome
          exact .inr ⟨t, ht, limit, hover, rfl, rfl⟩
      | outOfFuel => exact houtcome.elim
      | noToken => exact houtcome.elim

end

/-- The analysis of a document gives all there is to know of its text and no notice, or one
notice of the first stage that fails, without regard to what the document was before.  It fails
only where the reader of the tree comes upon an integer that has too many digits. -/
theorem analyze_reports (d : Document) :
    (∃ d', d.analyze = .ok d' ∧ Reported d.uri d.text d') ∨
    ∃ ts, tokenize d.text (some d.uri) = .ok ts ∧
      ∃ t ∈ ts, ∃ limit, t.Overlong limit ∧ parseProgram ts = .error (.digits limit) ∧
        d.analyze = .error (.digits limit) := by
  cases hts : tokenize d.text (some d.uri) with
  | error e => exact .inl (analyze_of_error hts)
  | ok ts => exact (analyze_of_tokens hts).imp id fun h => ⟨ts, rfl, h⟩

/-- No integer of a text is too long to be read. -/
def digestible (uri text : String) : Bool :=
  match tokenize text (some uri) with
  | .ok ts => ts.all fun t => t.kind ≠ .integer || t.digitCount ≤ maxDigits
  | .error _ => true

theorem ofText_of_digestible {uri text : String} (h : digestible uri text = true) :
    ∃ d, ofText uri text = .ok d ∧ Reported uri text d := by
  cases hts : tokenize text (some uri) with
  | error e => exact analyze_of_error (d := { uri, text }) hts
  | ok ts =>
      rcases analyze_of_tokens (d := { uri, text }) hts with hd | ⟨t, ht, limit, hover, -⟩
      · exact hd
      · simp only [digestible, hts] at h
        have hfits := List.all_eq_true.mp h t ht
        simp only [hover.kind, ne_eq, not_true_eq_false, decide_false, Bool.false_or,
          decide_eq_true_eq] at hfits
        exact absurd hover.digits (Nat.not_lt.mpr hfits)

end Editor.Document

/-! ## Integers that are too long

The limit on the digits of an integer is no rule of the language, and going beyond it is no fault
with a place.  A field with such an integer shows that the analysis can fail for that reason. -/

namespace Token

variable {t : Token} {text : String}

theorem is_of_word (h : t.word = .fixed text) : t.is text = true := by
  obtain ⟨hkind, hlexeme⟩ := Word.mk.inj h
  unfold Token.is
  rw [hkind, hlexeme]
  split <;> simp

theorem is_of_word_ne (h : t.word = .fixed text) {other : String} (hne : text ≠ other) :
    t.is other = false := by
  obtain ⟨-, hlexeme⟩ := Word.mk.inj h
  simp [Token.is, hlexeme, hne]

theorem isName_of_word (h : t.word = .named text) (hname : keywords.contains text = false) :
    t.isName = true := by
  obtain ⟨hkind, hlexeme⟩ := Word.mk.inj h
  unfold Token.isName
  rw [hkind, hlexeme, hname]
  rfl

end Token

section

variable {t : Token} {limit : DigitLimit}

/-- No expression begins with an integer that is too long. -/
theorem Parse.expression_overlong (h : t.Overlong limit) (n : Nat) (ts : List Token) :
    Parse.expression (n + 10) (t :: ts) = .error (.digits limit) := by
  have hprimary : Parse.primary (n + 1) (t :: ts) = .error (.digits limit) := by
    simp only [Parse.primary, Parse.literal?_overlong h]
  simp only [Parse.expression, Parse.level, Parse.operand, Parse.Level.tighter?, Parse.secondary,
    hprimary]
  rfl

theorem Parse.declaration_overlong (h : t.Overlong limit) {name equals : Token}
    (hname : name.isName = true) (hcolon : equals.is ":" = false) (hequals : equals.is "=" = true)
    (n : Nat) (ts : List Token) :
    Parse.declaration (n + 10) (name :: equals :: t :: ts) = .error (.digits limit) := by
  have htype : Parse.colonName .typeName (equals :: t :: ts) = .ok (none, equals :: t :: ts) := by
    simp [Parse.colonName, Parse.at?, hcolon]
  have hvalue : Parse.initialValue (n + 10) (equals :: t :: ts) = .error (.digits limit) := by
    simp only [Parse.initialValue, Parse.at?, hequals, if_true, Parse.next, bind, Except.bind,
      Parse.expression_overlong h]
  simp only [Parse.declaration, Parse.expectName, hname, if_true, bind, Except.bind, htype, hvalue]

theorem parseProgram_overlong (h : t.Overlong limit) {start name equals : Token}
    (hstart : start.is "LET" = true) (hname : name.isName = true)
    (hcolon : equals.is ":" = false) (hequals : equals.is "=" = true) (ts : List Token) :
    parseProgram (start :: name :: equals :: t :: ts) = .error (.digits limit) := by
  obtain ⟨n, hfuel⟩ : ∃ n, Parse.fuelFor (start :: name :: equals :: t :: ts) = n + 10 + 1 :=
    ⟨16 * ts.length + 69, by simp only [Parse.fuelFor, List.length_cons]; omega⟩
  simp only [parseProgram, hfuel, Parse.program, Parse.fields, Parse.at?, hstart, if_true,
    Parse.next, Parse.declaration_overlong h hname hcolon hequals, bind, Except.bind]

end

namespace Editor.Document

/-- The words of a field whose value is an integer. -/
def fieldWords (digits : List Char) : List Word :=
  [.fixed "LET", .named "x", .fixed "=", ⟨.integer, String.ofList digits⟩, .fixed ";"]

/-- A field whose value is an integer with too many digits ends the analysis. -/
theorem ofText_overlong (uri : String) {ds : List Char} (hds : Digits ds)
    (hlen : maxDigits < ds.length) :
    ofText uri (Word.spaced (fieldWords ds)) = .error (.digits (.reading ds.length)) := by
  have hlexical : ∀ w ∈ fieldWords ds, w.Lexical := by
    intro w hw
    simp only [fieldWords, List.mem_cons, List.not_mem_nil, or_false] at hw
    rcases hw with rfl | rfl | rfl | rfl | rfl
    · exact (Word.readable_fixed (by decide)).lexical
    · exact (Word.readable_named (by decide)).1.lexical
    · exact (Word.readable_fixed (by decide)).lexical
    · show Lexeme .integer (String.ofList ds).toList
      rw [String.toList_ofList]
      exact Lexeme.integer (.inl rfl) hds
    · exact (Word.readable_fixed (by decide)).lexical
  obtain ⟨ts, hts, hwords⟩ := Word.tokenize_spaced hlexical (some uri)
  obtain ⟨start, ts, rfl, hstart, hwords⟩ := List.map_eq_cons_iff.mp hwords
  obtain ⟨name, ts, rfl, hname, hwords⟩ := List.map_eq_cons_iff.mp hwords
  obtain ⟨equals, ts, rfl, hequals, hwords⟩ := List.map_eq_cons_iff.mp hwords
  obtain ⟨t, ts, rfl, ht, -⟩ := List.map_eq_cons_iff.mp hwords
  have hover : t.Overlong (.reading ds.length) := by
    obtain ⟨hkind, hlexeme⟩ := Word.mk.inj ht
    have hcount : t.digitCount = ds.length := by
      have hsign := Numeral.sign_append (.inl rfl) hds []
      rw [List.nil_append, List.append_nil] at hsign
      rw [Token.digitCount, hlexeme, String.toList_ofList, hsign]
    exact ⟨hkind, hcount ▸ hlen, hcount ▸ rfl⟩
  have hp := parseProgram_overlong hover (Token.is_of_word hstart) (Token.isName_of_word hname rfl)
    (Token.is_of_word_ne hequals (by decide)) (Token.is_of_word hequals) ts
  unfold ofText analyze
  simp only [hts, analyzeTokens, hp]
  rfl

/-- A text that the analysis of a document has no answer for. -/
theorem ofText_many_ones : ofText "test:a" (Word.spaced (fieldWords (List.replicate 4301 '1'))) =
    .error (.digits (.reading 4301)) := by
  have hds : Digits (List.replicate 4301 '1') := by
    refine ⟨List.ne_nil_of_length_pos (by rw [List.length_replicate]; decide), fun d hd => ?_⟩
    rw [(List.mem_replicate.mp hd).2]
    rfl
  have h := ofText_overlong "test:a" hds (by rw [List.length_replicate]; decide)
  rwa [List.length_replicate] at h

end Editor.Document

end QuillLang
