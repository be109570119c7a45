/-
# Names that are not found are underlined

A name that is not found is underlined by its diagnostic.  The underline goes
over the word at the place of the fault, which is looked for in the text, and
more characters belong to words than to names: every letter and numeral of any
script.  Yet it is the name that is underlined, and nothing else
(`Source.unresolved_name_underlined`).

The name is a token, so it is a longest match, and the character after it is
part of no name.  If it was part of a word, it would be a token of its own
(`Lexeme.eq_lone_of_isForeign`).  The grammar has no such token
(`Grammar.Derivation.yield_native`), so the text would be no program.
-/
import QuillLang.Proofs.Hovers
import QuillLang.Proofs.StoppedChecks

namespace QuillLang

/-! ## Parts of words

More characters are part of words than of names.  One that is part of words only begins no token
but a mark, which is this one character. -/

theorem toNat_of_isNamePart {c : Char} (h : isNamePart c = true) : c.toNat < 128 := by
  simp only [isNamePart, isNameStart, Bool.or_eq_true, decide_eq_true_eq] at h
  rcases h with ((h | rfl) | h) | rfl
  · rcases Bool.or_eq_true_iff.mp h with h | h
    · have hz : c.val.toNat ≤ 90 := UInt32.le_iff_toNat_le.mp (of_decide_eq_true h).2
      exact Nat.lt_of_le_of_lt hz (by decide)
    · have hz : c.val.toNat ≤ 122 :=
        UInt32.le_iff_toNat_le.mp (of_decide_eq_true (Bool.and_eq_true_iff.mp h).2)
      exact Nat.lt_of_le_of_lt hz (by decide)
  · decide
  · exact Nat.lt_of_le_of_lt (toNat_of_isDigit h).2 (by decide)
  · decide

/-- The characters of names are characters of words. -/
theorem isWordPart_of_isNamePart {c : Char} (h : isNamePart c = true) : isWordPart c = true := by
  have hall : ∀ n : Fin 128,
      isNamePart (Char.ofNat n) = true → isWordPart (Char.ofNat n) = true := by
    decide +kernel
  have hc := hall ⟨c.toNat, toNat_of_isNamePart h⟩
  rw [Char.ofNat_toNat] at hc
  exact hc h

/-- The characters of words that are in no name. -/
def isForeign (c : Char) : Bool := isWordPart c && !isNamePart c

/-- No number begins with such a character. -/
theorem SignText.isForeign_head {s ds rest cs : List Char} {c : Char} (hs : SignText s)
    (hds : Digits ds) (h : c :: cs = s ++ ds ++ rest) : isForeign c = false := by
  obtain ⟨d, ds', hwhole, -, hstart⟩ := Reading.exists_cons_of_signed hs hds
  rw [hwhole] at h
  cases h
  rcases hstart [] with hdigit | ⟨hsign, -⟩
  · simp [isForeign, isNamePart, hdigit]
  · simp only [isSign, Bool.or_eq_true, decide_eq_true_eq] at hsign
    rcases hsign with rfl | rfl <;> decide

/-- A token that begins with a character of words, but of no name, is that character. -/
theorem Lexeme.eq_lone_of_isForeign {kind : TokenKind} {c : Char} {cs : List Char}
    (h : Lexeme kind (c :: cs)) (hc : isForeign c = true) : kind = .operator ∧ cs = [] := by
  generalize hw : c :: cs = w at h
  cases h with
  | identifier hstart =>
      cases hw
      simp [isForeign, isNamePart, hstart] at hc
  | integer hs hds =>
      rw [hs.isForeign_head hds (hw.trans (List.append_nil _).symm)] at hc
      cases hc
  | decimal hs hds hfs =>
      rw [hs.isForeign_head hds hw] at hc
      cases hc
  | character h =>
      cases hw
      exact absurd hc (by decide)
  | string h =>
      cases hw
      exact absurd hc (by decide)
  | comparison hstart =>
      cases hw
      simp only [isComparisonStart, Bool.or_eq_true, decide_eq_true_eq] at hstart
      rcases hstart with ((rfl | rfl) | rfl) | rfl <;> exact absurd hc (by decide)
  | mark => exact ⟨rfl, (List.cons.inj hw).2⟩

/-! ## Tokens of programs

The marks of the grammar are listed in its rules, and none of them is part of a word. -/

/-- Whether a terminal is a single character of words that is in no name. -/
def Terminal.isForeign : Terminal → Bool
  | .word text => text.length = 1 && text.toList.all QuillLang.isForeign
  | _ => false

namespace Grammar

/-- Whether no token of a phrase, outside the symbols in it, is a foreign character. -/
def Phrase.native : Phrase → Bool
  | token cs => cs.all (!·.isForeign)
  | rule _ => true
  | seq a b | alt a b => a.native && b.native
  | opt a | many a => a.native

theorem Nonterminal.native (n : Nonterminal) : n.definition.native = true := by
  cases n with
  | expr r => cases r <;> decide
  | _ => decide

theorem Derivation.yield_native {p : Phrase} (d : Derivation p) (hp : p.native = true) :
    ∀ t ∈ d.yield, t.terminal.isForeign = false := by
  induction d with
  | token t h =>
      intro t' ht'
      rw [List.mem_singleton.mp ht']
      simpa using List.all_eq_true.mp hp _ h
  | @rule n d ih => exact ih n.native
  | seq d e ihd ihe =>
      obtain ⟨ha, hb⟩ := Bool.and_eq_true_iff.mp hp
      exact List.forall_mem_append.mpr ⟨ihd ha, ihe hb⟩
  | left d ih => exact ih (Bool.and_eq_true_iff.mp hp).1
  | right d ih => exact ih (Bool.and_eq_true_iff.mp hp).2
  | present d ih => exact ih hp
  | more d e ihd ihe => exact List.forall_mem_append.mpr ⟨ihd hp, ihe hp⟩
  | absent | done => exact fun t ht => absurd ht List.not_mem_nil

end Grammar

/-- No token of a program is a foreign character. -/
theorem parseProgram_native {ts : List Token} (hts : Plain ts) {p : Program Place}
    (hp : parseProgram ts = .ok p) : ∀ t ∈ ts, t.terminal.isForeign = false := by
  have hexplained := parseProgram_outcome hts
  rw [hp] at hexplained
  obtain ⟨d, rfl, -, -⟩ := hexplained
  exact d.yield_native rfl

/-! ## Words and names

A name is followed by no part of a name, since it is a longest match, and by no other part of a
word, since this would be a token. -/

/-- A text that goes on with no blank goes on with a token. -/
theorem Cut.exists_head {source : List Char} {file : Option String} {offset : Nat} {c : Char}
    {cs : List Char} {ts : List Token} (h : Cut source file offset (c :: cs) ts [])
    (hc : isBlank c = false) :
    ∃ t ∈ ts, ∃ w, t.lexeme.toList = c :: w ∧ Lexeme t.kind (c :: w) := by
  generalize htext : c :: cs = text at h
  have hfirst : ∀ {blanks rest : List Char}, (∀ b ∈ blanks, isBlank b = true) →
      c :: cs = blanks ++ rest → blanks = [] := by
    intro blanks rest hblanks heq
    cases blanks with
    | nil => rfl
    | cons b blanks =>
        cases heq
        rw [hblanks c List.mem_cons_self] at hc
        cases hc
  cases h with
  | done hblanks =>
      rw [hfirst hblanks htext] at htext
      cases htext
  | @token _ blanks w rest _ kind ts hblanks hmatch hrest =>
      rw [hfirst hblanks htext, List.nil_append] at htext
      obtain ⟨d, w', rfl, -⟩ := hmatch.pattern.lexeme.exists_cons
      cases htext
      exact ⟨_, List.mem_cons_self, w', String.toList_ofList, hmatch.pattern.lexeme⟩

theorem Lexeme.isWordPart_of_mem {w : List Char} (h : Lexeme .identifier w) :
    ∀ c ∈ w, isWordPart c = true := by
  cases h with
  | @identifier c cs hc hcs =>
      have hstart : isNamePart c = true := by simp [isNamePart, hc]
      exact List.forall_mem_cons.mpr
        ⟨isWordPart_of_isNamePart hstart, fun d hd => isWordPart_of_isNamePart (hcs d hd)⟩

theorem Token.Lexical.length_pos {t : Token} (h : t.Lexical) : 1 ≤ t.lexeme.length := by
  obtain ⟨c, cs, hlexeme, -⟩ := Lexeme.exists_cons h
  rw [← String.length_toList, hlexeme]
  exact Nat.le_add_left 1 _

/-- A name goes on as far as it can. -/
theorem LongestMatch.isNamePart_next {w rest : List Char} (h : LongestMatch .identifier w rest) :
    ∀ c ∈ rest.head?, isNamePart c = false := by
  intro c hc
  obtain ⟨cs, rfl⟩ := List.head?_eq_some_iff.mp hc
  refine Bool.eq_false_iff.mpr fun hpart => ?_
  have hlonger : Lexeme .identifier (w ++ [c]) := by
    cases h.pattern.lexeme with
    | identifier hd hds =>
        exact .identifier hd (List.forall_mem_append.mpr ⟨hds, by simpa using hpart⟩)
  have hsingle : ∀ d, w ++ [c] = [d] → isSign d = true → startsWithDigit cs = false := by
    intro d hd _
    have hpos := h.pattern.length_pos
    have hlength := congrArg List.length hd
    simp only [List.length_append, List.length_singleton] at hlength
    omega
  have hlength := h.longest .identifier (w ++ [c]) cs (by simp) ⟨hlonger, hsingle⟩
  rw [List.length_append, List.length_singleton] at hlength
  omega

section

variable {source : String} {file : Option String} {ts : List Token} {p : Program Place} {t : Token}

/-- In a program no part of a word follows a name. -/
theorem exists_name_stretch (hts : tokenize source file = .ok ts) (hp : parseProgram ts = .ok p)
    (ht : t ∈ ts) (hkind : t.kind = .identifier) :
    ∃ front rest, source.toList = front ++ (t.lexeme.toList ++ rest) ∧
      t.location = .ofOffset source.toList front.length file ∧
      ∀ c ∈ rest.head?, isWordPart c = false := by
  obtain ⟨front, rest, us, hsource, hlocation, hmatch, hsubset, hcut⟩ :=
    (cut_of_tokenize hts).exists_rest [] rfl rfl ht
  refine ⟨front, rest, hsource, hlocation, fun c hc => Bool.eq_false_iff.mpr fun hword => ?_⟩
  rw [hkind] at hmatch
  have hforeign : isForeign c = true := by simp [isForeign, hword, hmatch.isNamePart_next c hc]
  have hblank : isBlank c = false := by
    refine Bool.eq_false_iff.mpr fun hb => ?_
    rw [(show NoBlank isWordPart by decide).of_isBlank hb] at hword
    cases hword
  -- so it is a token, and one that the grammar does not have
  obtain ⟨cs, rfl⟩ := List.head?_eq_some_iff.mp hc
  obtain ⟨u, hu, w, hw, hlexeme⟩ := hcut.exists_head hblank
  obtain ⟨hoperator, rfl⟩ := hlexeme.eq_lone_of_isForeign hforeign
  have hlone : u.terminal.isForeign = true := by
    simp [Token.terminal, hoperator, Terminal.isForeign, hw, hforeign, ← String.length_toList]
  rw [parseProgram_native (tokenize_plain hts) hp u (hsubset hu)] at hlone
  cases hlone

/-- The word at a name of a program is the name. -/
theorem wordLength?_of_name (hts : tokenize source file = .ok ts) (hp : parseProgram ts = .ok p)
    (ht : t ∈ ts) (hkind : t.kind = .identifier) :
    wordLength? source.toList t.location.offset = some t.lexeme.length := by
  have hlexical := tokenize_lexical hts ht
  obtain ⟨front, rest, hsource, hlocation, hnext⟩ := exists_name_stretch hts hp ht hkind
  have hoffset : t.location.offset = front.length := by
    rw [hlocation, hsource, Location.ofOffset_append, Location.ofOffset_length]
  have hdrop : source.toList.drop front.length = t.lexeme.toList ++ rest := by
    rw [hsource, List.drop_left]
  have htake : (t.lexeme.toList ++ rest).takeWhile isWordPart = t.lexeme.toList := by
    have hidentifier : Lexeme .identifier t.lexeme.toList := hkind ▸ hlexical
    exact (span_eq hidentifier.isWordPart_of_mem hnext).1
  rw [wordLength?, textFrom?, hoffset, if_pos (Int.natCast_nonneg _), Int.toNat_natCast, hdrop,
    Option.map_some, htake, String.length_toList, Nat.max_eq_right hlexical.length_pos]

/-! ## Underlines

A diagnostic counts columns from one and an editor from zero; both show the same stretch of the
line. -/

/-- Where a diagnostic shows a token; one that is in no file is shown in `shown`. -/
def Token.span (t : Token) (shown : String) : Span :=
  { line := t.location.line
    startColumn := t.location.column
    endColumn := t.location.column + t.lexeme.length
    file := (nonempty? t.location.file).getD shown }

/-- A fault at a token whose word is the token is shown at the token. -/
theorem Fault.diagnose_of_token {f : Fault} (hlocation : f.location = some t.location)
    (hword : wordLength? source.toList t.location.offset = some t.lexeme.length) (shown : String) :
    ∃ d, f.diagnose source shown = .ok d ∧ d.span = some (t.span shown) := by
  unfold Fault.diagnose Diagnostic.ofFault
  simp only [hlocation, Option.mapM_some, Span.ofLocation, hword]
  exact ⟨_, rfl, rfl⟩

theorem Token.span_length (h : t.Lexical) (shown : String) :
    (t.span shown).length = t.lexeme.length := by
  have hpos := h.length_pos
  simp only [Span.length, span]
  omega

/-- An editor shows a token where a diagnostic does, and counts from zero. -/
theorem Token.rangeOf_span (h : t.StandsIn source.toList file) (shown : String) :
    Editor.Notice.rangeOf (some (t.span shown)) = t.range := by
  obtain ⟨before, rest, hsource, hlocation⟩ := h.stretch
  have hplace : 1 ≤ t.location.line ∧ 1 ≤ t.location.column := by
    rw [hlocation, hsource, Location.ofOffset_append, Location.ofOffset_length]
    dsimp only
    omega
  rw [Editor.Notice.rangeOf, span_length h.lexical, Token.range]
  simp only [span]
  rw [Int.max_eq_right (by omega), Int.max_eq_right (by omega)]

end

/-! ## Names that are not found

The node to blame is a use of the name, and every use of a name stands at a token of its own. -/

/-- A name that is not found is the name of the node that is to blame. -/
theorem Check.Raises.exists_reference {c : Checker} {x : Node Mark} {err : CheckError}
    (h : Raises c x err)
    (hcode : some err.cause.code.text ∈ [some "E0102", some "E0103", some "E0110"]) :
    ∃ e r, x = .expr e ∧ e.reference? = some r ∧ err.cause.sought? = some r.name ∧
      err.place = r.tag.place := by
  cases h with
  | undefinedVariable | undefinedFunction | noField | noMethod =>
      exact ⟨_, _, rfl, rfl, rfl, rfl⟩
  | unknownType => exact absurd hcode (by simp [CheckCause.code, Code.text])
  | @other _ _ cause _ hsought =>
      cases cause with
      | undefinedVariable | undefinedFunction | noField | noMethod | unknownType => cases hsought
      | _ => exact absurd hcode (by simp [CheckCause.code, Code.text])

/-- An editor is told of the error of a check. -/
theorem Editor.Document.ofText_of_error {uri text : String} {ts : List Token} {p : Program Place}
    (hts : tokenize text (some uri) = .ok ts) (hp : parseProgram ts = .ok p) {e : CheckError}
    (he : ((Checker.start {}).check (p.mark 0).1).1 = .error (.error e)) {d : Diagnostic}
    (hd : (e.fault text).diagnose text uri = .ok d) :
    ∃ document, ofText uri text = .ok document ∧ document.notices = [.ofDiagnostic d] := by
  simp only [ofText, analyze, hts, analyzeTokens, hp, analyzeTree, he]
  exact ⟨_, report_fault hd, rfl⟩

namespace Source

/-- In a source that is a program, and is refused because a variable, a function or a member is
not found: the place of the fault is the token of the name that was looked for, at the node where
the check stopped, and the diagnostic underlines the token and nothing else.  If nothing surrounds
the program, an editor is told the same place, counted from zero. -/
theorem unresolved_name_underlined {s : Source} {o : Embedding} {p : Program Place} {f : Fault}
    (hp : s.program = .ok p) (h : s.check o = .error (.fault f))
    (hcode : f.code ∈ [some "E0102", some "E0103", some "E0110"]) :
    ∃ ts t c e err, tokenize s.text s.file = .ok ts ∧ t ∈ ts ∧ t.Names e ∧
      Check.Reaches (Checker.start o.static) (p.mark 0).1 c (.expr e) ∧
      Check.Raises c (.expr e) err ∧ f = err.fault s.text ∧
      err.cause.sought? = some t.lexeme ∧ f.location = some t.location ∧
      (∀ shown, (t.span shown).length = t.lexeme.length ∧
        ∃ d, f.diagnose s.text shown = .ok d ∧ d.span = some (t.span shown)) ∧
      (o.static = {} → ∀ uri, s.file = some uri →
        ∃ d n, Editor.Document.ofText uri s.text = .ok d ∧ d.notices = [n] ∧
          n.range = t.range) := by
  obtain ⟨ts, hts, hparse⟩ := parseWith_eq_ok hp
  rw [check, hp] at h
  obtain ⟨err, herr, rfl⟩ := CheckFailure.mapError_eq_fault h
  rcases Checker.stops_of_check herr with ⟨c, x, hreach, hraise⟩ | rfl | ⟨reason, rfl⟩
  · obtain ⟨e, r, rfl, hr, hsought, hplace⟩ := hraise.exists_reference hcode
    obtain ⟨t, ht, hnames, hname, hlocation⟩ := Editor.Document.exists_token hts hparse
      (hreach.nodes_subset (Node.mem_nodes_self _)) hr
    have hstands := standsIn_of_tokenize hts t ht
    have hkind : t.kind = .identifier := of_decide_eq_true (Bool.and_eq_true_iff.mp hnames.1).1
    have hfault : (err.fault s.text).location = some t.location := hplace.trans hlocation
    have hdiagnose := Fault.diagnose_of_token hfault (wordLength?_of_name hts hparse ht hkind)
    refine ⟨ts, t, c, e, err, hts, ht, hnames, hreach, hraise, rfl, hname ▸ hsought, hfault, ?_, ?_⟩
    · exact fun shown => ⟨Token.span_length hstands.lexical shown, hdiagnose shown⟩
    · intro ho uri huri
      obtain ⟨d, hd, hspan⟩ := hdiagnose uri
      rw [huri] at hts
      rw [ho] at herr
      obtain ⟨document, hdocument, hnotices⟩ :=
        Editor.Document.ofText_of_error hts hparse herr hd
      refine ⟨document, .ofDiagnostic d, hdocument, hnotices, ?_⟩
      rw [Editor.Notice.ofDiagnostic, hspan]
      exact Token.rangeOf_span hstands uri
  · exact absurd hcode (by simp [CheckError.fault, CheckCause.code, Code.text])
  · exact absurd hcode (by simp [CheckError.fault, CheckCause.code, Code.text])

/-- A member that no string has, behind a letter that is in no name. -/
def misspeltMember : Source :=
  { text := "DEF main(): Integer DO RETURN \"é\".size(); END", file := some "test:a" }

theorem misspeltMember_underlined : ∃ p f, misspeltMember.program = .ok p ∧
    misspeltMember.check {} = .error (.fault f) ∧
    f.code ∈ [some "E0102", some "E0103", some "E0110"] ∧
    ∃ t : Token, t.location = ⟨1, 35, 34, some "test:a"⟩ ∧
      (∃ d, f.diagnose misspeltMember.text = .ok d ∧ d.span = some (t.span anonymousFile) ∧
        (t.span anonymousFile).length = t.lexeme.length) ∧
      ∃ d n, Editor.Document.ofText "test:a" misspeltMember.text = .ok d ∧ d.notices = [n] ∧
        n.range = t.range := by
  obtain ⟨f, hf, hshown⟩ := exists_fault_of_map (r := misspeltMember.check {})
    (g := fun f => (f.location, f.code)) (b := (some ⟨1, 35, 34, some "test:a"⟩, some "E0110"))
    (by decide +kernel)
  obtain ⟨hlocation, hcode⟩ := Prod.mk.inj hshown
  obtain ⟨p, hp⟩ := exists_ok_of_isSome (r := misspeltMember.program) (by decide +kernel)
  have hmem : f.code ∈ [some "E0102", some "E0103", some "E0110"] := by simp [hcode]
  obtain ⟨ts, t, _, _, _, _, _, _, _, _, _, _, hplace, hspan, hnotice⟩ :=
    unresolved_name_underlined hp hf hmem
  obtain ⟨hlength, d, hd, hunderlined⟩ := hspan anonymousFile
  refine ⟨p, f, hp, hf, hmem, t, ?_, ⟨d, hd, hunderlined, hlength⟩, hnotice rfl _ rfl⟩
  exact Option.some.inj (hplace.symm.trans hlocation)

end Source

end QuillLang
