/-
# The outline of a document

An outline lists the fields of a program and then its methods, each where its name
stands.  A tree knows a declaration by the word that opens it, so the name is
looked up among the tokens: it is the token right after that word.

It is always found there.  The tokens of a program fall into declarations, one
after the other, and each of them is a word, a name and some more tokens
(`Outline`).  No two tokens stand at the same offset, so the word that opens a
declaration is known by its own (`nameAfter_opening`).  So the ranges of an outline
are those of tokens in the order of the text (`Document.ofText_symbols`).
-/
import QuillLang.Proofs.Documents
import QuillLang.Proofs.TokenRanges
import Mathlib.Data.List.Forall2

namespace QuillLang

open Grammar

/-! ## Declarations among tokens

A program is a row of declarations, and each begins with its word and its name.  So the tokens of a
program can be divided up, one group for each field and each method in the tree. -/

/-- A declaration as tokens: the word that opens it, the name right after, and the rest. -/
structure Opening where
  word : Token
  name : Token
  rest : List Token

namespace Opening

def tokens (o : Opening) : List Token := o.word :: o.name :: o.rest

/-- The tokens of a declaration that stands at a place and declares a name. -/
structure Opens (o : Opening) (text : String) (place : Place) (name : String) : Prop where
  word : o.word.terminal = .word text
  isName : o.name.isName = true
  place : place = some o.word.location
  name : name = o.name.lexeme

end Opening

/-- The tokens of a program, declaration by declaration. -/
structure Outline (ts : List Token) (p : Program Place) where
  fields : List Opening
  methods : List Opening
  tokens : (fields ++ methods).flatMap Opening.tokens = ts
  fieldsOpen : List.Forall₂ (fun f o => o.Opens "LET" f.tag f.name) p.fields fields
  methodsOpen : List.Forall₂ (fun d o => o.Opens "DEF" d.tag d.name) p.methods methods

namespace Grammar

theorem field_opening : ∀ d : Derivation (.rule .field), ∃ o : Opening,
    d.yield = o.tokens ∧ o.Opens "LET" (Field.tag d.value) (Field.name d.value)
  | .rule (.seq (.token t ht) (.rule (.seq (.token n hn) rest))) => by
      have hname : n.isName = true := Token.isName_iff.mpr (List.mem_singleton.mp hn)
      exact ⟨⟨t, n, rest.yield⟩, rfl, List.mem_singleton.mp ht, hname, rfl, rfl⟩

theorem method_opening : ∀ d : Derivation (.rule .method), ∃ o : Opening,
    d.yield = o.tokens ∧ o.Opens "DEF" (Method.tag d.value) (Method.name d.value)
  | .rule (.seq (.token t ht) (.seq (.token n hn) rest)) => by
      have hname : n.isName = true := Token.isName_iff.mpr (List.mem_singleton.mp hn)
      exact ⟨⟨t, n, rest.yield⟩, rfl, List.mem_singleton.mp ht, hname, rfl, rfl⟩

/-- If each of some declarations opens in a certain way, all of them do so one after the other. -/
theorem many_openings {n : Nonterminal} {R : n.Tree → Opening → Prop}
    (h : ∀ d : Derivation (.rule n), ∃ o, d.yield = o.tokens ∧ R d.value o) :
    ∀ d : Derivation (.many (.rule n)), ∃ os : List Opening,
      d.yield = os.flatMap Opening.tokens ∧ List.Forall₂ R d.value os
  | .done => ⟨[], rfl, .nil⟩
  | .more d e => by
      obtain ⟨o, hyield, ho⟩ := h d
      obtain ⟨os, hyields, hos⟩ := many_openings h e
      refine ⟨o :: os, ?_, .cons ho hos⟩
      rw [Derivation.yield, hyield, hyields, List.flatMap_cons]

theorem source_outline : ∀ d : Derivation (.rule .source), Nonempty (Outline d.yield d.value)
  | .rule (.seq fs ds) => by
      obtain ⟨fields, hfs, hfields⟩ := many_openings (n := .field)
        (R := fun f o => o.Opens "LET" (Field.tag f) (Field.name f)) field_opening fs
      obtain ⟨methods, hds, hmethods⟩ := many_openings (n := .method)
        (R := fun d o => o.Opens "DEF" (Method.tag d) (Method.name d)) method_opening ds
      refine ⟨⟨fields, methods, ?_, hfields, hmethods⟩⟩
      rw [List.flatMap_append, ← hfs, ← hds]
      rfl

end Grammar

/-- The tokens of a program that can be read have an outline. -/
theorem exists_outline {ts : List Token} {p : Program Place} (hts : Plain ts)
    (hp : parseProgram ts = .ok p) : Nonempty (Outline ts p) := by
  have houtcome := parseProgram_outcome hts
  rw [hp] at houtcome
  obtain ⟨d, rfl, -, rfl⟩ := houtcome
  exact source_outline d

/-! ## Tokens in the order of the text

No token is empty, so each begins at a later offset than the one before it, and has its range
behind that of the other. -/

/-- A range ends before another one begins, and begins before it. -/
def Editor.Range.Precedes (r s : Editor.Range) : Prop := r.Before s ∧ ¬ s.start.Upto r.start

/-- Tokens are not empty, so the ranges of a text go on from token to token. -/
theorem tokenize_precedes {source : String} {file : Option String} {ts : List Token}
    (h : tokenize source file = .ok ts) : ts.Pairwise fun t u => t.range.Precedes u.range := by
  refine (tokenize_ranges h).imp_of_mem fun {t u} ht _ hbefore => ⟨hbefore, ?_⟩
  obtain ⟨c, cs, hcs, -⟩ := Lexeme.exists_cons (tokenize_lexical h ht)
  have hlength : 0 < t.lexeme.length := by
    rw [← String.length_toList, hcs]
    exact Nat.succ_pos _
  simp only [Editor.Range.Before, Editor.Position.Upto, Token.range, Editor.Range.onLine]
    at hbefore ⊢
  omega

/-- No two tokens of a text stand at the same offset. -/
theorem tokenize_offsets {source : String} {file : Option String} {ts : List Token}
    (h : tokenize source file = .ok ts) :
    ts.Pairwise fun t u => t.location.offset ≠ u.location.offset := by
  refine (tokenize_precedes h).imp_of_mem fun {t u} ht hu hprecedes heq => hprecedes.2 ?_
  -- the offset of a token tells its location
  have hlocation : t.location = u.location := by
    rw [(standsIn_of_tokenize h t ht).isIn, (standsIn_of_tokenize h u hu).isIn, heq]
  simp [Editor.Position.Upto, Token.range, Editor.Range.onLine, hlocation]

theorem Opening.names_sublist (os : List Opening) :
    (os.map Opening.name).Sublist (os.flatMap Opening.tokens) := by
  induction os with
  | nil => exact List.Sublist.refl _
  | cons o os ih =>
      rw [List.map_cons, List.flatMap_cons, Opening.tokens, List.cons_append, List.cons_append]
      refine List.Sublist.cons _ (List.Sublist.cons_cons _ ?_)
      exact ih.trans (List.sublist_append_right _ _)

/-! ## Finding a name by its word

The search goes through the tokens for one at the offset of the declaration, and takes the next if
it is the name.  Only the word itself stands at that offset. -/

namespace Editor.Document

theorem nameAfter_cons_of_ne {t : Token} {offset : Int} (h : t.location.offset ≠ offset)
    (name : String) (ts : List Token) :
    nameAfter offset name (t :: ts) = nameAfter offset name ts := by
  cases ts with
  | nil => rfl
  | cons u ts => simp [nameAfter, h]

theorem nameAfter_append {t u : Token} {before after : List Token}
    (h : (before ++ t :: u :: after).Pairwise fun t u => t.location.offset ≠ u.location.offset) :
    nameAfter t.location.offset u.lexeme (before ++ t :: u :: after) = some u := by
  induction before with
  | nil => simp [nameAfter]
  | cons v before ih =>
      obtain ⟨hv, hrest⟩ := List.pairwise_cons.mp h
      rw [List.cons_append, nameAfter_cons_of_ne (hv t (by simp)), ih hrest]

/-- The name of a declaration is found by the word that opens it. -/
theorem nameAfter_opening {os : List Opening}
    (h : (os.flatMap Opening.tokens).Pairwise fun t u => t.location.offset ≠ u.location.offset)
    {o : Opening} (ho : o ∈ os) :
    nameAfter o.word.location.offset o.name.lexeme (os.flatMap Opening.tokens) = some o.name := by
  obtain ⟨before, after, rfl⟩ := List.append_of_mem ho
  rw [List.flatMap_append, List.flatMap_cons, Opening.tokens, List.cons_append,
    List.cons_append] at h ⊢
  exact nameAfter_append h

theorem declaredRange_opening {os : List Opening}
    (h : (os.flatMap Opening.tokens).Pairwise fun t u => t.location.offset ≠ u.location.offset)
    {o : Opening} (ho : o ∈ os) {text : String} {place : Place} {name : String}
    (hopens : o.Opens text place name) :
    declaredRange (os.flatMap Opening.tokens) place name = o.name.range := by
  obtain rfl := hopens.place
  obtain rfl := hopens.name
  rw [declaredRange, Option.bind_some, nameAfter_opening h ho]
  rfl

/-- The analysis of a text that can be read keeps its tokens and its tree, whether or not it passes
the check. -/
theorem ofText_of_parsed {uri text : String} {ts : List Token} {p : Program Place}
    (hts : tokenize text (some uri) = .ok ts) (hp : parseProgram ts = .ok p) :
    ∃ d, ofText uri text = .ok d ∧ d.tokens = ts ∧ d.tree = some (p.mark 0).1 := by
  obtain ⟨d, hd, hreported⟩ := analyzeTree_reports (d := { uri, text }) hts hp
  refine ⟨d, ?_, ?_⟩
  · simp only [ofText, analyze, hts, analyzeTokens, hp]
    exact hd
  · cases hreported with
    | clean hts' _ hp' =>
        obtain rfl := Except.ok.inj (hts.symm.trans hts')
        obtain rfl := Except.ok.inj (hp.symm.trans hp')
        exact ⟨rfl, rfl⟩
    | tokens hts' => cases hts.symm.trans hts'
    | tree hts' hp' =>
        obtain rfl := Except.ok.inj (hts.symm.trans hts')
        cases hp.symm.trans hp'
    | model hts' hp' =>
        obtain rfl := Except.ok.inj (hts.symm.trans hts')
        obtain rfl := Except.ok.inj (hp.symm.trans hp')
        exact ⟨rfl, rfl⟩

/-! ## Symbols -/

theorem map_declaredRange {α : Type} {place : α → Place} {name : α → String} {text : String}
    {ts : List Token} {as : List α} {os : List Opening}
    (hopens : List.Forall₂ (fun a o => o.Opens text (place a) (name a)) as os)
    (hos : ∀ o ∈ os, ∀ place name, o.Opens text place name →
      declaredRange ts place name = o.name.range) :
    as.map (fun a => declaredRange ts (place a) (name a)) = os.map fun o => o.name.range := by
  induction hopens with
  | nil => rfl
  | cons ho _ ih =>
      obtain ⟨hhead, htail⟩ := List.forall_mem_cons.mp hos
      rw [List.map_cons, List.map_cons, ih htail, hhead _ _ ho]

end Editor.Document

theorem Field.map_markAll {β : Type} (g : Place → String → β) (fs : List (Field Place)) :
    ∀ n, (Field.markAll fs n).1.map (fun f => g f.tag.place f.name) =
      fs.map fun f => g f.tag f.name := by
  induction fs with
  | nil => exact fun _ => rfl
  | cons f fs ih => exact fun n => congrArg (List.cons _) (ih _)

theorem Method.map_markAll {β : Type} (g : Place → String → β) (ds : List (Method Place)) :
    ∀ n, (Method.markAll ds n).1.map (fun d => g d.tag.place d.name) =
      ds.map fun d => g d.tag d.name := by
  induction ds with
  | nil => exact fun _ => rfl
  | cons d ds ih => exact fun n => congrArg (List.cons _) (ih _)

namespace Editor.Document

variable {uri text : String} {ts : List Token} {p : Program Place}

/-- What the symbols of a document are, apart from their details. -/
theorem map_symbols {β : Type} {d : Document} (htree : d.tree = some (p.mark 0).1)
    (g : String → SymbolKind → Range → Range → β) :
    d.symbols.map (fun s => g s.name s.kind s.range s.selection) =
      p.fields.map (fun f =>
        g f.name .field (declaredRange d.tokens f.tag f.name)
          (declaredRange d.tokens f.tag f.name)) ++
      p.methods.map fun m =>
        g m.name .method (declaredRange d.tokens m.tag m.name)
          (declaredRange d.tokens m.tag m.name) := by
  rw [symbols, htree, List.map_append, List.map_map, List.map_map]
  exact congrArg₂ (· ++ ·)
    (Field.map_markAll (fun place name => g name .field (declaredRange d.tokens place name)
      (declaredRange d.tokens place name)) p.fields _)
    (Method.map_markAll (fun place name => g name .method (declaredRange d.tokens place name)
      (declaredRange d.tokens place name)) p.methods _)

/-- A text that can be read has an outline, also if it does not pass the check: one symbol for each
field and then one for each method, with its name, and with the range of the name that stands right
after the word that opens the declaration.  This name is always found, and the ranges of the symbols
are apart and in the order of the text. -/
theorem ofText_symbols (hts : tokenize text (some uri) = .ok ts) (hp : parseProgram ts = .ok p) :
    ∃ (d : Document) (o : Outline ts p), ofText uri text = .ok d ∧
      d.symbols.map (fun s => (s.name, s.kind)) =
        p.fields.map (fun f => (f.name, .field)) ++ p.methods.map (fun m => (m.name, .method)) ∧
      d.symbols.map (·.range) = (o.fields ++ o.methods).map (·.name.range) ∧
      d.symbols.map (·.selection) = (o.fields ++ o.methods).map (·.name.range) ∧
      (∀ x ∈ o.fields ++ o.methods,
        nameAfter x.word.location.offset x.name.lexeme ts = some x.name) ∧
      d.symbols.Pairwise fun s s' => s.range.Precedes s'.range := by
  obtain ⟨d, hd, htokens, htree⟩ := ofText_of_parsed hts hp
  obtain ⟨o⟩ := exists_outline (tokenize_plain hts) hp
  have hoffsets := tokenize_offsets hts
  rw [← o.tokens] at hoffsets
  have hopening : ∀ x ∈ o.fields ++ o.methods, ∀ text place name, x.Opens text place name →
      declaredRange ts place name = x.name.range := by
    intro x hx text place name hopens
    rw [← o.tokens]
    exact declaredRange_opening hoffsets hx hopens
  have hranges : p.fields.map (fun f => declaredRange ts f.tag f.name) ++
      p.methods.map (fun m => declaredRange ts m.tag m.name) =
      (o.fields ++ o.methods).map (·.name.range) := by
    rw [List.map_append]
    exact congrArg₂ (· ++ ·)
      (map_declaredRange o.fieldsOpen fun x hx => hopening x (List.mem_append_left _ hx) _)
      (map_declaredRange o.methodsOpen fun x hx => hopening x (List.mem_append_right _ hx) _)
  have hrange : d.symbols.map (·.range) = (o.fields ++ o.methods).map (·.name.range) := by
    rw [map_symbols htree fun _ _ range _ => range, htokens]
    exact hranges
  refine ⟨d, o, hd, map_symbols htree fun name kind _ _ => (name, kind), hrange, ?_, ?_, ?_⟩
  · rw [map_symbols htree fun _ _ _ selection => selection, htokens]
    exact hranges
  · intro x hx
    have hfound := nameAfter_opening hoffsets hx
    rwa [o.tokens] at hfound
  · rw [← List.pairwise_map (R := Range.Precedes), hrange, List.pairwise_map]
    have hnames := Opening.names_sublist (o.fields ++ o.methods)
    rw [o.tokens] at hnames
    have hpairs := (tokenize_precedes hts).sublist hnames
    rw [List.pairwise_map] at hpairs
    exact hpairs

/-- A text that does not pass the check: a name means nothing, and a method is there twice. -/
def repeated : String := "LET x = y; DEF f() DO END DEF f() DO END"

theorem repeated_symbols : ∃ ts p, tokenize repeated (some "test:a") = .ok ts ∧
    parseProgram ts = .ok p ∧ ∃ (d : Document) (o : Outline ts p),
      ofText "test:a" repeated = .ok d ∧ d.model.isNone = true ∧
      d.symbols.map (·.name) = ["x", "f", "f"] ∧
      (o.fields ++ o.methods).map (·.name.range) =
        [.onLine 0 4 1, .onLine 0 15 1, .onLine 0 30 1] ∧
      d.symbols.Pairwise fun s s' => s.range.Precedes s'.range := by
  have hread : (tokenize repeated (some "test:a")).toOption.any (fun ts =>
      (parseProgram ts).toOption.isSome) = true := by
    decide +kernel
  have hdocument : (ofText "test:a" repeated).toOption.any (fun d => d.model.isNone &&
      d.symbols.map (·.name) == ["x", "f", "f"] &&
      d.symbols.map (·.range) == [.onLine 0 4 1, .onLine 0 15 1, .onLine 0 30 1]) = true := by
    decide +kernel
  obtain ⟨ts, hts⟩ : ∃ ts, tokenize repeated (some "test:a") = .ok ts := by
    cases h : tokenize repeated (some "test:a") with
    | error e => rw [h] at hread; cases hread
    | ok ts => exact ⟨ts, rfl⟩
  rw [hts] at hread
  obtain ⟨p, hp⟩ := exists_ok_of_isSome hread
  obtain ⟨d, o, hd, -, hranges, -, -, hpairs⟩ := ofText_symbols hts hp
  rw [hd] at hdocument
  simp only [Except.toOption, Option.any_some, Bool.and_eq_true, beq_iff_eq] at hdocument
  obtain ⟨⟨hmodel, hnames⟩, hshown⟩ := hdocument
  exact ⟨ts, p, hts, hp, d, o, hd, hmodel, hnames, hranges.symm.trans hshown, hpairs⟩

end Editor.Document

end QuillLang
