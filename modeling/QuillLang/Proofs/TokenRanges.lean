/-
# The ranges of tokens

An editor sees a token as a range of a document.  A token does not go over the
end of a line, so its range is a part of one line, and the range of each token
ends before that of the next one begins (`tokenize_ranges`).  So a position lies
in one token at most.
-/
import QuillLang.Editor.Document
import QuillLang.Proofs.Positions

namespace QuillLang

/-! ## The order of positions

Lines come first and then columns.  Advancing over a character goes forward in this order, also
over a line feed, which takes the column back. -/

/-- A location is not after another one. -/
def Location.Upto (p q : Location) : Prop :=
  p.line < q.line ∨ p.line = q.line ∧ p.column ≤ q.column

namespace Location

variable {p q r : Location}

theorem Upto.refl (p : Location) : p.Upto p := .inr ⟨rfl, Int.le_refl _⟩

theorem Upto.trans (h : p.Upto q) (h' : q.Upto r) : p.Upto r := by
  unfold Upto at *
  omega

theorem upto_advance (p : Location) (c : Char) : p.Upto (p.advance c) := by
  unfold advance Upto
  split
  · exact .inl (Int.lt_succ _)
  · exact .inr ⟨rfl, Int.le_of_lt (Int.lt_succ _)⟩

theorem upto_advanceAll (p : Location) (cs : List Char) : p.Upto (p.advanceAll cs) := by
  induction cs generalizing p with
  | nil => exact .refl p
  | cons c cs ih => exact (p.upto_advance c).trans (ih (p.advance c))

end Location

namespace Editor

/-- A position is not after another one. -/
def Position.Upto (p q : Position) : Prop :=
  p.line < q.line ∨ p.line = q.line ∧ p.character ≤ q.character

namespace Range

/-- A position is in a range: not before its start, and before its stop. -/
def Contains (r : Range) (p : Position) : Prop := r.start.Upto p ∧ ¬ r.stop.Upto p

/-- A range ends before another one begins. -/
def Before (r s : Range) : Prop := r.stop.Upto s.start

theorem contains_onLine {line character : Int} {length : Nat} {p : Position} :
    (onLine line character length).Contains p ↔
      line = p.line ∧ character ≤ p.character ∧ p.character < character + length := by
  simp only [Contains, Position.Upto, onLine]
  omega

/-- A position in a range is in no later one. -/
theorem Before.not_contains {r s : Range} (h : r.Before s) {p : Position} (hr : r.Contains p) :
    ¬ s.Contains p := by
  rintro ⟨hstart, -⟩
  refine hr.2 ?_
  unfold Before Position.Upto at *
  omega

end Range

end Editor

/-! ## Tokens

A token ends where its text does, on the line that it began on, and the next one begins there or
further on. -/

/-- Where an editor shows a token. -/
def Token.range (t : Token) : Editor.Range :=
  .onLine (t.location.line - 1) (t.location.column - 1) t.lexeme.length

theorem Token.range_before {t u : Token} (hline : '\n' ∉ t.lexeme.toList)
    (h : (t.location.advanceAll t.lexeme.toList).Upto u.location) : t.range.Before u.range := by
  rw [Location.advanceAll_of_line hline, String.length_toList] at h
  simp only [Location.Upto] at h
  simp only [Editor.Range.Before, Editor.Position.Upto, Token.range, Editor.Range.onLine]
  omega

/-- What a text is taken apart into lies behind the text before it, in the order of the text. -/
theorem Cut.ranges {source : List Char} {file : Option String} {offset : Nat}
    {cs left : List Char} {ts : List Token} (h : Cut source file offset cs ts left)
    (before : List Char) (hsource : source = before ++ cs) (hoffset : offset = before.length) :
    (∀ t ∈ ts, ((Location.start file).advanceAll before).Upto t.location) ∧
      ts.Pairwise fun t u => t.range.Before u.range := by
  induction h generalizing before with
  | done => exact ⟨fun t ht => absurd ht List.not_mem_nil, .nil⟩
  | @token offset blanks w rest left kind ts _ hmatch _ ih =>
      obtain ⟨hafter, hpairwise⟩ := ih (before ++ blanks ++ w)
        (by simp only [hsource, List.append_assoc]) (by simp only [hoffset, List.length_append])
      have hplace : Location.ofOffset source (offset + blanks.length : Nat) file =
          (Location.start file).advanceAll (before ++ blanks) := by
        rw [hsource, hoffset, ← List.length_append, ← List.append_assoc,
          ← Location.advanceAll_start]
      rw [hplace]
      refine ⟨?_, List.pairwise_cons.mpr ⟨fun u hu => ?_, hpairwise⟩⟩
      · intro t ht
        rcases List.mem_cons.mp ht with rfl | ht
        · rw [Location.advanceAll_append]
          exact Location.upto_advanceAll _ _
        · refine Location.Upto.trans ?_ (hafter t ht)
          rw [List.append_assoc, Location.advanceAll_append]
          exact Location.upto_advanceAll _ _
      · refine Token.range_before ?_ ?_
        · rw [String.toList_ofList]
          exact hmatch.pattern.lexeme.newline_not_mem
        · rw [String.toList_ofList, ← Location.advanceAll_append]
          exact hafter u hu

/-- The ranges of the tokens of a text come one after the other. -/
theorem tokenize_ranges {source : String} {file : Option String} {ts : List Token}
    (h : tokenize source file = .ok ts) : ts.Pairwise fun t u => t.range.Before u.range :=
  ((cut_of_tokenize h).ranges [] rfl rfl).2

end QuillLang
