/-
# Where the underline of a diagnostic stands

A diagnostic shows the line of its span in a row of its text and underlines it
in the row below.  Both rows begin with a gutter.  In the row of the line the
gutter holds the number of the line, flush right in three columns or in as many
as it has digits; in the row below, three blanks stand for it and nothing for
the blank after it.

So the two do not line up: the underline begins to the left of the column it is
for, by one place on the first 999 lines and by one more for each further digit
(`Diagnostic.underline_left_of_column`).  The text of a fault, which has a gutter
of four blanks in both rows, gets it right (`Fault.pointsAt_of_line`).
-/
import QuillLang.Failure
import QuillLang.Proofs.ShownLines

namespace QuillLang

/-! ## Lines hold no line breaks

A diagnostic is a text of several rows, and to speak of the row below a line the line itself must
not be broken. -/

namespace Lines

theorem split_break {c : Char} {cs : List Char} (hbreak : isBreak c = true)
    (hpair : ∀ ds, c = '\r' → cs = '\n' :: ds → False) : split (c :: cs) = [] :: split cs := by
  rw [split.eq_def]
  split
  · next h => cases h
  · next ds h =>
      cases h
      exact (hpair ds rfl rfl).elim
  · next h =>
      cases h
      exact if_pos hbreak

theorem isBreak_of_mem_push {c : Char} {lines : List (List Char)}
    (hlines : ∀ line ∈ lines, ∀ d ∈ line, isBreak d = false) (hc : isBreak c = false) :
    ∀ line ∈ push c lines, ∀ d ∈ line, isBreak d = false := by
  cases lines with
  | nil =>
      intro line hline d hd
      cases List.mem_singleton.mp hline
      cases List.mem_singleton.mp hd
      exact hc
  | cons first lines =>
      intro line hline d hd
      rcases List.mem_cons.mp hline with rfl | hline
      · rcases List.mem_cons.mp hd with rfl | hd
        · exact hc
        · exact hlines first List.mem_cons_self d hd
      · exact hlines line (List.mem_cons_of_mem _ hline) d hd

theorem isBreak_of_mem_split (cs : List Char) :
    ∀ line ∈ split cs, ∀ d ∈ line, isBreak d = false := by
  induction cs using split.induct with
  | case1 => exact fun line hline => absurd hline List.not_mem_nil
  | case2 cs ih =>
      show ∀ line ∈ [] :: split cs, _
      exact List.forall_mem_cons.mpr ⟨fun d hd => absurd hd List.not_mem_nil, ih⟩
  | case3 c cs hpair hbreak ih =>
      rw [split_break hbreak hpair]
      exact List.forall_mem_cons.mpr ⟨fun d hd => absurd hd List.not_mem_nil, ih⟩
  | case4 c cs _ hbreak ih =>
      have hc := Bool.eq_false_iff.mpr hbreak
      rw [split_cons hc]
      exact isBreak_of_mem_push ih hc

theorem newline_not_mem_of_nth? {cs line : List Char} {number : Int}
    (h : nth? (split cs) number = some line) : '\n' ∉ line := by
  unfold nth? at h
  split at h
  · exact fun hmem => absurd (isBreak_of_mem_split cs line (List.mem_of_getElem? h) '\n' hmem)
      (by decide)
  · cases h

end Lines

/-! ## The two rows

Both rows are computed and the positions in them compared.  The number of the line takes as many
columns as it has digits, but at least three, which is where the distance comes from. -/

namespace Diagnostic

/-- A row holds an underline of a column of a line that is at the end of the row above it.  The
underline begins `shift` places to the left of where the column stands in the row above, or would
stand if the line was long enough. -/
def Underlines (shift : Nat) (column : Int) (line above below : List Char) : Prop :=
  ∃ gutter, above = gutter ++ line ∧ '^' ∈ below ∧
    below.idxOf '^' + (shift : Int) = gutter.length + (column - 1)

theorem Underlines.shift_unique {shift shift' : Nat} {column : Int} {line above below : List Char}
    (h : Underlines shift column line above below)
    (h' : Underlines shift' column line above below) : shift = shift' := by
  obtain ⟨gutter, rfl, -, hindex⟩ := h
  obtain ⟨gutter', habove, -, hindex'⟩ := h'
  -- the line and the row it ends leave one gutter
  obtain rfl := List.append_cancel_right habove
  omega

/-- How a diagnostic shows the line of its span without colours: the line is in the row `above`,
which is a row of its text, and `below` is the next one. -/
structure Pictures (d : Diagnostic) (source : String) (s : Span) (line above below : List Char) :
    Prop where
  shown : Lines.nth? (Lines.split source.toList) s.line = some line
  text : d.render source false = "\n".intercalate
    ([header .plain d, "  --> " ++ s.text, "   |", String.ofList above, String.ofList below,
      "   |"] ++ d.helps.map (helpRow .plain))
  above_row : '\n' ∉ above
  below_row : '\n' ∉ below

variable {d : Diagnostic} {s : Span} {source : String} {line : List Char}

/-- What stands in front of a line: its number, a bar and a blank. -/
def gutter (number : Int) : List Char := (lineNumber number).toList ++ [' ', '|', ' ']

theorem length_gutter (number : Int) :
    (gutter number).length = max 3 (Numeral.text number).length + 3 := by
  rw [gutter, lineNumber, String.toList_ofList, List.length_append, List.length_leftpad,
    String.length_toList]
  rfl

theorem newline_not_mem_gutter (number : Int) : '\n' ∉ gutter number := by
  have htext := (Numeral.lexeme_text number).newline_not_mem
  simp [gutter, lineNumber, List.leftpad, htext]

theorem toList_sourceRow (s : Span) (line : List Char) :
    (sourceRow .plain s line).toList = gutter s.line ++ line := by
  simp [sourceRow, Palette.plain, Palette.framed, gutter]

/-- What is below a line: its gutter holds one blank less than a number of three digits takes. -/
theorem toList_underlineRow (level : Severity) (s : Span) :
    (underlineRow .plain level s).toList =
      [' ', ' ', ' ', '|', ' '] ++ List.replicate (s.startColumn - 1).toNat ' ' ++
        List.replicate s.length '^' := by
  simp [underlineRow, Palette.plain, Palette.framed, repeated]

theorem caret_mem_underlineRow (level : Severity) (s : Span) :
    '^' ∈ (underlineRow .plain level s).toList := by
  have hlength : s.length ≠ 0 := by
    unfold Span.length
    omega
  rw [toList_underlineRow]
  exact List.mem_append_right _ (List.mem_replicate.mpr ⟨hlength, rfl⟩)

theorem idxOf_underlineRow (level : Severity) (s : Span) :
    (underlineRow .plain level s).toList.idxOf '^' = 5 + (s.startColumn - 1).toNat := by
  have hblanks :
      '^' ∉ [' ', ' ', ' ', '|', ' '] ++ List.replicate (s.startColumn - 1).toNat ' ' := by
    simp [List.mem_replicate]
  obtain ⟨n, hn⟩ : ∃ n, s.length = n + 1 := ⟨s.length - 1, by unfold Span.length; omega⟩
  rw [toList_underlineRow, List.idxOf_append, if_neg hblanks, hn, List.replicate_succ,
    List.idxOf_cons_self, List.length_append, List.length_replicate, Nat.zero_add]
  rfl

theorem newline_not_mem_underlineRow (level : Severity) (s : Span) :
    '\n' ∉ (underlineRow .plain level s).toList := by
  rw [toList_underlineRow]
  simp [List.mem_replicate]

theorem pictures_rows (hs : d.span = some s)
    (hline : Lines.nth? (Lines.split source.toList) s.line = some line) :
    Pictures d source s line (sourceRow .plain s line).toList
      (underlineRow .plain d.level s).toList where
  shown := hline
  text := by
    simp [render, rows, whereabouts, hs, excerpt, hline, Palette.framed, Palette.plain]
  above_row := by
    rw [toList_sourceRow, List.mem_append, not_or]
    exact ⟨newline_not_mem_gutter s.line, Lines.newline_not_mem_of_nth? hline⟩
  below_row := newline_not_mem_underlineRow d.level s

theorem underlines_rows (level : Severity) (hcolumn : 1 ≤ s.startColumn) (line : List Char) :
    Underlines (max 3 (Numeral.text s.line).length - 2) s.startColumn line
      (sourceRow .plain s line).toList (underlineRow .plain level s).toList := by
  refine ⟨gutter s.line, toList_sourceRow s line, caret_mem_underlineRow level s, ?_⟩
  rw [idxOf_underlineRow, length_gutter]
  generalize (Numeral.text s.line).length = digits
  omega

/-- There is room for a diagnostic whose columns and underline fit a row. -/
theorem report_of_width (hs : d.span = some s) (hcolumn : 1 ≤ s.startColumn)
    (hroom : s.startColumn ≤ maxWidth) (hlength : (s.length : Int) ≤ maxWidth) :
    d.report source false = .ok (d.render source false) := by
  have hblanks : WidthLimit.of? (s.startColumn - 1) = none :=
    WidthLimit.of?_eq_none (by omega) (by omega)
  have hcarets : WidthLimit.of? s.length = none := WidthLimit.of?_eq_none (by omega) hlength
  have hlimit : d.widthLimit? source = none := by
    simp [widthLimit?, hs, hblanks, hcarets]
  simp [report, hlimit]

/-- The underline of a diagnostic whose span is on a line of the source never stands below the
column it begins at: it begins to the left of it, by two places less than the number of the line
takes. -/
theorem underline_left_of_column (hs : d.span = some s) (hfirst : 1 ≤ s.line)
    (hlast : s.line ≤ (Lines.split source.toList).length) (hcolumn : 1 ≤ s.startColumn) :
    ∃ line above below, Pictures d source s line above below ∧
      Underlines (max 3 (Numeral.text s.line).length - 2) s.startColumn line above below ∧
      ¬ Underlines 0 s.startColumn line above below ∧
      (s.startColumn ≤ maxWidth → (s.length : Int) ≤ maxWidth →
        d.report source false = .ok (d.render source false)) := by
  have hline : ∃ line, Lines.nth? (Lines.split source.toList) s.line = some line := by
    unfold Lines.nth?
    rw [if_pos hfirst]
    exact ⟨_, List.getElem?_eq_getElem (by omega)⟩
  obtain ⟨line, hline⟩ := hline
  have hunderlines := @underlines_rows s d.level hcolumn line
  refine ⟨line, _, _, pictures_rows hs hline, hunderlines, fun haligned => ?_,
    report_of_width hs hcolumn⟩
  have hshift := hunderlines.shift_unique haligned
  omega

/-- A name that is not found, on the third of four lines. -/
def undefinedTotl : Diagnostic :=
  { code := "E0102"
    level := .error
    message := "Undefined variable 'totl'"
    span := some ⟨3, 12, 16, "main.quill"⟩
    helps := ["did you mean 'total'?"] }

def totlText : String := "DEF main(): Integer DO\n    LET total = 1;\n    RETURN totl;\nEND\n"

/-- The underline begins below the blank in front of the name. -/
theorem undefinedTotl_misplaced :
    undefinedTotl.render totlText false =
      "error[E0102]: Undefined variable 'totl'\n  --> main.quill:3:12\n   |\n" ++
        "  3 |     RETURN totl;\n   |            ^^^^\n   |\n   = help: did you mean 'total'?" ∧
    ¬ Underlines 0 12 "    RETURN totl;".toList "  3 |     RETURN totl;".toList
      "   |            ^^^^".toList := by
  have hleft : Underlines 1 12 "    RETURN totl;".toList "  3 |     RETURN totl;".toList
      "   |            ^^^^".toList :=
    ⟨"  3 | ".toList, by decide, by decide, by decide⟩
  refine ⟨by decide +kernel, fun haligned => ?_⟩
  cases hleft.shift_unique haligned

/-- A text of so many empty lines. -/
def emptyLines (n : Nat) : String := String.ofList (List.replicate n '\n')

theorem length_split_emptyLines (n : Nat) : (Lines.split (emptyLines n).toList).length = n := by
  rw [emptyLines, String.toList_ofList]
  induction n with
  | zero => rfl
  | succ n ih => rw [List.replicate_succ, Lines.split_feed, List.length_cons, ih]

/-- A diagnostic for the last of a thousand lines. -/
def farBelow : Diagnostic :=
  { code := "E0201", level := .error, message := "Expected ';'", span := some ⟨1000, 1, 2, "a"⟩ }

theorem farBelow_left_of_column : farBelow.span = some ⟨1000, 1, 2, "a"⟩ ∧
    1000 ≤ (Lines.split (emptyLines 1000).toList).length ∧
    ∃ line above below, Pictures farBelow (emptyLines 1000) ⟨1000, 1, 2, "a"⟩ line above below ∧
      Underlines 2 1 line above below ∧ ¬ Underlines 0 1 line above below := by
  have hlines : 1000 ≤ (Lines.split (emptyLines 1000).toList).length :=
    Nat.le_of_eq (length_split_emptyLines 1000).symm
  have hshift : max 3 (Numeral.text 1000).length - 2 = 2 := by decide +kernel
  obtain ⟨line, above, below, hpictures, hunderlines, hmisplaced, -⟩ :=
    @underline_left_of_column farBelow ⟨1000, 1, 2, "a"⟩ (emptyLines 1000) rfl (by decide)
      (Int.ofNat_le.mpr hlines) (by decide)
  exact ⟨rfl, hlines, line, above, below, hpictures, hshift ▸ hunderlines, hmisplaced⟩

end Diagnostic

end QuillLang
