/-
# Locations in a source text

A location counts code points: line and column from one, offset from zero.
Only a line feed starts a new line.  There are two ways to get one: walk
over the text (`advanceAll`), as reading does, or count in the text before
an offset (`ofOffset`).  They lead to the same point (`advanceAll_start`).  An
embedding program may also make up a location, so the numbers may be any
integers.
-/
import QuillLang.Numeral

namespace QuillLang

/-- A point of a source text, and the file it belongs to if one was named. -/
structure Location where
  line : Int
  column : Int
  offset : Int
  file : Option String := none
deriving DecidableEq, Repr, Inhabited

namespace Location

/-- The first point of a text. -/
def start (file : Option String) : Location := ⟨1, 1, 0, file⟩

/-- The point after one more character. -/
def advance (p : Location) (c : Char) : Location :=
  if c = '\n' then { p with line := p.line + 1, column := 1, offset := p.offset + 1 }
  else { p with column := p.column + 1, offset := p.offset + 1 }

/-- The point after a stretch of text. -/
def advanceAll (p : Location) (cs : List Char) : Location := cs.foldl advance p

/-- The point at an offset; an offset outside the text is moved to its nearer end. -/
def ofOffset (source : List Char) (offset : Int) (file : Option String) : Location :=
  let before := source.take offset.toNat
  { line := before.count '\n' + 1
    column := (before.reverse.takeWhile (· ≠ '\n')).length + 1
    offset := before.length
    file }

theorem advanceAll_append (p : Location) (cs ds : List Char) :
    p.advanceAll (cs ++ ds) = (p.advanceAll cs).advanceAll ds :=
  List.foldl_append

/-- What is counted lies before the offset. -/
theorem ofOffset_append (before rest : List Char) (file : Option String) :
    ofOffset (before ++ rest) before.length file = ofOffset before before.length file := by
  simp [ofOffset]

theorem ofOffset_length (before : List Char) (file : Option String) :
    ofOffset before before.length file =
      ⟨before.count '\n' + 1, (before.reverse.takeWhile (· ≠ '\n')).length + 1, before.length,
        file⟩ := by
  simp [ofOffset]

theorem advance_ofOffset (before : List Char) (c : Char) (file : Option String) :
    (ofOffset before before.length file).advance c =
      ofOffset (before ++ [c]) (before ++ [c]).length file := by
  rw [ofOffset_length, ofOffset_length]
  by_cases hc : c = '\n'
  · simp [advance, hc]
  · simp [advance, hc]

theorem advanceAll_ofOffset (before cs : List Char) (file : Option String) :
    (ofOffset before before.length file).advanceAll cs =
      ofOffset (before ++ cs) (before ++ cs).length file := by
  induction cs generalizing before with
  | nil => simp [advanceAll]
  | cons c cs ih =>
      show ((ofOffset before before.length file).advance c).advanceAll cs = _
      rw [advance_ofOffset, ih, List.append_assoc]
      rfl

/-- Walking over the beginning of a text leads where counting leads. -/
theorem advanceAll_start (before rest : List Char) (file : Option String) :
    (start file).advanceAll before = ofOffset (before ++ rest) before.length file := by
  rw [ofOffset_append]
  exact advanceAll_ofOffset [] before file

/-- Within a line only the column moves. -/
theorem advanceAll_of_line {cs : List Char} (h : '\n' ∉ cs) (p : Location) :
    p.advanceAll cs = ⟨p.line, p.column + cs.length, p.offset + cs.length, p.file⟩ := by
  induction cs generalizing p with
  | nil => simp [advanceAll]
  | cons c cs ih =>
      obtain ⟨hc, hcs⟩ := not_or.mp fun hmem => h (List.mem_cons.mpr hmem)
      show (p.advance c).advanceAll cs = _
      rw [ih hcs, advance, if_neg (Ne.symm hc)]
      simp only [List.length_cons]
      congr 1 <;> omega

/-- A location that was counted is the one at its own offset. -/
theorem ofOffset_offset (source : List Char) (offset : Int) (file : Option String) :
    ofOffset source (ofOffset source offset file).offset file = ofOffset source offset file := by
  have htake : source.take (source.take offset.toNat).length = source.take offset.toNat := by
    simp [List.take_eq_take_iff]
  simp only [ofOffset, Int.toNat_natCast, htake]

/-- A location is shown as `line:column`, after the file name if there is one. -/
def text (p : Location) : String :=
  let here := Numeral.text p.line ++ ":" ++ Numeral.text p.column
  match p.file with
  | some file => if file.isEmpty then here else file ++ ":" ++ here
  | none => here

end Location

end QuillLang
