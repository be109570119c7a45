/-
# Faults

A fault is what a reader of a program is told when one of the four stages
stops: the message, where it happened, the line it happened on, a code and a
hint.  Each stage has its own type of causes; this is the form they all end
up in.
-/
import QuillLang.Code
import QuillLang.Location
import QuillLang.Text.Lines

namespace QuillLang

/-- The stage that stopped. -/
inductive Stage where
  | unstaged
  | tokens
  | tree
  | check
  | evaluation
deriving DecidableEq, Repr

/-- The code of a fault that brings none of its own. -/
def Stage.code : Stage → Code
  | .unstaged => .typeMismatch
  | .tokens => .unexpectedCharacter
  | .tree => .unexpectedToken
  | .check => .typeMismatch
  | .evaluation => .kindMismatch

/-- A fault as it is reported.  Code and hint are free text, since an embedding program may
report faults of its own; an empty text counts as none. -/
structure Fault where
  stage : Stage
  message : String
  location : Option Location := none
  sourceLine : Option String := none
  code : Option String := none
  hint : Option String := none
deriving DecidableEq, Repr

/-- The text, if it is there and not empty. -/
def nonempty? (s : Option String) : Option String := s.filter (!·.isEmpty)

/-- The line of a source that a location is on, if the source has so many. -/
def sourceLine? (source : String) (p : Location) : Option String :=
  (Lines.nth? (Lines.split source.toList) p.line).map String.ofList

/-! ## Widths of reports -/

/-- Whether an integer is a machine word: 64 bits, one of them the sign. -/
def isMachineWord (n : Int) : Bool := -9223372036854775808 ≤ n && n ≤ 9223372036854775807

/-- The most columns that there is room for in a row. -/
def maxWidth : Int := 1000000000000

/-- Why a row of a report cannot be written. -/
inductive WidthLimit where
  /-- The number of columns is no machine word. -/
  | uncounted
  /-- There is no room for so many columns. -/
  | noRoom
deriving DecidableEq, Repr

/-- What stands against a row of `n` columns; a negative number means none. -/
def WidthLimit.of? (n : Int) : Option WidthLimit :=
  if !isMachineWord n then some uncounted
  else if maxWidth < n then some noRoom
  else none

/-! ## Texts of faults -/

namespace Fault

/-- The message with its hint in parentheses. -/
def headline (f : Fault) : String :=
  match nonempty? f.hint with
  | some hint => f.message ++ " (" ++ hint ++ ")"
  | none => f.message

/-- The blanks before the caret at a column of a line that is indented by four. -/
def padding (column : Int) : Int := 4 + column - 1

/-- The line a fault is on, indented by four, above a caret at its column. -/
def excerpt (line : String) (column : Int) : String :=
  "\n    " ++ line ++ "\n" ++ String.ofList (List.replicate (padding column).toNat ' ') ++ "^"

/-- The fault as one text: location, message with hint, and the line with a caret. -/
def text (f : Fault) : String :=
  match f.location with
  | none => f.headline
  | some p =>
    let line := match nonempty? f.sourceLine with
      | some line => excerpt line p.column
      | none => ""
    "[" ++ p.text ++ "] " ++ f.headline ++ line

/-- Why the text cannot be written, if it cannot. -/
def widthLimit? (f : Fault) : Option WidthLimit :=
  match f.location, nonempty? f.sourceLine with
  | some p, some _ => WidthLimit.of? (padding p.column)
  | _, _ => none

end Fault

end QuillLang
