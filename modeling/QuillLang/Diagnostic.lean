/-
# Diagnostics

A diagnostic shows a fault on the screen: a code and a message, the line of
the source with the place underlined, and help.  The underline covers the word
that starts at the place of the fault, or one character if no word does.
-/
import QuillLang.Fault
import QuillLang.Text.Alphanumeric
import QuillLang.Text.Quoted

namespace QuillLang

/-- How serious a diagnostic is. -/
inductive Severity where
  | error
  | help
deriving DecidableEq, Repr

namespace Severity

def name : Severity → String
  | error => "error"
  | help => "help"

/-- The severity of a name. -/
def ofName? : String → Option Severity
  | "error" => some error
  | "help" => some help
  | _ => none

/-- What is said of a name that is no severity's. -/
def unknown (name : String) : String := Text.quoted name ++ " is not a valid DiagnosticLevel"

end Severity

/-- The file shown when a place has none. -/
def anonymousFile : String := "<input>"

/-- A part of a line, from one column up to but not including another. -/
structure Span where
  line : Int
  startColumn : Int
  endColumn : Int
  file : String := anonymousFile
deriving DecidableEq, Repr

namespace Span

/-- The number of columns underlined, at least one. -/
def length (s : Span) : Nat := max 1 (s.endColumn - s.startColumn).toNat

def text (s : Span) : String :=
  s.file ++ ":" ++ Numeral.text s.line ++ ":" ++ Numeral.text s.startColumn

end Span

structure Diagnostic where
  code : String
  level : Severity
  message : String
  span : Option Span := none
  helps : List String := []
deriving DecidableEq, Repr

/-- Whether a character is part of a word. -/
def isWordPart (c : Char) : Bool := Text.isAlphanumeric c || c == '_' || c == '-'

/-- The text from an offset on.  A negative offset counts from the end, and the whole text
follows once more; one that reaches beyond the start leads nowhere. -/
def textFrom? (source : List Char) (offset : Int) : Option (List Char) :=
  let back := (-offset).toNat
  if 0 ≤ offset then some (source.drop offset.toNat)
  else if back ≤ source.length then some (source.drop (source.length - back) ++ source)
  else none

/-- The length of the word at an offset, at least one. -/
def wordLength? (source : List Char) (offset : Int) : Option Nat :=
  (textFrom? source offset).map fun cs => max 1 (cs.takeWhile isWordPart).length

/-- The span of the word at a location, unless the location leads nowhere; one without a file is
shown in `file`. -/
def Span.ofLocation (source : List Char) (file : String) (p : Location) : Except Location Span :=
  match wordLength? source p.offset with
  | none => .error p
  | some length =>
    .ok {
      line := p.line
      startColumn := p.column
      endColumn := p.column + length
      file := (nonempty? p.file).getD file }

namespace Diagnostic

/-- The diagnostic of a fault in a source, unless the location of the fault leads nowhere. -/
def ofFault (f : Fault) (source : String) (file : String := anonymousFile) :
    Except Location Diagnostic := do
  let span ← f.location.mapM (Span.ofLocation source.toList file)
  return {
    code := (nonempty? f.code).getD f.stage.code.text
    level := .error
    message := f.message
    span
    helps := (nonempty? f.hint).toList }

/-! ## On the screen -/

/-- The marks that switch colours on and off. -/
structure Palette where
  reset : String := ""
  bold : String := ""
  frame : String := ""
  level : Severity → String := fun _ => ""

namespace Palette

def plain : Palette := {}

def colored : Palette :=
  { reset := "\x1b[0m"
    bold := "\x1b[1m"
    frame := "\x1b[94m"
    level := fun
      | .error => "\x1b[91m"
      | .help => "\x1b[92m" }

/-- A text in the colour of the frame around the source. -/
def framed (p : Palette) (text : String) : String := p.frame ++ text ++ p.reset

end Palette

/-- A number with blanks before it up to three columns. -/
def lineNumber (n : Int) : String := String.ofList ((Numeral.text n).toList.leftpad 3 ' ')

def repeated (n : Nat) (c : Char) : String := String.ofList (List.replicate n c)

/-- The first row. -/
def header (p : Palette) (d : Diagnostic) : String :=
  p.level d.level ++ p.bold ++ d.level.name ++ "[" ++ d.code ++ "]" ++ p.reset ++ ": " ++ p.bold ++
    d.message ++ p.reset

/-- The row of the source. -/
def sourceRow (p : Palette) (s : Span) (line : List Char) : String :=
  p.framed (lineNumber s.line ++ " |") ++ " " ++ String.ofList line

/-- The row below it, with the underline. -/
def underlineRow (p : Palette) (level : Severity) (s : Span) : String :=
  "   " ++ p.framed "|" ++ " " ++ repeated (s.startColumn - 1).toNat ' ' ++ p.level level ++
    repeated s.length '^' ++ p.reset

/-- The line of a span, framed and underlined, if the source has it. -/
def excerpt (p : Palette) (level : Severity) (source : String) (s : Span) : List String :=
  match Lines.nth? (Lines.split source.toList) s.line with
  | none => []
  | some line =>
    ["   " ++ p.framed "|", sourceRow p s line, underlineRow p level s, "   " ++ p.framed "|"]

/-- The rows that show where a diagnostic is. -/
def whereabouts (p : Palette) (d : Diagnostic) (source : String) : List String :=
  match d.span with
  | none => []
  | some s => ("  " ++ p.framed "-->" ++ " " ++ s.text) :: excerpt p d.level source s

def helpRow (p : Palette) (help : String) : String :=
  "   " ++ p.framed "=" ++ " " ++ p.level .help ++ Severity.help.name ++ ":" ++ p.reset ++ " " ++
    help

def rows (p : Palette) (d : Diagnostic) (source : String) : List String :=
  header p d :: (whereabouts p d source ++ d.helps.map (helpRow p))

/-- The diagnostic on the screen. -/
def render (d : Diagnostic) (source : String) (color : Bool := true) : String :=
  "\n".intercalate (rows (if color then .colored else .plain) d source)

/-- Why the diagnostic cannot be shown, if it cannot. -/
def widthLimit? (d : Diagnostic) (source : String) : Option WidthLimit := do
  let s ← d.span
  let _ ← Lines.nth? (Lines.split source.toList) s.line
  (WidthLimit.of? (s.startColumn - 1)).or (WidthLimit.of? s.length)

/-- The diagnostic in one line. -/
def summary (d : Diagnostic) : String := "[" ++ d.code ++ "] " ++ d.message

end Diagnostic

end QuillLang
