/-
# Failures

All the ways in which working on a program can stop, in one type: a fault of
the program that is reported to its reader, or one of the limits of the
machinery.
-/
import QuillLang.Check.Basic
import QuillLang.Diagnostic
import QuillLang.Eval.Error
import QuillLang.Token.Scan
import QuillLang.Tree.Parse

namespace QuillLang

inductive Failure where
  | fault (f : Fault)
  /-- An integer has too many digits to be read or written. -/
  | digits (limit : DigitLimit)
  /-- A quotient cannot be computed in the precision of its scale. -/
  | quotient (limit : QuotientLimit)
  /-- An operation on decimals has no result. -/
  | signal (s : Signal)
  /-- A collection of different values is to hold a signalling decimal. -/
  | notMember
  /-- More methods may be running inside each other than a machine can count. -/
  | depth
  /-- Nothing is at the position where something is asked for: an argument, a scope. -/
  | outOfRange
  /-- An embedding program has defined a name before. -/
  | duplicate (key : Duplicate)
  /-- A node was given a second fact. -/
  | resolved (node : NodeClass) (slot : Slot)
  /-- A fault is said to be before the start of the text. -/
  | beforeText (p : Location)
  /-- A report has a row that is too wide. -/
  | width (limit : WidthLimit)
  /-- A library that the program is used with has failed, in a way of its own. -/
  | outside (kind message : String)
  /-- The fuel of a run or a reading was used up. -/
  | unfinished
deriving DecidableEq, Repr

/-- The one-line message of a failure. -/
def Failure.message : Failure → String
  | fault f => f.message
  | digits limit => limit.message
  | quotient .scale => "int too large to convert to float"
  | quotient .size => "integer division result too large for a float"
  | quotient .exponent => "exponent out of bounds"
  | signal .overflow => "decimal out of bounds"
  | signal .invalid => "operation not defined on decimals"
  | signal .notNumber => "cannot convert NaN to integer ratio"
  | signal .infinite => "cannot convert Infinity to integer ratio"
  | notMember => "Cannot hash a signaling NaN value"
  | depth => "call depth out of bounds"
  | outOfRange => "list index out of range"
  | duplicate key => key.message
  | resolved node slot => node.name ++ " already has a resolved " ++ slot.name
  | beforeText p => if isMachineWord p.offset then "string index out of range" else uncounted
  | width .uncounted => uncounted
  | width .noRoom => ""
  | outside _ message => message
  | unfinished => "out of fuel"
where
  /-- What is said of an integer that is no machine word. -/
  uncounted : String := "cannot fit 'int' into an index-sized integer"

/-- A failure to split a text into tokens. -/
def ScanError.failure (source : String) (e : ScanError) : Failure := .fault (e.fault source)

/-- A failure to read a tree from tokens. -/
def ParseFailure.failure (tokens : List Token) (source : String) (file : Option String) :
    ParseFailure → Failure
  | .unexpected e => .fault (e.fault tokens source file)
  | .digits limit => .digits limit
  | .outOfFuel | .noToken => .unfinished

/-- A failure of checking. -/
def CheckFailure.failure (source : String) : CheckFailure → Failure
  | .error e => .fault (e.fault source)
  | .resolved node slot => .resolved node slot

/-- A failure of a run. -/
def Halt.failure : Halt → Failure
  | .error e => .fault e.fault
  | .digits limit => .digits limit
  | .quotient limit => .quotient limit
  | .signal s => .signal s
  | .depth => .depth
  | .missingArgument => .outOfRange
  | .outOfFuel => .unfinished

/-- The diagnostic of a fault in a source. -/
def Fault.diagnose (f : Fault) (source : String) (file : String := anonymousFile) :
    Except Failure Diagnostic :=
  (Diagnostic.ofFault f source file).mapError .beforeText

/-- The text of a fault. -/
def Fault.report (f : Fault) : Except Failure String :=
  match f.widthLimit? with
  | none => .ok f.text
  | some limit => .error (.width limit)

/-- A diagnostic on the screen. -/
def Diagnostic.report (d : Diagnostic) (source : String) (color : Bool := true) :
    Except Failure String :=
  match d.widthLimit? source with
  | none => .ok (d.render source color)
  | some limit => .error (.width limit)

end QuillLang
