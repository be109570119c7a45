/-
# Sources

A source is the text of a program, or of a piece of one, with the name of the
file it is from.  It goes through four stages: it is split into tokens, read
into a tree, checked and run.  The first stage that fails ends the work.
-/
import QuillLang.Check.Rules
import QuillLang.Diagnostic
import QuillLang.Embedding
import QuillLang.Failure
import QuillLang.Tree.Mark

namespace QuillLang

structure Source where
  text : String
  file : Option String := none
  /-- Whether the text is still at hand when the tokens are read, to show lines of it. -/
  kept : Bool := true

namespace Source

/-- The text as far as it is at hand when the tokens are read. -/
def shown (s : Source) : String := if s.kept then s.text else ""

def tokens (s : Source) : Except Failure (List Token) :=
  (tokenize s.text s.file).mapError (ScanError.failure s.text)

/-- Read the tokens of a source. -/
def parseWith {α : Type} (s : Source) (parse : List Token → Except ParseFailure α) :
    Except Failure α := do
  let tokens ← s.tokens
  (parse tokens).mapError (ParseFailure.failure tokens s.shown s.file)

/-- The program that a source is the text of. -/
def program (s : Source) : Except Failure (Program Place) := s.parseWith parseProgram

/-- The expression at the start of a source, and the tokens after it. -/
def expression (s : Source) : Except Failure (Leaving (Expr Place)) := s.parseWith parseExpression

/-- The statements that a source is the text of. -/
def statements (s : Source) : Except Failure (List (Stmt Place)) := s.parseWith parseStatements

/-- The model of a program. -/
def check (s : Source) (outside : Embedding) : Except Failure Model := do
  let p ← s.program
  ((Checker.start outside.static).check (p.mark 0).1).1.mapError (CheckFailure.failure s.text)

/-- Whether a program is to be checked before it runs. -/
inductive Checking where
  | first
  | skipped
deriving DecidableEq, Repr

/-- Check a tree, if it is to be checked. -/
def accept (s : Source) (outside : Embedding) (p : Program Mark) : Checking → Except Failure Unit
  | .skipped => .ok ()
  | .first =>
    match ((Checker.start outside.static).check p).1 with
    | .ok _ => .ok ()
    | .error e => .error (e.failure s.text)

/-- Run a program: its exit code or why it has none, and the text printed. -/
def run (s : Source) (machine : Machine) (outside : Embedding) (checking : Checking := .first) :
    Except Failure Int × String :=
  match s.program with
  | .error e => (.error e, "")
  | .ok p =>
    let p := (p.mark 0).1
    match s.accept outside p checking with
    | .error e => (.error e, "")
    | .ok () =>
      let (result, i) := (Interpreter.start machine outside.running).run p
      (result.mapError Halt.failure, i.state.output)

/-- Run a program and tell what is wrong with it, if something is.  Files are shown under the
name `file` where they have none. -/
def diagnose (s : Source) (machine : Machine) (outside : Embedding)
    (file : String := anonymousFile) : Except Failure (Option Diagnostic) :=
  match (s.run machine outside).1 with
  | .ok _ => .ok none
  | .error (.fault f) => (f.diagnose s.text file).map some
  | .error f => .error f

/-- What becomes of an expression: its type, its value, and the text printed. -/
structure Evaluation where
  type : Except Failure Ty
  value : Except Failure Value
  /-- The interpreter after the evaluation. -/
  after : Interpreter

/-- Check and evaluate the expression at the start of a source, one without regard to the
other. -/
def evaluate (s : Source) (machine : Machine) (outside : Embedding) :
    Except Failure Evaluation := do
  let (e, _) ← s.expression
  let e := (e.mark 0).1
  let type := ((Checker.start outside.static).run (Check.expr e)).1
  let (value, after) := (Interpreter.start machine outside.running).evaluate e
  return {
    type := type.mapError (CheckFailure.failure s.text)
    value := value.mapError Halt.failure
    after }

end Source

end QuillLang
