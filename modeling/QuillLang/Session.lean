/-
# Sessions

A session checks and runs a program piece by piece, with one checker and one
interpreter that keep what the pieces before have declared, also when a piece
fails halfway.  The two know nothing of each other: what is checked need not
be run, nor the other way round.
-/
import QuillLang.Source

namespace QuillLang

/-- A piece of a program that can stand alone. -/
inductive Piece (α : Type) where
  | expr (e : Expr α)
  | stmt (s : Stmt α)
  | field (f : Field α)
  | method (m : Method α)

def Piece.mark : Piece Place → (n : Nat) → Piece Mark × Nat
  | .expr e, n => let (e, k) := e.mark n; (.expr e, k)
  | .stmt s, n => let (s, k) := s.mark n; (.stmt s, k)
  | .field f, n => let (f, k) := f.mark n; (.field f, k)
  | .method m, n => let (m, k) := m.mark n; (.method m, k)

/-- Number pieces one after the other. -/
def Piece.markAll : List (Piece Place) → (n : Nat) → List (Piece Mark) × Nat
  | [], n => ([], n)
  | p :: ps, n =>
    let (p, k) := p.mark n
    let (ps, k) := markAll ps k
    (p :: ps, k)

def Check.piece : Piece Mark → Check Unit
  | .expr e => do let _ ← Check.expr e
  | .stmt s => Check.stmt s
  | .field f => Check.field f
  | .method m => Check.method m

def Check.pieces : List (Piece Mark) → Check Unit
  | [] => pure ()
  | p :: ps => do
    Check.piece p
    Check.pieces ps

/-- The type of an expression that is checked `times + 1` times over. -/
def Check.again (e : Expr Mark) : (times : Nat) → Check Ty
  | 0 => Check.expr e
  | n + 1 => do
    let _ ← Check.expr e
    Check.again e n

def Interpreter.piece (i : Interpreter) : Piece Mark → Except Halt Unit × Interpreter
  | .expr e => let (v, i) := i.evaluate e; (v.map fun _ => (), i)
  | .stmt s => i.execute s
  | .field f => i.defineField f
  | .method m => i.defineMethod m

/-- Execute pieces up to the first that fails. -/
def Interpreter.pieces (i : Interpreter) : List (Piece Mark) → Except Halt Unit × Interpreter
  | [] => (.ok (), i)
  | p :: ps =>
    match i.piece p with
    | (.ok (), i) => i.pieces ps
    | (.error h, i) => (.error h, i)

structure Session where
  checker : Checker
  interpreter : Interpreter
  /-- The next free number of a node. -/
  next : Nat := 0
  /-- The text whose lines are shown with faults of checking. -/
  text : String := ""

namespace Session

/-- A session in which nothing is declared yet. -/
def start (machine : Machine) (outside : Embedding) (text : String := "") : Session :=
  { checker := Checker.start outside.static
    interpreter := Interpreter.start machine outside.running
    text }

/-- The outcome of a run, and the session after it. -/
def ran {α : Type} (s : Session) (next : Nat) (r : Except Halt α × Interpreter) :
    Except Failure α × Session :=
  (r.1.mapError Halt.failure, { s with interpreter := r.2, next })

/-- The outcome of a check, and the session after it. -/
def checked {α : Type} (s : Session) (next : Nat) (r : Except CheckFailure α × Checker) :
    Except Failure α × Session :=
  (r.1.mapError (CheckFailure.failure s.text), { s with checker := r.2, next })

/-- Run a program from an empty scope. -/
def run (s : Session) (p : Program Place) : Except Failure Int × Session :=
  let (p, next) := p.mark s.next
  s.ran next (s.interpreter.run p)

def evaluate (s : Session) (e : Expr Place) : Except Failure Value × Session :=
  let (e, next) := e.mark s.next
  s.ran next (s.interpreter.evaluate e)

def execute (s : Session) (ps : List (Piece Place)) : Except Failure Unit × Session :=
  let (ps, next) := Piece.markAll ps s.next
  s.ran next (s.interpreter.pieces ps)

/-- Call a function of the interpreter. -/
def call (s : Session) (f : Function) (args : List Value) : Except Failure Value × Session :=
  s.ran s.next (s.interpreter.call f args)

/-- Check a program from a fresh start. -/
def check (s : Session) (p : Program Place) : Except Failure Model × Session :=
  let (p, next) := p.mark s.next
  s.checked next (s.checker.check p)

/-- Check an expression once and `again` more times. -/
def typeOf (s : Session) (e : Expr Place) (again : Nat := 0) : Except Failure Ty × Session :=
  let (e, next) := e.mark s.next
  s.checked next (s.checker.run (Check.again e again))

def checkPieces (s : Session) (ps : List (Piece Place)) : Except Failure Unit × Session :=
  let (ps, next) := Piece.markAll ps s.next
  s.checked next (s.checker.run (Check.pieces ps))

/-- The text printed since this was last asked, and the session that goes on from there. -/
def takeOutput (s : Session) : String × Session :=
  let (output, interpreter) := s.interpreter.takeOutput
  (output, { s with interpreter })

end Session

end QuillLang
