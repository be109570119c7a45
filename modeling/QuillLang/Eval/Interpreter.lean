/-
# Interpreters

An interpreter holds the state between runs.  A whole program starts from an
empty scope of its own; single expressions, statements and declarations work
in the scope that the last one left, so a program can be explored piece by
piece.
-/
import QuillLang.Eval.Rules

namespace QuillLang

/-- What an embedding program makes visible to a running program: frames around it, records,
and the methods of its records. -/
structure RunOutside where
  frames : Chain Cell Function := []
  records : Array Record := #[]
  methods : String → List (FunctionKey × Native) := fun _ => []

structure Interpreter where
  machine : Machine := {}
  state : State

namespace Exec

/-- The exit code of a program: what `main` gives, which has to be an integer. -/
def exitCode : Value → Exec Int
  | .integer n => pure n
  | v => fail (.mainResult v.kind) none

/-- A statement on its own: there is no method to return from. -/
def complete (place : Place) : Flow → Exec Unit
  | .next => pure ()
  | .ret _ => fail .returnOutside place

end Exec

namespace Interpreter

/-- Fuel beyond the reach of any run. -/
def ample : Nat := 1000000000000000000

/-- The scope of a program before any of its declarations. -/
def builtinFrame : RunFrame :=
  { functions := [(printSignature.key, { toSignature := printSignature, body := .print })] }

/-- An interpreter that has run nothing yet. -/
def start (machine : Machine) (outside : RunOutside) : Interpreter :=
  { machine := { machine with methods := outside.methods }
    state := { globals := builtinFrame, outside := outside.frames, records := outside.records } }

/-- Run an action and keep the state it leaves. -/
def perform {α : Type} (i : Interpreter) (act : Exec α) : Except Halt α × Interpreter :=
  match act i.state with
  | .ok a state => (.ok a, { i with state })
  | .error h state => (.error h, { i with state })

/-- Run an action on a machine that can keep its limit on running methods. -/
def guarded {α : Type} (i : Interpreter) (act : Exec α) : Except Halt α × Interpreter :=
  if i.machine.maxDepth ≤ Machine.depthBound then i.perform act else (.error .depth, i)

/-- Forget all declarations. -/
def reset (i : Interpreter) : Interpreter :=
  { i with state := { i.state with locals := [], globals := builtinFrame } }

/-- Run a program from an empty scope and give its exit code. -/
def run (i : Interpreter) (p : Program Mark) (fuel : Nat := ample) :
    Except Halt Int × Interpreter :=
  i.reset.guarded do Exec.exitCode (← Exec.program i.machine fuel 0 p)

/-- The value of an expression in the current scope. -/
def evaluate (i : Interpreter) (e : Expr Mark) (fuel : Nat := ample) :
    Except Halt Value × Interpreter :=
  i.guarded (Exec.expr i.machine fuel 0 e)

/-- Execute a statement in the current scope. -/
def execute (i : Interpreter) (s : Stmt Mark) (fuel : Nat := ample) :
    Except Halt Unit × Interpreter :=
  i.guarded do Exec.complete s.tag.place (← Exec.stmt i.machine fuel 0 s)

/-- Define a field in the current scope. -/
def defineField (i : Interpreter) (f : Field Mark) (fuel : Nat := ample) :
    Except Halt Unit × Interpreter :=
  i.guarded (Exec.field i.machine fuel 0 f)

/-- Define a method in the current scope. -/
def defineMethod (i : Interpreter) (d : Method Mark) : Except Halt Unit × Interpreter :=
  i.guarded (Exec.method d)

/-- The function of a name and a number of arguments. -/
def findFunction? (i : Interpreter) (key : FunctionKey) : Option Function :=
  Chain.findFunction? i.state.chain key

/-- Call a function. -/
def call (i : Interpreter) (f : Function) (args : List Value) (fuel : Nat := ample) :
    Except Halt Value × Interpreter :=
  i.perform (Exec.invoke i.machine fuel 0 f args)

/-- The field of a value. -/
def fieldOf (i : Interpreter) (v : Value) (name : String) : Except Halt Cell :=
  (i.perform (Exec.lookupField v name)).1

/-- Call a method of a value. -/
def callMethod (i : Interpreter) (v : Value) (name : String) (args : List Value) :
    Except Halt Value × Interpreter :=
  i.perform (Exec.callMember i.machine v name args)

/-- All names that can be seen from the current scope. -/
def visibleNames (i : Interpreter) : List String := Chain.visibleNames i.state.chain

/-- The variables of the current scope itself. -/
def cells (i : Interpreter) : List Cell := i.state.globals.vars.map (·.2)

/-- The text printed so far, and the interpreter with none. -/
def takeOutput (i : Interpreter) : String × Interpreter :=
  (i.state.output, { i with state := { i.state with output := "" } })

end Interpreter

end QuillLang
