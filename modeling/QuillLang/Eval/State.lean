/-
# The state of a run

A running program has three tiers of scope: the frames of the blocks it is
in, the frame of the program, and the frames of the embedding program around
it.  A method sees only its own blocks and the outer two tiers, so the frames
of its caller are suspended while it runs and are put back afterwards.

Records live in one place and are known by number.  Functions of the
embedding program work on values and records and on nothing else.
-/
import QuillLang.Binding
import QuillLang.Eval.Operators

namespace QuillLang

/-- A variable with its value. -/
structure Cell extends Variable where
  value : Value

/-- A record: what it is, which decides its methods, and its fields. -/
structure Record where
  shape : String := ""
  fields : List (String × Cell) := []

/-- Give a record one more field, which may hold anything. -/
def Record.define (r : Record) (name : String) (value : Value) : Except Duplicate Record :=
  match r.fields.lookup name with
  | some _ => .error (.ofVariable name)
  | none =>
    let cell : Cell := { name, runtimeName := name, type := .any, origin := .outside, value }
    .ok { r with fields := r.fields ++ [(name, cell)] }

/-- A function of the embedding program. -/
abbrev Native := List Value → Array Record → Except Halt Value × Array Record

/-- What a function does when it is called. -/
inductive Body where
  | print
  | method (m : Method Mark)
  | native (f : Native)

/-- A function that can be called. -/
structure Function extends Signature where
  body : Body

abbrev RunFrame := Frame Cell Function

/-- What can be seen of a run from step to step. -/
inductive Event where
  /-- The expression at a node has a value. -/
  | value (node : Nat) (v : Value)
  /-- The call at a node calls a function. -/
  | call (node : Nat) (f : Function)
  /-- A variable gets a value. -/
  | write (x : Variable) (v : Value)
  /-- A method is entered as the so-manieth of those that are not left yet. -/
  | enter (depth : Nat)
  /-- The so-manieth of the methods that are not left yet is left. -/
  | leave (depth : Nat)

/-- A point of a run: what has just happened, and the variables that are live there. -/
structure Moment where
  event : Event
  live : List Cell

structure State where
  /-- The blocks of the running method, the innermost first. -/
  locals : Chain Cell Function := []
  /-- The blocks of the methods that wait for the running one. -/
  suspended : Chain Cell Function := []
  globals : RunFrame := {}
  outside : Chain Cell Function := []
  records : Array Record := #[]
  output : String := ""
  /-- The points of the run so far, the latest first, if they are recorded. -/
  trace : List Moment := []

/-- What stays the same during a run. -/
structure Machine where
  /-- The places of a decimal quotient. -/
  scale : Int := 1
  /-- How many methods may be running inside each other. -/
  maxDepth : Int := 1000
  /-- Whether the points of a run are recorded. -/
  tracing : Bool := false
  /-- The methods of the embedding program's records, by what a record is. -/
  methods : String → List (FunctionKey × Native) := fun _ => []

/-- The most that the limit on running methods may be: there are 25 levels for each, and all of
them are counted in a 32-bit word. -/
def Machine.depthBound : Nat := 85899345

abbrev Exec := EStateM Halt State

namespace State

/-- All frames, from the innermost outward. -/
def chain (s : State) : Chain Cell Function := s.locals ++ s.globals :: s.outside

/-- The variables of all frames, those of waiting methods included. -/
def live (s : State) : List Cell :=
  (s.locals ++ s.suspended ++ s.globals :: s.outside).flatMap fun f => f.vars.map (·.2)

/-- The state with one more point recorded, if points are recorded. -/
def noted (s : State) (m : Machine) (e : Event) : State :=
  if m.tracing then { s with trace := ⟨e, s.live⟩ :: s.trace } else s

/-- Define a variable in the innermost frame. -/
def define (s : State) (name : String) (cell : Cell) : Except Duplicate State :=
  match s.locals with
  | [] => (s.globals.defineVariable name cell).map fun globals => { s with globals }
  | f :: fs => (f.defineVariable name cell).map fun f => { s with locals := f :: fs }

/-- Define a function in the innermost frame. -/
def defineFunction (s : State) (f : Function) : Except Duplicate State :=
  match s.locals with
  | [] => (s.globals.defineFunction f.key f).map fun globals => { s with globals }
  | g :: gs => (g.defineFunction f.key f).map fun g => { s with locals := g :: gs }

/-- Give the variable that a name means a value. -/
def assign (s : State) (name : String) (v : Value) : State :=
  let change (c : Cell) : Cell := { c with value := v }
  match Chain.modifyVariable? s.locals name change with
  | some locals => { s with locals }
  | none =>
    match s.globals.modifyVariable? name change with
    | some globals => { s with globals }
    | none =>
      match Chain.modifyVariable? s.outside name change with
      | some outside => { s with outside }
      | none => s

/-- The field of a value. -/
def field? (s : State) (receiver : Value) (name : String) : Option Cell :=
  match receiver with
  | .record id => s.records[id]?.bind fun r => r.fields.lookup name
  | _ => none

end State

/-- Give a field of a record a value. -/
def setField (records : Array Record) (id : Nat) (name : String) (v : Value) : Array Record :=
  records.modify id fun r =>
    { r with
      fields := r.fields.map fun (x, c) => (x, if x = name then { c with value := v } else c) }

namespace Exec

def fail {α : Type} (cause : EvalCause) (place : Place) : Exec α :=
  throw (.located place cause)

def ofExcept {α : Type} : Except Halt α → Exec α
  | .ok a => pure a
  | .error h => throw h

/-- Record a point of the run, if points are recorded. -/
def note (m : Machine) (e : Event) : Exec Unit := modify (·.noted m e)

/-- Record the point after an action, however it ends. -/
def noting {α : Type} (m : Machine) (e : Event) (act : Exec α) : Exec α := fun s =>
  match act s with
  | .ok a t => .ok a (t.noted m e)
  | .error h t => .error h (t.noted m e)

/-- The value of a condition. -/
def requireBoolean (v : Value) (place : Place) : Exec Bool :=
  match v with
  | .boolean b => pure b
  | v => fail (.wrongKind .boolean v.kind) place

/-- The elements of a list. -/
def requireIterable (v : Value) (place : Place) : Exec (List Value) :=
  match v with
  | .iterable items => pure items
  | v => fail (.wrongKind .iterable v.kind) place

/-- Write a line. -/
def print (v : Value) : Exec Unit :=
  match v.text? with
  | some text => modify fun s => { s with output := s.output ++ text ++ "\n" }
  | none => throw (.digits .writing)

/-- Call a function of the embedding program. -/
def native (f : Native) (args : List Value) : Exec Value := fun s =>
  match f args s.records with
  | (.ok v, records) => .ok v { s with records }
  | (.error h, records) => .error h { s with records }

/-- Give an error without a place that of the call. -/
def relocating {α : Type} (place : Place) (act : Exec α) : Exec α := fun s =>
  match act s with
  | .ok a s => .ok a s
  | .error (.error e) s => .error (.error (e.relocate place)) s
  | .error h s => .error h s

/-- Run a block inside the current one. -/
def inBlock {α : Type} (frame : RunFrame) (act : Exec α) : Exec α := fun s =>
  match act { s with locals := frame :: s.locals } with
  | .ok a t => .ok a { t with locals := t.locals.tail }
  | .error h t => .error h { t with locals := t.locals.tail }

/-- Run the body of a method, out of reach of the caller's blocks. -/
def inMethod {α : Type} (frame : RunFrame) (act : Exec α) : Exec α := fun s =>
  match act { s with locals := [frame], suspended := s.locals ++ s.suspended } with
  | .ok a t => .ok a { t with locals := s.locals, suspended := s.suspended }
  | .error h t => .error h { t with locals := s.locals, suspended := s.suspended }

/-- Define a variable in the innermost frame. -/
def define (m : Machine) (cell : Cell) (place : Place) : Exec Unit := do
  let s ← get
  match s.define cell.name cell with
  | .ok s =>
    set s
    note m (.write cell.toVariable cell.value)
  | .error key => fail (.duplicate key) place

/-- The variable that a name means. -/
def lookup (name : String) (place : Place) : Exec Cell := do
  let s ← get
  match Chain.findVariable? s.chain name with
  | some cell => return cell
  | none => fail (.undefinedVariable name) place

/-- The field of a value. -/
def lookupField (receiver : Value) (name : String) : Exec Cell := do
  let s ← get
  match s.field? receiver name with
  | some cell => return cell
  | none => throw (.error { cause := .noField receiver.kind name })

/-- Give the variable that a name means a value. -/
def assign (m : Machine) (cell : Cell) (name : String) (v : Value) : Exec Unit := do
  modify (·.assign name v)
  note m (.write cell.toVariable v)

/-- Give a field of a record a value. -/
def assignField (m : Machine) (receiver : Value) (cell : Cell) (name : String) (v : Value) :
    Exec Unit := do
  match receiver with
  | .record id => modify fun s => { s with records := setField s.records id name v }
  | _ => pure ()
  note m (.write cell.toVariable v)

/-- Call a method of a value. -/
def callMember (m : Machine) (receiver : Value) (name : String) (args : List Value) :
    Exec Value := do
  match receiver with
  | .string text => ofExcept (Value.callString text name args)
  | .record id =>
    let s ← get
    let methods := (s.records[id]?.map fun r => m.methods r.shape).getD []
    match methods.lookup (name, args.length + 1) with
    | some f => native f (receiver :: args)
    | none => throw (.error { cause := .noMethod .record name args.length })
  | v => throw (.error { cause := .noMethod v.kind name args.length })

end Exec

end QuillLang
