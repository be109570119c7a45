/-
# Running a program

One rule for every form of expression, statement and declaration.  The fuel
bounds how deep rules may nest, an iteration of a loop being one level, and is
no part of the language; the depth counts the methods that are running, and a
program that goes beyond the machine's limit is stopped with an error.
-/
import QuillLang.Eval.State

namespace QuillLang

/-- How a statement ends: the next one follows, or the method returns. -/
inductive Flow where
  | next
  | ret (v : Value)

/-- The type of a variable in a running program: the one it names, else `Any`. -/
def runType (typeName : Option String) : Ty := (typeName.bind Ty.ofName?).getD .any

/-- The result type of a method in a running program: the one it names, else `Nil`. -/
def runResult (typeName : Option String) : Ty := (typeName.bind Ty.ofName?).getD .nil

/-- A variable that a node of the program declares, with its first value. -/
def Cell.declare (mark : Mark) (name : String) (type : Ty) (value : Value) : Cell :=
  { name, runtimeName := name, type, origin := .node mark.id, value }

/-- The frame of a method call: each parameter with its argument. -/
def bindParameters (mark : Mark) : List (String × Ty × Value) → RunFrame → Except Duplicate RunFrame
  | [], frame => .ok frame
  | (x, t, v) :: ps, frame => do
    let frame ← frame.defineVariable x (Cell.declare mark x t v)
    bindParameters mark ps frame

namespace Exec

/-- Record the values that the variables of a frame get. -/
def noteFrame (m : Machine) : List (String × Cell) → Exec Unit
  | [] => pure ()
  | (_, c) :: cs => do
    note m (.write c.toVariable c.value)
    noteFrame m cs

mutual

/-- The value of an expression. -/
def expr (m : Machine) : (fuel : Nat) → (depth : Nat) → Expr Mark → Exec Value
  | 0, _, _ => throw .outOfFuel
  | n + 1, depth, e => do
    let v ← form m n depth e
    note m (.value e.tag.id v)
    return v
termination_by structural fuel => fuel

/-- The value of an expression, by its form. -/
def form (m : Machine) : (fuel : Nat) → (depth : Nat) → Expr Mark → Exec Value
  | 0, _, _ => throw .outOfFuel
  | _ + 1, _, .nil _ => return .nil
  | _ + 1, _, .boolean _ b => return .boolean b
  | _ + 1, _, .character _ s => return .character s
  | _ + 1, _, .string _ s => return .string s
  | _ + 1, _, .integer _ i => return .integer i
  | _ + 1, _, .decimal _ d => return .decimal (.finite d)
  | n + 1, depth, .group _ e => expr m n depth e
  | n + 1, depth, .binary _ .and l r => do
    let left ← requireBoolean (← expr m n depth l) l.tag.place
    if left then
      let right ← requireBoolean (← expr m n depth r) r.tag.place
      return .boolean right
    else return .boolean false
  | n + 1, depth, .binary _ .or l r => do
    let left ← requireBoolean (← expr m n depth l) l.tag.place
    if left then return .boolean true
    else
      let right ← requireBoolean (← expr m n depth r) r.tag.place
      return .boolean right
  | n + 1, depth, .binary t op l r => do
    let left ← expr m n depth l
    let right ← expr m n depth r
    ofExcept (op.apply m.scale t.place left right)
  | _ + 1, _, .var t x => do
    let cell ← lookup x t.place
    return cell.value
  | n + 1, depth, .field t e x => do
    let receiver ← expr m n depth e
    let cell ← relocating t.place (lookupField receiver x)
    return cell.value
  | n + 1, depth, .call t f es => do
    let args ← arguments m n depth es
    let s ← get
    match Chain.findFunction? s.chain (f, args.length) with
    | none => fail (.undefinedFunction f args.length) t.place
    | some g =>
      note m (.call t.id g)
      invoke m n depth g args
  | n + 1, depth, .invoke t e f es => do
    let receiver ← expr m n depth e
    let args ← arguments m n depth es
    relocating t.place (callMember m receiver f args)
termination_by structural fuel => fuel

/-- The values of arguments, from the first to the last. -/
def arguments (m : Machine) : (fuel : Nat) → (depth : Nat) → List (Expr Mark) → Exec (List Value)
  | 0, _, _ => throw .outOfFuel
  | _ + 1, _, [] => return []
  | n + 1, depth, e :: es => do
    let v ← expr m n depth e
    let vs ← arguments m n depth es
    return v :: vs
termination_by structural fuel => fuel

/-- The result of a function on arguments. -/
def invoke (m : Machine) : (fuel : Nat) → (depth : Nat) → Function → List Value → Exec Value
  | 0, _, _, _ => throw .outOfFuel
  | n + 1, depth, f, args =>
    match f.body with
    | .print =>
      match args with
      | [] => throw .missingArgument
      | v :: _ => do
        print v
        return .nil
    | .native g => native g args
    | .method d =>
      if args.length ≠ d.parameters.length then
        fail (.argumentCount d.name d.parameters.length args.length) d.tag.place
      else if m.maxDepth ≤ depth then fail .stackOverflow d.tag.place
      else
        match bindParameters d.tag (d.parameters.zip (f.parameters.zip args)) {} with
        | .error key => fail (.duplicate key) d.tag.place
        | .ok frame => do
          let flow ← noting m (.leave (depth + 1)) <| inMethod frame do
            note m (.enter (depth + 1))
            noteFrame m frame.vars
            block m n (depth + 1) d.body
          match flow with
          | .ret v => return v
          | .next => return .nil
termination_by structural fuel => fuel

/-- One statement. -/
def stmt (m : Machine) : (fuel : Nat) → (depth : Nat) → Stmt Mark → Exec Flow
  | 0, _, _ => throw .outOfFuel
  | n + 1, depth, .expr _ e => do
    let _ ← expr m n depth e
    return .next
  | n + 1, depth, .declare t x typeName e => do
    let v ← initial m n depth e
    define m (Cell.declare t x (runType typeName) v) t.place
    return .next
  | n + 1, depth, .assign _ (.var t x) e => do
    let cell ← lookup x t.place
    let v ← expr m n depth e
    assign m cell x v
    return .next
  | n + 1, depth, .assign _ (.field t r x) e => do
    let receiver ← expr m n depth r
    let cell ← relocating t.place (lookupField receiver x)
    let v ← expr m n depth e
    assignField m receiver cell x v
    return .next
  | _ + 1, _, .assign t _ _ => fail .invalidTarget t.place
  | n + 1, depth, .branch _ c thenBody elseBody => do
    let b ← requireBoolean (← expr m n depth c) c.tag.place
    inBlock {} (block m n depth (if b then thenBody else elseBody))
  | n + 1, depth, .forIn t x e body => do
    let items ← requireIterable (← expr m n depth e) e.tag.place
    iterate m n depth t x body items
  | n + 1, depth, .loop _ c body => repeating m n depth c body
  | n + 1, depth, .ret _ e => do
    let v ← expr m n depth e
    return .ret v
termination_by structural fuel => fuel

/-- The first value of a variable, `NIL` if none is given. -/
def initial (m : Machine) : (fuel : Nat) → (depth : Nat) → Option (Expr Mark) → Exec Value
  | 0, _, _ => throw .outOfFuel
  | _ + 1, _, none => return .nil
  | n + 1, depth, some e => expr m n depth e
termination_by structural fuel => fuel

/-- Statements up to the first that returns. -/
def block (m : Machine) : (fuel : Nat) → (depth : Nat) → List (Stmt Mark) → Exec Flow
  | 0, _, _ => throw .outOfFuel
  | _ + 1, _, [] => return .next
  | n + 1, depth, s :: ss => do
    match ← stmt m n depth s with
    | .next => block m n depth ss
    | .ret v => return .ret v
termination_by structural fuel => fuel

/-- A loop over elements, each in a block of its own that holds the loop variable. -/
def iterate (m : Machine) :
    (fuel : Nat) → (depth : Nat) → Mark → String → List (Stmt Mark) → List Value → Exec Flow
  | 0, _, _, _, _, _ => throw .outOfFuel
  | _ + 1, _, _, _, _, [] => return .next
  | n + 1, depth, t, x, body, v :: vs => do
    let cell := Cell.declare t x .any v
    let flow ← inBlock { vars := [(x, cell)] } do
      note m (.write cell.toVariable v)
      block m n depth body
    match flow with
    | .next => iterate m n depth t x body vs
    | .ret v => return .ret v
termination_by structural fuel => fuel

/-- A loop as long as a condition holds. -/
def repeating (m : Machine) :
    (fuel : Nat) → (depth : Nat) → Expr Mark → List (Stmt Mark) → Exec Flow
  | 0, _, _, _ => throw .outOfFuel
  | n + 1, depth, c, body => do
    let b ← requireBoolean (← expr m n depth c) c.tag.place
    if b then
      match ← inBlock {} (block m n depth body) with
      | .next => repeating m n depth c body
      | .ret v => return .ret v
    else return .next
termination_by structural fuel => fuel

end

/-! ## Declarations -/

/-- A field gets its value and becomes a variable of the program. -/
def field (m : Machine) (fuel depth : Nat) (f : Field Mark) : Exec Unit := do
  let v ← initial m fuel depth f.value
  define m (Cell.declare f.tag f.name (runType f.typeName) v) f.tag.place

/-- The function that a method becomes. -/
def functionOf (d : Method Mark) : Function :=
  { name := d.name
    runtimeName := d.name
    parameters := d.parameterTypes.map fun t => runType (some t)
    result := runResult d.returnType
    origin := .node d.tag.id
    body := .method d }

/-- A method becomes a function of the program. -/
def method (d : Method Mark) : Exec Unit := do
  let s ← get
  match s.defineFunction (functionOf d) with
  | .ok s => set s
  | .error key => fail (.duplicate key) d.tag.place

def fields (m : Machine) (fuel depth : Nat) : List (Field Mark) → Exec Unit
  | [] => pure ()
  | f :: fs => do
    field m fuel depth f
    fields m fuel depth fs

def methods : List (Method Mark) → Exec Unit
  | [] => pure ()
  | d :: ds => do
    method d
    methods ds

/-- A program: its fields, its methods, then its `main`. -/
def program (m : Machine) (fuel depth : Nat) (p : Program Mark) : Exec Value := do
  fields m fuel depth p.fields
  methods p.methods
  let s ← get
  match Chain.findFunction? s.chain ("main", 0) with
  | none => fail .missingMain none
  | some f => invoke m fuel depth f []

end Exec

end QuillLang
