/-
# Reading trees from tokens

    program     := field* method*
    field       := LET declaration
    method      := DEF name "(" parameters? ")" (":" name)? DO statement* END
    statement   := LET declaration | IF branch | FOR loop | WHILE loop | RETURN expression ";"
                 | expression ("=" expression)? ";"
    declaration := name (":" name)? ("=" expression)? ";"
    expression  := four levels of left-associative operators over
    secondary   := primary ("." name ("(" arguments? ")")?)*

A parenthesis must hold a binary expression.  One token of look-ahead decides
every choice, so no choice is ever taken back, and an error stands at the
first token that nothing can be done with.

Every function takes the tokens that are left and returns those it leaves.
Reading can fail in two ways that no text provokes, kept apart from the
errors of a program: the fuel, which counts nested calls, can run out, and a
token can be asked for where none is left.
-/
import QuillLang.Decimal.Text
import QuillLang.Token.Escape
import QuillLang.Tree

namespace QuillLang

/-! ## Errors -/

/-- What may end a block: `END`, or also `ELSE`. -/
inductive BlockEnd where
  | atEnd
  | atElseOrEnd
deriving DecidableEq, Repr

namespace BlockEnd

def words : BlockEnd → List String
  | atEnd => ["END"]
  | atElseOrEnd => ["ELSE", "END"]

def text : BlockEnd → String
  | atEnd => "END"
  | atElseOrEnd => "ELSE or END"

end BlockEnd

/-- What was expected. -/
inductive ParseCause where
  | declarationOrEnd
  | fieldAfterMethod
  | methodName
  | openParameters
  | parameterName
  | parameterType
  | closeParameters
  | returnType
  | methodBody
  | blockEnd (stop : BlockEnd)
  | endAssignment
  | endExpression
  | variableName
  | typeName
  | endDeclaration
  | branchBody
  | loopName
  | loopIn
  | forBody
  | whileBody
  | endReturn
  | memberName
  | closeArguments
  | closeGroup
  | binaryInGroup
  | expression
deriving DecidableEq, Repr

/-- An error in the order of tokens.  It stands at the first token of `rest`, or at the end of
the input if there is none. -/
structure ParseError where
  cause : ParseCause
  rest : List Token
deriving DecidableEq, Repr

namespace ParseError

def message (e : ParseError) : String :=
  match e.cause with
  | .declarationOrEnd => "Expected LET or DEF"
  | .fieldAfterMethod => "Fields must be declared before methods"
  | .methodName => "Expected method name"
  | .openParameters => "Expected '(' after method name"
  | .parameterName => "Expected parameter name"
  | .parameterType => "Expected parameter type"
  | .closeParameters => "Expected ')' after parameters"
  | .returnType => "Expected return type"
  | .methodBody => "Expected DO before method body"
  | .blockEnd stop => "Expected " ++ stop.text
  | .endAssignment => "Expected ';' after assignment"
  | .endExpression => "Expected ';' after expression"
  | .variableName => "Expected variable name"
  | .typeName => "Expected type name"
  | .endDeclaration => "Expected ';' after declaration"
  | .branchBody => "Expected DO after IF condition"
  | .loopName => "Expected loop variable name"
  | .loopIn => "Expected IN after loop variable"
  | .forBody => "Expected DO after FOR iterable"
  | .whileBody => "Expected DO after WHILE condition"
  | .endReturn => "Expected ';' after return value"
  | .memberName => "Expected member name after '.'"
  | .closeArguments => "Expected ')' after arguments"
  | .closeGroup => "Expected ')' after expression"
  | .binaryInGroup => "Parenthesized expression must be a binary expression"
  | .expression =>
    match e.rest with
    | [] => "Expected expression"
    | t :: _ => "Expected expression, found '" ++ t.lexeme ++ "'"

end ParseError

/-- Why reading stopped. -/
inductive ParseFailure where
  | unexpected (error : ParseError)
  | digits (limit : DigitLimit)
  | outOfFuel
  | noToken
deriving DecidableEq, Repr

/-- A result and the tokens left after it. -/
abbrev Leaving (α : Type) := α × List Token

namespace Parse

/-! ## Single tokens -/

def unexpected {α : Type} (cause : ParseCause) (rest : List Token) :
    Except ParseFailure (Leaving α) :=
  .error (.unexpected ⟨cause, rest⟩)

/-- Whether the next token is a given word or mark. -/
def at? (text : String) : List Token → Bool
  | [] => false
  | t :: _ => t.is text

/-- The next token, which is known to be there. -/
def next : List Token → Except ParseFailure (Leaving Token)
  | [] => .error .noToken
  | t :: ts => .ok (t, ts)

/-- The next token if it is a given word or mark. -/
def expect (text : String) (cause : ParseCause) : List Token → Except ParseFailure (Leaving Token)
  | [] => unexpected cause []
  | t :: ts => if t.is text then .ok (t, ts) else unexpected cause (t :: ts)

/-- The next token if it is a name. -/
def expectName (cause : ParseCause) : List Token → Except ParseFailure (Leaving Token)
  | [] => unexpected cause []
  | t :: ts => if t.isName then .ok (t, ts) else unexpected cause (t :: ts)

/-- A colon and a name, if there is a colon. -/
def colonName (cause : ParseCause) (ts : List Token) :
    Except ParseFailure (Leaving (Option String)) :=
  if at? ":" ts then do
    let (_, ts) ← next ts
    let (t, ts) ← expectName cause ts
    .ok (some t.lexeme, ts)
  else .ok (none, ts)

/-! ## Expressions -/

/-- The levels of binary operators, from the loosest. -/
inductive Level where
  | logical
  | comparison
  | additive
  | multiplicative
deriving DecidableEq, Repr

namespace Level

def operators : Level → List Operator
  | logical => [.and, .or]
  | comparison => [.lt, .le, .gt, .ge, .eq, .ne]
  | additive => [.add, .sub]
  | multiplicative => [.mul, .div]

/-- The level of the operands, if they hold operators at all. -/
def tighter? : Level → Option Level
  | logical => some comparison
  | comparison => some additive
  | additive => some multiplicative
  | multiplicative => none

/-- The operator of this level that a token stands for. -/
def operator? (level : Level) (t : Token) : Option Operator :=
  level.operators.find? fun op => t.is op.lexeme

end Level

/-- The value of a literal token, for a token that is a literal. -/
def literal? (t : Token) : Option (Except DigitLimit (Expr Place)) :=
  let p : Place := some t.location
  if t.is "NIL" then some (.ok (.nil p))
  else if t.is "TRUE" then some (.ok (.boolean p true))
  else if t.is "FALSE" then some (.ok (.boolean p false))
  else match t.kind with
    | .integer => some ((Numeral.read t.lexeme.toList).map (.integer p))
    | .decimal => some (.ok (.decimal p ((Decimal.read? t.lexeme.toList).getD default)))
    | .character => some (.ok (.character p (unquote t.lexeme)))
    | .string => some (.ok (.string p (unquote t.lexeme)))
    | .identifier | .operator => none

mutual

/-- Operands joined by the operators of a level. -/
def level : (fuel : Nat) → Level → List Token → Except ParseFailure (Leaving (Expr Place))
  | 0, _, _ => .error .outOfFuel
  | n + 1, lv, ts => do
    let (left, ts) ← operand n lv ts
    operations n lv left ts

/-- An operand of a level. -/
def operand : (fuel : Nat) → Level → List Token → Except ParseFailure (Leaving (Expr Place))
  | 0, _, _ => .error .outOfFuel
  | n + 1, lv, ts =>
    match lv.tighter? with
    | some tighter => level n tighter ts
    | none => secondary n ts

/-- The operators of a level that follow a left operand, each with its right operand. -/
def operations :
    (fuel : Nat) → Level → Expr Place → List Token → Except ParseFailure (Leaving (Expr Place))
  | 0, _, _, _ => .error .outOfFuel
  | _ + 1, _, left, [] => .ok (left, [])
  | n + 1, lv, left, t :: ts =>
    match lv.operator? t with
    | none => .ok (left, t :: ts)
    | some op => do
      let (right, ts) ← operand n lv ts
      operations n lv (.binary left.tag op left right) ts

/-- A primary and the members asked of it. -/
def secondary : (fuel : Nat) → List Token → Except ParseFailure (Leaving (Expr Place))
  | 0, _ => .error .outOfFuel
  | n + 1, ts => do
    let (e, ts) ← primary n ts
    members n e ts

/-- Fields and method calls after a receiver. -/
def members : (fuel : Nat) → Expr Place → List Token → Except ParseFailure (Leaving (Expr Place))
  | 0, _, _ => .error .outOfFuel
  | n + 1, receiver, ts =>
    if at? "." ts then do
      let (_, ts) ← next ts
      let (name, ts) ← expectName .memberName ts
      if at? "(" ts then
        let (_, ts) ← next ts
        let (args, ts) ← arguments n ts
        members n (.invoke (some name.location) receiver name.lexeme args) ts
      else members n (.field (some name.location) receiver name.lexeme) ts
    else .ok (receiver, ts)

/-- The arguments of a call, from after its opening parenthesis through its closing one. -/
def arguments : (fuel : Nat) → List Token → Except ParseFailure (Leaving (List (Expr Place)))
  | 0, _ => .error .outOfFuel
  | n + 1, ts =>
    if at? ")" ts then do
      let (_, ts) ← next ts
      .ok ([], ts)
    else moreArguments n ts

/-- At least one argument, and the closing parenthesis. -/
def moreArguments : (fuel : Nat) → List Token → Except ParseFailure (Leaving (List (Expr Place)))
  | 0, _ => .error .outOfFuel
  | n + 1, ts => do
    let (e, ts) ← level n .logical ts
    if at? "," ts then
      let (_, ts) ← next ts
      let (es, ts) ← moreArguments n ts
      .ok (e :: es, ts)
    else
      let (_, ts) ← expect ")" .closeArguments ts
      .ok ([e], ts)

/-- A literal, a parenthesis, a name or a call. -/
def primary : (fuel : Nat) → List Token → Except ParseFailure (Leaving (Expr Place))
  | 0, _ => .error .outOfFuel
  | _ + 1, [] => unexpected .expression []
  | n + 1, t :: ts =>
    match literal? t with
    | some (.ok e) => .ok (e, ts)
    | some (.error limit) => .error (.digits limit)
    | none =>
      if t.is "(" then do
        let (inner, rest) ← level n .logical ts
        let (_, rest) ← expect ")" .closeGroup rest
        if inner.isBinary then .ok (.group (some t.location) inner, rest)
        else unexpected .binaryInGroup (t :: ts)
      else if t.isName then
        if at? "(" ts then do
          let (_, ts) ← next ts
          let (args, ts) ← arguments n ts
          .ok (.call (some t.location) t.lexeme args, ts)
        else .ok (.var (some t.location) t.lexeme, ts)
      else unexpected .expression (t :: ts)

end

/-- An expression. -/
def expression (fuel : Nat) (ts : List Token) : Except ParseFailure (Leaving (Expr Place)) :=
  level fuel .logical ts

/-! ## Statements -/

/-- What follows `LET`: a name, and a type and a value if they are given. -/
structure Declaration where
  name : String
  typeName : Option String
  value : Option (Expr Place)

/-- An equals sign and an expression, if there is an equals sign. -/
def initialValue (n : Nat) (ts : List Token) :
    Except ParseFailure (Leaving (Option (Expr Place))) :=
  if at? "=" ts then do
    let (_, ts) ← next ts
    let (e, ts) ← expression n ts
    .ok (some e, ts)
  else .ok (none, ts)

def declaration (n : Nat) (ts : List Token) : Except ParseFailure (Leaving Declaration) := do
  let (name, ts) ← expectName .variableName ts
  let (typeName, ts) ← colonName .typeName ts
  let (value, ts) ← initialValue n ts
  let (_, ts) ← expect ";" .endDeclaration ts
  .ok (⟨name.lexeme, typeName, value⟩, ts)

/-- A call or an assignment. -/
def simple (n : Nat) (p : Place) (ts : List Token) :
    Except ParseFailure (Leaving (Stmt Place)) := do
  let (e, ts) ← expression n ts
  if at? "=" ts then
    let (_, ts) ← next ts
    let (value, ts) ← expression n ts
    let (_, ts) ← expect ";" .endAssignment ts
    .ok (.assign p e value, ts)
  else
    let (_, ts) ← expect ";" .endExpression ts
    .ok (.expr p e, ts)

/-- Whether a block ends here. -/
def stops (stop : BlockEnd) (ts : List Token) : Bool := stop.words.any (at? · ts)

mutual

/-- Statements up to one of the words that may end them, which is left. -/
def block : (fuel : Nat) → BlockEnd → List Token → Except ParseFailure (Leaving (List (Stmt Place)))
  | 0, _, _ => .error .outOfFuel
  | n + 1, stop, ts =>
    if stops stop ts then .ok ([], ts)
    else if ts.isEmpty then unexpected (.blockEnd stop) []
    else do
      let (s, ts) ← statement n ts
      let (ss, ts) ← block n stop ts
      .ok (s :: ss, ts)

/-- One statement. -/
def statement : (fuel : Nat) → List Token → Except ParseFailure (Leaving (Stmt Place))
  | 0, _ => .error .outOfFuel
  | _ + 1, [] => .error .noToken
  | n + 1, t :: ts =>
    let p : Place := some t.location
    if t.is "LET" then do
      let (d, ts) ← declaration n ts
      .ok (.declare p d.name d.typeName d.value, ts)
    else if t.is "IF" then do
      let (condition, ts) ← expression n ts
      let (_, ts) ← expect "DO" .branchBody ts
      let (thenBody, ts) ← block n .atElseOrEnd ts
      let (elseBody, ts) ← otherwise n ts
      let (_, ts) ← next ts
      .ok (.branch p condition thenBody elseBody, ts)
    else if t.is "FOR" then do
      let (name, ts) ← expectName .loopName ts
      let (_, ts) ← expect "IN" .loopIn ts
      let (value, ts) ← expression n ts
      let (_, ts) ← expect "DO" .forBody ts
      let (body, ts) ← block n .atEnd ts
      let (_, ts) ← next ts
      .ok (.forIn p name.lexeme value body, ts)
    else if t.is "WHILE" then do
      let (condition, ts) ← expression n ts
      let (_, ts) ← expect "DO" .whileBody ts
      let (body, ts) ← block n .atEnd ts
      let (_, ts) ← next ts
      .ok (.loop p condition body, ts)
    else if t.is "RETURN" then do
      let (value, ts) ← expression n ts
      let (_, ts) ← expect ";" .endReturn ts
      .ok (.ret p value, ts)
    else simple n p (t :: ts)

/-- `ELSE` and its statements, if there is an `ELSE`. -/
def otherwise : (fuel : Nat) → List Token → Except ParseFailure (Leaving (List (Stmt Place)))
  | 0, _ => .error .outOfFuel
  | n + 1, ts =>
    if at? "ELSE" ts then do
      let (_, ts) ← next ts
      block n .atEnd ts
    else .ok ([], ts)

end

/-- Statements until no token is left. -/
def statements : (fuel : Nat) → List Token → Except ParseFailure (List (Stmt Place))
  | 0, _ => .error .outOfFuel
  | n + 1, ts =>
    if ts.isEmpty then .ok []
    else do
      let (s, ts) ← statement n ts
      let ss ← statements n ts
      .ok (s :: ss)

/-! ## Programs -/

/-- The type of a parameter that is given none. -/
def defaultParameterType : String := "Any"

/-- At least one parameter. -/
def moreParameters :
    (fuel : Nat) → List Token → Except ParseFailure (Leaving (List (String × String)))
  | 0, _ => .error .outOfFuel
  | n + 1, ts => do
    let (name, ts) ← expectName .parameterName ts
    let (typeName, ts) ← colonName .parameterType ts
    let parameter := (name.lexeme, typeName.getD defaultParameterType)
    if at? "," ts then
      let (_, ts) ← next ts
      let (ps, ts) ← moreParameters n ts
      .ok (parameter :: ps, ts)
    else .ok ([parameter], ts)

/-- Parameters with their types, up to the closing parenthesis. -/
def parameters (n : Nat) (ts : List Token) :
    Except ParseFailure (Leaving (List (String × String))) :=
  if at? ")" ts then .ok ([], ts) else moreParameters n ts

/-- A method, from after `DEF` on. -/
def method (n : Nat) (p : Place) (ts : List Token) :
    Except ParseFailure (Leaving (Method Place)) := do
  let (name, ts) ← expectName .methodName ts
  let (_, ts) ← expect "(" .openParameters ts
  let (ps, ts) ← parameters n ts
  let (_, ts) ← expect ")" .closeParameters ts
  let (returnType, ts) ← colonName .returnType ts
  let (_, ts) ← expect "DO" .methodBody ts
  let (body, ts) ← block n .atEnd ts
  let (_, ts) ← next ts
  .ok (⟨p, name.lexeme, ps.map Prod.fst, ps.map Prod.snd, returnType, body⟩, ts)

/-- Fields, as long as the next token is `LET`. -/
def fields : (fuel : Nat) → List Token → Except ParseFailure (Leaving (List (Field Place)))
  | 0, _ => .error .outOfFuel
  | n + 1, ts =>
    if at? "LET" ts then do
      let (t, ts) ← next ts
      let (d, ts) ← declaration n ts
      let (fs, ts) ← fields n ts
      .ok (⟨some t.location, d.name, d.typeName, d.value⟩ :: fs, ts)
    else .ok ([], ts)

/-- Methods, as long as the next token is `DEF`. -/
def methods : (fuel : Nat) → List Token → Except ParseFailure (Leaving (List (Method Place)))
  | 0, _ => .error .outOfFuel
  | n + 1, ts =>
    if at? "DEF" ts then do
      let (t, ts) ← next ts
      let (m, ts) ← method n (some t.location) ts
      let (ms, ts) ← methods n ts
      .ok (m :: ms, ts)
    else .ok ([], ts)

/-- A program, which takes all tokens. -/
def program (fuel : Nat) (ts : List Token) : Except ParseFailure (Program Place) := do
  let (fs, rest) ← fields fuel ts
  let (ms, rest) ← methods fuel rest
  if rest.isEmpty then .ok ⟨ts.head?.map (·.location), fs, ms⟩
  else if at? "LET" rest then .error (.unexpected ⟨.fieldAfterMethod, rest⟩)
  else .error (.unexpected ⟨.declarationOrEnd, rest⟩)

/-- Fuel enough for any reading of so many tokens: between two tokens there are fewer than
sixteen nested calls. -/
def fuelFor (ts : List Token) : Nat := 16 * (ts.length + 1)

end Parse

/-! ## Entry points -/

/-- The program that tokens stand for. -/
def parseProgram (ts : List Token) : Except ParseFailure (Program Place) :=
  Parse.program (Parse.fuelFor ts) ts

/-- The expression at the start of some tokens, and the tokens after it. -/
def parseExpression (ts : List Token) : Except ParseFailure (Leaving (Expr Place)) :=
  Parse.expression (Parse.fuelFor ts) ts

/-- The statements that tokens stand for. -/
def parseStatements (ts : List Token) : Except ParseFailure (List (Stmt Place)) :=
  Parse.statements (Parse.fuelFor ts) ts

/-! ## Reports -/

/-- The point just past the last token, found in the source, or counted from the token if the
source is not at hand. -/
def endLocation (ts : List Token) (source : String) (file : Option String) : Location :=
  match ts.getLast? with
  | none => Location.start file
  | some t =>
    if source.isEmpty then
      ⟨t.location.line, t.location.column + t.lexeme.length, t.endOffset, file⟩
    else Location.ofOffset source.toList t.endOffset file

/-- Where an error stands. -/
def ParseError.location (e : ParseError) (ts : List Token) (source : String)
    (file : Option String) : Location :=
  match e.rest with
  | t :: _ => t.location
  | [] => endLocation ts source file

/-- The error as it is reported. -/
def ParseError.fault (e : ParseError) (ts : List Token) (source : String)
    (file : Option String) : Fault :=
  let p := e.location ts source file
  { stage := .tree
    message := e.message
    location := some p
    sourceLine := sourceLine? source p }

end QuillLang
