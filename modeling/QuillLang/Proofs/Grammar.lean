/-
# The grammar

    source         := field* method*
    field          := LET declaration
    method         := DEF name "(" params? ")" (":" name)? DO statement* END
    params         := param ("," param)*
    param          := name (":" name)?
    statement      := LET declaration | IF branch | FOR forIn | WHILE loop | RETURN ret
                    | expression ("=" expression)? ";"
    declaration    := name (":" name)? ("=" expression)? ";"
    branch         := expression DO statement* (ELSE statement*)? END
    forIn          := name IN expression DO statement* END
    loop           := expression DO statement* END
    ret            := expression ";"
    expression     := logical
    logical        := comparison (("AND" | "OR") comparison)*
    comparison     := additive (("<" | "<=" | ">" | ">=" | "==" | "!=") additive)*
    additive       := multiplicative (("+" | "-") multiplicative)*
    multiplicative := secondary (("*" | "/") secondary)*
    secondary      := primary ("." name ("(" arguments? ")")?)*
    primary        := NIL | TRUE | FALSE | INTEGER | DECIMAL | CHARACTER | STRING
                    | "(" expression ")" | name ("(" arguments? ")")?
    arguments      := expression ("," expression)*

The grammar is a table of phrases, and says nothing about how tokens are read.
A derivation of a phrase shows how the phrase covers a row of tokens, its
yield; the tree of a derivation is put together from the trees of its parts.
One rule is no matter of phrases: a parenthesis must hold a binary expression.
-/
import QuillLang.Tree.Parse

namespace QuillLang

/-! ## Terminals

The grammar does not see the text of a name or a literal, only that it is one.  Reserved words and
marks are told apart by their text. -/

/-- What the grammar sees of a token. -/
inductive Terminal where
  /-- A reserved word or a mark. -/
  | word (text : String)
  | name
  | literal (kind : TokenKind)
deriving DecidableEq, Repr

/-- An identifier is a reserved word or a name, and an operator is a mark. -/
def Token.terminal (t : Token) : Terminal :=
  match t.kind with
  | .identifier => if keywords.contains t.lexeme then .word t.lexeme else .name
  | .operator => .word t.lexeme
  | kind => .literal kind

namespace Grammar

/-! ## Phrases

The rules are data, so that properties of the grammar can be computed from them, symbol by symbol.
Rows, chains and lists are abbreviations. -/

/-- The symbols whose trees are expressions. -/
inductive Rank where
  | expression
  | logical
  | comparison
  | additive
  | multiplicative
  | secondary
  | primary
deriving DecidableEq, Repr

inductive Nonterminal where
  | source
  | field
  | method
  | params
  | param
  | statement
  | declaration
  | branch
  | forIn
  | loop
  | ret
  | expr (rank : Rank)
  | arguments
deriving DecidableEq, Repr

/-- The right-hand sides of rules. -/
inductive Phrase where
  /-- One token, of one of some terminals. -/
  | token (terminals : List Terminal)
  | rule (symbol : Nonterminal)
  | seq (first second : Phrase)
  | alt (first second : Phrase)
  | opt (part : Phrase)
  | many (part : Phrase)
deriving DecidableEq, Repr

namespace Phrase

abbrev word (text : String) : Phrase := token [.word text]

abbrev words (texts : List String) : Phrase := token (texts.map .word)

abbrev name : Phrase := token [.name]

abbrev expression : Phrase := rule (.expr .expression)

/-- Phrases one after the other. -/
def row : Phrase → List Phrase → Phrase
  | a, [] => a
  | a, b :: rest => seq a (row b rest)

/-- Operands with operators between them. -/
def chain (operand : Rank) (operators : List String) : Phrase :=
  seq (rule (.expr operand)) (many (seq (words operators) (rule (.expr operand))))

/-- A phrase once or more, with commas between. -/
def list (part : Phrase) : Phrase := seq part (many (seq (word ",") part))

/-- The type that may follow a name. -/
def typed : Phrase := opt (seq (word ":") name)

/-- The arguments of a call, with their parentheses. -/
def call : Phrase := row (word "(") [opt (rule .arguments), word ")"]

/-- A field or a method call that is asked of a receiver. -/
def member : Phrase := row (word ".") [name, opt call]

/-- The literals. -/
def literals : Phrase :=
  token [.word "NIL", .word "TRUE", .word "FALSE", .literal .integer, .literal .decimal,
    .literal .character, .literal .string]

/-- Statements up to `END`. -/
def body : Phrase := seq (many (rule .statement)) (word "END")

end Phrase

open Phrase

/-- The rules. -/
def Nonterminal.definition : Nonterminal → Phrase
  | source => seq (many (rule field)) (many (rule method))
  | field => seq (word "LET") (rule declaration)
  | method =>
    row (word "DEF") [name, word "(", opt (rule params), word ")", typed, word "DO", body]
  | params => list (rule param)
  | param => seq name typed
  | statement =>
    alt (seq (word "LET") (rule declaration)) <|
    alt (seq (word "IF") (rule branch)) <|
    alt (seq (word "FOR") (rule forIn)) <|
    alt (seq (word "WHILE") (rule loop)) <|
    alt (seq (word "RETURN") (rule ret)) <|
    row expression [opt (seq (word "=") expression), word ";"]
  | declaration => row name [typed, opt (seq (word "=") expression), word ";"]
  | branch =>
    row expression [word "DO", many (rule statement),
      opt (seq (word "ELSE") (many (rule statement))), word "END"]
  | forIn => row name [word "IN", expression, word "DO", body]
  | loop => row expression [word "DO", body]
  | ret => seq expression (word ";")
  | expr .expression => rule (expr .logical)
  | expr .logical => chain .comparison ["AND", "OR"]
  | expr .comparison => chain .additive ["<", "<=", ">", ">=", "==", "!="]
  | expr .additive => chain .multiplicative ["+", "-"]
  | expr .multiplicative => chain .secondary ["*", "/"]
  | expr .secondary => seq (rule (expr .primary)) (many member)
  | expr .primary =>
    alt literals <| alt (row (word "(") [expression, word ")"]) <| seq name (opt call)
  | arguments => list expression

/-! ## Derivations

A derivation has the shape of the phrase that it is of and holds tokens, not only terminals, since
trees need their texts and places. -/

/-- The ways in which a phrase covers tokens. -/
inductive Derivation : Phrase → Type where
  | token {cs : List Terminal} (t : Token) (h : t.terminal ∈ cs) : Derivation (token cs)
  | rule {n : Nonterminal} (d : Derivation n.definition) : Derivation (rule n)
  | seq {a b : Phrase} (d : Derivation a) (e : Derivation b) : Derivation (seq a b)
  | left {a b : Phrase} (d : Derivation a) : Derivation (alt a b)
  | right {a b : Phrase} (d : Derivation b) : Derivation (alt a b)
  | absent {a : Phrase} : Derivation (opt a)
  | present {a : Phrase} (d : Derivation a) : Derivation (opt a)
  | done {a : Phrase} : Derivation (many a)
  | more {a : Phrase} (d : Derivation a) (e : Derivation (many a)) : Derivation (many a)

/-- The tokens that are covered. -/
def Derivation.yield {p : Phrase} : Derivation p → List Token
  | token t _ => [t]
  | rule d | left d | right d | present d => d.yield
  | seq d e | more d e => d.yield ++ e.yield
  | absent | done => []

/-! ## Trees

The tree of a derivation is put together from the trees of its parts, one function for each symbol.
There is one condition that the rules cannot express: a parenthesis holds a binary expression.  It
is a condition on trees (`Nonterminal.admits`). -/

/-- What the parts of a program are as trees. -/
def Nonterminal.Tree : Nonterminal → Type
  | source => Program Place
  | field => Field Place
  | method => Method Place
  | params => List (String × String)
  | param => String × String
  | statement => Stmt Place
  | declaration => Parse.Declaration
  | branch => Expr Place × List (Stmt Place) × List (Stmt Place)
  | forIn => String × Expr Place × List (Stmt Place)
  | loop => Expr Place × List (Stmt Place)
  | ret => Expr Place
  | expr _ => Expr Place
  | arguments => List (Expr Place)

/-- The trees of the parts of a phrase, arranged like the phrase. -/
def Phrase.Value : Phrase → Type
  | token _ => Token
  | rule n => n.Tree
  | seq a b => a.Value × b.Value
  | alt a b => a.Value ⊕ b.Value
  | opt a => Option a.Value
  | many a => List a.Value

/-- The place of the first of some tokens. -/
def placeOf (ts : List Token) : Place := ts.head?.map Token.location

/-- The name after a colon. -/
def typeName (v : typed.Value) : Option String := Option.map (fun v => v.2.lexeme) v

/-- The arguments between parentheses. -/
def argumentsOf (v : call.Value) : List (Expr Place) := Option.getD v.2.1 []

/-- The operator that a token of a chain stands for. -/
def operatorOf (t : Token) : Operator := (Operator.ofLexeme? t.lexeme).getD .and

/-- A binary expression is placed where its left operand is. -/
def operation (left : Expr Place) (v : Token × Expr Place) : Expr Place :=
  .binary left.tag (operatorOf v.1) left v.2

/-- A member is placed at its name. -/
def memberOf (receiver : Expr Place) (v : member.Value) : Expr Place :=
  match v.2.2 with
  | none => .field (some v.2.1.location) receiver v.2.1.lexeme
  | some args => .invoke (some v.2.1.location) receiver v.2.1.lexeme (argumentsOf args)

/-- Operators of one rank group to the left. -/
def chainOf {operand : Rank} {operators : List String} (v : (chain operand operators).Value) :
    Expr Place :=
  List.foldl operation v.1 v.2

/-- The tree of a literal token. -/
def literalOf (t : Token) : Expr Place :=
  match t.terminal with
  | .literal .integer =>
    let (negative, digits) := Numeral.sign t.lexeme.toList
    .integer (some t.location) (Numeral.signed negative (Numeral.ofDigits digits))
  | .literal .decimal =>
    .decimal (some t.location) ((Decimal.read? t.lexeme.toList).getD default)
  | .literal .character => .character (some t.location) (unquote t.lexeme)
  | .literal .string => .string (some t.location) (unquote t.lexeme)
  | .word "TRUE" => .boolean (some t.location) true
  | .word "FALSE" => .boolean (some t.location) false
  | _ => .nil (some t.location)

def primaryOf : (Nonterminal.expr .primary).definition.Value → Expr Place
  | .inl t => literalOf t
  | .inr (.inl (t, inner, _)) => .group (some t.location) inner
  | .inr (.inr (t, none)) => .var (some t.location) t.lexeme
  | .inr (.inr (t, some args)) => .call (some t.location) t.lexeme (argumentsOf args)

def statementOf (p : Place) : Nonterminal.statement.definition.Value → Stmt Place
  | .inl (_, d) => .declare p d.name d.typeName d.value
  | .inr (.inl (_, condition, thenBody, elseBody)) => .branch p condition thenBody elseBody
  | .inr (.inr (.inl (_, name, value, body))) => .forIn p name value body
  | .inr (.inr (.inr (.inl (_, condition, body)))) => .loop p condition body
  | .inr (.inr (.inr (.inr (.inl (_, value))))) => .ret p value
  | .inr (.inr (.inr (.inr (.inr (value, none, _))))) => .expr p value
  | .inr (.inr (.inr (.inr (.inr (target, some (_, value), _))))) => .assign p target value

def methodOf (v : Nonterminal.method.definition.Value) : Method Place :=
  match v with
  | (t, name, _, params, _, type, _, body, _) =>
    let params : List (String × String) := Option.getD params []
    { tag := some t.location
      name := name.lexeme
      parameters := params.map Prod.fst
      parameterTypes := params.map Prod.snd
      returnType := typeName type
      body := body }

/-- The tree of a symbol from its tokens and the trees of its parts. -/
def Nonterminal.tree : (n : Nonterminal) → List Token → n.definition.Value → n.Tree
  | source, ts, (fields, methods) => ⟨placeOf ts, fields, methods⟩
  | field, ts, (_, d) => ⟨placeOf ts, d.name, d.typeName, d.value⟩
  | method, _, v => methodOf v
  | params, _, (first, rest) => first :: rest.map Prod.snd
  | param, _, (name, type) => (name.lexeme, (typeName type).getD "Any")
  | statement, ts, v => statementOf (placeOf ts) v
  | declaration, _, (name, type, value, _) =>
    ⟨name.lexeme, typeName type, Option.map Prod.snd value⟩
  | branch, _, (condition, _, thenBody, elseBody, _) =>
    (condition, thenBody, (Option.map Prod.snd elseBody).getD [])
  | forIn, _, (name, _, value, _, body, _) => (name.lexeme, value, body)
  | loop, _, (condition, _, body, _) => (condition, body)
  | ret, _, (value, _) => value
  | expr .expression, _, e => e
  | expr .logical, _, v => chainOf v
  | expr .comparison, _, v => chainOf v
  | expr .additive, _, v => chainOf v
  | expr .multiplicative, _, v => chainOf v
  | expr .secondary, _, (e, members) => List.foldl memberOf e members
  | expr .primary, _, v => primaryOf v
  | arguments, _, (first, rest) => first :: rest.map Prod.snd

/-- The tree of a derivation. -/
def Derivation.value {p : Phrase} : Derivation p → p.Value
  | token t _ => t
  | rule (n := n) d => n.tree d.yield d.value
  | seq d e => (d.value, e.value)
  | left d => .inl d.value
  | right d => .inr d.value
  | absent => none
  | present d => some d.value
  | done => []
  | more d e => List.cons d.value e.value

/-- A parenthesis must hold a binary expression. -/
def Nonterminal.admits : (n : Nonterminal) → n.Tree → Bool
  | expr .primary, e =>
    match e with
    | .group _ inner => inner.isBinary
    | _ => true
  | _, _ => true

/-- Every parenthesis in a derivation holds a binary expression. -/
def Derivation.Proper {p : Phrase} : Derivation p → Prop
  | token _ _ | absent | done => True
  | rule (n := n) d => d.Proper ∧ n.admits (n.tree d.yield d.value) = true
  | left d | right d | present d => d.Proper
  | seq d e | more d e => d.Proper ∧ e.Proper

end Grammar

/-- Tokens that the grammar derives from `source`. -/
def Derivable (ts : List Token) : Prop :=
  ∃ d : Grammar.Derivation (.rule .source), d.yield = ts ∧ d.Proper

end QuillLang
