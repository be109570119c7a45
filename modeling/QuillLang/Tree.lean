/-
# Syntax trees

A tree is given over a type of tags, one tag to a node.  Trees straight from
the reader are tagged with the place they were read at (`Place`); for checking
and running every node also gets a number of its own (`Mark`), so that facts
about a node can be kept beside the tree.

A parenthesis is a node, and a name, a field of a receiver, a call and a call
on a receiver are four different nodes.
-/
import QuillLang.Decimal
import QuillLang.Location

namespace QuillLang

/-! ## Operators -/

inductive Operator where
  | and
  | or
  | lt
  | le
  | gt
  | ge
  | eq
  | ne
  | add
  | sub
  | mul
  | div
deriving DecidableEq, Repr

namespace Operator

def all : List Operator := [and, or, lt, le, gt, ge, eq, ne, add, sub, mul, div]

/-- The name of an operator in listings. -/
def name : Operator → String
  | and => "AND"
  | or => "OR"
  | lt => "LT"
  | le => "LE"
  | gt => "GT"
  | ge => "GE"
  | eq => "EQ"
  | ne => "NE"
  | add => "ADD"
  | sub => "SUB"
  | mul => "MUL"
  | div => "DIV"

/-- The text an operator is written with. -/
def lexeme : Operator → String
  | and => "AND"
  | or => "OR"
  | lt => "<"
  | le => "<="
  | gt => ">"
  | ge => ">="
  | eq => "=="
  | ne => "!="
  | add => "+"
  | sub => "-"
  | mul => "*"
  | div => "/"

/-- The operator written with a text. -/
def ofLexeme? (s : String) : Option Operator := all.find? (·.lexeme = s)

def isLogical : Operator → Bool
  | and | or => true
  | _ => false

def isComparison : Operator → Bool
  | lt | le | gt | ge | eq | ne => true
  | _ => false

end Operator

/-! ## Nodes -/

inductive Expr (α : Type) where
  | nil (tag : α)
  | boolean (tag : α) (value : Bool)
  | character (tag : α) (value : String)
  | string (tag : α) (value : String)
  | integer (tag : α) (value : Int)
  | decimal (tag : α) (value : Decimal)
  /-- An expression in parentheses. -/
  | group (tag : α) (inner : Expr α)
  | binary (tag : α) (op : Operator) (left right : Expr α)
  /-- A name that stands alone. -/
  | var (tag : α) (name : String)
  /-- A field of a receiver. -/
  | field (tag : α) (receiver : Expr α) (name : String)
  /-- A call of a function. -/
  | call (tag : α) (name : String) (arguments : List (Expr α))
  /-- A call of a method on a receiver. -/
  | invoke (tag : α) (receiver : Expr α) (name : String) (arguments : List (Expr α))

inductive Stmt (α : Type) where
  | expr (tag : α) (value : Expr α)
  | declare (tag : α) (name : String) (typeName : Option String) (value : Option (Expr α))
  | assign (tag : α) (target value : Expr α)
  | branch (tag : α) (condition : Expr α) (thenBody elseBody : List (Stmt α))
  | forIn (tag : α) (name : String) (value : Expr α) (body : List (Stmt α))
  | loop (tag : α) (condition : Expr α) (body : List (Stmt α))
  | ret (tag : α) (value : Expr α)

/-- A field of a program. -/
structure Field (α : Type) where
  tag : α
  name : String
  typeName : Option String
  value : Option (Expr α)

/-- A method of a program.  A program text gives every parameter a type. -/
structure Method (α : Type) where
  tag : α
  name : String
  parameters : List String
  parameterTypes : List String
  returnType : Option String
  body : List (Stmt α)

/-- A whole program: its fields, then its methods. -/
structure Program (α : Type) where
  tag : α
  fields : List (Field α)
  methods : List (Method α)

namespace Expr

variable {α : Type}

def tag : Expr α → α
  | nil t | boolean t _ | character t _ | string t _ | integer t _ | decimal t _ | group t _
  | binary t _ _ _ | var t _ | field t _ _ | call t _ _ | invoke t _ _ _ => t

def isBinary : Expr α → Bool
  | binary .. => true
  | _ => false

end Expr

namespace Stmt

variable {α : Type}

def tag : Stmt α → α
  | expr t _ | declare t _ _ _ | assign t _ _ | branch t _ _ _ | forIn t _ _ _ | loop t _ _
  | ret t _ => t

end Stmt

/-! ## Tags -/

/-- Where a node was read, if it was read from a text. -/
abbrev Place := Option Location

/-- A node's number and place. -/
structure Mark where
  id : Nat
  place : Place
deriving DecidableEq, Repr

/-! ## Classes of nodes -/

/-- The kinds of node that can carry facts. -/
inductive NodeClass where
  | nilLiteral
  | booleanLiteral
  | characterLiteral
  | stringLiteral
  | integerLiteral
  | decimalLiteral
  | group
  | binaryExpression
  | access
  | functionCall
  | declaration
  | field
  | method
deriving DecidableEq, Repr

namespace NodeClass

/-- The name of a class of nodes in listings. -/
def name : NodeClass → String
  | nilLiteral => "NilLiteral"
  | booleanLiteral => "BooleanLiteral"
  | characterLiteral => "CharacterLiteral"
  | stringLiteral => "StringLiteral"
  | integerLiteral => "IntegerLiteral"
  | decimalLiteral => "DecimalLiteral"
  | group => "Group"
  | binaryExpression => "BinaryExpression"
  | access => "Access"
  | functionCall => "FunctionCall"
  | declaration => "DeclarationStatement"
  | field => "Field"
  | method => "Method"

end NodeClass

def Expr.nodeClass {α : Type} : Expr α → NodeClass
  | nil .. => .nilLiteral
  | boolean .. => .booleanLiteral
  | character .. => .characterLiteral
  | string .. => .stringLiteral
  | integer .. => .integerLiteral
  | decimal .. => .decimalLiteral
  | group .. => .group
  | binary .. => .binaryExpression
  | var .. | field .. => .access
  | call .. | invoke .. => .functionCall

end QuillLang
