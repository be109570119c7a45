/-
# Tokens

There are six kinds of token.  Reserved words are identifiers that the
grammar singles out by their text, and every punctuation mark is an operator.
-/
import QuillLang.Location
import QuillLang.Text.Quoted

namespace QuillLang

inductive TokenKind where
  | identifier
  | integer
  | decimal
  | character
  | string
  | operator
deriving DecidableEq, Repr

/-- The name of a kind in listings. -/
def TokenKind.name : TokenKind → String
  | .identifier => "IDENTIFIER"
  | .integer => "INTEGER"
  | .decimal => "DECIMAL"
  | .character => "CHARACTER"
  | .string => "STRING"
  | .operator => "OPERATOR"

/-- The reserved words. -/
def keywords : List String :=
  ["LET", "DEF", "DO", "END", "IF", "ELSE", "FOR", "IN", "WHILE", "RETURN", "NIL", "TRUE", "FALSE",
    "AND", "OR"]

/-- A token keeps the exact text it was read from, quotes and escapes included. -/
structure Token where
  kind : TokenKind
  lexeme : String
  location : Location
deriving DecidableEq, Repr

namespace Token

/-- The offset just past the last character. -/
def endOffset (t : Token) : Int := t.location.offset + t.lexeme.length

def isLiteral (t : Token) : Bool :=
  match t.kind with
  | .integer | .decimal | .character | .string => true
  | .identifier | .operator => false

def isKeyword (t : Token) : Bool := t.kind = .identifier && keywords.contains t.lexeme

/-- A reserved word or a punctuation mark with the given text. -/
def is (t : Token) (text : String) : Bool :=
  t.lexeme = text && (t.kind = .identifier || t.kind = .operator)

/-- A name is an identifier that is not reserved. -/
def isName (t : Token) : Bool := t.kind = .identifier && !keywords.contains t.lexeme

/-- The token as it is listed. -/
def describe (t : Token) : String :=
  "Token(" ++ t.kind.name ++ ", " ++ Text.quoted t.lexeme ++ ", " ++ t.location.text ++ ")"

end Token

end QuillLang
