/-
# Escapes in literals

The text between the quotes of a character or string literal, with every
escape replaced by the character it stands for.
-/
import QuillLang.Token.Scan

namespace QuillLang

/-- Replace escapes.  An unknown letter stands for itself, and so does a backslash at the end. -/
def unescape : List Char → List Char
  | [] => []
  | ['\\'] => ['\\']
  | '\\' :: c :: cs => (escapes.lookup c).getD c :: unescape cs
  | c :: cs => c :: unescape cs

/-- The value of a literal between quotes. -/
def unquote (lexeme : String) : String :=
  String.ofList (unescape (lexeme.toList.drop 1).dropLast)

end QuillLang
