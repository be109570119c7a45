/-
# Reading tokens

Blanks are skipped; at any other character a token is read, the longest that
starts there.  Reading a token takes the text apart and says nothing about
positions: `scanFrom` follows a cursor along, over the blanks and over each
lexeme.  It stops at the first character that no token can start with or
continue with, and keeps the tokens read before it.

The cursor knows where its line starts, so that an error can show the line it
is on without looking back in the text.
-/
import QuillLang.Fault
import QuillLang.Token

namespace QuillLang

/-! ## Classes of characters -/

/-- The characters that separate tokens and belong to none. -/
def isBlank (c : Char) : Bool := c = ' ' || c = '\x08' || c = '\n' || c = '\r' || c = '\t'

def isNameStart (c : Char) : Bool := c.isAlpha || c = '_'

def isNamePart (c : Char) : Bool := isNameStart c || c.isDigit || c = '-'

def isSign (c : Char) : Bool := c = '+' || c = '-'

/-- The line separators that start no token. -/
def isSeparator (c : Char) : Bool := c = '\u0085' || c = '\u2028' || c = '\u2029'

/-- The marks that take an equals sign after them into the same token. -/
def isComparisonStart (c : Char) : Bool := c = '<' || c = '>' || c = '!' || c = '='

/-- The letter after a backslash, and the character the two stand for. -/
def escapes : List (Char × Char) :=
  [('b', '\x08'), ('n', '\n'), ('r', '\r'), ('t', '\t'), ('\'', '\''), ('"', '"'), ('\\', '\\')]

def isEscape (c : Char) : Bool := (escapes.lookup c).isSome

def startsWithDigit : List Char → Bool
  | [] => false
  | c :: _ => c.isDigit

/-! ## One token -/

/-- Why no token could be read. -/
inductive ScanCause where
  | emptyCharacter
  | unterminatedCharacter
  | unterminatedString
  | newlineInString
  | invalidEscape
  | unexpectedCharacter
deriving DecidableEq, Repr

namespace ScanCause

def message : ScanCause → String
  | emptyCharacter => "Empty character literal"
  | unterminatedCharacter => "Unterminated character literal"
  | unterminatedString => "Unterminated string literal"
  | newlineInString => "Newline in string literal (use \\n for newlines)"
  | invalidEscape => "Invalid escape sequence"
  | unexpectedCharacter => "Unexpected character"

def code : ScanCause → Code
  | emptyCharacter | unexpectedCharacter => .unexpectedCharacter
  | unterminatedCharacter | unterminatedString | newlineInString => .unterminatedLiteral
  | invalidEscape => .invalidEscape

end ScanCause

/-- What was read: a token with the text after it, or a cause with the text that leads up to it. -/
inductive Reading where
  | token (kind : TokenKind) (lexeme rest : List Char)
  | stop (cause : ScanCause) (before : List Char)
deriving DecidableEq, Repr

namespace Reading

/-- The rest of a character literal, from the closing quote on. -/
def closeCharacter (lexeme : List Char) : List Char → Reading
  | '\'' :: rest => .token .character (lexeme ++ ['\'']) rest
  | _ => .stop .unterminatedCharacter lexeme

/-- A character literal, from after its opening quote on. -/
def character : List Char → Reading
  | [] => .stop .emptyCharacter ['\'']
  | ['\\'] => .stop .invalidEscape ['\'', '\\']
  | '\\' :: c :: cs =>
    if isEscape c then closeCharacter ['\'', '\\', c] cs else .stop .invalidEscape ['\'', '\\']
  | c :: cs =>
    if c = '\'' || c = '\n' || c = '\r' then .stop .emptyCharacter ['\'']
    else closeCharacter ['\'', c] cs

/-- Put a stretch of text in front of what was read. -/
def after (front : List Char) : Reading → Reading
  | .token kind lexeme rest => .token kind (front ++ lexeme) rest
  | .stop cause before => .stop cause (front ++ before)

/-- The rest of a string literal, up to and including its closing quote. -/
def stringBody : List Char → Reading
  | [] => .stop .unterminatedString []
  | ['\\'] => .stop .invalidEscape ['\\']
  | '\\' :: c :: cs =>
    if isEscape c then after ['\\', c] (stringBody cs) else .stop .invalidEscape ['\\']
  | c :: cs =>
    if c = '"' then .token .string ['"'] cs
    else if c = '\n' || c = '\r' then .stop .newlineInString []
    else after [c] (stringBody cs)

/-- The digits after a point, if there are some. -/
def fraction : List Char → Option (List Char × List Char)
  | '.' :: cs =>
    if startsWithDigit cs then some ('.' :: cs.takeWhile Char.isDigit, cs.dropWhile Char.isDigit)
    else none
  | _ => none

/-- A number: an optional sign, digits, and a fraction if a digit follows the point. -/
def number (c : Char) (cs : List Char) : Reading :=
  let whole := c :: cs.takeWhile Char.isDigit
  let rest := cs.dropWhile Char.isDigit
  match fraction rest with
  | some (digits, rest) => .token .decimal (whole ++ digits) rest
  | none => .token .integer whole rest

/-- A comparison of two marks, or a single mark. -/
def operator (c : Char) : List Char → Reading
  | '=' :: cs =>
    if isComparisonStart c then .token .operator [c, '='] cs else .token .operator [c] ('=' :: cs)
  | cs => .token .operator [c] cs

/-- The token that starts with the character `c`, which is no blank. -/
def start (c : Char) (cs : List Char) : Reading :=
  if c = '\'' then character cs
  else if c = '"' then after ['"'] (stringBody cs)
  else if c.isDigit || (isSign c && startsWithDigit cs) then number c cs
  else if isNameStart c then
    .token .identifier (c :: cs.takeWhile isNamePart) (cs.dropWhile isNamePart)
  else if isSeparator c then .stop .unexpectedCharacter []
  else operator c cs

end Reading

/-! ## The cursor -/

/-- A point that reading has come to, and the offset at which its line starts. -/
structure Cursor where
  location : Location
  lineStart : Nat
deriving DecidableEq, Repr

namespace Cursor

def start (file : Option String) : Cursor := ⟨.start file, 0⟩

/-- The cursor after one more character; a line starts right after a line feed. -/
def advance (k : Cursor) (c : Char) : Cursor :=
  let location := k.location.advance c
  ⟨location, if c = '\n' then location.offset.toNat else k.lineStart⟩

/-- The cursor after a stretch of text. -/
def advanceAll (k : Cursor) (cs : List Char) : Cursor := cs.foldl advance k

theorem advanceAll_append (k : Cursor) (cs ds : List Char) :
    k.advanceAll (cs ++ ds) = (k.advanceAll cs).advanceAll ds :=
  List.foldl_append

theorem location_advanceAll (k : Cursor) (cs : List Char) :
    (k.advanceAll cs).location = k.location.advanceAll cs := by
  induction cs generalizing k with
  | nil => rfl
  | cons c cs ih => exact ih (k.advance c)

end Cursor

/-! ## All tokens -/

/-- Where and why reading stopped. -/
structure ScanError extends Cursor where
  cause : ScanCause
deriving DecidableEq, Repr

/-- The tokens that were read, and the error that ended the reading early if there was one. -/
structure Scan where
  tokens : List Token
  error : Option ScanError
deriving DecidableEq, Repr

namespace Scan

/-- Read at most `fuel` tokens from a cursor on.  A token takes at least one character, so
the length of the text is fuel enough. -/
def scanFrom : (fuel : Nat) → Cursor → List Char → Scan
  | 0, _, _ => ⟨[], none⟩
  | fuel + 1, k, cs =>
    let here := k.advanceAll (cs.takeWhile isBlank)
    match cs.dropWhile isBlank with
    | [] => ⟨[], none⟩
    | c :: rest =>
      match Reading.start c rest with
      | .token kind lexeme rest =>
        let more := scanFrom fuel (here.advanceAll lexeme) rest
        ⟨⟨kind, String.ofList lexeme, here.location⟩ :: more.tokens, more.error⟩
      | .stop cause before => ⟨[], some ⟨here.advanceAll before, cause⟩⟩

/-- Read a whole text. -/
def ofText (source : List Char) (file : Option String) : Scan :=
  scanFrom source.length (Cursor.start file) source

/-- All tokens, or the error. -/
def result (s : Scan) : Except ScanError (List Token) :=
  match s.error with
  | none => .ok s.tokens
  | some e => .error e

end Scan

/-- The tokens of a text. -/
def tokenize (source : String) (file : Option String := none) : Except ScanError (List Token) :=
  (Scan.ofText source.toList file).result

/-- The error as it is reported, with the text from the start of its line on. -/
def ScanError.fault (source : String) (e : ScanError) : Fault :=
  { stage := .tokens
    message := e.cause.message
    location := some e.location
    sourceLine := some (String.ofList (Lines.lineFrom source.toList e.lineStart))
    code := some e.cause.code.text }

end QuillLang
