/-
# Documents in an editor

An editor wants to know three things of a document: what is wrong with it,
what the name under the cursor means, and what it declares.  All three come
from one pass through the stages up to checking, of which the document keeps
what each stage produced.  The first fault ends the pass, so a document has at
most one notice.

Lines and characters of an editor count from zero.  An editor may ask about
any position, so they may be any integers.
-/
import QuillLang.Diagnostic
import QuillLang.Source
import QuillLang.Tree.References

namespace QuillLang

namespace Editor

structure Position where
  line : Int
  character : Int
deriving DecidableEq, Repr

/-- A part of a document, without its last position. -/
structure Range where
  start : Position
  stop : Position
deriving DecidableEq, Repr

/-- The part of a line from a character on. -/
def Range.onLine (line character : Int) (length : Nat) : Range :=
  ⟨⟨line, character⟩, ⟨line, character + length⟩⟩

/-- The range of a name that starts at a place. -/
def nameRange (p : Place) (name : String) : Range :=
  match p with
  | none => .onLine 0 0 name.length
  | some p => .onLine (p.line - 1) (p.column - 1) name.length

/-! ## Notices -/

/-- The severity of an error. -/
def errorSeverity : Nat := 1

/-- Something that is wrong with a document. -/
structure Notice where
  range : Range
  message : String
  severity : Nat := errorSeverity
  /-- Who says so. -/
  source : String := "quill"
  code : String
deriving DecidableEq, Repr

namespace Notice

/-- The range of a diagnostic, or the first character if it has none. -/
def rangeOf : Option Span → Range
  | none => .onLine 0 0 1
  | some s => .onLine (max 0 (s.line - 1)) (max 0 (s.startColumn - 1)) s.length

def ofDiagnostic (d : Diagnostic) : Notice :=
  { range := rangeOf d.span
    message := "\n".intercalate (d.message :: d.helps.map ("help: " ++ ·))
    code := d.code }

end Notice

/-! ## Documents -/

structure Document where
  uri : String
  text : String
  tokens : List Token := []
  tree : Option (Program Mark) := none
  model : Option Model := none
  notices : List Notice := []

namespace Document

/-- Note a fault.  A failure that is no fault of the document is no notice either. -/
def report (d : Document) : Failure → Except Failure Document
  | .fault f => do
    let diagnostic ← f.diagnose d.text d.uri
    return { d with notices := [.ofDiagnostic diagnostic] }
  | f => .error f

/-- Check the tree of a document. -/
def analyzeTree (d : Document) (p : Program Mark) : Except Failure Document :=
  let d := { d with tree := some p }
  match ((Checker.start {}).check p).1 with
  | .error e => d.report (e.failure d.text)
  | .ok model => .ok { d with model := some model }

/-- Read and check the tokens of a document. -/
def analyzeTokens (d : Document) (tokens : List Token) : Except Failure Document :=
  let d := { d with tokens }
  match parseProgram tokens with
  | .error e => d.report (e.failure tokens d.text (some d.uri))
  | .ok p => d.analyzeTree (p.mark 0).1

/-- Go through all stages, keeping what each produced. -/
def analyze (d : Document) : Except Failure Document :=
  let d : Document := { uri := d.uri, text := d.text }
  match tokenize d.text (some d.uri) with
  | .error e => d.report (e.failure d.text)
  | .ok tokens => d.analyzeTokens tokens

/-- The analysis of a text. -/
def ofText (uri text : String) : Except Failure Document := analyze { uri, text }

/-! ## The name under the cursor -/

/-- Whether the name of a reference covers a position. -/
def covers (cursor : Position) (r : Reference Mark) : Bool :=
  match r.tag.place with
  | none => false
  | some p =>
    p.line - 1 = cursor.line && p.column - 1 ≤ cursor.character &&
      cursor.character < p.column - 1 + r.name.length

/-- What is said of a reference. -/
def describe (m : Model) (r : Reference Mark) : Option String :=
  (m.typeOf? r.tag.id).map fun t =>
    match r.use with
    | .var => "(variable) " ++ r.name ++ ": " ++ t.name
    | .field => "(field) " ++ r.name ++ ": " ++ t.name
    | .function | .method =>
      match m.functionOf? r.tag.id with
      | none => "(function) " ++ r.name ++ ": " ++ t.name
      | some s =>
        let (word, parameters) :=
          if r.use.isMember then ("(method) ", s.parameters.drop 1)
          else ("(function) ", s.parameters)
        word ++ r.name ++ "(" ++ commaSeparated (parameters.map Ty.name) ++ "): " ++ t.name

structure Hover where
  text : String
  range : Range
deriving DecidableEq, Repr

/-- What is said of the name at a position of a document without faults. -/
def hover (d : Document) (cursor : Position) : Option Hover := do
  let p ← d.tree
  let m ← d.model
  let r ← p.references.find? (covers cursor)
  let text ← describe m r
  return ⟨"```quill\n" ++ text ++ "\n```", nameRange r.tag.place r.name⟩

/-! ## Outline -/

/-- The kinds of declaration in an outline. -/
inductive SymbolKind where
  | method
  | field
deriving DecidableEq, Repr

/-- The number of a kind among those an editor knows. -/
def SymbolKind.number : SymbolKind → Nat
  | method => 6
  | field => 8

/-- A declaration in an outline. -/
structure Symbol where
  name : String
  kind : SymbolKind
  detail : Option String
  range : Range
  /-- The part that an editor selects when it goes to the declaration. -/
  selection : Range
deriving DecidableEq, Repr

/-- The token after the one at an offset, if its text is a given name. -/
def nameAfter (offset : Int) (name : String) : List Token → Option Token
  | t :: u :: ts =>
    if t.location.offset = offset && u.lexeme = name then some u
    else nameAfter offset name (u :: ts)
  | _ => none

/-- The range of a declared name: the token right after the word that starts the declaration. -/
def declaredRange (tokens : List Token) (p : Place) (name : String) : Range :=
  match p.bind fun p => nameAfter p.offset name tokens with
  | some t => nameRange (some t.location) name
  | none => nameRange p name

def fieldSymbol (tokens : List Token) (f : Field Mark) : Symbol :=
  let range := declaredRange tokens f.tag.place f.name
  ⟨f.name, .field, f.typeName, range, range⟩

/-- The parameters and the result of a method. -/
def methodDetail (m : Method Mark) : String :=
  let parameters := (m.parameters.zip m.parameterTypes).map fun (x, t) => x ++ ": " ++ t
  let result := match m.returnType with
    | some t => ": " ++ t
    | none => ""
  "(" ++ commaSeparated parameters ++ ")" ++ result

def methodSymbol (tokens : List Token) (m : Method Mark) : Symbol :=
  let range := declaredRange tokens m.tag.place m.name
  ⟨m.name, .method, some (methodDetail m), range, range⟩

/-- The fields and methods of a document that can be read, whether or not it passes checking. -/
def symbols (d : Document) : List Symbol :=
  match d.tree with
  | none => []
  | some p => p.fields.map (fieldSymbol d.tokens) ++ p.methods.map (methodSymbol d.tokens)

end Document

end Editor

end QuillLang
