/-
# The language server

The server keeps one analysis of each open document.  A text is analysed
whenever it is opened, changed or saved, and what is wrong with it is published
at once; a closed document is forgotten and its notices are taken back.

The texts themselves are not kept here.  A document that is opened comes with
its text; for one that is changed or saved the server asks the workspace, which
belongs to the library that speaks the protocol with the editor.
-/
import QuillLang.Editor.Document

namespace QuillLang

namespace Editor

/-- Values by the name of a document. -/
abbrev ByUri (α : Type) := List (String × α)

namespace ByUri

variable {α : Type}

def erase (xs : ByUri α) (uri : String) : ByUri α := xs.filter (·.1 ≠ uri)

def insert (xs : ByUri α) (uri : String) (a : α) : ByUri α := (uri, a) :: xs.erase uri

end ByUri

/-- What the workspace gives as the text of a document when it is asked. -/
abbrev Workspace := String → Except Failure String

structure Server where
  /-- The analysis of each open document, by its name. -/
  documents : ByUri Document := []

/-- What an editor tells or asks the server. -/
inductive Message where
  | greet
  | greeted
  | shutdown
  | opened (uri text : String)
  | changed (uri : String)
  | saved (uri : String)
  | closed (uri : String)
  | hover (uri : String) (cursor : Position)
  | symbols (uri : String)

/-- What the server can do. -/
structure Capabilities where
  openClose : Bool := true
  /-- How changes are sent; `1` means as whole texts. -/
  change : Nat := 1
  saveText : Bool := true
  hover : Bool := true
  symbols : Bool := true
  name : String := "quill-lsp"
  version : String := "0.1.0"

/-- What the server answers. -/
inductive Answer where
  | nothing
  | capabilities (c : Capabilities)
  | hover (h : Document.Hover)
  | symbols (s : List Document.Symbol)

/-- The notices of a document, sent to the editor. -/
structure Publication where
  uri : String
  notices : List Notice

/-- An answer, and what is published with it. -/
structure Reply where
  answer : Answer := .nothing
  published : List Publication := []

namespace Server

/-- Analyse a text and publish what is wrong with it.  If the analysis fails, the one before it
is kept. -/
def refresh (s : Server) (uri text : String) : Except Failure Reply × Server :=
  match Document.ofText uri text with
  | .error f => (.error f, s)
  | .ok d =>
    (.ok { published := [⟨uri, d.notices⟩] }, { s with documents := s.documents.insert uri d })

/-- Analyse the text that the workspace has for a document. -/
def reanalyse (s : Server) (workspace : Workspace) (uri : String) : Except Failure Reply × Server :=
  match workspace uri with
  | .error f => (.error f, s)
  | .ok text => s.refresh uri text

def document? (s : Server) (uri : String) : Option Document := s.documents.lookup uri

/-- Forget a document. -/
def forget (s : Server) (uri : String) : Server := { s with documents := s.documents.erase uri }

/-- What is said of the name at a position of a document. -/
def hover (s : Server) (uri : String) (cursor : Position) : Answer :=
  match (s.document? uri).bind (·.hover cursor) with
  | some h => .hover h
  | none => .nothing

/-- What a document declares. -/
def symbols (s : Server) (uri : String) : Answer :=
  match s.document? uri with
  | some d => .symbols d.symbols
  | none => .nothing

/-- The reply to a message, and the server after it. -/
def handle (s : Server) (workspace : Workspace) : Message → Except Failure Reply × Server
  | .greet => (.ok { answer := .capabilities {} }, s)
  | .greeted | .shutdown => (.ok {}, s)
  | .opened uri text => s.refresh uri text
  | .changed uri | .saved uri => s.reanalyse workspace uri
  | .closed uri => (.ok { published := [⟨uri, []⟩] }, s.forget uri)
  | .hover uri cursor => (.ok { answer := s.hover uri cursor }, s)
  | .symbols uri => (.ok { answer := s.symbols uri }, s)

/-- The documents that are analysed, in alphabetical order. -/
def cached (s : Server) : List String :=
  (s.documents.map (·.1)).mergeSort fun a b => decide (a ≤ b)

end Server

end Editor

end QuillLang
