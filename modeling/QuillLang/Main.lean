/-
# The command line

Reads the options, then a document from standard input, and shows what is
wrong with it.
-/
import QuillLang.Editor.Options
import QuillLang.Editor.Server

namespace QuillLang

/-- How the program is called. -/
def usage : String :=
  "usage: quill-lsp [-h] [--tcp] [--host HOST] [--port PORT] " ++
    "[--log-level \x7bdebug,info,warning,error\x7d]"

/-- A notice in one line. -/
def Editor.Notice.line (n : Editor.Notice) : String :=
  Numeral.text (n.range.start.line + 1) ++ ":" ++ Numeral.text (n.range.start.character + 1) ++
    ": [" ++ n.code ++ "] " ++ n.message

/-- What is wrong with a text, line by line. -/
def report (text : String) : Except String (List String) :=
  match Editor.Document.ofText "<stdin>" text with
  | .ok d => .ok (d.notices.map (·.line))
  | .error f => .error f.message

/-- Everything up to the end of a stream. -/
partial def readAll (input : IO.FS.Stream) (text : String) : IO String := do
  let line ← input.getLine
  if line.isEmpty then return text else readAll input (text ++ line)

/-- Analyse the document on standard input. -/
def serve : IO UInt32 := do
  match report (← readAll (← IO.getStdin) "") with
  | .ok lines =>
    lines.forM IO.println
    return if lines.isEmpty then 0 else 1
  | .error message =>
    IO.eprintln message
    return 1

end QuillLang

open QuillLang

def main (args : List String) : IO UInt32 := do
  match Editor.Options.read args with
  | .help =>
    IO.println usage
    return 0
  | .invalid =>
    IO.eprintln usage
    return 2
  | .noLevel =>
    IO.eprintln "quill-lsp: no log level"
    return 1
  | .start options _ =>
    if options.tcp then
      IO.eprintln "quill-lsp: cannot listen on a socket"
      return 1
    else serve
