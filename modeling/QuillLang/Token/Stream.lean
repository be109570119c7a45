/-
# A token stream

A text together with the tokens last read from it.  Asking for the tokens
reads the text only if none are kept, so a stream keeps what its last reading
left behind, also when that reading stopped at an error.
-/
import QuillLang.Token.Scan

namespace QuillLang

structure TokenStream where
  source : String
  file : Option String := none
  /-- The tokens of the last reading. -/
  kept : List Token := []

namespace TokenStream

/-- Read the text anew. -/
def read (s : TokenStream) : Except ScanError (List Token) × TokenStream :=
  let scan := Scan.ofText s.source.toList s.file
  (scan.result, { s with kept := scan.tokens })

/-- The tokens, from the last reading if it left some. -/
def iterate (s : TokenStream) : Except ScanError (List Token) × TokenStream :=
  if s.kept.isEmpty then s.read else (.ok s.kept, s)

end TokenStream

end QuillLang
