/-
# Embedding programs

A program may run inside another one that lends it variables, functions and
types.  What it lends is given twice: with types, for checking, and with
values, for running.
-/
import QuillLang.Eval.Interpreter

namespace QuillLang

/-- What an embedding program lends. -/
structure Embedding where
  static : StaticOutside := {}
  running : RunOutside := {}

end QuillLang
