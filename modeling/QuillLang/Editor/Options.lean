/-
# Options of the language server

The words of the command line are sorted first: options, with or without a
value of their own after an equals sign, and values.  An option may be
shortened as long as no other starts the same way; a word that could be two
options stops everything.  Then the options take effect one after the other,
so a call for help counts only if nothing before it was wrong.  Words that
belong to no option are wrong, but only in the end.

A double dash as the value in an option's own word takes the option's value
away, whatever values the option knows.
-/
import QuillLang.Numeral.Loose

namespace QuillLang

namespace Editor

inductive LogLevel where
  | debug
  | info
  | warning
  | error
deriving DecidableEq, Repr

namespace LogLevel

def ofName? : String → Option LogLevel
  | "debug" => some debug
  | "info" => some info
  | "warning" => some warning
  | "error" => some error
  | _ => none

/-- The number of a level; what is less is not logged. -/
def number : LogLevel → Nat
  | debug => 10
  | info => 20
  | warning => 30
  | error => 40

end LogLevel

/-- How the server is to be started. -/
structure Options where
  /-- Whether to listen on a socket rather than on standard input. -/
  tcp : Bool := false
  host : Option String := some "127.0.0.1"
  port : Option Int := some 2087
  logLevel : Option LogLevel := some .info
deriving DecidableEq, Repr

/-- The outcome of reading the command line. -/
inductive Startup where
  | start (options : Options) (level : LogLevel)
  /-- There is no level to log at, so the server cannot be started. -/
  | noLevel
  | help
  | invalid
deriving DecidableEq, Repr

namespace Startup

/-- The exit code, if the server is not started. -/
def exitCode? : Startup → Option Nat
  | start .. => none
  | noLevel => some 1
  | help => some 0
  | invalid => some 2

/-- The start with complete options. -/
def ofOptions (o : Options) : Startup :=
  match o.logLevel with
  | some level => start o level
  | none => noLevel

end Startup

namespace Options

/-! ## Sorting the words -/

inductive Flag where
  | help
  | tcp
  | host
  | port
  | logLevel
deriving DecidableEq, Repr

/-- The options in full; the call for help is also written `-h`. -/
def spellings : List (String × Flag) :=
  [("--help", .help), ("--tcp", .tcp), ("--host", .host), ("--port", .port),
    ("--log-level", .logLevel)]

/-- A word of the command line. -/
inductive Word where
  /-- An option on its own. -/
  | flag (f : Flag)
  /-- An option with its value in the same word. -/
  | flagWith (f : Flag) (value : String)
  /-- The short call for help with more letters in the same word. -/
  | cluster (letters : List Char)
  | value (text : String)
  /-- Something that looks like an option, or the mark that ends all options. -/
  | stray
deriving DecidableEq, Repr

/-- The options that a shortened word could be. -/
def candidates (word : List Char) : List Flag :=
  (spellings.filter fun (spelling, _) => word.isPrefixOf spelling.toList).map (·.2)

/-- The digits of a negative number, after its sign. -/
def isNumber (cs : List Char) : Bool :=
  let cs := if cs.getLast? = some '\n' then cs.dropLast else cs
  match cs.dropWhile Text.isDigit with
  | [] => !cs.isEmpty
  | '.' :: fraction => !fraction.isEmpty && fraction.all Text.isDigit
  | _ => false

/-- A word that names no option. -/
def sortOther (cs : List Char) : Word :=
  if isNumber (cs.drop 1) || cs.contains ' ' then .value (String.ofList cs) else .stray

/-- An option, with a value if there is one. -/
def flagWord (f : Flag) : Option String → Word
  | none => .flag f
  | some value => .flagWith f value

/-- A word that starts with two dashes; `none` if it could be two options. -/
def sortLong (cs : List Char) : Option Word :=
  let name := cs.takeWhile (· ≠ '=')
  let value := match cs.dropWhile (· ≠ '=') with
    | [] => none
    | _ :: value => some (String.ofList value)
  match spellings.lookup (String.ofList name), candidates name with
  | some f, _ | none, [f] => some (flagWord f value)
  | none, [] => some (sortOther cs)
  | none, _ => none

/-- A word that starts with a dash; `none` if it could be two options.  The short call for help
may be followed by an equals sign and more letters, or by the letters alone. -/
def sortDashed : List Char → Option Word
  | ['-'] => some (.value "-")
  | '-' :: '-' :: cs => sortLong ('-' :: '-' :: cs)
  | ['-', 'h'] => some (.flag .help)
  | '-' :: 'h' :: '=' :: letters | '-' :: 'h' :: letters => some (.cluster letters)
  | cs => some (sortOther cs)

/-- Sort the words; after a double dash all are values. -/
def sort : List String → Option (List Word)
  | [] => some []
  | "--" :: words => some (.stray :: words.map .value)
  | word :: words => do
    let w ← match word.toList with
      | '-' :: cs => sortDashed ('-' :: cs)
      | _ => some (.value word)
    let ws ← sort words
    return w :: ws

/-! ## Taking effect -/

/-- Whether letters after the short call for help only repeat it. -/
def repeatsHelp (letters : List Char) : Bool := !letters.isEmpty && letters.all (· == 'h')

/-- The number of a port. -/
def port? (value : String) : Option Int :=
  match Numeral.readLoose? value.toList with
  | some (.ok n) => some n
  | _ => none

/-- The options with the value of one of them. -/
def set (o : Options) (f : Flag) (value : String) : Option Options :=
  match f with
  | .help | .tcp => none
  | .host => some { o with host := some value }
  | .port => (port? value).map fun n => { o with port := some n }
  | .logLevel => (LogLevel.ofName? value).map fun level => { o with logLevel := some level }

/-- The options without the value of one of them. -/
def unset (o : Options) : Flag → Option Options
  | .help | .tcp => none
  | .host => some { o with host := none }
  | .port => some { o with port := none }
  | .logLevel => some { o with logLevel := none }

/-- The options with a value that stands in the word of its option. -/
def setInWord (o : Options) (f : Flag) (value : String) : Option Options :=
  if value = "--" then o.unset f else o.set f value

/-- Let words take effect; `stray` tells whether one before them belonged to no option. -/
def apply (o : Options) (stray : Bool) : List Word → Startup
  | [] => if stray then .invalid else .ofOptions o
  | .value _ :: ws | .stray :: ws => apply o true ws
  | .cluster letters :: _ => if repeatsHelp letters then .help else .invalid
  | .flagWith f value :: ws =>
    match o.setInWord f value with
    | some o => apply o stray ws
    | none => .invalid
  | .flag .help :: _ => .help
  | .flag .tcp :: ws => apply { o with tcp := true } stray ws
  | .flag f :: .value value :: ws =>
    match o.set f value with
    | some o => apply o stray ws
    | none => .invalid
  | .flag _ :: _ => .invalid

/-- Read the command line. -/
def read (words : List String) : Startup :=
  match sort words with
  | none => .invalid
  | some ws => apply {} false ws

end Options

end Editor

end QuillLang
