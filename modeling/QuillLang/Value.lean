/-
# Values

The values a running program works on.  A list holds values of any kind; a
record is known by its number only, and its fields are kept elsewhere.

Two values are equal if they are of one kind and have equal contents.
Decimals are equal by value, lists element by element, and a record only to
itself.  A decimal that is no number differs even from itself, except that in
lists the same object counts as equal.
-/
import QuillLang.Decimal.Number
import QuillLang.Text.Quoted

namespace QuillLang

/-- The kinds of value. -/
inductive Kind where
  | nil
  | boolean
  | character
  | string
  | integer
  | decimal
  | iterable
  | record
deriving DecidableEq, Repr

namespace Kind

/-- The name of a kind in messages. -/
def title : Kind → String
  | nil => "Nil"
  | boolean => "Boolean"
  | character => "Character"
  | string => "String"
  | integer => "Integer"
  | decimal => "Decimal"
  | iterable => "Iterable"
  | record => "Record"

/-- The name of a kind in listings. -/
def name : Kind → String
  | nil => "NIL"
  | boolean => "BOOLEAN"
  | character => "CHARACTER"
  | string => "STRING"
  | integer => "INTEGER"
  | decimal => "DECIMAL"
  | iterable => "ITERABLE"
  | record => "RECORD"

/-- Whether values of the kind can be put in order. -/
def isOrdered : Kind → Bool
  | boolean | character | string | integer | decimal => true
  | nil | iterable | record => false

end Kind

inductive Value where
  | nil
  | boolean (b : Bool)
  | character (s : String)
  | string (s : String)
  | integer (n : Int)
  | decimal (x : Number)
  | iterable (items : List Value)
  | record (id : Nat)

namespace Value

def kind : Value → Kind
  | nil => .nil
  | boolean _ => .boolean
  | character _ => .character
  | string _ => .string
  | integer _ => .integer
  | decimal _ => .decimal
  | iterable _ => .iterable
  | record _ => .record

/-! ## Equality -/

/-- Whether two values are one object that differs from itself by value. -/
def isSame : Value → Value → Bool
  | decimal a, decimal b => a.isSame b
  | _, _ => false

mutual

/-- Whether two values are equal, unless a signalling decimal is compared.  Lists of different
lengths are told apart without a look at their elements. -/
def equal? : Value → Value → Option Bool
  | nil, nil => some true
  | boolean a, boolean b => some (a == b)
  | character a, character b => some (a == b)
  | string a, string b => some (a == b)
  | integer a, integer b => some (a == b)
  | decimal a, decimal b => a.equal? b
  | iterable as, iterable bs => if as.length = bs.length then equalAll? as bs else some false
  | record a, record b => some (a == b)
  | _, _ => some false

/-- Whether two lists of values are equal element by element, up to the end of the shorter. -/
def equalAll? : List Value → List Value → Option Bool
  | a :: as, b :: bs =>
    if isSame a b then equalAll? as bs
    else
      match equal? a b with
      | some true => equalAll? as bs
      | other => other
  | _, _ => some true

end

/-! ## Text -/

mutual

/-- The text of a value, unless it holds an integer of too many digits. -/
def text? : Value → Option String
  | nil => some "nil"
  | boolean b => some (if b then "true" else "false")
  | character s => some s
  | string s => some s
  | integer n => Numeral.text? n
  | decimal x => some x.plain
  | iterable items => (texts? items).map fun texts => "[" ++ ", ".intercalate texts ++ "]"
  | record _ => some "<record>"

/-- The texts of values. -/
def texts? : List Value → Option (List String)
  | [] => some []
  | v :: vs => do
    let text ← text? v
    let texts ← texts? vs
    return text :: texts

end

mutual

/-- A value as it is listed, with its kind. -/
def describe? : Value → Option String
  | nil => some "RuntimeValue(NIL)"
  | boolean b => some (listed .boolean (if b then "True" else "False"))
  | character s => some (listed .character (Text.quoted s))
  | string s => some (listed .string (Text.quoted s))
  | integer n => (Numeral.text? n).map (listed .integer)
  | decimal x => some (listed .decimal ("Decimal('" ++ x.scientific ++ "')"))
  | iterable items =>
    (describeAll? items).map fun texts =>
      listed .iterable ("[" ++ ", ".intercalate texts ++ "]")
  | record _ => some (listed .record "None")
where
  listed (kind : Kind) (payload : String) : String :=
    "RuntimeValue(" ++ kind.name ++ ", " ++ payload ++ ")"

/-- Values as they are listed. -/
def describeAll? : List Value → Option (List String)
  | [] => some []
  | v :: vs => do
    let text ← describe? v
    let texts ← describeAll? vs
    return text :: texts

end

/-! ## Sets -/

/-- Whether two values at different places of a collection count as one.  Lists and records
count by identity, so two of them are always two. -/
def countsAs (a b : Value) : Bool :=
  match a.kind with
  | .iterable | .record => false
  | _ => a.equal? b == some true

/-- Whether a value can be a member of a collection of different values. -/
def isMember : Value → Bool
  | decimal x => !x.isSignaling
  | _ => true

/-- The number of different values. -/
def distinct : List Value → Nat
  | [] => 0
  | v :: vs => (if vs.any (countsAs v) then 0 else 1) + distinct vs

/-- The number of different values, if each can be a member. -/
def distinct? (vs : List Value) : Option Nat :=
  if vs.all isMember then some (distinct vs) else none

end Value

end QuillLang
