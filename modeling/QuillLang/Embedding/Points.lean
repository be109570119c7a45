/-
# An embedding with ranges and points

A small embedding program that lends some variables, ranges of integers, and
points of the plane.  A point is a record with two coordinates, a label and a
link to anything; it can be moved, and its coordinates added.  Its type has no
name that a program could write.

Failing functions are there to see how an error of the embedding program is
reported: one knows a place of its own, the other does not.
-/
import QuillLang.Embedding

namespace QuillLang

namespace Points

def point : Ty := .outside "Point"

/-- The record type's name, by which its methods are found. -/
def shape : String := "Point"

/-- A name of the embedding program on the host. -/
def hostName (name : String) : String := "host." ++ name

/-! ## Types -/

/-- A variable of the embedding program. -/
def lent (name : String) (type : Ty) : Variable := ⟨name, hostName name, type, .outside⟩

/-- A function of the embedding program. -/
def signature (name : String) (parameters : List Ty) (result : Ty) : Signature :=
  ⟨name, hostName name, parameters, result, .outside⟩

def seed : Variable := lent "seed" .integer
def limit : Variable := lent "limit" .comparable
def nothing : Variable := lent "nothing" .any
def digits : Variable := lent "digits" .integerIterable
def empty : Variable := lent "empty" .integerIterable
def mixed : Variable := lent "mixed" .integerIterable
def origin : Variable := lent "origin" point

def rangeOf : Signature := signature "range" [.integer, .integer] .integerIterable
def makePoint : Signature := signature "point" [.integer, .integer] point
def fail : Signature := signature "fail" [] .nil
def failWith : Signature := signature "fail" [.any] .nil
def id : Signature := signature "id" [.any] .any

/-- A field of a point. -/
def member (name : String) (type : Ty) : Variable := ⟨name, name, type, .outside⟩

def memberX : Variable := member "x" .integer
def memberY : Variable := member "y" .integer
def memberLabel : Variable := member "label" .string
def memberLink : Variable := member "link" .any

def sum : Signature := signature "sum" [point] .integer
def move : Signature := signature "move" [point, .integer, .integer] .nil
def itself : Signature := signature "self" [point] point
def failAt : Signature := signature "fail" [point] .nil
def failAtWith : Signature := signature "fail" [point, .any] .nil

/-- A level of scope with variables and functions under their own names. -/
def frameOf (vars : List Variable) (functions : List Signature) : StaticFrame :=
  { vars := vars.map fun v => (v.name, v)
    functions := functions.map fun s => (s.key, s) }

def static : StaticOutside :=
  { frames :=
      [frameOf [seed, limit, nothing, digits, empty, mixed, origin]
        [rangeOf, makePoint, fail, failWith, id]]
    types :=
      [(shape, frameOf [memberX, memberY, memberLabel, memberLink]
        [sum, move, itself, failAt, failAtWith])] }

/-! ## Values -/

/-- An error of the embedding program that knows no place. -/
def failure (message : String) : Halt := .error { cause := .outside message }

/-- An error of the embedding program that knows its place. -/
def placedFailure : Halt :=
  .error
    { cause := .outside "host failure with location"
      place := some { line := 9, column := 8, offset := 77, file := some "host" }
      code := some .argumentCount }

/-- The integers from `a` up to but not including `b`. -/
def integersBetween (a b : Int) : List Value :=
  (List.range (b - a).toNat).map fun (k : Nat) => .integer (a + k)

def newPoint (x y : Value) : Record :=
  { shape
    fields := [(memberX, x), (memberY, y), (memberLabel, .string "p"), (memberLink, .nil)].map
      fun (v, value) => (v.name, { toVariable := v, value }) }

def callRange : Native
  | .integer a :: .integer b :: _, records => (.ok (.iterable (integersBetween a b)), records)
  | _ :: _ :: _, records => (.error (failure "range bounds must be integers"), records)
  | _, records => (.error .missingArgument, records)

def callPoint : Native
  | x :: y :: _, records => (.ok (.record records.size), records.push (newPoint x y))
  | _, records => (.error .missingArgument, records)

def callFail : Native := fun _ records => (.error (failure "host failure"), records)

def callFailWith : Native := fun _ records => (.error placedFailure, records)

/-- The first argument. -/
def callId : Native
  | v :: _, records => (.ok v, records)
  | [], records => (.error .missingArgument, records)

/-- The sum of two coordinates. -/
def add : Value → Value → Except Halt Value
  | .integer a, .integer b => .ok (.integer (a + b))
  | _, _ => .error (failure "point coordinates must be integers")

/-- The value of a field of a record. -/
def get (records : Array Record) (i : Nat) (name : String) : Value :=
  ((records[i]?.bind fun r => r.fields.lookup name).map (·.value)).getD .nil

def callSum : Native
  | [.record i], records => (add (get records i "x") (get records i "y"), records)
  | _, records => (.error (failure "point coordinates must be integers"), records)

/-- Move a point: the first coordinate changes even if the second cannot. -/
def callMove : Native
  | [.record i, dx, dy], records =>
    match add (get records i "x") dx with
    | .error e => (.error e, records)
    | .ok x =>
      let records := setField records i "x" x
      match add (get records i "y") dy with
      | .error e => (.error e, records)
      | .ok y => (.ok .nil, setField records i "y" y)
  | _, records => (.error (failure "point coordinates must be integers"), records)

def methods : List (FunctionKey × Native) :=
  [(sum.key, callSum), (move.key, callMove), (itself.key, callId), (failAt.key, callFail),
    (failAtWith.key, callFailWith)]

/-- The number of the point at the origin. -/
def originId : Nat := 0

def integers (ns : List Int) : Value := .iterable (ns.map .integer)

def vars : List (Variable × Value) :=
  [(seed, .integer 7), (limit, .integer 5), (nothing, .nil), (digits, integers [1, 2, 3]),
    (empty, .iterable []),
    (mixed, .iterable [.string "s", .nil, .decimal (.finite ⟨false, 150, -2⟩)]),
    (origin, .record originId)]

def functions : List (Signature × Native) :=
  [(rangeOf, callRange), (makePoint, callPoint), (fail, callFail), (failWith, callFailWith),
    (id, callId)]

def running : RunOutside :=
  { frames :=
      [{ vars := vars.map fun (v, value) => (v.name, { toVariable := v, value })
         functions := functions.map fun (s, f) =>
          (s.key, { toSignature := s, body := .native f }) }]
    records := #[newPoint (.integer 0) (.integer 0)]
    methods := fun name => if name = shape then methods else [] }

end Points

/-- The embedding with ranges and points. -/
def Embedding.points : Embedding := ⟨Points.static, Points.running⟩

end QuillLang
