/-
# Values of a type

A value belongs to a type if its kind does, and `NIL` may stand for a value of
any type.  A program that nothing is lent to makes neither lists nor records;
its values are plain, and for plain values every operator is safe on operands
of the types it asks for, up to the failures that `EvalCause.Excused` lists.
-/
import QuillLang.Proofs.Outcome
import QuillLang.Proofs.Typing

namespace QuillLang

/-! ## Kinds and types

A type is a set of kinds here.  A parameter or a variable may be of a wider type than what is put
in, and `NIL` goes with every type. -/

/-- The kinds of the values of a type. -/
def Ty.admits : Ty → Kind → Bool
  | .nil, k => k = .nil
  | .any, _ => true
  | .boolean, k => k = .boolean
  | .integer, k => k = .integer
  | .decimal, k => k = .decimal
  | .character, k => k = .character
  | .string, k => k = .string
  | .comparable, k => k = .integer || k = .decimal || k = .character || k = .string
  | .integerIterable, k => k = .iterable
  | .outside _, k => k = .record

namespace Value

/-- A value may stand where a type is asked for: it is `NIL`, or of a kind of the type. -/
def Fits (v : Value) (t : Ty) : Prop := v.kind = .nil ∨ t.admits v.kind = true

/-- A value that a program can make by itself. -/
def Plain (v : Value) : Prop := v.kind ≠ .iterable ∧ v.kind ≠ .record

/-- A plain value that fits a type. -/
structure Sound (v : Value) (t : Ty) : Prop where
  fits : v.Fits t
  plain : v.Plain

theorem Sound.nil (t : Ty) : Value.nil.Sound t :=
  ⟨.inl rfl, by simp [Plain, kind]⟩

theorem Sound.of_kind {v : Value} {t : Ty} (hp : v.Plain) (h : t.admits v.kind = true) :
    v.Sound t :=
  ⟨.inr h, hp⟩

/-- A value that fits a type fits every type that takes it. -/
theorem Fits.mono {v : Value} {target actual : Ty} (h : v.Fits actual)
    (hm : target.mismatch? actual = none) : v.Fits target := by
  rcases h with h | h
  · exact .inl h
  · refine .inr ?_
    cases target with
    | any => rfl
    | comparable =>
        simp only [Ty.mismatch?, ite_eq_left_iff, reduceCtorEq, imp_false, not_not] at hm
        cases actual <;> simp_all [Ty.isComparable, Ty.admits]
    | _ =>
        simp only [Ty.mismatch?, ite_eq_left_iff, reduceCtorEq, imp_false, not_not] at hm
        exact hm ▸ h

theorem Sound.mono {v : Value} {target actual : Ty} (h : v.Sound actual)
    (hm : target.mismatch? actual = none) : v.Sound target :=
  ⟨h.fits.mono hm, h.plain⟩

/-! ## The value behind a type

The operators and rules take values apart by their kind.  A value of one of these types is of the
kind that they ask for, or `NIL`. -/

theorem Sound.boolean_cases {v : Value} (h : v.Sound .boolean) :
    v = .nil ∨ ∃ b, v = .boolean b := by
  obtain ⟨hf, -⟩ := h
  cases v <;> simp_all [Fits, Ty.admits, kind]

theorem Sound.integer_cases {v : Value} (h : v.Sound .integer) :
    v = .nil ∨ ∃ n, v = .integer n := by
  obtain ⟨hf, -⟩ := h
  cases v <;> simp_all [Fits, Ty.admits, kind]

theorem Sound.decimal_cases {v : Value} (h : v.Sound .decimal) :
    v = .nil ∨ ∃ d, v = .decimal d := by
  obtain ⟨hf, -⟩ := h
  cases v <;> simp_all [Fits, Ty.admits, kind]

theorem Sound.string_cases {v : Value} (h : v.Sound .string) : v = .nil ∨ ∃ s, v = .string s := by
  obtain ⟨hf, -⟩ := h
  cases v <;> simp_all [Fits, Ty.admits, kind]

/-- A program has no lists of its own. -/
theorem Sound.iterable_cases {v : Value} (h : v.Sound .integerIterable) : v = .nil := by
  obtain ⟨hf, hp⟩ := h
  cases v <;> simp_all [Fits, Ty.admits, kind, Plain]

end Value

namespace Value

/-! ## Order

Comparisons by order are the one place where types let values of two kinds meet, because
`Comparable` has four of them. -/

theorem Fits.ordered_or_nil {v : Value} {t : Ty} (h : v.Fits t) (ht : t.isComparable = true) :
    v.kind = .nil ∨ v.kind.isOrdered = true := by
  rcases h with h | h
  · exact .inl h
  · cases v <;> cases t <;> simp_all [kind, Kind.isOrdered, Ty.admits, Ty.isComparable]

/-- Among the comparable types only `Comparable` itself has values of several kinds. -/
theorem Fits.kind_unique {v w : Value} {t : Ty} (hv : v.Fits t) (hw : w.Fits t)
    (ht : t.isComparable = true) (hc : t ≠ .comparable) (hvn : v.kind ≠ .nil)
    (hwn : w.kind ≠ .nil) : v.kind = w.kind := by
  have hv := hv.resolve_left hvn
  have hw := hw.resolve_left hwn
  cases t <;> simp_all [Ty.admits, Ty.isComparable]

end Value

/-! ## Failures that types do not rule out

The excuses are listed once, and all that follows only refers to the list.  Most come from `NIL`,
which no type rules out; the others depend on values or on the limits of a machine. -/

/-- The failures that a well-typed program may still meet: three that depend on the values, and
those in which a value that does not fit is `NIL`. -/
def EvalCause.Excused : EvalCause → Prop
  | .divideByZero | .stackOverflow | .sliceRange .. => True
  | .wrongKind _ actual => actual = .nil
  | .incomparable l r => l = .nil ∨ r = .nil
  | .unordered k => k = .nil
  | .operands _ l r => l = .nil ∨ r = .nil
  | .sliceBounds start stop => start = .nil ∨ stop = .nil
  | .noMethod receiver _ _ => receiver = .nil
  | .mainResult actual => actual = .nil
  | .undefinedVariable _ | .undefinedFunction .. | .noField .. | .duplicate _ | .argumentCount ..
  | .invalidTarget | .missingMain | .returnOutside | .outside _ => False

/-- The ways in which a well-typed program may stop early.  `Mixed` says at which places values
of two different kinds may meet in an ordering comparison. -/
def Halt.Excused (Mixed : Place → Kind → Kind → Prop) : Halt → Prop
  | .error e => e.cause.Excused ∨ ∃ l r, e.cause = .incomparable l r ∧ Mixed e.place l r
  | .digits limit => limit = .writing
  | .outOfFuel => True
  | .quotient _ | .signal _ | .depth | .missingArgument => False

theorem Halt.Excused.mono {Mixed Mixed' : Place → Kind → Kind → Prop} {h : Halt}
    (hx : h.Excused Mixed) (hM : ∀ place l r, Mixed place l r → Mixed' place l r) :
    h.Excused Mixed' := by
  cases h with
  | error e =>
      rcases hx with hx | ⟨l, r, hc, hm⟩
      · exact .inl hx
      · exact .inr ⟨l, r, hc, hM _ l r hm⟩
  | _ => exact hx

/-- The same on a machine with a given scale.  Quotients are always found to a number of places,
but not always to a negative number of them.  That decimals have no result is not ruled out by
types either, only by what literals are read from a text. -/
def Halt.ExcusedAt (scale : Int) (Mixed : Place → Kind → Kind → Prop) (h : Halt) : Prop :=
  h.Excused Mixed ∨ (scale < 0 ∧ ∃ limit, h = .quotient limit) ∨ ∃ signal, h = .signal signal

/-! ## Operators

For each operator the operands are of the types that its rule asks for, so what is left is to go
through the kinds that these types admit. -/

namespace Operator

/-- The operators that ask for the order of two values. -/
def isOrdering : Operator → Bool
  | .lt | .le | .gt | .ge => true
  | _ => false

theorem isLogical_of_isComparison (op : Operator) (h : op.isComparison = true) :
    op.isLogical = false := by
  cases op <;> first | rfl | cases h

/-- Where values of two kinds may meet: at an ordering comparison whose left operand is declared
`Comparable`. -/
structure Mixes (op : Operator) (place : Place) (l : Ty) (vl vr : Value) (at' : Place)
    (lk rk : Kind) : Prop where
  place : at' = place
  ordering : op.isOrdering = true
  declared : l = .comparable
  left : lk = vl.kind ∧ lk ≠ .nil
  right : rk = vr.kind ∧ rk ≠ .nil
  differ : lk ≠ rk

theorem compareValues_sound {op : Operator} {scale : Int} {place : Place} {l r : Ty}
    {vl vr : Value} (hop : op.isOrdering = true) (hlc : l.isComparable = true)
    (hlr : l.mismatch? r = none) (hl : vl.Sound l) (hr : vr.Sound r) :
    Yields (op.compareValues place vl vr) (·.Sound .boolean)
      (·.ExcusedAt scale (Mixes op place l vl vr)) := by
  -- the right operand may stand where the left one is asked for
  have hr' : vr.Fits l := hr.fits.mono hlr
  refine compareValues_yields (fun _ => .of_kind (by simp [Value.Plain, Value.kind]) rfl)
    (fun hne => ?_) (fun hun => ?_) fun _ _ _ => .inr (.inr ⟨_, rfl⟩)
  · by_cases hln : vl.kind = .nil
    · exact .inl (.inl (.inl hln))
    by_cases hrn : vr.kind = .nil
    · exact .inl (.inl (.inr hrn))
    refine .inl (.inr ⟨vl.kind, vr.kind, rfl, rfl, hop, ?_, ⟨rfl, hln⟩, ⟨rfl, hrn⟩, hne⟩)
    by_contra hc
    exact hne (hl.fits.kind_unique hr' hlc hc hln hrn)
  · exact .inl (.inl ((hl.fits.ordered_or_nil hlc).resolve_right (by simp [hun])))

/-- A sum of which one side is declared a string is a text, unless that side is `NIL`. -/
theorem add_text_sound {scale : Int} {place : Place} {l r : Ty} {vl vr : Value}
    {Mixed : Place → Kind → Kind → Prop} (h : l = .string ∨ r = .string)
    (hl : vl.Sound l) (hr : vr.Sound r) :
    Yields (apply scale .add place vl vr) (·.Sound .string) (·.Excused Mixed) := by
  simp only [apply]
  split
  · exact concatenate_yields (fun _ => .of_kind (by simp [Value.Plain, Value.kind]) rfl) rfl
  · next hnot =>
      simp only [Bool.or_eq_true, decide_eq_true_eq, not_or] at hnot
      have hnil : vl = .nil ∨ vr = .nil := by
        rcases h with rfl | rfl
        · rcases hl.string_cases with h | ⟨s, rfl⟩
          · exact .inl h
          · exact absurd rfl hnot.1
        · rcases hr.string_cases with h | ⟨s, rfl⟩
          · exact .inr h
          · exact absurd rfl hnot.2
      rcases hnil with rfl | rfl
      · exact .inl (.inl rfl)
      · cases vl <;> exact .inl (.inr rfl)

theorem arithmetic_sound {op : Operator} {scale : Int} {place : Place} {t : Ty} {vl vr : Value}
    {Mixed : Place → Kind → Kind → Prop} (ht : t = .integer ∨ t = .decimal)
    (hl : vl.Sound t) (hr : vr.Sound t) :
    Yields (op.arithmetic scale place vl vr) (·.Sound t) (·.ExcusedAt scale Mixed) := by
  rcases ht with rfl | rfl
  · rcases hl.integer_cases with rfl | ⟨a, rfl⟩
    · exact .inl (.inl (.inl rfl))
    · rcases hr.integer_cases with rfl | ⟨b, rfl⟩
      · exact .inl (.inl (.inr rfl))
      · exact onIntegers_yields (fun _ => .of_kind (by simp [Value.Plain, Value.kind]) rfl)
          (.inl (.inl trivial))
  · rcases hl.decimal_cases with rfl | ⟨a, rfl⟩
    · exact .inl (.inl (.inl rfl))
    · rcases hr.decimal_cases with rfl | ⟨b, rfl⟩
      · exact .inl (.inl (.inr rfl))
      · exact onDecimals_yields (fun _ => .of_kind (by simp [Value.Plain, Value.kind]) rfl)
          (.inl (.inl trivial)) (fun signal => .inr (.inr ⟨signal, rfl⟩)) fun limit h =>
            .inr (.inl ⟨h, limit, rfl⟩)

/-- What an operator makes of values that fit the types of its operands fits the type of the
whole, or is a failure that types do not rule out. -/
theorem apply_sound {op : Operator} {scale : Int} {place : Place} {l r t : Ty} {vl vr : Value}
    (hop : op.isLogical = false) (hc : op.Combines l r t) (hl : vl.Sound l) (hr : vr.Sound r) :
    Yields (op.apply scale place vl vr) (·.Sound t)
      (·.ExcusedAt scale (Mixes op place l vl vr)) := by
  cases hc with
  | logical h => rw [h] at hop; cases hop
  | comparison h hlc hrc hlr =>
      cases op with
      | eq | ne =>
          exact equalValues_yields (fun _ => .of_kind (by simp [Value.Plain, Value.kind]) rfl)
            fun _ => .inr (.inr ⟨_, rfl⟩)
      | lt | le | gt | ge => exact compareValues_sound rfl hlc hlr hl hr
      | _ => cases h
  | text h => exact (add_text_sound h hl hr).imp (fun _ h => h) fun _ h => .inl h
  | arithmetic _ h ht =>
      have harith : op.apply scale place vl vr = op.arithmetic scale place vl vr := by
        cases op with
        | add =>
            have hno : ∀ v : Value, v.Sound l → v.kind ≠ .string := by
              intro v hv
              rcases ht with rfl | rfl
              · rcases hv.integer_cases with rfl | ⟨_, rfl⟩ <;> simp [Value.kind]
              · rcases hv.decimal_cases with rfl | ⟨_, rfl⟩ <;> simp [Value.kind]
            simp [apply, hno vl hl, hno vr hr]
        | sub | mul | div | and | or => rfl
        | _ => cases h
      rw [harith]
      exact arithmetic_sound ht hl hr

end Operator

/-! ## Members of strings -/

theorem Value.slice_sound {s : String} {start stop : Value} {Mixed : Place → Kind → Kind → Prop}
    (hstart : start.Sound .integer) (hstop : stop.Sound .integer) :
    Yields (Value.slice s start stop) (·.Sound .string) (·.Excused Mixed) := by
  rcases hstart.integer_cases with rfl | ⟨a, rfl⟩
  · exact .inl (.inl rfl)
  · rcases hstop.integer_cases with rfl | ⟨b, rfl⟩
    · exact .inl (.inr rfl)
    · exact slice_yields (fun _ => .of_kind (by simp [Plain, kind]) rfl)
        (fun _ _ => .inl trivial) (fun hno => (hno a b rfl rfl).elim) rfl

end QuillLang
