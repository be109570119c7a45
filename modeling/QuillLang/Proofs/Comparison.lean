/-
# Comparisons make sense together

Equality and order are two implementations: equality goes through all kinds of
value and into lists, the order knows five kinds and refuses the rest.  Their
laws are proved here, and that they fit together: of two values of an ordered
kind exactly one is less, or the two are equal (`Operator.comparisons_coherent`).

Equality is what it should be because it is equality of something.  Two values
are equal just if they have the same content, where the content of a decimal
is the number that it stands for (`Value.equal?_eq_some`).

All this is about values in which every decimal is a number, finite or infinite.
A decimal that is no number breaks the laws at once: it is not equal to itself,
and it cannot be put in order (`Operator.nan_incoherent`).
-/
import Mathlib.Order.WithBot
import QuillLang.Eval.Operators
import QuillLang.Proofs.DecimalValues

namespace QuillLang

/-! ## Numbers

Infinite numbers are put below and above all others.  With that the order is the one of the
numbers, as it is for decimals. -/

namespace Number

/-- The place of a number in the order of all numbers. -/
def rank : Number → WithBot (WithTop ℚ)
  | finite d => ((d.value : WithTop ℚ) : WithBot (WithTop ℚ))
  | infinite negative => if negative then ⊥ else ((⊤ : WithTop ℚ) : WithBot (WithTop ℚ))
  | nan _ => ⊥

def isNaN : Number → Bool
  | nan _ => true
  | _ => false

variable {a b : Number}

/-- The order of numbers is that of their places. -/
theorem order?_eq_some {o : Ordering} (h : a.order? b = some o) :
    (o = .lt ↔ a.rank < b.rank) ∧ (o = .eq ↔ a.rank = b.rank) := by
  cases a with
  | finite a =>
      cases b with
      | finite b =>
          obtain rfl : a.order b = o := Option.some.inj h
          rw [Decimal.order_eq_lt_iff, Decimal.order_eq_eq_iff]
          simp [rank]
      | infinite t =>
          obtain rfl := Option.some.inj h
          have htop : ((a.value : WithTop ℚ) : WithBot (WithTop ℚ)) < ⊤ :=
            WithBot.coe_lt_coe.mpr (WithTop.coe_lt_top _)
          cases t <;> simp [rank, htop]
      | nan n => cases h
  | infinite s =>
      cases b with
      | finite b =>
          obtain rfl := Option.some.inj h
          cases s <;> simp [rank]
      | infinite t =>
          obtain rfl := Option.some.inj h
          cases s <;> cases t <;> simp [rank, compare]
      | nan n => cases h
  | nan m => cases b <;> cases h

theorem exists_order? (ha : a.isNaN = false) (hb : b.isNaN = false) :
    ∃ o, a.order? b = some o := by
  cases a with
  | nan m => cases ha
  | finite a | infinite s =>
      cases b with
      | nan n => cases hb
      | finite b | infinite t => exact ⟨_, rfl⟩

theorem isSignaling_of_isNaN (ha : a.isNaN = false) : a.isSignaling = false := by
  cases a with
  | nan n => cases ha
  | finite d | infinite s => rfl

/-- Numbers are equal if their places are. -/
theorem equal?_eq_some (ha : a.isNaN = false) (hb : b.isNaN = false) :
    ∃ r, a.equal? b = some r ∧ (r = true ↔ a.rank = b.rank) := by
  obtain ⟨o, ho⟩ := exists_order? ha hb
  refine ⟨o == .eq, ?_, ?_⟩
  · rw [equal?, isSignaling_of_isNaN ha, isSignaling_of_isNaN hb, ho]
    rfl
  · rw [beq_iff_eq]
    exact (order?_eq_some ho).2

end Number

/-! ## Equality

Equality is followed through the kinds and into lists once, to show that it is equality of
contents.  That it is reflexive, symmetric and transitive needs no further look at values. -/

/-- What a value holds, with the numbers that decimals stand for. -/
inductive Content where
  | nil
  | boolean (b : Bool)
  | character (s : String)
  | string (s : String)
  | integer (n : Int)
  | decimal (x : WithBot (WithTop ℚ))
  | iterable (items : List Content)
  | record (id : Nat)

namespace Value

mutual

def content : Value → Content
  | nil => .nil
  | boolean b => .boolean b
  | character s => .character s
  | string s => .string s
  | integer n => .integer n
  | decimal x => .decimal x.rank
  | iterable items => .iterable (contents items)
  | record id => .record id

def contents : List Value → List Content
  | [] => []
  | v :: vs => content v :: contents vs

end

mutual

/-- All decimals in a value are numbers. -/
def isDefined : Value → Bool
  | decimal x => !x.isNaN
  | iterable items => allDefined items
  | nil | boolean _ | character _ | string _ | integer _ | record _ => true

def allDefined : List Value → Bool
  | [] => true
  | v :: vs => isDefined v && allDefined vs

end

/-- Objects that differ from themselves are not among the values that are defined. -/
theorem isSame_of_isDefined {u : Value} (hu : u.isDefined = true) (v : Value) :
    isSame u v = false := by
  cases u with
  | decimal a =>
      cases a with
      | nan m => cases hu
      | finite a | infinite s => cases v <;> rfl
  | _ => rfl

theorem length_contents (vs : List Value) : (contents vs).length = vs.length := by
  induction vs with
  | nil => rfl
  | cons v vs ih => exact congrArg (· + 1) ih

mutual

/-- Two values are equal just if they have the same content. -/
theorem equal?_eq_some : ∀ u v : Value, u.isDefined = true → v.isDefined = true →
    ∃ b, u.equal? v = some b ∧ (b = true ↔ u.content = v.content)
  | nil, v, _, _ => by cases v <;> exact ⟨_, rfl, by simp [content]⟩
  | boolean a, v, _, _ => by cases v <;> exact ⟨_, rfl, by simp [content]⟩
  | character a, v, _, _ => by cases v <;> exact ⟨_, rfl, by simp [content]⟩
  | string a, v, _, _ => by cases v <;> exact ⟨_, rfl, by simp [content]⟩
  | integer a, v, _, _ => by cases v <;> exact ⟨_, rfl, by simp [content]⟩
  | record a, v, _, _ => by cases v <;> exact ⟨_, rfl, by simp [content]⟩
  | decimal a, v, hu, hv => by
      cases v with
      | decimal b =>
          obtain ⟨r, hr, hiff⟩ := Number.equal?_eq_some (Bool.not_eq_true' _ ▸ hu)
            (Bool.not_eq_true' _ ▸ hv)
          exact ⟨r, hr, by rw [hiff, content, content, Content.decimal.injEq]⟩
      | _ => exact ⟨_, rfl, by simp [content]⟩
  | iterable us, v, hu, hv => by
      cases v with
      | iterable vs =>
          rw [equal?]
          split
          · next hlength =>
              obtain ⟨b, hb, hiff⟩ := equalAll?_eq_some us vs hu hv hlength
              exact ⟨b, hb, by rw [hiff, content, content, Content.iterable.injEq]⟩
          · next hlength =>
              refine ⟨false, rfl, by simp, fun hcontent => absurd ?_ hlength⟩
              rw [content, content, Content.iterable.injEq] at hcontent
              rw [← length_contents us, hcontent, length_contents]
      | _ => exact ⟨_, rfl, by simp [content]⟩

theorem equalAll?_eq_some : ∀ us vs : List Value, allDefined us = true → allDefined vs = true →
    us.length = vs.length →
    ∃ b, equalAll? us vs = some b ∧ (b = true ↔ contents us = contents vs)
  | [], [], _, _, _ => ⟨true, rfl, by simp⟩
  | u :: us, v :: vs, hu, hv, hlength => by
      obtain ⟨hu, hus⟩ := Bool.and_eq_true_iff.mp hu
      obtain ⟨hv, hvs⟩ := Bool.and_eq_true_iff.mp hv
      obtain ⟨b, hb, hiff⟩ := equal?_eq_some u v hu hv
      obtain ⟨c, hc, hrest⟩ := equalAll?_eq_some us vs hus hvs (Nat.succ.inj hlength)
      rw [equalAll?, isSame_of_isDefined hu, if_neg Bool.false_ne_true, hb]
      cases b with
      | true => exact ⟨c, hc, by simp [contents, ← hiff, hrest]⟩
      | false => exact ⟨false, rfl, by simp [contents, ← hiff]⟩

end

/-! ## Order

There is an order within each of five kinds and none between them.  It comes from five orders that
are known already, so that only the cases have to be told apart. -/

/-- Two values that are in order are of one of five kinds. -/
theorem order?_eq_some {u v : Value} {o : Ordering} (h : u.order? v = some o) :
    (∃ a b, u = .boolean a ∧ v = .boolean b ∧ compare a b = o) ∨
    (∃ a b, u = .character a ∧ v = .character b ∧ compare a b = o) ∨
    (∃ a b, u = .string a ∧ v = .string b ∧ compare a b = o) ∨
    (∃ a b, u = .integer a ∧ v = .integer b ∧ compare a b = o) ∨
    ∃ a b, u = .decimal a ∧ v = .decimal b ∧ a.order? b = some o := by
  unfold order? at h
  split at h <;> simp_all

theorem kind_of_order? {u v : Value} {o : Ordering} (h : u.order? v = some o) :
    u.kind = v.kind ∧ u.kind.isOrdered = true := by
  obtain ⟨a, b, rfl, rfl, -⟩ | ⟨a, b, rfl, rfl, -⟩ | ⟨a, b, rfl, rfl, -⟩ | ⟨a, b, rfl, rfl, -⟩ |
    ⟨a, b, rfl, rfl, -⟩ := order?_eq_some h <;> exact ⟨rfl, rfl⟩

/-- There is an order within a kind that has one, if all decimals are numbers. -/
theorem exists_order? {u v : Value} (hu : u.isDefined = true) (hv : v.isDefined = true)
    (hkind : u.kind = v.kind) (hordered : u.kind.isOrdered = true) : ∃ o, u.order? v = some o := by
  cases u with
  | decimal a =>
      cases v with
      | decimal b =>
          exact Number.exists_order? (Bool.not_eq_true' _ ▸ hu) (Bool.not_eq_true' _ ▸ hv)
      | _ => cases hkind
  | nil | iterable | record => cases hordered
  | _ => cases v <;> first | exact ⟨_, rfl⟩ | cases hkind

/-- Values that are in order have decimals that are numbers. -/
theorem isDefined_of_order? {u v : Value} {o : Ordering} (h : u.order? v = some o) :
    u.isDefined = true ∧ v.isDefined = true := by
  obtain ⟨a, b, rfl, rfl, -⟩ | ⟨a, b, rfl, rfl, -⟩ | ⟨a, b, rfl, rfl, -⟩ | ⟨a, b, rfl, rfl, -⟩ |
    ⟨a, b, rfl, rfl, hab⟩ := order?_eq_some h
  · exact ⟨rfl, rfl⟩
  · exact ⟨rfl, rfl⟩
  · exact ⟨rfl, rfl⟩
  · exact ⟨rfl, rfl⟩
  · cases a <;> cases b <;> first | exact ⟨rfl, rfl⟩ | cases hab

/-- The order and equality agree on which values are the same. -/
theorem content_eq_iff_of_order? {u v : Value} {o : Ordering} (h : u.order? v = some o) :
    u.content = v.content ↔ o = .eq := by
  obtain ⟨a, b, rfl, rfl, rfl⟩ | ⟨a, b, rfl, rfl, rfl⟩ | ⟨a, b, rfl, rfl, rfl⟩ |
    ⟨a, b, rfl, rfl, rfl⟩ | ⟨a, b, rfl, rfl, hab⟩ := order?_eq_some h
  · rw [Std.compare_eq_iff_eq, content, content, Content.boolean.injEq]
  · rw [Std.compare_eq_iff_eq, content, content, Content.character.injEq]
  · rw [Std.compare_eq_iff_eq, content, content, Content.string.injEq]
  · rw [Std.compare_eq_iff_eq, content, content, Content.integer.injEq]
  · rw [(Number.order?_eq_some hab).2, content, content, Content.decimal.injEq]

theorem order?_trans {u v w : Value} (huv : u.order? v = some .lt) (hvw : v.order? w = some .lt) :
    u.order? w = some .lt := by
  obtain ⟨a, b, rfl, rfl, hab⟩ | ⟨a, b, rfl, rfl, hab⟩ | ⟨a, b, rfl, rfl, hab⟩ |
    ⟨a, b, rfl, rfl, hab⟩ | ⟨a, b, rfl, rfl, hab⟩ := order?_eq_some huv
  · cases w with
    | boolean c => exact congrArg some (Std.TransCmp.lt_trans hab (Option.some.inj hvw))
    | _ => cases hvw
  · cases w with
    | character c => exact congrArg some (Std.TransCmp.lt_trans hab (Option.some.inj hvw))
    | _ => cases hvw
  · cases w with
    | string c => exact congrArg some (Std.TransCmp.lt_trans hab (Option.some.inj hvw))
    | _ => cases hvw
  · cases w with
    | integer c => exact congrArg some (Std.TransCmp.lt_trans hab (Option.some.inj hvw))
    | _ => cases hvw
  · cases w with
    | decimal c =>
        obtain ⟨ha, hb⟩ := isDefined_of_order? huv
        obtain ⟨-, hc⟩ := isDefined_of_order? hvw
        obtain ⟨o, ho⟩ := exists_order? ha hc rfl rfl
        have hless : a.rank < c.rank := ((Number.order?_eq_some hab).1.mp rfl).trans
          ((Number.order?_eq_some (show b.order? c = some .lt from hvw)).1.mp rfl)
        rw [ho, (Number.order?_eq_some (show a.order? c = some o from ho)).1.mpr hless]
    | _ => cases hvw

end Value

/-! ## Operators

The six operators are two functions, of which one gives a truth value and the other an order that
is then tested.  So the laws of operators follow from those of equality and order. -/

namespace Operator

/-- The operators that compare by order. -/
def orderings : List Operator := [.lt, .le, .gt, .ge]

variable {scale : Int} {place : Place} {op : Operator} {u v w : Value}

theorem apply_eq_compareValues (hop : op ∈ orderings) :
    op.apply scale place u v = op.compareValues place u v := by
  cases op with
  | lt | le | gt | ge => rfl
  | _ => simp [orderings] at hop

theorem apply_of_order? (hop : op ∈ orderings) {o : Ordering} (h : u.order? v = some o) :
    op.apply scale place u v = .ok (.boolean (op.holds o)) := by
  obtain ⟨hkind, hordered⟩ := Value.kind_of_order? h
  rw [apply_eq_compareValues hop, compareValues, if_neg (not_not.mpr hkind), hordered, h]
  rfl

theorem order?_of_apply_lt (h : Operator.lt.apply scale place u v = .ok (.boolean true)) :
    u.order? v = some .lt := by
  rw [apply_eq_compareValues (by decide), compareValues] at h
  split at h
  · cases h
  · split at h
    · cases h
    · cases ho : u.order? v with
      | none => rw [ho] at h; cases h
      | some o =>
          rw [ho] at h
          cases o with
          | lt => rfl
          | _ => cases h

theorem apply_unordered (hop : op ∈ orderings)
    (h : u.kind ≠ v.kind ∨ u.kind.isOrdered = false) :
    ∃ cause, op.apply scale place u v = .error (.located place cause) := by
  rw [apply_eq_compareValues hop, compareValues]
  split
  · exact ⟨_, rfl⟩
  · next hkind =>
      rw [h.resolve_left hkind]
      exact ⟨_, rfl⟩

/-- Exactly one of `<`, `==` and `>` holds of two values, `<=` is the first or the second, and
`>=` the third or the second. -/
def Trichotomous (scale : Int) (place : Place) (u v : Value) : Prop :=
  ∃ less equal greater : Bool, [less, equal, greater].count true = 1 ∧
    Operator.lt.apply scale place u v = .ok (.boolean less) ∧
    Operator.eq.apply scale place u v = .ok (.boolean equal) ∧
    Operator.gt.apply scale place u v = .ok (.boolean greater) ∧
    Operator.le.apply scale place u v = .ok (.boolean (less || equal)) ∧
    Operator.ge.apply scale place u v = .ok (.boolean (greater || equal))

/-- The laws of comparisons for some of the values, as seen by an expression at a place. -/
structure Coherent (Among : Value → Prop) (scale : Int) (place : Place) : Prop where
  /-- Equality does not fail, and inequality is its negation. -/
  eq_total : ∀ u v, Among u → Among v → ∃ b, Operator.eq.apply scale place u v = .ok (.boolean b) ∧
    Operator.ne.apply scale place u v = .ok (.boolean !b)
  eq_refl : ∀ u, Among u → Operator.eq.apply scale place u u = .ok (.boolean true)
  eq_symm : ∀ u v, Among u → Among v → Operator.eq.apply scale place u v = .ok (.boolean true) →
    Operator.eq.apply scale place v u = .ok (.boolean true)
  eq_trans : ∀ u v w, Among u → Among v → Among w →
    Operator.eq.apply scale place u v = .ok (.boolean true) →
    Operator.eq.apply scale place v w = .ok (.boolean true) →
    Operator.eq.apply scale place u w = .ok (.boolean true)
  trichotomy : ∀ u v : Value, Among u → Among v → u.kind = v.kind →
    u.kind ∈ [Kind.boolean, .character, .string, .integer, .decimal] →
    Trichotomous scale place u v
  lt_trans : ∀ u v w, Operator.lt.apply scale place u v = .ok (.boolean true) →
    Operator.lt.apply scale place v w = .ok (.boolean true) →
    Operator.lt.apply scale place u w = .ok (.boolean true)
  /-- Decimals are compared as the numbers that they stand for. -/
  decimals : ∀ a b : Decimal,
    Operator.lt.apply scale place (.decimal (.finite a)) (.decimal (.finite b)) =
      .ok (.boolean (decide (a.value < b.value))) ∧
    Operator.eq.apply scale place (.decimal (.finite a)) (.decimal (.finite b)) =
      .ok (.boolean (decide (a.value = b.value)))
  /-- Infinite numbers are below and above all decimals. -/
  infinities : ∀ a : Decimal,
    Operator.lt.apply scale place (.decimal (.infinite true)) (.decimal (.finite a)) =
      .ok (.boolean true) ∧
    Operator.lt.apply scale place (.decimal (.finite a)) (.decimal (.infinite false)) =
      .ok (.boolean true)
  /-- All other values have no order, which is an error of the program at that place. -/
  unordered : ∀ u v : Value, u.kind ≠ v.kind ∨ u.kind ∈ [Kind.nil, .iterable, .record] →
    ∀ op ∈ [Operator.lt, .le, .gt, .ge],
      ∃ cause, op.apply scale place u v = .error (.located place cause)

theorem apply_equal {b : Bool} (h : u.equal? v = some b) :
    Operator.eq.apply scale place u v = .ok (.boolean b) ∧
      Operator.ne.apply scale place u v = .ok (.boolean !b) := by
  simp only [apply, equalValues, h]
  exact ⟨rfl, rfl⟩

theorem apply_eq_true_iff (hu : u.isDefined = true) (hv : v.isDefined = true) :
    Operator.eq.apply scale place u v = .ok (.boolean true) ↔ u.content = v.content := by
  obtain ⟨b, hb, hiff⟩ := Value.equal?_eq_some u v hu hv
  rw [(apply_equal hb).1, ← hiff, Except.ok.injEq, Value.boolean.injEq]

theorem trichotomous_of_order? {o : Ordering} (h : u.order? v = some o) :
    Trichotomous scale place u v := by
  obtain ⟨hu, hv⟩ := Value.isDefined_of_order? h
  obtain ⟨b, hb, hiff⟩ := Value.equal?_eq_some u v hu hv
  have hequal : b = o.isEq := by
    rw [Bool.eq_iff_iff, hiff, Value.content_eq_iff_of_order? h, Ordering.isEq_iff_eq_eq]
  refine ⟨o.isLT, o.isEq, o.isGT, ?_, apply_of_order? (by decide) h,
    hequal ▸ (apply_equal hb).1, apply_of_order? (by decide) h, ?_, ?_⟩
  · cases o <;> rfl
  · rw [apply_of_order? (by decide) h]
    cases o <;> rfl
  · rw [apply_of_order? (by decide) h]
    cases o <;> rfl

theorem apply_decimals_of_order (a b : Decimal) :
    Operator.lt.apply scale place (.decimal (.finite a)) (.decimal (.finite b)) =
      .ok (.boolean (decide (a.value < b.value))) ∧
    Operator.eq.apply scale place (.decimal (.finite a)) (.decimal (.finite b)) =
      .ok (.boolean (decide (a.value = b.value))) := by
  have hless : Operator.lt.holds (a.order b) = decide (a.value < b.value) := by
    rw [Bool.eq_iff_iff, decide_eq_true_iff, ← Decimal.order_eq_lt_iff]
    exact Ordering.isLT_iff_eq_lt
  have hequal : (some (a.order b) == some Ordering.eq) = decide (a.value = b.value) := by
    rw [Bool.eq_iff_iff, decide_eq_true_iff, ← Decimal.order_eq_eq_iff, beq_iff_eq,
      Option.some.injEq]
  have hvalues : (Value.decimal (.finite a)).equal? (.decimal (.finite b)) =
      some (decide (a.value = b.value)) := by rw [← hequal]; rfl
  refine ⟨?_, (apply_equal hvalues).1⟩
  rw [apply_of_order? (by decide) (show Value.order? _ _ = some (a.order b) from rfl), hless]

/-- Comparisons of values in which all decimals are numbers are coherent, whatever the scale of
quotients and wherever they stand. -/
theorem comparisons_coherent (scale : Int) (place : Place) :
    Coherent (fun v => v.isDefined = true) scale place where
  eq_total u v hu hv := by
    obtain ⟨b, hb, -⟩ := Value.equal?_eq_some u v hu hv
    exact ⟨b, apply_equal hb⟩
  eq_refl u hu := (apply_eq_true_iff hu hu).mpr rfl
  eq_symm u v hu hv h := (apply_eq_true_iff hv hu).mpr ((apply_eq_true_iff hu hv).mp h).symm
  eq_trans u v w hu hv hw huv hvw :=
    (apply_eq_true_iff hu hw).mpr
      (((apply_eq_true_iff hu hv).mp huv).trans ((apply_eq_true_iff hv hw).mp hvw))
  trichotomy u v hu hv hkind hordered := by
    have hsome : u.kind.isOrdered = true := by
      cases u with
      | nil | iterable | record => simp [Value.kind] at hordered
      | _ => rfl
    obtain ⟨o, ho⟩ := Value.exists_order? hu hv hkind hsome
    exact trichotomous_of_order? ho
  lt_trans u v w huv hvw :=
    apply_of_order? (by decide)
      (Value.order?_trans (order?_of_apply_lt huv) (order?_of_apply_lt hvw))
  decimals := apply_decimals_of_order
  infinities a := ⟨rfl, rfl⟩
  unordered u v h op hop := by
    refine apply_unordered hop (h.imp_right fun hkind => ?_)
    cases u with
    | nil | iterable | record => rfl
    | _ => simp [Value.kind] at hkind

/-- A decimal that is no number is not equal to itself and has no order, so comparisons of all
values are not coherent. -/
theorem nan_incoherent :
    Operator.eq.apply 1 none (.decimal (.nan {})) (.decimal (.nan {})) = .ok (.boolean false) ∧
    Operator.lt.apply 1 none (.decimal (.nan {})) (.decimal (.nan {})) =
      .error (.signal .invalid) ∧
    ¬ Coherent (fun _ => True) 1 none := by
  refine ⟨rfl, rfl, fun h => ?_⟩
  have hself := h.eq_refl (.decimal (.nan {})) trivial
  cases hself

end Operator

end QuillLang
