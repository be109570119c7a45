/-
# Where a check stops

Checking a node comes to its parts one after the other, each in a state of its
own: after the parts before it, and inside the scopes that have been opened
around it (`Check.Enters`).  A check that stops with an error stops at a node
that it has come to, and what is wrong there can be read off that node and the
state it is checked in (`Check.Raises`): a name that the scopes or the members
of a type do not have, a type that is unknown, or something that is not about a
name.

The walk is followed once, for any property of visits that passes from a node to
the parts that are entered (`Check.expr_stops` and its companions).
-/
import QuillLang.Failure
import QuillLang.Proofs.Checked
import QuillLang.Proofs.Numbering

namespace QuillLang

/-- The names of types that a node mentions itself. -/
def Node.typeNames {α : Type} : Node α → List String
  | .field f => f.typeName.toList
  | .method d => d.returnType.toList ++ d.parameterTypes
  | .stmt (.declare _ _ typeName _) => typeName.toList
  | _ => []

/-- The name that was looked for in vain. -/
def CheckCause.sought? : CheckCause → Option String
  | undefinedVariable name _ | undefinedFunction name _ _ | noField _ name _ | noMethod _ name _ _
  | unknownType name => some name
  | _ => none

/-- A checker in a new scope inside the innermost one. -/
def Checker.inner (c : Checker) : Checker := { c with scope := {}, enclosing := c.chain }

namespace Check

/-! ## From a node to its parts

A part is entered in the state that the check has come to: after the parts before it, if these were
accepted.  Arguments are only entered as far as there are parameters. -/

/-- Checking a node in some state comes to check a part of it in another state. -/
inductive Enters : Checker → Node Mark → Checker → Node Mark → Prop where
  | group {c : Checker} {m : Mark} {e : Expr Mark} : e.isBinary = true →
      Enters c (.expr (.group m e)) c (.expr e)
  | left {c : Checker} {m : Mark} {op : Operator} {l r : Expr Mark} :
      Enters c (.expr (.binary m op l r)) c (.expr l)
  | right {c d : Checker} {m : Mark} {op : Operator} {l r : Expr Mark} {t : Ty} :
      expr l c = .ok t d → Enters c (.expr (.binary m op l r)) d (.expr r)
  | fieldReceiver {c : Checker} {m : Mark} {e : Expr Mark} {x : String} :
      Enters c (.expr (.field m e x)) c (.expr e)
  | argument {c d : Checker} {m : Mark} {f : String} {es before after : List (Expr Mark)}
      {e : Expr Mark} {s : Signature} : Chain.findFunction? c.chain (f, es.length) = some s →
      es = before ++ e :: after → before.length < s.parameters.length →
      arguments before s.parameters c = .ok () d → Enters c (.expr (.call m f es)) d (.expr e)
  | receiver {c : Checker} {m : Mark} {e : Expr Mark} {f : String} {es : List (Expr Mark)} :
      Enters c (.expr (.invoke m e f es)) c (.expr e)
  | memberArgument {c c' d : Checker} {m : Mark} {e a : Expr Mark} {f : String} {t : Ty}
      {es before after : List (Expr Mark)} {s : Signature} : expr e c = .ok t c' →
      (c'.outside.members t).findFunction? (f, es.length + 1) = some s →
      es = before ++ a :: after → before.length < s.parameters.tail.length →
      arguments before s.parameters.tail c' = .ok () d →
      Enters c (.expr (.invoke m e f es)) d (.expr a)
  | alone {c : Checker} {m : Mark} {e : Expr Mark} : isCall e = true →
      Enters c (.stmt (.expr m e)) c (.expr e)
  | initial {c : Checker} {m : Mark} {x : String} {type : Option String} {e : Expr Mark} :
      (∀ name ∈ type, (Ty.ofName? name).isSome = true) →
      Enters c (.stmt (.declare m x type (some e))) c (.expr e)
  | target {c : Checker} {m : Mark} {l e : Expr Mark} : isTarget l = true →
      Enters c (.stmt (.assign m l e)) c (.expr l)
  | assigned {c d : Checker} {m : Mark} {l e : Expr Mark} {t : Ty} : isTarget l = true →
      expr l c = .ok t d → Enters c (.stmt (.assign m l e)) d (.expr e)
  | condition {c : Checker} {m : Mark} {e : Expr Mark} {a b : List (Stmt Mark)} :
      Enters c (.stmt (.branch m e a b)) c (.expr e)
  | thenBody {c d d' : Checker} {m : Mark} {e : Expr Mark} {a b before after : List (Stmt Mark)}
      {s : Stmt Mark} : expr e c = .ok .boolean d → a = before ++ s :: after →
      block before d.inner = .ok () d' → Enters c (.stmt (.branch m e a b)) d' (.stmt s)
  | elseBody {c d₁ d₂ d' : Checker} {m : Mark} {e : Expr Mark}
      {a b before after : List (Stmt Mark)} {s : Stmt Mark} : expr e c = .ok .boolean d₁ →
      a ≠ [] → inScope (block a) d₁ = .ok () d₂ → b = before ++ s :: after →
      block before d₂.inner = .ok () d' → Enters c (.stmt (.branch m e a b)) d' (.stmt s)
  | items {c : Checker} {m : Mark} {x : String} {e : Expr Mark} {b : List (Stmt Mark)} :
      Enters c (.stmt (.forIn m x e b)) c (.expr e)
  | forBody {c d d₁ d' : Checker} {m : Mark} {x : String} {e : Expr Mark} {v : Variable}
      {b before after : List (Stmt Mark)} {s : Stmt Mark} : expr e c = .ok .integerIterable d →
      defineVariable x .integer m d.inner = .ok v d₁ → b = before ++ s :: after →
      block before d₁ = .ok () d' → Enters c (.stmt (.forIn m x e b)) d' (.stmt s)
  | loopCondition {c : Checker} {m : Mark} {e : Expr Mark} {b : List (Stmt Mark)} :
      Enters c (.stmt (.loop m e b)) c (.expr e)
  | loopBody {c d d' : Checker} {m : Mark} {e : Expr Mark} {b before after : List (Stmt Mark)}
      {s : Stmt Mark} : expr e c = .ok .boolean d → b = before ++ s :: after →
      block before d.inner = .ok () d' → Enters c (.stmt (.loop m e b)) d' (.stmt s)
  | result {c : Checker} {m : Mark} {e : Expr Mark} {t : Ty} : c.returnType = some t →
      Enters c (.stmt (.ret m e)) c (.expr e)
  | value {c : Checker} {f : Field Mark} {e : Expr Mark} :
      (∀ name ∈ f.typeName, (Ty.ofName? name).isSome = true) → f.value = some e →
      Enters c (.field f) c (.expr e)
  | body {c c₁ c₂ c₃ d : Checker} {f : Method Mark} {result : Ty} {types : List Ty}
      {before after : List (Stmt Mark)} {s : Stmt Mark} :
      resultType f.tag.place f.returnType c = .ok result c →
      resolveTypes f.tag.place f.parameterTypes c = .ok types c →
      defineMethod ⟨f.name, f.name, types, result, .node f.tag.id⟩ f.tag.place c = .ok () c₁ →
      noteFunction f.tag .method ⟨f.name, f.name, types, result, .node f.tag.id⟩ c₁ = .ok () c₂ →
      parameters f.tag (f.parameters.zip types)
        (Checker.inner { c₂ with returnType := some result }) = .ok () c₃ →
      f.body = before ++ s :: after → block before c₃ = .ok () d →
      Enters c (.method f) d (.stmt s)

theorem mem_of_split {β : Type} {xs before after : List β} {x : β}
    (h : xs = before ++ x :: after) : x ∈ xs := by
  rw [h]
  exact List.mem_append_right _ List.mem_cons_self

/-- What is entered is a part. -/
theorem Enters.nodes_subset {c d : Checker} {x y : Node Mark} (h : Enters c x d y) :
    y.nodes ⊆ x.nodes := by
  cases h with
  | group | fieldReceiver | alone | initial | result => exact List.subset_cons_self _ _
  | left | receiver | target | condition | items | loopCondition =>
      exact List.subset_cons_of_subset _ (List.subset_append_left _ _)
  | right | assigned => exact List.subset_cons_of_subset _ (List.subset_append_right _ _)
  | argument _ hes =>
      exact List.subset_cons_of_subset _ (Expr.nodes_subset_nodesOf (mem_of_split hes))
  | memberArgument _ _ hes =>
      exact List.subset_cons_of_subset _ (List.subset_append_of_subset_right _
        (Expr.nodes_subset_nodesOf (mem_of_split hes)))
  | thenBody _ ha =>
      exact List.subset_cons_of_subset _ (List.subset_append_of_subset_right _
        (List.subset_append_of_subset_left _ (Stmt.nodes_subset_nodesOf (mem_of_split ha))))
  | elseBody _ _ _ hb =>
      exact List.subset_cons_of_subset _ (List.subset_append_of_subset_right _
        (List.subset_append_of_subset_right _ (Stmt.nodes_subset_nodesOf (mem_of_split hb))))
  | forBody _ _ hb | loopBody _ hb =>
      exact List.subset_cons_of_subset _ (List.subset_append_of_subset_right _
        (Stmt.nodes_subset_nodesOf (mem_of_split hb)))
  | value _ hf =>
      show _ ⊆ _ :: Expr.nodes? _
      rw [hf]
      exact List.subset_cons_self _ _
  | body _ _ _ _ _ hbody =>
      exact List.subset_cons_of_subset _ (Stmt.nodes_subset_nodesOf (mem_of_split hbody))

/-- Wherever a check comes to, what is lent from outside stays the same. -/
theorem Enters.outside {c d : Checker} {x y : Node Mark} (h : Enters c x d y) :
    d.outside = c.outside := by
  have hblock : ∀ {ss : List (Stmt Mark)} {c₁ c₂ : Checker}, block ss c₁.inner = .ok () c₂ →
      c₂.outside = c₁.outside := fun hrun => (block_typed _ hrun).1.outside
  cases h with
  | right hl | assigned _ hl => exact (expr_typed _ hl).1.outside
  | argument _ _ _ hes => exact (arguments_typed _ _ hes).1.outside
  | memberArgument he _ _ _ hes =>
      exact (arguments_typed _ _ hes).1.outside.trans (expr_typed _ he).1.outside
  | thenBody he _ hss | loopBody he _ hss => exact (hblock hss).trans (expr_typed _ he).1.outside
  | elseBody he _ ha _ hss =>
      obtain ⟨d₃, hrun, rfl⟩ := inScope_ok ha
      exact (hblock hss).trans ((block_typed _ hrun).1.outside.trans (expr_typed _ he).1.outside)
  | forBody he hv _ hss =>
      exact (block_typed _ hss).1.outside.trans
        ((defineVariable_ok hv).2.1.outside.trans (expr_typed _ he).1.outside)
  | body _ _ hdefine hnote hparameters _ hss =>
      exact (block_typed _ hss).1.outside.trans ((parameters_ok hparameters).1.outside.trans
        ((noteFunction_ok hnote).1.outside.trans (defineMethod_ok hdefine).1.outside))
  | _ => rfl

/-! ## What is wrong with a node

For a name that is not found it matters where it was looked for, and what could be found there,
since hints are made from that.  Of all other errors only the place matters. -/

/-- An error that a node is to blame for in a state. -/
inductive Raises (c : Checker) : Node Mark → CheckError → Prop where
  | undefinedVariable {m : Mark} {x : String} : Chain.findVariable? c.chain x = none →
      Raises c (.expr (.var m x)) ⟨.undefinedVariable x (Chain.visibleNames c.chain), m.place⟩
  | undefinedFunction {m : Mark} {f : String} {es : List (Expr Mark)} :
      Chain.findFunction? c.chain (f, es.length) = none →
      Raises c (.expr (.call m f es))
        ⟨.undefinedFunction f es.length (Chain.visibleNames c.chain), m.place⟩
  | noField {d : Checker} {m : Mark} {e : Expr Mark} {x : String} {t : Ty} :
      expr e c = .ok t d → (c.outside.members t).findVariable? x = none →
      Raises c (.expr (.field m e x))
        ⟨.noField t x ((c.outside.members t).vars.map (·.1)), m.place⟩
  | noMethod {d : Checker} {m : Mark} {e : Expr Mark} {f : String} {es : List (Expr Mark)}
      {t : Ty} : expr e c = .ok t d →
      (c.outside.members t).findFunction? (f, es.length + 1) = none →
      Raises c (.expr (.invoke m e f es))
        ⟨.noMethod t f es.length ((c.outside.members t).functions.map (·.1.1)), m.place⟩
  | unknownType {x : Node Mark} {name : String} : name ∈ x.typeNames → Ty.ofName? name = none →
      Raises c x ⟨.unknownType name, x.tag.place⟩
  | other {x y : Node Mark} {cause : CheckCause} {place : Place} : cause.sought? = none →
      y ∈ x.nodes → place = y.tag.place → Raises c x ⟨cause, place⟩

theorem Raises.here {c : Checker} {x : Node Mark} {cause : CheckCause}
    (h : cause.sought? = none) : Raises c x ⟨cause, x.tag.place⟩ := .other h x.mem_nodes_self rfl

/-- An error is shown at a node or at a part of it. -/
theorem Raises.exists_place {c : Checker} {x : Node Mark} {err : CheckError}
    (h : Raises c x err) : ∃ y ∈ x.nodes, err.place = y.tag.place := by
  cases h with
  | other _ hy hplace => exact ⟨_, hy, hplace⟩
  | _ => exact ⟨_, Node.mem_nodes_self _, rfl⟩

/-! ## Single steps that fail

Which error a step gives, and where it is placed.  Writing a fact gives none that a program could
be blamed for. -/

section

variable {c d : Checker} {err : CheckError}

theorem noteType_ne_error {e : Expr Mark} {t : Ty} :
    noteType e t c ≠ .error (.error err) d := by
  intro h
  rw [noteType, get_bind] at h
  cases hw : Model.write? c.model.types ⟨e.tag, e.nodeClass, t⟩ with
  | none => rw [hw] at h; cases h
  | some types => rw [hw] at h; cases h

theorem noteVariable_ne_error {m : Mark} {node : NodeClass} {v : Variable} :
    noteVariable m node v c ≠ .error (.error err) d := by
  intro h
  rw [noteVariable, get_bind] at h
  cases hw : Model.write? c.model.vars ⟨m, node, v⟩ with
  | none => rw [hw] at h; cases h
  | some vars => rw [hw] at h; cases h

theorem noteFunction_ne_error {m : Mark} {node : NodeClass} {s : Signature} :
    noteFunction m node s c ≠ .error (.error err) d := by
  intro h
  rw [noteFunction, get_bind] at h
  cases hw : Model.write? c.model.functions ⟨m, node, s⟩ with
  | none => rw [hw] at h; cases h
  | some functions => rw [hw] at h; cases h

theorem require_error {target actual : Ty} {place : Place}
    (h : require target actual place c = .error (.error err) d) :
    ∃ reason, err = ⟨.mismatch reason, place⟩ := by
  unfold require Ty.require at h
  split at h
  · cases h
  · next reason _ => cases h; exact ⟨reason, rfl⟩

theorem resolveType_error {name : String} {place : Place}
    (h : resolveType name place c = .error (.error err) d) :
    Ty.ofName? name = none ∧ err = ⟨.unknownType name, place⟩ := by
  unfold resolveType Ty.resolve at h
  split at h
  · cases h
  · next hnone => cases h; exact ⟨hnone, rfl⟩

theorem resolveTypes_error {place : Place} {names : List String}
    (h : resolveTypes place names c = .error (.error err) d) :
    ∃ name ∈ names, Ty.ofName? name = none ∧ err = ⟨.unknownType name, place⟩ := by
  induction names generalizing c d with
  | nil => cases h
  | cons name names ih =>
      rw [resolveTypes] at h
      rcases bind_eq_error.mp h with h | ⟨t, c₁, -, h⟩
      · exact ⟨name, List.mem_cons_self, resolveType_error h⟩
      rcases bind_eq_error.mp h with h | ⟨ts, c₂, -, h⟩
      · obtain ⟨name', hmem, hname'⟩ := ih h
        exact ⟨name', List.mem_cons_of_mem _ hmem, hname'⟩
      · cases h

theorem resultType_error {place : Place} {typeName : Option String}
    (h : resultType place typeName c = .error (.error err) d) :
    ∃ name ∈ typeName, Ty.ofName? name = none ∧ err = ⟨.unknownType name, place⟩ := by
  cases typeName with
  | none => cases h
  | some name => exact ⟨name, rfl, resolveType_error h⟩

theorem defineVariable_error {x : String} {t : Ty} {m : Mark}
    (h : defineVariable x t m c = .error (.error err) d) :
    err = ⟨.duplicateVariable x, m.place⟩ := by
  rw [defineVariable, get_bind] at h
  cases hw : c.scope.defineVariable x (⟨x, x, t, .node m.id⟩ : Variable) with
  | error key => simp only [hw] at h; cases h; rfl
  | ok scope => simp only [hw] at h; cases h

theorem defineMethod_error {s : Signature} {place : Place}
    (h : defineMethod s place c = .error (.error err) d) :
    err = ⟨.duplicateMethod s.name s.arity, place⟩ := by
  rw [defineMethod, get_bind] at h
  cases hw : c.scope.defineFunction s.key s with
  | error key => rw [hw] at h; cases h; rfl
  | ok scope => rw [hw] at h; cases h

theorem parameters_error {m : Mark} {ps : List (String × Ty)}
    (h : parameters m ps c = .error (.error err) d) :
    ∃ x, err = ⟨.duplicateVariable x, m.place⟩ := by
  induction ps generalizing c d with
  | nil => cases h
  | cons p ps ih =>
      rw [parameters] at h
      rcases bind_eq_error.mp h with h | ⟨v, c₁, -, h⟩
      · exact ⟨p.1, defineVariable_error h⟩
      · exact ih h

theorem inScope_error {α : Type} {act : Check α} {e : CheckFailure}
    (h : inScope act c = .error e d) : ∃ d', act c.inner = .error e d' := by
  unfold inScope at h
  split at h
  · cases h
  · next e' d' hact => cases h; exact ⟨d', hact⟩

theorem returning_error {α : Type} {t : Ty} {act : Check α} {e : CheckFailure}
    (h : returning t act c = .error e d) :
    ∃ d', act { c with returnType := some t } = .error e d' := by
  unfold returning at h
  split at h
  · cases h
  · next e' d' hact => cases h; exact ⟨d', hact⟩

/-- An operation is refused at its place or at that of an operand. -/
theorem operation_error {place lp rp : Place} {op : Operator} {l r : Ty}
    (h : operation place op l r lp rp c = .error (.error err) d) :
    err.cause.sought? = none ∧ err.place ∈ [place, lp, rp] := by
  have hrequire : ∀ {target actual : Ty} {q : Place} {c₁ : Checker},
      q ∈ [place, lp, rp] → require target actual q c₁ = .error (.error err) d →
      err.cause.sought? = none ∧ err.place ∈ [place, lp, rp] := by
    intro target actual q c₁ hq hr
    obtain ⟨reason, rfl⟩ := require_error hr
    exact ⟨rfl, hq⟩
  unfold operation at h
  split at h
  · rcases bind_eq_error.mp h with h | ⟨_, c₁, -, h⟩
    · exact hrequire (by simp) h
    rcases bind_eq_error.mp h with h | ⟨_, c₂, -, h⟩
    · exact hrequire (by simp) h
    · cases h
  split at h
  · rcases bind_eq_error.mp h with h | ⟨_, c₁, -, h⟩
    · exact hrequire (by simp) h
    rcases bind_eq_error.mp h with h | ⟨_, c₂, -, h⟩
    · exact hrequire (by simp) h
    rcases bind_eq_error.mp h with h | ⟨_, c₃, -, h⟩
    · exact hrequire (by simp) h
    · cases h
  split at h
  · cases h
  split at h
  · rcases bind_eq_error.mp h with h | ⟨_, c₁, -, h⟩
    · exact hrequire (by simp) h
    · cases h
  · cases h
    exact ⟨rfl, by simp⟩

end

/-! ## The walk

The property of visits is a parameter, so the walk is followed once and serves for programs and for
single pieces. -/

/-- Visits go on from a node to the parts that are entered. -/
def Downward (Visited : Checker → Node Mark → Prop) : Prop :=
  ∀ {c d : Checker} {x y : Node Mark}, Visited c x → Enters c x d y → Visited d y

/-- A node that was visited is to blame for an error. -/
def StopsAt (Visited : Checker → Node Mark → Prop) (err : CheckError) : Prop :=
  ∃ c x, Visited c x ∧ Raises c x err

theorem arguments_nil (ts : List Ty) : arguments [] ts = pure () := by
  cases ts <;> simp [arguments]

theorem arguments_nil_right (es : List (Expr Mark)) : arguments es [] = pure () := by
  cases es <;> simp [arguments]

section

variable {Visited : Checker → Node Mark → Prop}

mutual

theorem expr_stops (hV : Downward Visited) : ∀ (e : Expr Mark) {c d : Checker} {err : CheckError},
    Visited c (.expr e) → expr e c = .error (.error err) d → StopsAt Visited err
  | .nil m, c, d, err, _, h | .boolean m _, c, d, err, _, h | .character m _, c, d, err, _, h
  | .string m _, c, d, err, _, h => absurd h noteType_ne_error
  | .integer m n, c, d, err, hc, h => by
      rw [expr] at h
      split at h
      · exact absurd h noteType_ne_error
      · cases h
        exact ⟨c, _, hc, .here rfl⟩
  | .decimal m n, c, d, err, hc, h => by
      rw [expr] at h
      split at h
      · cases h
        exact ⟨c, _, hc, .here rfl⟩
      · exact absurd h noteType_ne_error
  | .group m e, c, d, err, hc, h => by
      rw [expr] at h
      split at h
      · next hbinary =>
          rcases bind_eq_error.mp h with h | ⟨t, c₁, -, h⟩
          · exact expr_stops hV e (hV hc (.group hbinary)) h
          · exact absurd h noteType_ne_error
      · cases h
        exact ⟨c, _, hc, .here rfl⟩
  | .binary m op l r, c, d, err, hc, h => by
      rw [expr] at h
      rcases bind_eq_error.mp h with h | ⟨lt, c₁, runL, h⟩
      · exact expr_stops hV l (hV hc .left) h
      rcases bind_eq_error.mp h with h | ⟨rt, c₂, runR, h⟩
      · exact expr_stops hV r (hV hc (.right runL)) h
      rcases bind_eq_error.mp h with h | ⟨t, c₃, -, h⟩
      · obtain ⟨hcause, hplace⟩ := operation_error h
        -- the operation itself or one of its operands is to blame
        have hpart : ∃ y ∈ (Node.expr (.binary m op l r)).nodes, err.place = y.tag.place := by
          simp only [List.mem_cons, List.not_mem_nil, or_false] at hplace
          rcases hplace with hplace | hplace | hplace
          · exact ⟨_, Node.mem_nodes_self _, hplace⟩
          · exact ⟨_, Enters.nodes_subset (c := c) .left l.mem_nodes_self, hplace⟩
          · exact ⟨_, Enters.nodes_subset (.right runL) r.mem_nodes_self, hplace⟩
        obtain ⟨y, hy, hplace⟩ := hpart
        exact ⟨c, _, hc, .other hcause hy hplace⟩
      · exact absurd h noteType_ne_error
  | .var m x, c, d, err, hc, h => by
      rw [expr, get_bind] at h
      cases hx : Chain.findVariable? c.chain x with
      | none =>
          rw [hx] at h
          cases h
          exact ⟨c, _, hc, .undefinedVariable hx⟩
      | some v =>
          rw [hx] at h
          rcases bind_eq_error.mp h with h | ⟨_, c₁, -, h⟩
          · exact absurd h noteVariable_ne_error
          · exact absurd h noteType_ne_error
  | .field m e x, c, d, err, hc, h => by
      rw [expr] at h
      rcases bind_eq_error.mp h with h | ⟨t, c₁, runE, h⟩
      · exact expr_stops hV e (hV hc .fieldReceiver) h
      rw [get_bind, (expr_typed e runE).1.outside] at h
      cases hx : (c.outside.members t).findVariable? x with
      | none =>
          simp only [hx] at h
          cases h
          exact ⟨c, _, hc, .noField runE hx⟩
      | some v =>
          simp only [hx] at h
          rcases bind_eq_error.mp h with h | ⟨_, c₂, -, h⟩
          · exact absurd h noteVariable_ne_error
          · exact absurd h noteType_ne_error
  | .call m f es, c, d, err, hc, h => by
      rw [expr, get_bind] at h
      cases hf : Chain.findFunction? c.chain (f, es.length) with
      | none =>
          rw [hf] at h
          cases h
          exact ⟨c, _, hc, .undefinedFunction hf⟩
      | some s =>
          rw [hf] at h
          rcases bind_eq_error.mp h with h | ⟨_, c₁, -, h⟩
          · rcases arguments_stop hV es s.parameters
              (fun hes hlt hrun => hV hc (.argument hf hes hlt hrun)) h with h | ⟨e, he, _, rfl⟩
            · exact h
            · exact ⟨c, _, hc, .other rfl (List.mem_cons_of_mem _
                (Expr.nodes_subset_nodesOf he e.mem_nodes_self)) rfl⟩
          rcases bind_eq_error.mp h with h | ⟨_, c₂, -, h⟩
          · exact absurd h noteFunction_ne_error
          · exact absurd h noteType_ne_error
  | .invoke m e f es, c, d, err, hc, h => by
      rw [expr] at h
      rcases bind_eq_error.mp h with h | ⟨t, c₁, runE, h⟩
      · exact expr_stops hV e (hV hc .receiver) h
      have houtside := (expr_typed e runE).1.outside
      rw [get_bind, houtside] at h
      cases hf : (c.outside.members t).findFunction? (f, es.length + 1) with
      | none =>
          simp only [hf] at h
          cases h
          exact ⟨c, _, hc, .noMethod runE hf⟩
      | some s =>
          simp only [hf] at h
          rw [← houtside] at hf
          rcases bind_eq_error.mp h with h | ⟨_, c₂, -, h⟩
          · rcases arguments_stop hV es s.parameters.tail
              (fun hes hlt hrun => hV hc (.memberArgument runE hf hes hlt hrun)) h with
              h | ⟨a, ha, _, rfl⟩
            · exact h
            · exact ⟨c, _, hc, .other rfl (List.mem_cons_of_mem _ (List.mem_append_right _
                (Expr.nodes_subset_nodesOf ha a.mem_nodes_self))) rfl⟩
          rcases bind_eq_error.mp h with h | ⟨_, c₃, -, h⟩
          · exact absurd h noteFunction_ne_error
          · exact absurd h noteType_ne_error

/-- Arguments that stop do so inside of one, or at one that does not fit its parameter. -/
theorem arguments_stop (hV : Downward Visited) : ∀ (es : List (Expr Mark)) (ts : List Ty)
    {c d : Checker} {err : CheckError},
    (∀ {before after : List (Expr Mark)} {e : Expr Mark} {c₁ : Checker},
      es = before ++ e :: after → before.length < ts.length →
      arguments before ts c = .ok () c₁ → Visited c₁ (.expr e)) →
    arguments es ts c = .error (.error err) d →
    StopsAt Visited err ∨ ∃ e ∈ es, ∃ reason, err = ⟨.mismatch reason, e.tag.place⟩
  | [], ts, c, d, err, _, h => by
      rw [arguments_nil] at h
      cases h
  | e :: es, [], c, d, err, _, h => by
      rw [arguments_nil_right] at h
      cases h
  | e :: es, t :: ts, c, d, err, hvisit, h => by
      rw [arguments] at h
      have he : Visited c (.expr e) :=
        @hvisit [] es e c rfl (Nat.succ_pos _) (by rw [arguments_nil]; rfl)
      rcases bind_eq_error.mp h with h | ⟨actual, c₁, runE, h⟩
      · exact .inl (expr_stops hV e he h)
      rcases bind_eq_error.mp h with h | ⟨u, c₂, runR, h⟩
      · obtain ⟨reason, rfl⟩ := require_error h
        exact .inr ⟨e, List.mem_cons_self, reason, rfl⟩
      have hvisits : ∀ {before after : List (Expr Mark)} {e' : Expr Mark} {c₃ : Checker},
          es = before ++ e' :: after → before.length < ts.length →
          arguments before ts c₂ = .ok () c₃ → Visited c₃ (.expr e') := by
        intro before after e' c₃ hes hlt hrun
        refine @hvisit (e :: before) after e' c₃ (congrArg _ hes) (Nat.succ_lt_succ hlt) ?_
        rw [arguments]
        exact bind_eq_ok.mpr ⟨actual, c₁, runE, bind_eq_ok.mpr ⟨u, c₂, runR, hrun⟩⟩
      rcases arguments_stop hV es ts hvisits h with h | ⟨e', he', herr⟩
      · exact .inl h
      · exact .inr ⟨e', List.mem_cons_of_mem _ he', herr⟩

end

theorem declaredType_stops (hV : Downward Visited) {x : Node Mark} {place : Place} {name : String}
    {typeName : Option String} {value : Option (Expr Mark)} {c d : Checker} {err : CheckError}
    (hc : Visited c x) (hplace : place = x.tag.place) (hnames : ∀ n ∈ typeName, n ∈ x.typeNames)
    (hvalue : ∀ e, value = some e → (∀ n ∈ typeName, (Ty.ofName? n).isSome = true) →
      Enters c x c (.expr e))
    (h : declaredType place name typeName value c = .error (.error err) d) :
    StopsAt Visited err := by
  subst hplace
  unfold declaredType at h
  have hresolve : ∀ {n : String} {d : Checker}, typeName = some n →
      resolveType n x.tag.place c = .error (.error err) d → StopsAt Visited err := by
    intro n d hn hr
    obtain ⟨hnone, rfl⟩ := resolveType_error hr
    exact ⟨c, x, hc, .unknownType (hnames n hn) hnone⟩
  split at h
  · exact hresolve rfl h
  · next n e =>
      rcases bind_eq_error.mp h with h | ⟨t, c₁, runT, h₁⟩
      · exact hresolve rfl h
      obtain ⟨ht, rfl⟩ := resolveType_ok runT
      have hknown : ∀ n' ∈ some n, (Ty.ofName? n').isSome = true := by
        rintro n' ⟨⟩
        exact Option.isSome_iff_exists.mpr ⟨t, ht⟩
      have hentered := hvalue e rfl hknown
      rcases bind_eq_error.mp h₁ with h₁ | ⟨u, c₂, -, h₂⟩
      · exact expr_stops hV e (hV hc hentered) h₁
      rcases bind_eq_error.mp h₂ with h₂ | ⟨_, c₃, -, h₃⟩
      · obtain ⟨reason, rfl⟩ := require_error h₂
        exact ⟨_, x, hc, .other rfl (hentered.nodes_subset e.mem_nodes_self) rfl⟩
      · cases h₃
  · next e =>
      exact expr_stops hV e (hV hc (hvalue e rfl fun _ hn => absurd hn (Option.not_mem_none _))) h
  · cases h
    exact ⟨c, x, hc, .here rfl⟩

theorem declare_stops (hV : Downward Visited) {x : Node Mark} {node : NodeClass} {name : String}
    {typeName : Option String} {value : Option (Expr Mark)} {c d : Checker} {err : CheckError}
    (hc : Visited c x) (hnames : ∀ n ∈ typeName, n ∈ x.typeNames)
    (hvalue : ∀ e, value = some e → (∀ n ∈ typeName, (Ty.ofName? n).isSome = true) →
      Enters c x c (.expr e))
    (h : declare x.tag node name typeName value c = .error (.error err) d) :
    StopsAt Visited err := by
  rw [declare] at h
  rcases bind_eq_error.mp h with h | ⟨t, c₁, -, h⟩
  · exact declaredType_stops hV hc rfl hnames hvalue h
  rcases bind_eq_error.mp h with h | ⟨v, c₂, -, h⟩
  · obtain rfl := defineVariable_error h
    exact ⟨c, x, hc, .here rfl⟩
  · exact absurd h noteVariable_ne_error

mutual

theorem stmt_stops (hV : Downward Visited) : ∀ (s : Stmt Mark) {c d : Checker} {err : CheckError},
    Visited c (.stmt s) → stmt s c = .error (.error err) d → StopsAt Visited err
  | .expr m e, c, d, err, hc, h => by
      rw [stmt] at h
      split at h
      · next hcall =>
          rcases bind_eq_error.mp h with h | ⟨t, c₁, -, h⟩
          · exact expr_stops hV e (hV hc (.alone hcall)) h
          · cases h
      · cases h
        exact ⟨c, _, hc, .here rfl⟩
  | .declare m x t e, c, d, err, hc, h => by
      rw [stmt] at h
      refine declare_stops hV (x := .stmt (.declare m x t e)) hc (fun n hn => ?_) ?_ h
      · exact Option.mem_toList.mpr hn
      · rintro e' rfl hn
        exact .initial hn
  | .assign m l e, c, d, err, hc, h => by
      rw [stmt] at h
      split at h
      · next htarget =>
          rcases bind_eq_error.mp h with h | ⟨t, c₁, runL, h⟩
          · exact expr_stops hV l (hV hc (.target htarget)) h
          have hentered := Enters.assigned (m := m) (e := e) htarget runL
          rcases bind_eq_error.mp h with h | ⟨u, c₂, -, h⟩
          · exact expr_stops hV e (hV hc hentered) h
          · obtain ⟨reason, rfl⟩ := require_error h
            exact ⟨c, _, hc, .other rfl (hentered.nodes_subset e.mem_nodes_self) rfl⟩
      · cases h
        exact ⟨c, _, hc, .here rfl⟩
  | .branch m e a b, c, d, err, hc, h => by
      rw [stmt] at h
      have hcondition := Enters.condition (c := c) (m := m) (e := e) (a := a) (b := b)
      rcases bind_eq_error.mp h with h | ⟨t, c₁, runE, h⟩
      · exact expr_stops hV e (hV hc hcondition) h
      rcases bind_eq_error.mp h with h | ⟨_, c₂, runR, h₁⟩
      · obtain ⟨reason, rfl⟩ := require_error h
        exact ⟨c, _, hc, .other rfl (hcondition.nodes_subset e.mem_nodes_self) rfl⟩
      obtain ⟨rfl, rfl⟩ := require_boolean_ok runR
      split at h₁
      · cases h₁
        exact ⟨c, _, hc, .here rfl⟩
      · next ha =>
          rcases bind_eq_error.mp h₁ with h₁ | ⟨_, c₃, runA, h₂⟩
          · obtain ⟨d', h₁⟩ := inScope_error h₁
            exact block_stops hV a (fun hss hrun => hV hc (.thenBody runE hss hrun)) h₁
          · obtain ⟨d', h₂⟩ := inScope_error h₂
            refine block_stops hV b (fun hss hrun => hV hc (.elseBody runE ?_ runA hss hrun)) h₂
            rintro rfl
            exact ha rfl
  | .forIn m x e b, c, d, err, hc, h => by
      rw [stmt] at h
      have hitems := Enters.items (c := c) (m := m) (x := x) (e := e) (b := b)
      rcases bind_eq_error.mp h with h | ⟨t, c₁, runE, h⟩
      · exact expr_stops hV e (hV hc hitems) h
      split at h
      · next ht =>
          subst ht
          split at h
          · cases h
            exact ⟨c, _, hc, .here rfl⟩
          · obtain ⟨d', h⟩ := inScope_error h
            rcases bind_eq_error.mp h with h | ⟨v, c₂, runV, h⟩
            · obtain rfl := defineVariable_error h
              exact ⟨c, _, hc, .here rfl⟩
            · exact block_stops hV b (fun hss hrun => hV hc (.forBody runE runV hss hrun)) h
      · cases h
        exact ⟨c, _, hc, .other rfl (hitems.nodes_subset e.mem_nodes_self) rfl⟩
  | .loop m e b, c, d, err, hc, h => by
      rw [stmt] at h
      have hcondition := Enters.loopCondition (c := c) (m := m) (e := e) (b := b)
      rcases bind_eq_error.mp h with h | ⟨t, c₁, runE, h⟩
      · exact expr_stops hV e (hV hc hcondition) h
      rcases bind_eq_error.mp h with h | ⟨_, c₂, runR, h₁⟩
      · obtain ⟨reason, rfl⟩ := require_error h
        exact ⟨c, _, hc, .other rfl (hcondition.nodes_subset e.mem_nodes_self) rfl⟩
      obtain ⟨rfl, rfl⟩ := require_boolean_ok runR
      obtain ⟨d', h₁⟩ := inScope_error h₁
      exact block_stops hV b (fun hss hrun => hV hc (.loopBody runE hss hrun)) h₁
  | .ret m e, c, d, err, hc, h => by
      rw [stmt, get_bind] at h
      cases ht : c.returnType with
      | none =>
          rw [ht] at h
          cases h
          exact ⟨c, _, hc, .here rfl⟩
      | some t =>
          rw [ht] at h
          have hresult := Enters.result (m := m) (e := e) ht
          rcases bind_eq_error.mp h with h | ⟨u, c₁, -, h⟩
          · exact expr_stops hV e (hV hc hresult) h
          cases hm : t.mismatch? u with
          | none =>
              simp only [hm] at h
              cases h
          | some reason =>
              simp only [hm] at h
              cases h
              exact ⟨c, _, hc, .other rfl (hresult.nodes_subset e.mem_nodes_self) rfl⟩

theorem block_stops (hV : Downward Visited) : ∀ (ss : List (Stmt Mark)) {c d : Checker}
    {err : CheckError},
    (∀ {before after : List (Stmt Mark)} {s : Stmt Mark} {c₁ : Checker},
      ss = before ++ s :: after → block before c = .ok () c₁ → Visited c₁ (.stmt s)) →
    block ss c = .error (.error err) d → StopsAt Visited err
  | [], c, d, err, _, h => by
      rw [block] at h
      cases h
  | s :: ss, c, d, err, hvisit, h => by
      rw [block] at h
      rcases bind_eq_error.mp h with h | ⟨_, c₁, runS, h⟩
      · exact stmt_stops hV s (@hvisit [] ss s c rfl (by rw [block]; rfl)) h
      have hvisits : ∀ {before after : List (Stmt Mark)} {s' : Stmt Mark} {c₂ : Checker},
          ss = before ++ s' :: after → block before c₁ = .ok () c₂ → Visited c₂ (.stmt s') := by
        intro before after s' c₂ hss hrun
        refine @hvisit (s :: before) after s' c₂ (congrArg _ hss) ?_
        rw [block]
        exact bind_eq_ok.mpr ⟨_, c₁, runS, hrun⟩
      exact block_stops hV ss hvisits h

end

theorem field_stops (hV : Downward Visited) {f : Field Mark} {c d : Checker} {err : CheckError}
    (hc : Visited c (.field f)) (h : field f c = .error (.error err) d) : StopsAt Visited err := by
  refine declare_stops hV (x := .field f) hc (fun n hn => ?_) ?_ h
  · exact Option.mem_toList.mpr hn
  · intro e he hn
    exact .value hn he

theorem method_stops (hV : Downward Visited) {f : Method Mark} {c d : Checker} {err : CheckError}
    (hc : Visited c (.method f)) (h : method f c = .error (.error err) d) :
    StopsAt Visited err := by
  rw [method] at h
  rcases bind_eq_error.mp h with h | ⟨result, c₁, runResult, h₁⟩
  · obtain ⟨name, hname, hnone, rfl⟩ := resultType_error h
    exact ⟨c, _, hc, .unknownType (List.mem_append_left _ (Option.mem_toList.mpr hname)) hnone⟩
  obtain rfl := (resultType_ok runResult).2
  rcases bind_eq_error.mp h₁ with h₁ | ⟨types, c₂, runTypes, h₂⟩
  · obtain ⟨name, hname, hnone, rfl⟩ := resolveTypes_error h₁
    exact ⟨_, _, hc, .unknownType (List.mem_append_right _ hname) hnone⟩
  obtain rfl := (resolveTypes_ok runTypes).2
  rcases bind_eq_error.mp h₂ with h₂ | ⟨_, c₃, runDefine, h₃⟩
  · obtain rfl := defineMethod_error h₂
    exact ⟨_, _, hc, .here rfl⟩
  rcases bind_eq_error.mp h₃ with h₃ | ⟨_, c₄, runNote, h₄⟩
  · exact absurd h₃ noteFunction_ne_error
  obtain ⟨d₁, h₄⟩ := returning_error h₄
  obtain ⟨d₂, h₄⟩ := inScope_error h₄
  rcases bind_eq_error.mp h₄ with h₄ | ⟨_, c₅, runParameters, h₅⟩
  · obtain ⟨x, rfl⟩ := parameters_error h₄
    exact ⟨_, _, hc, .here rfl⟩
  · exact block_stops hV f.body (fun hss hrun =>
      hV hc (.body runResult runTypes runDefine runNote runParameters hss hrun)) h₅

end

/-! ## Programs

Fields come first and then methods, each in the state after those before it.  That `main` is
missing or has another type is found at the end, and placed at the program or at a method. -/

/-- Checking a program from a state comes to check a node of it in another state. -/
inductive Reaches (c : Checker) (p : Program Mark) : Checker → Node Mark → Prop where
  | field {d : Checker} {before after : List (Field Mark)} {f : Field Mark} :
      p.fields = before ++ f :: after → fields before c = .ok () d → Reaches c p d (.field f)
  | method {c₁ d : Checker} {before after : List (Method Mark)} {f : Method Mark} :
      fields p.fields c = .ok () c₁ → p.methods = before ++ f :: after →
      methods before c₁ = .ok () d → Reaches c p d (.method f)
  | part {d d' : Checker} {x y : Node Mark} : Reaches c p d x → Enters d x d' y →
      Reaches c p d' y

/-- The nodes that are reached are nodes of the program, with their parts. -/
theorem Reaches.nodes_subset {c d : Checker} {p : Program Mark} {x : Node Mark}
    (h : Reaches c p d x) : x.nodes ⊆ p.nodes := by
  induction h with
  | field hf =>
      refine List.subset_append_of_subset_left _ fun y hy => ?_
      exact List.mem_flatMap.mpr ⟨_, mem_of_split hf, hy⟩
  | method _ hf =>
      refine List.subset_append_of_subset_right _ fun y hy => ?_
      exact List.mem_flatMap.mpr ⟨_, mem_of_split hf, hy⟩
  | part _ hy ih => exact List.Subset.trans hy.nodes_subset ih

theorem Reaches.outside {c d : Checker} {p : Program Mark} {x : Node Mark}
    (h : Reaches c p d x) (hc : c.enclosing = c.outside.frames) : d.outside = c.outside := by
  induction h with
  | field _ hrun => exact (fields_typed _ hrun hc).1.outside
  | method hfields _ hrun =>
      obtain ⟨hgrows, -⟩ := fields_typed _ hfields hc
      have hc₁ := hgrows.enclosing.trans (hc.trans (congrArg _ hgrows.outside.symm))
      exact (methods_typed _ hrun hc₁).1.outside.trans hgrows.outside
  | part _ hy ih => exact hy.outside.trans ih

section

variable {Visited : Checker → Node Mark → Prop}

theorem fields_stop (hV : Downward Visited) {fs : List (Field Mark)} {c d : Checker}
    {err : CheckError}
    (hvisit : ∀ {before after : List (Field Mark)} {f : Field Mark} {c₁ : Checker},
      fs = before ++ f :: after → fields before c = .ok () c₁ → Visited c₁ (.field f))
    (h : fields fs c = .error (.error err) d) : StopsAt Visited err := by
  induction fs generalizing c d with
  | nil => cases h
  | cons f fs ih =>
      rw [fields] at h
      rcases bind_eq_error.mp h with h | ⟨_, c₁, runF, h⟩
      · exact field_stops hV (@hvisit [] fs f c rfl rfl) h
      refine ih ?_ h
      intro before after f' c₂ hfs hrun
      refine @hvisit (f :: before) after f' c₂ (congrArg _ hfs) ?_
      exact bind_eq_ok.mpr ⟨_, c₁, runF, hrun⟩

theorem methods_stop (hV : Downward Visited) {fs : List (Method Mark)} {c d : Checker}
    {err : CheckError}
    (hvisit : ∀ {before after : List (Method Mark)} {f : Method Mark} {c₁ : Checker},
      fs = before ++ f :: after → methods before c = .ok () c₁ → Visited c₁ (.method f))
    (h : methods fs c = .error (.error err) d) : StopsAt Visited err := by
  induction fs generalizing c d with
  | nil => cases h
  | cons f fs ih =>
      rw [methods] at h
      rcases bind_eq_error.mp h with h | ⟨_, c₁, runF, h⟩
      · exact method_stops hV (@hvisit [] fs f c rfl rfl) h
      refine ih ?_ h
      intro before after f' c₂ hfs hrun
      refine @hvisit (f :: before) after f' c₂ (congrArg _ hfs) ?_
      exact bind_eq_ok.mpr ⟨_, c₁, runF, hrun⟩

end

/-- A program is refused because of a node that is reached, or because its `main` is missing or
has the wrong type. -/
theorem program_stops {c d : Checker} {p : Program Mark} {err : CheckError}
    (h : program p c = .error (.error err) d) :
    StopsAt (Reaches c p) err ∨ err = ⟨.missingMain, none⟩ ∨
      ∃ reason, err = ⟨.mismatch reason, mainPlace p⟩ := by
  rw [program] at h
  rcases bind_eq_error.mp h with h | ⟨_, c₁, runFields, h⟩
  · exact .inl (fields_stop .part (fun hfs hrun => .field hfs hrun) h)
  rcases bind_eq_error.mp h with h | ⟨_, c₂, runMethods, h⟩
  · exact .inl (methods_stop .part (fun hfs hrun => .method runFields hfs hrun) h)
  rw [get_bind] at h
  cases hmain : Chain.findFunction? c₂.chain ("main", 0) with
  | none =>
      rw [hmain] at h
      cases h
      exact .inr (.inl rfl)
  | some s =>
      rw [hmain] at h
      exact .inr (.inr (require_error h))

theorem mainPlace_cases (p : Program Mark) :
    mainPlace p = p.tag.place ∨ ∃ x ∈ p.nodes, mainPlace p = x.tag.place := by
  unfold mainPlace
  split
  · next f hf =>
      have hmem := List.mem_of_find?_eq_some hf
      exact .inr ⟨.method f, List.mem_append_right _
        (List.mem_flatMap.mpr ⟨f, hmem, List.mem_cons_self⟩), rfl⟩
  · exact .inl rfl

end Check

/-- What a program is refused for. -/
theorem Checker.stops_of_check {c : Checker} {p : Program Mark} {e : CheckError}
    (h : (c.check p).1 = .error (.error e)) :
    Check.StopsAt (Check.Reaches (start c.outside) p) e ∨ e = ⟨.missingMain, none⟩ ∨
      ∃ reason, e = ⟨.mismatch reason, Check.mainPlace p⟩ := by
  unfold Checker.check at h
  split at h
  · cases h
  · next hrun =>
      cases h
      exact Check.program_stops hrun

/-- A program is refused at one of its nodes, at the program as a whole, or at no place. -/
theorem Checker.place_of_check {c : Checker} {p : Program Mark} {e : CheckError}
    (h : (c.check p).1 = .error (.error e)) :
    e.place = none ∨ e.place = p.tag.place ∨ ∃ x ∈ p.nodes, e.place = x.tag.place := by
  rcases stops_of_check h with ⟨c', x, hreach, hraise⟩ | rfl | ⟨reason, rfl⟩
  · obtain ⟨y, hy, hplace⟩ := hraise.exists_place
    exact .inr (.inr ⟨y, hreach.nodes_subset hy, hplace⟩)
  · exact .inl rfl
  · exact .inr (Check.mainPlace_cases p)

/-- The faults of a check are errors in the tree. -/
theorem CheckFailure.mapError_eq_fault {α : Type} {source : String} {r : Except CheckFailure α}
    {f : Fault} (h : r.mapError (failure source) = .error (.fault f)) :
    ∃ e : CheckError, r = .error (.error e) ∧ f = e.fault source := by
  cases r with
  | ok a => cases h
  | error e =>
      cases e with
      | error e =>
          cases h
          exact ⟨e, rfl, rfl⟩
      | resolved node slot => cases h

end QuillLang
