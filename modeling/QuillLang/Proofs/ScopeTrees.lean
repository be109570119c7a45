/-
# What definitions do to a tree of scopes

In a tree of scopes anything may be defined anywhere, in any order, and some
calls fail because their scope has the key already.  What is seen from a scope
afterwards depends on the calls alone: of the scopes on the way out, the first
decides in which the key was defined, or which had it from the start, and of the
calls that define it there the first one does (`Forest.lookup_laws`).

Variables and functions are kept apart, but nothing below has to tell them apart
once a key says which of the two it is for (`Key`).  One call changes what one
scope holds under one key (`Forest.held?_after`); a row of calls is followed
from this by induction (`Forest.held?_afterAll`).  Looking up means to go
along the way out and take the first scope that holds something
(`Forest.find?_eq`), and the way out is the same before and after.
-/
import QuillLang.Proofs.Scopes
import QuillLang.Scope.Forest
import Mathlib.Data.List.Nodup

namespace QuillLang

theorem lookup_concat {κ β : Type} [DecidableEq κ] [BEq κ] [LawfulBEq κ] (l : List (κ × β))
    (k x : κ) (b : β) :
    (l ++ [(k, b)]).lookup x = (l.lookup x).or (if k = x then some b else none) := by
  rw [List.lookup_append]
  by_cases hk : k = x
  · subst hk
    rw [if_pos rfl, List.lookup_cons_self]
  · have hx : (x == k) = false := beq_false_of_ne (Ne.symm hk)
    rw [if_neg hk, List.lookup_cons, hx]
    rfl

/-! ## Keys -/

/-- What can be looked up: a variable, or a function of so many parameters. -/
inductive Key where
  | ofVariable (name : String)
  | ofFunction (key : FunctionKey)
deriving DecidableEq, Repr

variable {ν φ : Type}

/-- What a frame holds under a key. -/
def Frame.find? (f : Frame ν φ) : Key → Option (ν ⊕ φ)
  | .ofVariable name => (f.findVariable? name).map .inl
  | .ofFunction key => (f.findFunction? key).map .inr

namespace Chain

/-- What a key means where a chain begins. -/
def find? (c : Chain ν φ) : Key → Option (ν ⊕ φ)
  | .ofVariable name => (findVariable? c name).map .inl
  | .ofFunction key => (findFunction? c key).map .inr

theorem find?_nil (k : Key) : find? ([] : Chain ν φ) k = none := by
  cases k <;> rfl

theorem find?_cons (f : Frame ν φ) (c : Chain ν φ) (k : Key) :
    find? (f :: c) k = (f.find? k).or (find? c k) := by
  cases k with
  | ofVariable name =>
      simp only [find?, Frame.find?, findVariable?, List.findSome?_cons]
      cases f.findVariable? name <;> rfl
  | ofFunction key =>
      simp only [find?, Frame.find?, findFunction?, List.findSome?_cons]
      cases f.findFunction? key <;> rfl

/-! ## Names that can be seen

A name is listed once, however many scopes or functions have it. -/

theorem nodup_eraseDups (l : List String) : l.eraseDups.Nodup := by
  cases l with
  | nil => exact List.nodup_nil
  | cons a l =>
      rw [List.eraseDups_cons, List.nodup_cons]
      refine ⟨?_, nodup_eraseDups _⟩
      rw [List.mem_eraseDups]
      simp
termination_by l.length
decreasing_by exact Nat.lt_succ_of_le (List.length_filter_le _ _)

theorem nodup_visibleNames (c : Chain ν φ) : (visibleNames c).Nodup := nodup_eraseDups _

theorem mem_visibleNames {c : Chain ν φ} {name : String} : name ∈ visibleNames c ↔
    (findVariable? c name).isSome ∨ ∃ n, (findFunction? c (name, n)).isSome := by
  have hnames : ∀ f : Frame ν φ, name ∈ f.names ↔
      (f.findVariable? name).isSome ∨ ∃ n, (f.findFunction? (name, n)).isSome := by
    intro f
    simp [Frame.names, Frame.findVariable?, Frame.findFunction?, List.lookup_isSome_iff]
  rw [visibleNames, List.mem_eraseDups, List.mem_flatMap]
  simp only [hnames, findVariable?, findFunction?, List.findSome?_isSome_iff]
  constructor
  · rintro ⟨f, hf, hvar | ⟨n, hfun⟩⟩
    · exact .inl ⟨f, hf, hvar⟩
    · exact .inr ⟨n, f, hf, hfun⟩
  · rintro (⟨f, hf, hvar⟩ | ⟨n, f, hf, hfun⟩)
    · exact ⟨f, hf, .inl hvar⟩
    · exact ⟨f, hf, .inr ⟨n, hfun⟩⟩

end Chain

namespace Forest

/-! ## The way out

The scopes from one outward are a list of numbers that depends on the parents alone, so it is not
changed by definitions. -/

/-- The scopes from one outward, by their numbers. -/
def path (t : Forest ν φ) (i : Nat) : List Nat :=
  match t.nodes[i]? with
  | none => []
  | some node =>
    i ::
      match node.parent with
      | none => []
      | some j => if j < i then path t j else []
termination_by i

/-- What a scope itself holds under a key. -/
def held? (t : Forest ν φ) (i : Nat) (k : Key) : Option (ν ⊕ φ) := (t.frame? i).bind (·.find? k)

theorem held?_of_some {t : Forest ν φ} {i : Nat} {node : Node ν φ} (h : t.nodes[i]? = some node)
    (k : Key) : t.held? i k = node.frame.find? k := by
  simp [held?, frame?, h]

/-- What a key means in a scope is what the first scope on the way out holds that holds
anything. -/
theorem find?_eq (t : Forest ν φ) (i : Nat) (k : Key) :
    Chain.find? (t.chain i) k = (t.path i).findSome? (t.held? · k) := by
  fun_induction path t i with
  | case1 i hnone =>
      rw [chain, hnone]
      exact Chain.find?_nil k
  | case2 i node hnode ih =>
      rw [chain, hnode, Chain.find?_cons, List.findSome?_cons, held?_of_some hnode]
      cases node.frame.find? k with
      | some b => rfl
      | none =>
          rw [Option.none_or]
          cases node.parent with
          | none => exact Chain.find?_nil k
          | some j =>
              dsimp only
              split
              · next hj => exact ih j hj
              · exact Chain.find?_nil k

theorem lt_size_of_mem_path {t : Forest ν φ} {i j : Nat} (h : j ∈ t.path i) : j < t.size := by
  fun_induction path t i with
  | case1 i hnone => cases h
  | case2 i node hnode ih =>
      rcases List.mem_cons.mp h with rfl | h
      · exact (List.getElem?_eq_some_iff.mp hnode).1
      · cases hparent : node.parent with
        | none => rw [hparent] at h; cases h
        | some k =>
            rw [hparent] at h
            dsimp only at h
            split at h
            · next hk => exact ih k hk h
            · cases h

/-- The way out depends on the parents alone. -/
theorem path_congr {t t' : Forest ν φ} (h : t'.nodes.map (·.parent) = t.nodes.map (·.parent))
    (i : Nat) : t'.path i = t.path i := by
  have hparent : ∀ j : Nat, t'.nodes[j]?.map (·.parent) = t.nodes[j]?.map (·.parent) := by
    intro j
    rw [← List.getElem?_map, ← List.getElem?_map, h]
  fun_induction path t i with
  | case1 i hnone =>
      have hi := hparent i
      rw [hnone, Option.map_none, Option.map_eq_none_iff] at hi
      rw [path, hi]
  | case2 i node hnode ih =>
      have hi := hparent i
      rw [hnode, Option.map_some, Option.map_eq_some_iff] at hi
      obtain ⟨node', hnode', hsame⟩ := hi
      rw [path, hnode']
      dsimp only
      rw [hsame]
      cases node.parent with
      | none => rfl
      | some j =>
          dsimp only
          split
          · next hj => rw [ih j hj]
          · rfl

/-! ## Definitions

Calls for variables and for functions differ in nothing but the key, and so they are one type. -/

/-- A call that defines something in a scope. -/
inductive Definition (ν φ : Type) where
  | ofVariable (scope : Nat) (name : String) (v : ν)
  | ofFunction (scope : Nat) (key : FunctionKey) (g : φ)

namespace Definition

def scope : Definition ν φ → Nat
  | ofVariable i _ _ | ofFunction i _ _ => i

def key : Definition ν φ → Key
  | ofVariable _ name _ => .ofVariable name
  | ofFunction _ key _ => .ofFunction key

/-- What is bound to the key. -/
def binding : Definition ν φ → ν ⊕ φ
  | ofVariable _ _ v => .inl v
  | ofFunction _ _ g => .inr g

def perform (t : Forest ν φ) : Definition ν φ → Except Duplicate (Forest ν φ)
  | ofVariable i name v => t.defineVariable i name v
  | ofFunction i key g => t.defineFunction i key g

/-- The binding that a call makes in a scope under a key, unless there is one before. -/
def gives? (d : Definition ν φ) (i : Nat) (k : Key) : Option (ν ⊕ φ) :=
  if d.scope = i ∧ d.key = k then some d.binding else none

/-- Define in a frame. -/
def enter (f : Frame ν φ) : Definition ν φ → Except Duplicate (Frame ν φ)
  | ofVariable _ name v => f.defineVariable name v
  | ofFunction _ key g => f.defineFunction key g

theorem perform_of_none {t : Forest ν φ} {d : Definition ν φ} (h : t.frame? d.scope = none) :
    d.perform t = .ok t := by
  cases d <;> simp only [scope] at h <;> simp [perform, defineVariable, defineFunction, h]

theorem perform_of_some {t : Forest ν φ} {d : Definition ν φ} {f : Frame ν φ}
    (h : t.frame? d.scope = some f) : d.perform t = (d.enter f).map (t.setFrame d.scope) := by
  cases d <;> simp only [scope] at h <;>
    simp [perform, defineVariable, defineFunction, enter, scope, h]

/-- A frame takes the binding after those it has, unless it has the key. -/
theorem enter_cases (d : Definition ν φ) (f : Frame ν φ) :
    (∃ e, d.enter f = .error e ∧ (f.find? d.key).isSome) ∨
      ∃ g, d.enter f = .ok g ∧ f.find? d.key = none ∧
        ∀ k, g.find? k = (f.find? k).or (if d.key = k then some d.binding else none) := by
  cases d with
  | ofVariable i name v =>
      cases hx : f.vars.lookup name with
      | some u =>
          refine .inl ⟨.ofVariable name, ?_, ?_⟩
          · simp [enter, Frame.defineVariable, Frame.findVariable?, hx]
          · simp [key, Frame.find?, Frame.findVariable?, hx]
      | none =>
          refine .inr ⟨_, Frame.defineVariable_of_none hx v, ?_, fun k => ?_⟩
          · simp [key, Frame.find?, Frame.findVariable?, hx]
          · cases k with
            | ofVariable x =>
                simp only [Frame.find?, Frame.findVariable?, lookup_concat, Option.map_or, key,
                  binding, Key.ofVariable.injEq]
                split <;> rfl
            | ofFunction k => simp [Frame.find?, Frame.findFunction?, key]
  | ofFunction i fk g =>
      cases hx : f.functions.lookup fk with
      | some u =>
          refine .inl ⟨.ofFunction fk, ?_, ?_⟩
          · simp [enter, Frame.defineFunction, Frame.findFunction?, hx]
          · simp [key, Frame.find?, Frame.findFunction?, hx]
      | none =>
          refine .inr ⟨{ f with functions := f.functions ++ [(fk, g)] }, ?_, ?_, fun k => ?_⟩
          · simp [enter, Frame.defineFunction, Frame.findFunction?, hx]
          · simp [key, Frame.find?, Frame.findFunction?, hx]
          · cases k with
            | ofVariable x => simp [Frame.find?, Frame.findVariable?, key]
            | ofFunction k =>
                simp only [Frame.find?, Frame.findFunction?, lookup_concat, Option.map_or, key,
                  binding, Key.ofFunction.injEq]
                split <;> rfl

end Definition

/-! ## One call

A call that succeeds adds one binding to one scope.  A call fails if that scope has the key, and
then nothing is changed. -/

theorem frame?_setFrame (t : Forest ν φ) (i : Nat) (f : Frame ν φ) (j : Nat) :
    (t.setFrame i f).frame? j = if i = j then (t.frame? j).map fun _ => f else t.frame? j := by
  simp only [frame?, setFrame, List.getElem?_modify]
  cases t.nodes[j]? with
  | none => simp
  | some node => by_cases hij : i = j <;> simp [hij]

theorem parents_setFrame (t : Forest ν φ) (i : Nat) (f : Frame ν φ) :
    (t.setFrame i f).nodes.map (·.parent) = t.nodes.map (·.parent) := by
  refine List.ext_getElem? fun j => ?_
  simp only [setFrame, List.getElem?_map, List.getElem?_modify]
  cases t.nodes[j]? with
  | none => rfl
  | some node => by_cases hij : i = j <;> simp [hij]

/-- What a call that succeeds does to the scopes. -/
structure Effect (d : Definition ν φ) (t t' : Forest ν φ) : Prop where
  fresh : t.held? d.scope d.key = none
  size : t'.size = t.size
  path : ∀ i, t'.path i = t.path i
  held : ∀ i < t.size, ∀ k, t'.held? i k = (t.held? i k).or (d.gives? i k)

theorem perform_cases (t : Forest ν φ) (d : Definition ν φ) :
    (∃ e, d.perform t = .error e ∧ (t.held? d.scope d.key).isSome) ∨
      ∃ t', d.perform t = .ok t' ∧ Effect d t t' := by
  cases hf : t.frame? d.scope with
  | none =>
      -- a call on a scope that is not there does nothing
      have hscope : t.nodes.length ≤ d.scope := by simpa [frame?] using hf
      refine .inr ⟨t, d.perform_of_none hf, by simp [held?, hf], rfl, fun _ => rfl, ?_⟩
      intro i hi k
      have hne : d.scope ≠ i := Nat.ne_of_gt (Nat.lt_of_lt_of_le hi hscope)
      simp [Definition.gives?, hne]
  | some f =>
      have hheld : ∀ k, t.held? d.scope k = f.find? k := fun k => by simp [held?, hf]
      rw [d.perform_of_some hf, hheld]
      rcases d.enter_cases f with ⟨e, he, hsome⟩ | ⟨g, hg, hnone, hfind⟩
      · exact .inl ⟨e, by rw [he]; rfl, hsome⟩
      · refine .inr ⟨t.setFrame d.scope g, by rw [hg]; rfl, (hheld _).trans hnone, ?_, ?_, ?_⟩
        · simp [size, setFrame]
        · exact path_congr (parents_setFrame t d.scope g)
        · intro i _ k
          unfold held? Definition.gives?
          rw [frame?_setFrame]
          by_cases hi : d.scope = i
          · subst hi
            simp [hf, hfind]
          · simp [hi]

/-- The scopes after a call.  One that fails leaves them as they are. -/
def after (t : Forest ν φ) (d : Definition ν φ) : Forest ν φ :=
  match d.perform t with
  | .ok t' => t'
  | .error _ => t

theorem after_of_error {t : Forest ν φ} {d : Definition ν φ} {e : Duplicate}
    (h : d.perform t = .error e) : t.after d = t := by
  rw [after, h]

theorem after_of_ok {t t' : Forest ν φ} {d : Definition ν φ} (h : d.perform t = .ok t') :
    t.after d = t' := by
  rw [after, h]

section

variable (t : Forest ν φ) (d : Definition ν φ)

theorem size_after : (t.after d).size = t.size := by
  rcases t.perform_cases d with ⟨e, he, -⟩ | ⟨t', ht', h⟩
  · rw [after_of_error he]
  · rw [after_of_ok ht', h.size]

theorem path_after (i : Nat) : (t.after d).path i = t.path i := by
  rcases t.perform_cases d with ⟨e, he, -⟩ | ⟨t', ht', h⟩
  · rw [after_of_error he]
  · rw [after_of_ok ht', h.path i]

/-- A scope holds what it held before, else what the call gives it. -/
theorem held?_after {i : Nat} (hi : i < t.size) (k : Key) :
    (t.after d).held? i k = (t.held? i k).or (d.gives? i k) := by
  rcases t.perform_cases d with ⟨e, he, hsome⟩ | ⟨t', ht', h⟩
  · rw [after_of_error he]
    by_cases hsame : d.scope = i ∧ d.key = k
    · obtain ⟨rfl, rfl⟩ := hsame
      exact (Option.or_of_isSome hsome).symm
    · rw [Definition.gives?, if_neg hsame, Option.or_none]
  · rw [after_of_ok ht', h.held i hi k]

end

/-! ## All calls

By induction on the row of calls: what a scope holds already stays, so of the calls for one key the
first decides. -/

/-- The scopes after a row of calls. -/
def afterAll (t : Forest ν φ) (ds : List (Definition ν φ)) : Forest ν φ := ds.foldl after t

/-- The binding that the first of some calls makes in a scope under a key. -/
def first? (ds : List (Definition ν φ)) (i : Nat) (k : Key) : Option (ν ⊕ φ) :=
  ds.findSome? (·.gives? i k)

theorem first?_cons (d : Definition ν φ) (ds : List (Definition ν φ)) (i : Nat) (k : Key) :
    first? (d :: ds) i k = (d.gives? i k).or (first? ds i k) := by
  rw [first?, List.findSome?_cons]
  cases d.gives? i k <;> rfl

theorem path_afterAll (t : Forest ν φ) (ds : List (Definition ν φ)) (i : Nat) :
    (t.afterAll ds).path i = t.path i := by
  induction ds generalizing t with
  | nil => rfl
  | cons d ds ih => exact (ih (t.after d)).trans (t.path_after d i)

/-- A scope holds what it held at the start, else what the first call for the key gives it. -/
theorem held?_afterAll (t : Forest ν φ) (ds : List (Definition ν φ)) {i : Nat} (hi : i < t.size)
    (k : Key) : (t.afterAll ds).held? i k = (t.held? i k).or (first? ds i k) := by
  induction ds generalizing t with
  | nil => exact Option.or_none.symm
  | cons d ds ih =>
      have hi' : i < (t.after d).size := by rwa [size_after]
      calc (t.afterAll (d :: ds)).held? i k
        _ = ((t.after d).held? i k).or (first? ds i k) := ih (t.after d) hi'
        _ = ((t.held? i k).or (d.gives? i k)).or (first? ds i k) := by rw [held?_after t d hi]
        _ = (t.held? i k).or (first? (d :: ds) i k) := by rw [Option.or_assoc, first?_cons]

/-! ## Looking up -/

theorem findSome?_congr {α β : Type} {l : List α} {f g : α → Option β}
    (h : ∀ a ∈ l, f a = g a) : l.findSome? f = l.findSome? g := by
  rw [← List.head?_filterMap, ← List.head?_filterMap, List.filterMap_congr h]

theorem find?_afterAll (t : Forest ν φ) (ds : List (Definition ν φ)) (i : Nat) (k : Key) :
    Chain.find? ((t.afterAll ds).chain i) k =
      (t.path i).findSome? fun j => (t.held? j k).or (first? ds j k) := by
  rw [find?_eq, path_afterAll]
  exact findSome?_congr fun j hj => held?_afterAll t ds (lt_size_of_mem_path hj) k

/-- What is looked up under another key, or from where the scope is not on the way out, stays. -/
theorem Effect.find? {t t' : Forest ν φ} {d : Definition ν φ} (h : Effect d t t') {i : Nat}
    {k : Key} (hother : k ≠ d.key ∨ d.scope ∉ t.path i) :
    Chain.find? (t'.chain i) k = Chain.find? (t.chain i) k := by
  rw [find?_eq, find?_eq, h.path]
  refine findSome?_congr fun j hj => ?_
  have hnot : ¬ (d.scope = j ∧ d.key = k) := by
    rintro ⟨rfl, rfl⟩
    exact hother.elim (fun hne => hne rfl) fun hpath => hpath hj
  rw [h.held j (lt_size_of_mem_path hj) k, Definition.gives?, if_neg hnot, Option.or_none]

/-- After any row of calls on the scopes of a tree:

* a key means what the first scope on the way out was given that was given anything, and a scope
  keeps what it had from the start, else what the first call for the key gave it;
* a call fails if and only if its scope itself has the key, and then nothing changes;
* a call that succeeds changes nothing that is looked up under another key, or from a scope that
  does not lie inside its own;
* every name that can be seen is listed once, and no others are. -/
theorem lookup_laws (t₀ : Forest ν φ) (ds : List (Definition ν φ)) :
    (∀ i k, Chain.find? ((t₀.afterAll ds).chain i) k =
      (t₀.path i).findSome? fun j => (t₀.held? j k).or (first? ds j k)) ∧
    (∀ d : Definition ν φ, ((∃ e, d.perform (t₀.afterAll ds) = .error e) ↔
        ((t₀.afterAll ds).held? d.scope d.key).isSome) ∧
      (∀ e, d.perform (t₀.afterAll ds) = .error e → (t₀.afterAll ds).after d = t₀.afterAll ds) ∧
      ∀ t', d.perform (t₀.afterAll ds) = .ok t' → ∀ i k, k ≠ d.key ∨ d.scope ∉ t₀.path i →
        Chain.find? (t'.chain i) k = Chain.find? ((t₀.afterAll ds).chain i) k) ∧
    ∀ i, (Chain.visibleNames ((t₀.afterAll ds).chain i)).Nodup ∧
      ∀ name, name ∈ Chain.visibleNames ((t₀.afterAll ds).chain i) ↔
        (Chain.findVariable? ((t₀.afterAll ds).chain i) name).isSome ∨
          ∃ n, (Chain.findFunction? ((t₀.afterAll ds).chain i) (name, n)).isSome := by
  refine ⟨find?_afterAll t₀ ds, fun d => ⟨⟨?_, ?_⟩, fun e => after_of_error, ?_⟩, fun i => ?_⟩
  · rintro ⟨e, he⟩
    rcases perform_cases _ d with ⟨-, -, hsome⟩ | ⟨t', ht', -⟩
    · exact hsome
    · rw [ht'] at he
      cases he
  · intro hsome
    rcases perform_cases _ d with ⟨e, he, -⟩ | ⟨_, -, h⟩
    · exact ⟨e, he⟩
    · rw [h.fresh] at hsome
      cases hsome
  · intro t' ht' i k hother
    rcases perform_cases _ d with ⟨e, he, -⟩ | ⟨t'', ht'', h⟩
    · rw [ht'] at he
      cases he
    · obtain rfl : t' = t'' := Except.ok.inj (ht'.symm.trans ht'')
      refine h.find? ?_
      rwa [path_afterAll]
  · exact ⟨Chain.nodup_visibleNames _, fun name => Chain.mem_visibleNames⟩

/-- A scope with two inside it, and one inside the first of these. -/
def branching : Forest Nat Nat :=
  { nodes := [⟨none, {}⟩, ⟨some 0, {}⟩, ⟨some 1, {}⟩, ⟨some 0, {}⟩] }

/-- The third of these calls fails on the scopes above. -/
def shadowing : List (Definition Nat Nat) :=
  [.ofVariable 0 "x" 1, .ofVariable 1 "x" 2, .ofVariable 1 "x" 3, .ofFunction 0 ("x", 1) 4]

theorem branching_lookups :
    Chain.find? ((branching.afterAll shadowing).chain 2) (.ofVariable "x") = some (.inl 2) ∧
    (∃ e, Definition.perform (branching.afterAll shadowing) (.ofVariable 1 "x" 5) = .error e) ∧
    ∃ t', Definition.perform (branching.afterAll shadowing) (.ofVariable 2 "x" 6) = .ok t' ∧
      Chain.find? (t'.chain 3) (.ofVariable "x") = some (.inl 1) := by
  obtain ⟨hfind, hcall, -⟩ := lookup_laws branching shadowing
  have hpath : branching.path 2 = [2, 1, 0] ∧ branching.path 3 = [3, 0] := by
    simp [path, branching]
  refine ⟨?_, ?_, ?_⟩
  · rw [hfind, hpath.1]
    decide
  · refine (hcall (.ofVariable 1 "x" 5)).1.mpr ?_
    decide
  · refine ⟨_, rfl, ?_⟩
    rw [(hcall (.ofVariable 2 "x" 6)).2.2 _ rfl 3 _ (.inr ?_), hfind, hpath.2]
    · decide
    · rw [hpath.2]
      decide

end Forest

end QuillLang
