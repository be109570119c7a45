/-
# Hints name what is bound

The hint of an error about a name is made from the names that are bound where the
name was looked for: in the scopes around the place, among the members of a type
or among the types.  No hint names the name that was looked for, and all that it
names is bound there (`Checker.hint_names_bound`).

The names that can be seen from a place are collected without repetition, and a
frame has no two variables of one name.  Methods are told apart by their number of
parameters too, and the hint for a missing method takes its name from each of
them.  So a method that a type has for two numbers of arguments can be named twice
(`Source.misspelt_hint`), and nothing else can.
-/
import QuillLang.Embedding.Points
import QuillLang.Proofs.ScopeTrees
import QuillLang.Proofs.StoppedChecks
import QuillLang.Source
import Mathlib.Data.List.Duplicate
import Mathlib.Data.List.Induction
import Mathlib.Data.List.Perm.Subperm

namespace QuillLang

open scoped List

/-! ## Frames that are built up

A definition is refused if the key is there already, so a frame that was built by definitions has
no key twice.  This is all that is asked of the types that are lent. -/

theorem lookup_isSome_of_mem {κ β : Type} [BEq κ] [LawfulBEq κ] {l : List (κ × β)} {b : κ × β}
    (h : b ∈ l) : (l.lookup b.1).isSome = true := by
  rw [Option.isSome_iff_ne_none, ne_eq, lookup_eq_none_iff_not_mem, not_not]
  exact List.mem_map_of_mem h

namespace Frame

variable {ν φ : Type}

/-- A frame that comes about by defining variables and functions, one after the other. -/
inductive Built : Frame ν φ → Prop where
  | empty : Built {}
  | defineVariable {f g : Frame ν φ} {x : String} {v : ν} : Built f →
      f.defineVariable x v = .ok g → Built g
  | defineFunction {f g : Frame ν φ} {key : FunctionKey} {a : φ} : Built f →
      f.defineFunction key a = .ok g → Built g

theorem nodup_concat {κ β : Type} [BEq κ] [LawfulBEq κ] {l : List (κ × β)} {k : κ} {b : β}
    (hl : (l.map (·.1)).Nodup) (hk : l.lookup k = none) : ((l ++ [(k, b)]).map (·.1)).Nodup := by
  rw [List.map_append, List.map_singleton, ← List.concat_eq_append]
  exact hl.concat (lookup_eq_none_iff_not_mem.mp hk)

/-- Every key stands in a frame once. -/
structure Distinct (f : Frame ν φ) : Prop where
  vars : (f.vars.map (·.1)).Nodup
  functions : (f.functions.map (·.1)).Nodup

theorem Distinct.empty : Distinct ({} : Frame ν φ) := ⟨List.nodup_nil, List.nodup_nil⟩

theorem Built.distinct {f : Frame ν φ} (h : f.Built) : f.Distinct := by
  induction h with
  | empty => exact .empty
  | defineVariable _ hg ih =>
      obtain ⟨hnone, rfl⟩ := defineVariable_eq_ok hg
      exact ⟨nodup_concat ih.1 hnone, ih.2⟩
  | defineFunction _ hg ih =>
      obtain ⟨hnone, rfl⟩ := defineFunction_eq_ok hg
      exact ⟨ih.1, nodup_concat ih.2 hnone⟩

theorem lookup_of_nodup_concat {κ β : Type} [BEq κ] [LawfulBEq κ] {l : List (κ × β)} {b : κ × β}
    (h : ((l ++ [b]).map (·.1)).Nodup) : (l.map (·.1)).Nodup ∧ l.lookup b.1 = none := by
  rw [List.map_append, List.nodup_append] at h
  refine ⟨h.1, lookup_eq_none_iff_not_mem.mpr fun hb => ?_⟩
  exact h.2.2 _ hb _ List.mem_cons_self rfl

/-- A frame that has every key once can be built up, key by key. -/
theorem Distinct.built {f : Frame ν φ} (h : f.Distinct) : f.Built := by
  obtain ⟨vars, functions⟩ := f
  obtain ⟨hvars, hfunctions⟩ := h
  induction functions using List.reverseRecOn with
  | nil =>
      induction vars using List.reverseRecOn with
      | nil => exact .empty
      | append_singleton vars b ih =>
          obtain ⟨hvars, hnone⟩ := lookup_of_nodup_concat hvars
          exact .defineVariable (ih hvars hfunctions) (defineVariable_of_none hnone b.2)
  | append_singleton functions b ih =>
      obtain ⟨hfunctions, hnone⟩ := lookup_of_nodup_concat hfunctions
      refine @Built.defineFunction _ _ _ _ b.1 b.2 (ih hvars hfunctions) ?_
      simp only [Frame.defineFunction, findFunction?, hnone]

end Frame

/-! ## Suggestions among candidates

Names are scored, sorted and cut off, but none is made up and none is repeated: what is suggested
is a part of the candidates in another order. -/

namespace Suggestion

/-- A hint that puts some names to the reader. -/
def Names (hint : String) (names : List String) : Prop :=
  (enumerate names).map (fun s => "did you mean " ++ s ++ "?") = some hint

theorem score?_eq_some {limit : Int} {name candidate : String} {a : Scored}
    (h : score? limit name candidate = some a) : a.name = candidate ∧ candidate ≠ name := by
  unfold score? at h
  dsimp only at h
  split at h
  · cases h
  · next hne =>
      simp only [Bool.or_eq_true, decide_eq_true_eq, not_or] at hne
      split at h
      · cases h
        exact ⟨rfl, hne.1⟩
      · cases h

/-- The names that are scored are candidates, in their order. -/
theorem map_name_filterMap (limit : Int) (name : String) (candidates : List String) :
    (candidates.filterMap (score? limit name)).map (·.name) <+ candidates := by
  induction candidates with
  | nil => exact .slnil
  | cons c candidates ih =>
      cases hc : score? limit name c with
      | none =>
          rw [List.filterMap_cons_none hc]
          exact ih.cons c
      | some a =>
          rw [List.filterMap_cons_some hc, List.map_cons, (score?_eq_some hc).1]
          exact ih.cons_cons c

theorem front_sublist {α : Type} (xs : List α) (count : Int) : front xs count <+ xs := by
  unfold front
  split <;> exact List.take_sublist _ _

/-- What is suggested are some of the candidates, in some order. -/
theorem similar_subperm (name : String) (candidates : List String) (limit count : Int) :
    similar name candidates limit count <+~ candidates := by
  have hsorted : ((candidates.filterMap (score? limit name)).mergeSort before).map (·.name) ~
      (candidates.filterMap (score? limit name)).map (·.name) :=
    (List.mergeSort_perm _ _).map _
  have hfront : similar name candidates limit count <+
      ((candidates.filterMap (score? limit name)).mergeSort before).map (·.name) :=
    (front_sublist _ _).map _
  exact hfront.subperm.trans (hsorted.subperm.trans (map_name_filterMap _ _ _).subperm)

/-- The name itself is not suggested. -/
theorem ne_of_mem_similar {name c : String} {candidates : List String} {limit count : Int}
    (h : c ∈ similar name candidates limit count) : c ≠ name := by
  obtain ⟨a, ha, rfl⟩ := List.mem_map.mp h
  have hscored : a ∈ candidates.filterMap (score? limit name) :=
    (List.mergeSort_perm _ before).mem_iff.mp ((front_sublist _ _).subset ha)
  obtain ⟨candidate, -, hc⟩ := List.mem_filterMap.mp hscored
  obtain ⟨hname, hne⟩ := score?_eq_some hc
  rwa [hname]

end Suggestion

/-! ## Where names are looked for

The candidates are collected at the place of the error, from the same scopes or members that the
name was looked up in.  So all of them are bound there. -/

theorem stringMembers_distinct : stringMembers.Distinct := ⟨List.nodup_nil, by decide⟩

namespace StaticOutside

/-- The members of all types that are lent are built up. -/
def Built (o : StaticOutside) : Prop := ∀ b ∈ o.types, b.2.Built

theorem Built.members_distinct {o : StaticOutside} (ho : o.Built) (t : Ty) :
    (o.members t).Distinct := by
  cases t with
  | string => exact stringMembers_distinct
  | outside name =>
      rw [members]
      cases hname : o.types.lookup name with
      | none => exact .empty
      | some f => exact (ho _ (lookup_mem hname)).distinct
  | _ => exact .empty

end StaticOutside

namespace Checker

/-- A name is bound where another was looked for: in the scopes around the place, among the fields
or the methods of a type, or among the types. -/
def Offers (c : Checker) : CheckCause → String → Prop
  | .undefinedVariable _ _, n | .undefinedFunction _ _ _, n =>
    (Chain.findVariable? c.chain n).isSome = true ∨
      ∃ k, (Chain.findFunction? c.chain (n, k)).isSome = true
  | .noField t _ _, n => ((c.outside.members t).findVariable? n).isSome = true
  | .noMethod t _ _ _, n => ∃ k, ((c.outside.members t).findFunction? (n, k)).isSome = true
  | .unknownType _, n => (Ty.ofName? n).isSome = true
  | _, _ => False

/-- A method was looked for in a type that has methods of another name for different numbers of
arguments. -/
def Overloads (c : Checker) : CheckCause → String → Prop
  | .noMethod t _ _ _, n => ∃ k l, k ≠ l ∧
    ((c.outside.members t).findFunction? (n, k)).isSome = true ∧
    ((c.outside.members t).findFunction? (n, l)).isSome = true
  | _, _ => False

/-- A name that a list of keys has twice goes with two numbers. -/
theorem exists_overload {φ : Type} {functions : List (FunctionKey × φ)} {n : String}
    (hkeys : (functions.map (·.1)).Nodup) (hn : 1 < (functions.map (·.1.1)).count n) :
    ∃ k l, k ≠ l ∧ (functions.lookup (n, k)).isSome = true ∧
      (functions.lookup (n, l)).isSome = true := by
  have htwice : [n, n] <+ functions.map (·.1.1) :=
    List.duplicate_iff_sublist.mp (List.duplicate_iff_two_le_count.mpr hn)
  obtain ⟨two, htwo, hnames⟩ := List.sublist_map_iff.mp htwice
  obtain ⟨a, rest, rfl, ha, hrest⟩ := List.map_eq_cons_iff.mp hnames.symm
  obtain ⟨b, rest, rfl, hb, hrest⟩ := List.map_eq_cons_iff.mp hrest
  have hfound : ∀ e ∈ a :: b :: rest, (functions.lookup e.1).isSome = true :=
    fun e he => lookup_isSome_of_mem (htwo.subset he)
  obtain ⟨⟨n₁, k⟩, f⟩ := a
  obtain ⟨⟨n₂, l⟩, g⟩ := b
  cases ha
  cases hb
  have hpair : ((((n₁, k), f) :: ((n₁, l), g) :: rest).map (·.1)).Nodup :=
    hkeys.sublist (htwo.map _)
  refine ⟨k, l, ?_, ?_, ?_⟩
  · rintro rfl
    exact (List.nodup_cons.mp hpair).1 List.mem_cons_self
  · exact hfound _ List.mem_cons_self
  · exact hfound _ (List.mem_cons_of_mem _ List.mem_cons_self)

end Checker

/-- Only a name that was looked for gives rise to a hint. -/
theorem CheckCause.hint?_of_sought_none {cause : CheckCause} (h : cause.sought? = none) :
    cause.hint? = none := by
  cases cause with
  | undefinedVariable | undefinedFunction | noField | noMethod | unknownType => cases h
  | _ => rfl

/-- The names that a hint is made from are bound where the name was looked for, and there is one of
each, save for overloaded methods. -/
structure Checker.Candidates (c : Checker) (cause : CheckCause) (name : String)
    (candidates : List String) : Prop where
  sought : cause.sought? = some name
  hint : cause.hint? = Suggestion.hint? name candidates
  offered : ∀ n ∈ candidates, c.Offers cause n
  once : ∀ n ∈ candidates, candidates.count n = 1 ∨ c.Overloads cause n

theorem Check.Raises.exists_candidates {c : Checker} {x : Node Mark} {e : CheckError}
    {hint : String} (h : Raises c x e) (ho : c.outside.Built) (hh : e.cause.hint? = some hint) :
    ∃ name candidates, c.Candidates e.cause name candidates := by
  -- a list without repetition has each of its names once
  have hcount : ∀ {l : List String} {P : String → Prop}, l.Nodup → ∀ n ∈ l, l.count n = 1 ∨ P n :=
    fun hl n hn => .inl (List.count_eq_one_of_mem hl hn)
  cases h with
  | undefinedVariable | undefinedFunction =>
      exact ⟨_, _, rfl, rfl, fun n hn => Chain.mem_visibleNames.mp hn,
        hcount (Chain.nodup_visibleNames _)⟩
  | noField =>
      refine ⟨_, _, rfl, rfl, fun n hn => ?_, hcount (ho.members_distinct _).vars⟩
      obtain ⟨b, hb, rfl⟩ := List.mem_map.mp hn
      exact lookup_isSome_of_mem hb
  | noMethod =>
      refine ⟨_, _, rfl, rfl, fun n hn => ?_, fun n hn => ?_⟩
      · obtain ⟨b, hb, rfl⟩ := List.mem_map.mp hn
        exact ⟨b.1.2, lookup_isSome_of_mem hb⟩
      · rcases Nat.lt_or_ge 1 (List.count n _) with hlt | hle
        · exact .inr (Checker.exists_overload (ho.members_distinct _).functions hlt)
        · exact .inl (Nat.le_antisymm hle (List.count_pos_iff.mpr hn))
  | unknownType =>
      refine ⟨_, _, rfl, rfl, fun n hn => ?_, hcount (by decide)⟩
      obtain ⟨t, ht, rfl⟩ := List.mem_map.mp hn
      exact List.find?_isSome.mpr ⟨t, ht, decide_eq_true rfl⟩
  | other hcause =>
      rw [CheckCause.hint?_of_sought_none hcause] at hh
      cases hh

/-- For every program and all that is lent to it: if it is refused with an error that carries a
hint, a node that is reached is to blame for the error, and the names in the hint are bound where
the name was looked for there, and none of them is that name.  A name stands in the hint once,
unless it is the name of methods for different numbers of arguments in a type that has no such
method as was looked for. -/
theorem Checker.hint_names_bound {o : StaticOutside} (ho : o.Built) {p : Program Mark}
    {e : CheckError} {hint : String} (source : String)
    (h : ((Checker.start o).check p).1 = .error (.error e))
    (hh : (e.fault source).hint = some hint) :
    ∃ c x name names, Check.Reaches (Checker.start o) p c x ∧ Check.Raises c x e ∧
      e.cause.sought? = some name ∧ Suggestion.Names hint names ∧
      ∀ n ∈ names, n ≠ name ∧ c.Offers e.cause n ∧
        (names.count n = 1 ∨ c.Overloads e.cause n) := by
  rcases stops_of_check h with ⟨c, x, hreach, hraise⟩ | rfl | ⟨reason, rfl⟩
  · have houtside : c.outside = o := hreach.outside rfl
    obtain ⟨name, candidates, hc⟩ := hraise.exists_candidates (houtside ▸ ho) hh
    have hnames : Suggestion.Names hint (Suggestion.similar name candidates) :=
      hc.hint.symm.trans hh
    have hsub := Suggestion.similar_subperm name candidates 2 3
    refine ⟨c, x, name, _, hreach, hraise, hc.sought, hnames, fun n hn => ?_⟩
    have hmem := hsub.subset hn
    refine ⟨Suggestion.ne_of_mem_similar hn, hc.offered n hmem, (hc.once n hmem).imp_left ?_⟩
    intro hone
    have hle := hsub.count_le n
    have hpos := List.count_pos_iff.mpr hn
    omega
  · cases hh
  · cases hh

/-! ## A hint with a name twice

Methods are kept under their name and number of parameters, and the hint is made from the names
alone.  A type with two methods of one name is enough to have it twice. -/

/-- What a program is refused for. -/
def Checker.cause? (o : StaticOutside) (p : Program Mark) : Option CheckCause :=
  match ((Checker.start o).check p).1 with
  | .error (.error e) => some e.cause
  | _ => none

theorem Checker.refused_of_cause? {o : StaticOutside} {p : Program Mark} {cause : CheckCause}
    (h : Checker.cause? o p = some cause) :
    ∃ e, ((Checker.start o).check p).1 = .error (.error e) ∧ e.cause = cause := by
  unfold Checker.cause? at h
  split at h
  · next e he => exact ⟨e, he, Option.some.inj h⟩
  · cases h

namespace Source

/-- A method of points is misspelt, and there are two of the name that is meant. -/
def misspelt : Source := { text := "DEF main(): Integer DO origin.fai(); RETURN 0; END" }

theorem similar_fai :
    Suggestion.similar "fai" ["sum", "move", "self", "fail", "fail"] = ["fail", "fail"] := by
  have hscored : ["sum", "move", "self", "fail", "fail"].filterMap (Suggestion.score? 2 "fai") =
      [⟨"fail", 1⟩, ⟨"fail", 1⟩] := by
    decide +kernel
  rw [Suggestion.similar, hscored, List.mergeSort_of_pairwise (by decide)]
  rfl

theorem misspelt_refused : ∃ q e, misspelt.program = .ok q ∧
    ((Checker.start Points.static).check (q.mark 0).1).1 = .error (.error e) ∧
    e.cause.hint? = some "did you mean 'fail' or 'fail'?" := by
  have hcause : (misspelt.program.map fun q => Checker.cause? Points.static (q.mark 0).1).toOption =
      some (some (.noMethod Points.point "fai" 0 ["sum", "move", "self", "fail", "fail"])) := by
    decide +kernel
  obtain ⟨q, hq⟩ : ∃ q, misspelt.program = .ok q := by
    cases hq : misspelt.program with
    | error f => rw [hq] at hcause; cases hcause
    | ok q => exact ⟨q, rfl⟩
  rw [hq] at hcause
  obtain ⟨e, he, hcause⟩ := Checker.refused_of_cause? (Option.some.inj hcause)
  refine ⟨q, e, hq, he, ?_⟩
  rw [hcause, CheckCause.hint?, Suggestion.hint?, similar_fai]
  decide

/-- The name is put to the reader twice. -/
theorem misspelt_hint : ∃ f hint names, misspelt.check .points = .error (.fault f) ∧
    f.hint = some hint ∧ Suggestion.Names hint names ∧ ¬ names.Nodup := by
  obtain ⟨q, e, hq, he, hh⟩ := misspelt_refused
  have hnames : Suggestion.Names "did you mean 'fail' or 'fail'?" ["fail", "fail"] := by
    unfold Suggestion.Names
    decide
  refine ⟨e.fault misspelt.text, _, _, ?_, hh, hnames, by decide⟩
  rw [check, hq]
  show Except.mapError _ ((Checker.start Points.static).check (q.mark 0).1).1 = _
  rw [he]
  rfl

end Source

theorem Points.static_built : Points.static.Built := by
  intro b hb
  obtain rfl := List.mem_singleton.mp hb
  exact Frame.Distinct.built ⟨by decide, by decide⟩

theorem Checker.misspelt_names_bound : ∃ q e, Source.misspelt.program = .ok q ∧
    Points.static.Built ∧
    ((Checker.start Points.static).check (q.mark 0).1).1 = .error (.error e) ∧
    (e.fault Source.misspelt.text).hint = some "did you mean 'fail' or 'fail'?" ∧
    ∃ c x name names, Check.Reaches (Checker.start Points.static) (q.mark 0).1 c x ∧
      Check.Raises c x e ∧ e.cause.sought? = some name ∧
      Suggestion.Names "did you mean 'fail' or 'fail'?" names ∧
      ∀ n ∈ names, n ≠ name ∧ c.Offers e.cause n ∧
        (names.count n = 1 ∨ c.Overloads e.cause n) := by
  obtain ⟨q, e, hq, he, hh⟩ := Source.misspelt_refused
  exact ⟨q, e, hq, Points.static_built, he, hh,
    Checker.hint_names_bound Points.static_built Source.misspelt.text he hh⟩

end QuillLang
