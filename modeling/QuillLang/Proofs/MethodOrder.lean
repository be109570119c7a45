/-
# The order of methods

The methods of a program become functions of its frame one after the other, and
`main` is called when all of them are there.  So the order in which a text gives
its methods makes no difference to a run: the program ends in the same way and
prints the same text if its methods are put in any other order
(`Source.observed_reordered`).

The fields get their values before there is any method.  Then the two orders lead
to frames with the same entries, and since no key has two entries, every name
finds the same function in both.  From there on the runs are beside each other
until they end (`beside`).
-/
import QuillLang.Proofs.CallDepth
import QuillLang.Proofs.CallResolution
import QuillLang.Proofs.LexicalScope
import QuillLang.Proofs.TypeSafety

namespace QuillLang

/-- The key that a method is called by. -/
def Method.key {α : Type} (d : Method α) : FunctionKey := (d.name, d.parameters.length)

/-! ## Entries in another order -/

/-- Where no key has two entries, their order does not matter to what is found. -/
theorem lookup_perm {κ β : Type} [BEq κ] [LawfulBEq κ] {l l' : List (κ × β)} (h : l.Perm l')
    (hkeys : (l.map Prod.fst).Nodup) (k : κ) : l'.lookup k = l.lookup k := by
  induction h with
  | nil => rfl
  | cons b _ ih =>
      obtain ⟨-, htail⟩ := List.nodup_cons.mp hkeys
      rw [List.lookup_cons, List.lookup_cons, ih htail]
  | swap b c l =>
      obtain ⟨hne, -⟩ := List.nodup_cons.mp hkeys
      obtain ⟨x, v⟩ := b
      obtain ⟨y, w⟩ := c
      have hne : x ≠ y := by
        intro heq
        exact hne (heq ▸ List.mem_cons_self)
      simp only [List.lookup_cons]
      by_cases hx : k = x
      · have hy : (k == y) = false := by simpa [hx] using hne
        rw [hy]
      · have hx : (k == x) = false := by simpa using hx
        rw [hx]
  | trans h _ ih ih' =>
      have hmiddle := (h.map Prod.fst).nodup hkeys
      exact (ih' hmiddle).trans (ih hkeys)

/-! ## The frame of a program before `main`

Fields are initialized when the program has no methods, so this phase does not know their order.
After it the frame has the functions of the language, and one more for each method. -/

/-- A variable that is defined where no block is open is one of the program. -/
theorem field_after {s t : State} {x : String} (hs : s.locals = [])
    (h : t.bindings = s.bindings ∨ ∃ v, s.bindings.define x v = .ok t.bindings) :
    t.locals = [] ∧ t.globals.functions = s.globals.functions := by
  have hnil : s.bindings.locals = [] := List.map_eq_nil_iff.mpr hs
  have hbindings : t.bindings.locals = [] ∧
      t.bindings.globals.functions = s.bindings.globals.functions := by
    rcases h with h | ⟨v, h⟩
    · rw [h]
      exact ⟨hnil, rfl⟩
    · unfold Bindings.define Bindings.inInnermost at h
      rw [hnil] at h
      dsimp only at h
      cases hg : s.bindings.globals.defineVariable x v with
      | error key =>
          rw [hg] at h
          cases h
      | ok g =>
          rw [hg] at h
          obtain ⟨-, rfl⟩ := Frame.defineVariable_eq_ok hg
          rw [← Except.ok.inj h]
          exact ⟨rfl, rfl⟩
  exact ⟨List.map_eq_nil_iff.mp hbindings.1, hbindings.2⟩

/-- The fields of a program bring no functions and leave no block open. -/
theorem fields_after (m : Machine) (fuel depth : Nat) (fs : List (Field Mark)) :
    ∀ {s : State}, s.locals = [] →
      ((Exec.fields m fuel depth fs).after s).locals = [] ∧
      ((Exec.fields m fuel depth fs).after s).globals.functions = s.globals.functions := by
  induction fs with
  | nil =>
      intro s hs
      exact ⟨hs, rfl⟩
  | cons f fs ih =>
      intro s hs
      have hfield : ((Exec.field m fuel depth f).after s).locals = [] ∧
          ((Exec.field m fuel depth f).after s).globals.functions = s.globals.functions := by
        obtain ⟨hdefine, -⟩ := declare_after (visit_initial fuel depth f.value) f.tag f.name _
          (.any m s.bindings) (rfl : Exec.field m fuel depth f = _)
        exact field_after hs hdefine
      rw [Exec.fields, Exec.after_bind]
      unfold Exec.after at hfield
      cases hrun : Exec.field m fuel depth f s with
      | error h t =>
          rw [hrun] at hfield
          exact hfield
      | ok _ t =>
          rw [hrun] at hfield
          obtain ⟨hlocals, hfunctions⟩ := ih hfield.1
          exact ⟨hlocals, hfunctions.trans hfield.2⟩

/-- The state with some more methods as functions of the program. -/
def State.withMethods (s : State) (ds : List (Method Mark)) : State :=
  { s with globals := { s.globals with functions := s.globals.functions ++ ds.map methodEntry } }

/-- A method with a key of its own becomes a function. -/
theorem method_run {s : State} (hs : s.locals = []) {d : Method Mark}
    (hnew : (methodEntry d).1 ∉ s.globals.functions.map Prod.fst) :
    Exec.method d s = .ok () (s.withMethods [d]) := by
  have hnone : s.globals.functions.lookup (Exec.functionOf d).key = none :=
    lookup_eq_none_iff_not_mem.mpr hnew
  have hdefine : s.defineFunction (Exec.functionOf d) = .ok (s.withMethods [d]) := by
    rw [State.withMethods, State.defineFunction, hs, Frame.defineFunction, Frame.findFunction?,
      hnone]
    rfl
  rw [Exec.method, get_bind, hdefine]
  rfl

/-- Methods with keys of their own become functions, in their order. -/
theorem methods_run (ds : List (Method Mark)) : ∀ {s : State}, s.locals = [] →
    ((s.withMethods ds).globals.functions.map Prod.fst).Nodup →
    Exec.methods ds s = .ok () (s.withMethods ds) := by
  induction ds with
  | nil =>
      intro s _ _
      rw [State.withMethods, List.map_nil, List.append_nil]
      rfl
  | cons d ds ih =>
      intro s hs hkeys
      have hsplit : s.withMethods (d :: ds) = (s.withMethods [d]).withMethods ds := by
        simp [State.withMethods]
      have hnew : (methodEntry d).1 ∉ s.globals.functions.map Prod.fst := by
        intro hmem
        rw [State.withMethods, List.map_append] at hkeys
        exact (List.nodup_append.mp hkeys).2.2 _ hmem _ List.mem_cons_self rfl
      rw [hsplit] at hkeys ⊢
      rw [Exec.methods]
      show EStateM.bind _ _ _ = _
      rw [EStateM.bind, method_run hs hnew]
      exact ih hs hkeys

/-! ## Runs with the methods in two orders

Once the methods are bound, the two frames differ in the order of their entries and in nothing that
can be looked up.  So `main` and all that it calls are the same functions. -/

section

variable {m : Machine} {s : State} {ds ds' : List (Method Mark)}

/-- After the methods, in whichever order, the states are beside each other. -/
theorem methods_beside (hs : s.locals = []) (hds : ds.Perm ds')
    (hkeys : ((s.withMethods ds).globals.functions.map Prod.fst).Nodup) :
    Matches (Beside s.output s.output) (Exec.methods ds s) (Exec.methods ds' s) := by
  have hperm : (s.withMethods ds).globals.functions.Perm (s.withMethods ds').globals.functions :=
    (hds.map methodEntry).append_left s.globals.functions
  rw [methods_run ds hs hkeys, methods_run ds' hs ((hperm.map Prod.fst).nodup hkeys)]
  refine .ok ⟨rfl, ⟨fun _ => rfl, lookup_perm hperm hkeys⟩, rfl, rfl, "", ?_⟩
  simp [State.withMethods]

/-- Results that match are seen as the same, where the same was printed before. -/
theorem Matches.seen_eq {o : String} {r r' : EStateM.Result Halt State Int}
    (h : Matches (Beside o o) r r') : seen r' = seen r := by
  cases h with
  | ok h =>
      obtain ⟨added, hs, ht⟩ := h.output
      rw [seen, seen, hs, ht]
  | error h =>
      obtain ⟨added, hs, ht⟩ := h.output
      rw [seen, seen, hs, ht]

theorem program_reordered (fuel depth : Nat) (p : Program Mark) (hs : s.locals = [])
    (hds : p.methods.Perm ds)
    (hkeys : ((s.withMethods p.methods).globals.functions.map Prod.fst).Nodup) :
    seen ((Exec.program m fuel depth { p with methods := ds } >>= Exec.exitCode) s) =
      seen ((Exec.program m fuel depth p >>= Exec.exitCode) s) := by
  have hfields := fields_after m fuel depth p.fields hs
  unfold Exec.program
  simp only [bind_assoc]
  unfold Exec.after at hfields
  show seen (EStateM.bind _ _ _) = seen (EStateM.bind _ _ _)
  unfold EStateM.bind
  dsimp only
  cases hrun : Exec.fields m fuel depth p.fields s with
  | error h t => rfl
  | ok _ t =>
      rw [hrun] at hfields
      obtain ⟨hlocals, hfunctions⟩ := hfields
      rw [State.withMethods, ← hfunctions] at hkeys
      have hmethods := methods_beside hlocals hds hkeys
      exact (hmethods.bind fun _ => ((beside m _ _).main fuel depth).bind .exitCode).seen_eq

end

/-- The keys of functions are those of their methods, where every parameter has its type. -/
theorem Method.Paired.key_eq {d : Method Mark} (h : d.Paired) : (methodEntry d).1 = d.key := by
  show (d.name, (d.parameterTypes.map fun t => runType (some t)).length) = _
  rw [List.length_map, Method.key, show d.parameters.length = _ from h]

/-- Where no two methods of a program have the same key, and none has that of `print`, their order
makes no difference: with the same methods in any other order the program gives the same exit code
or stops with the same error, and prints the same text. -/
theorem Source.observed_reordered {src : Source} {q : Program Place} (hq : src.program = .ok q)
    {ds : List (Method Mark)} (hds : (q.mark 0).1.methods.Perm ds)
    (hkeys : ((q.mark 0).1.methods.map Method.key).Nodup)
    (hprint : ("print", 1) ∉ (q.mark 0).1.methods.map Method.key)
    (m : Machine) (r : RunOutside) (fuel : Nat) :
    Program.observed { (q.mark 0).1 with methods := ds } m r fuel =
      (q.mark 0).1.observed m r fuel := by
  have hpaired : ∀ d ∈ (q.mark 0).1.methods, d.Paired :=
    Method.markAll_paired (Source.program_paired hq)
  have hentries : ((q.mark 0).1.methods.map methodEntry).map Prod.fst =
      (q.mark 0).1.methods.map Method.key := by
    rw [List.map_map]
    exact List.map_congr_left fun d hd => (hpaired d hd).key_eq
  by_cases hlimit : m.maxDepth ≤ Machine.depthBound
  · rw [Program.observed_eq _ r fuel hlimit, Program.observed_eq _ r fuel hlimit]
    refine program_reordered fuel 0 _ rfl hds ?_
    rw [State.withMethods, List.map_append, hentries]
    exact List.nodup_cons.mpr ⟨hprint, hkeys⟩
  · have hrun : ∀ p : Program Mark, (Interpreter.start m r).run p fuel =
        (.error .depth, (Interpreter.start m r).reset) := fun p => if_neg hlimit
    rw [Program.observed, Program.observed, hrun, hrun]

/-- A program of three methods, of which two share a name and one divides by zero. -/
def Source.overloaded : Source :=
  { text := "LET k = 0; DEF f(n: Any): Any DO print(n); RETURN f(); END " ++
      "DEF f(): Any DO RETURN 1 / k; END DEF main(): Any DO RETURN f(2); END" }

/-- Backward, its methods print the same text and fail in the same place. -/
theorem Source.overloaded_reversed : ∃ q, overloaded.program = .ok q ∧
    (q.mark 0).1.methods.map Method.key = [("f", 1), ("f", 0), ("main", 0)] ∧
    Program.observed { (q.mark 0).1 with methods := (q.mark 0).1.methods.reverse } {} {} 30 =
      (.error (.error ⟨.divideByZero, some ⟨1, 83, 82, none⟩, some .divideByZero⟩), "2\n") := by
  obtain ⟨q, hq⟩ := exists_ok_of_isSome (r := overloaded.program) (by decide +kernel)
  have hruns : (overloaded.program.map fun q =>
      decide ((q.mark 0).1.methods.map Method.key = [("f", 1), ("f", 0), ("main", 0)] ∧
        (q.mark 0).1.observed {} {} 30 = (.error (.error
          ⟨.divideByZero, some ⟨1, 83, 82, none⟩, some .divideByZero⟩), "2\n"))).toOption =
      some true := by
    decide +kernel
  rw [hq] at hruns
  obtain ⟨hkeys, hrun⟩ := of_decide_eq_true (Option.some.inj hruns)
  refine ⟨q, hq, hkeys, ?_⟩
  rw [observed_reordered hq (List.reverse_perm _).symm (hkeys ▸ by decide) (hkeys ▸ by decide)]
  exact hrun

end QuillLang
