/-
# Calls find what checking found

A check binds the methods of a program one after the other, each before its
body is looked at; a run binds all of them before `main` starts.  For a call
of a method of the program, or of `print`, this makes no difference.  It does
for a call of a function that is lent, if a method of that name and number of
parameters comes after the one that the call stands in: the check has found
the function that is lent, the run finds the method.

That is the only difference, and the last section has a program that shows it.
-/
import QuillLang.Embedding.Points
import QuillLang.Proofs.Agreement
import QuillLang.Proofs.Checked
import QuillLang.Proofs.Linking
import QuillLang.Proofs.TypedNodes
import QuillLang.Source

namespace QuillLang

/-! ## What a call may invoke

The check gives a call a signature, the run a function, and the embedding program is described to
each of them apart.  So it has to be said which function goes with which signature, and what the
two descriptions must have in common. -/

/-- An expression of a field. -/
def Field.HasExpr (f : Field Mark) : Expr Mark → Prop := Program.HasExpr ⟨f.tag, [f], []⟩

/-- An expression of a method. -/
def Method.HasExpr (d : Method Mark) : Expr Mark → Prop := Program.HasExpr ⟨d.tag, [], [d]⟩

/-- The function of a run that corresponds to what a check has found under a key: the same method
of the program, the same function of the language, or the function that is lent under the key. -/
inductive Corresponds (p : Program Mark) (o : StaticOutside) (r : RunOutside) (key : FunctionKey) :
    Signature → Function → Prop where
  | method {d : Method Mark} : d ∈ p.methods → (Exec.functionOf d).key = key →
      Corresponds p o r key (Exec.functionOf d).toSignature (Exec.functionOf d)
  | builtin : printSignature.key = key →
      Corresponds p o r key printSignature { toSignature := printSignature, body := .print }
  | outside {s : Signature} {g : Function} : Chain.findFunction? o.frames key = some s →
      Chain.findFunction? r.frames key = some g → Corresponds p o r key s g

/-- Which function a call of a program invokes, by the place that it stands in.  In a field, and
in a method that no method of the call's key comes after, it is the one that corresponds to what
the check has found.  Otherwise the check has found a function that is lent, and the later method
is invoked. -/
inductive Program.Invokes (p : Program Mark) (o : StaticOutside) (r : RunOutside) (M : Model) :
    Nat → Function → Prop where
  | inField {d : Field Mark} {m : Mark} {f : String} {es : List (Expr Mark)} {s : Signature}
      {g : Function} :
      d ∈ p.fields → d.HasExpr (.call m f es) → M.functionOf? m.id = some s →
      Corresponds p o r (f, es.length) s g → p.Invokes o r M m.id g
  | inMethod {before after : List (Method Mark)} {e : Method Mark} {m : Mark} {f : String}
      {es : List (Expr Mark)} {s : Signature} {g : Function} :
      p.methods = before ++ e :: after → e.HasExpr (.call m f es) →
      M.functionOf? m.id = some s →
      (∀ d ∈ after, (Exec.functionOf d).key ≠ (f, es.length)) →
      Corresponds p o r (f, es.length) s g → p.Invokes o r M m.id g
  | overtaken {before after : List (Method Mark)} {d e : Method Mark} {m : Mark} {f : String}
      {es : List (Expr Mark)} {s : Signature} :
      p.methods = before ++ e :: after → e.HasExpr (.call m f es) →
      M.functionOf? m.id = some s → d ∈ after → (Exec.functionOf d).key = (f, es.length) →
      Chain.findFunction? o.frames (f, es.length) = some s →
      p.Invokes o r M m.id (Exec.functionOf d)

/-- What is lent to a run are functions of the embedding program, and no methods. -/
def RunOutside.Foreign (r : RunOutside) : Prop :=
  ∀ f ∈ r.frames, ∀ b ∈ f.functions, ∀ d, b.2.body ≠ .method d

/-- The functions and methods of the embedding program report no undefined function. -/
def RunOutside.Quiet (r : RunOutside) : Prop :=
  (∀ f ∈ r.frames, ∀ b ∈ f.functions, ∀ g, b.2.body = .native g → Native.Quiet g) ∧
    ∀ shape, ∀ b ∈ r.methods shape, Native.Quiet b.2

/-- Functions are lent to a run under the same keys as to a check. -/
def SameKeys (o : StaticOutside) (r : RunOutside) : Prop :=
  ∀ key, (Chain.findFunction? r.frames key).isSome = (Chain.findFunction? o.frames key).isSome

/-! ## Functions that are bound

The functions of a program while some of its methods are bound: `print` first, then these methods
in their order.  Check and run go through the same lists. -/

/-- A method under its key. -/
def methodEntry (d : Method Mark) : FunctionKey × Function :=
  ((Exec.functionOf d).key, Exec.functionOf d)

/-- The functions of a program of which some methods are bound. -/
def boundFunctions (ds : List (Method Mark)) : List (FunctionKey × Function) :=
  Interpreter.builtinFrame.functions ++ ds.map methodEntry

/-- Their signatures. -/
def boundSignatures (ds : List (Method Mark)) : List (FunctionKey × Signature) :=
  (boundFunctions ds).map fun b => (b.1, b.2.toSignature)

theorem boundSignatures_append (ds ds' : List (Method Mark)) :
    boundSignatures (ds ++ ds') =
      boundSignatures ds ++
        ds'.map fun d => ((Exec.functionOf d).key, (Exec.functionOf d).toSignature) := by
  simp [boundSignatures, boundFunctions, methodEntry]

theorem mem_boundFunctions {ds : List (Method Mark)} {b : FunctionKey × Function}
    (h : b ∈ boundFunctions ds) :
    b = (printSignature.key, { toSignature := printSignature, body := .print }) ∨
      ∃ d ∈ ds, b = methodEntry d := by
  rcases List.mem_append.mp h with h | h
  · exact .inl (List.mem_singleton.mp h)
  · obtain ⟨d, hd, rfl⟩ := List.mem_map.mp h
    exact .inr ⟨d, hd, rfl⟩

theorem boundSignatures_keyed (ds : List (Method Mark)) :
    ∀ b ∈ boundSignatures ds, b.1 = b.2.key := by
  intro b hb
  obtain ⟨b', hb', rfl⟩ := List.mem_map.mp hb
  rcases mem_boundFunctions hb' with rfl | ⟨d, -, rfl⟩ <;> rfl

/-! ## The scopes of a check

A successful check leaves behind in which scope each body was looked at: fields in one without
methods, a method in one that has the methods up to itself. -/

section

variable {o : StaticOutside} {M : Model}

theorem FieldsOk.typed {f g : StaticFrame} {ds : List (Field Mark)} (h : FieldsOk o M f ds g) :
    ∀ d ∈ ds, ∃ f' : StaticFrame, f'.functions = f.functions ∧
      ∀ e, d.value = some e → ∃ t, HasType o M (f' :: o.frames) e t := by
  induction h with
  | nil => intro d hd; cases hd
  | @cons f g h d ds t hv hdef _ _ ih =>
      obtain ⟨-, rfl⟩ := Frame.defineVariable_eq_ok hdef
      intro d' hd'
      rcases List.mem_cons.mp hd' with rfl | hd'
      · exact ⟨f, rfl, hv.typed⟩
      · exact ih d' hd'

theorem FieldsOk.functions {f g : StaticFrame} {ds : List (Field Mark)} (h : FieldsOk o M f ds g) :
    g.functions = f.functions := by
  induction h with
  | nil => rfl
  | cons _ hdef _ _ ih =>
      obtain ⟨-, rfl⟩ := Frame.defineVariable_eq_ok hdef
      exact ih

/-- The scope in which the body of a method is checked has the methods up to that one. -/
theorem MethodsOk.functions {done : List (Method Mark)} {d : Method Mark} {f g : StaticFrame}
    {types : List Ty} {result : Ty} (hf : f.functions = boundSignatures done)
    (h : MethodOk o M f d types result g) :
    f.functions.lookup (Exec.functionOf d).key = none ∧
      g.functions = boundSignatures (done ++ [d]) := by
  have hsig := World.functionOf_signature h.resolvesTypes h.resolvesResult
  obtain ⟨hnone, rfl⟩ := Frame.defineFunction_eq_ok h.bound
  rw [← hsig] at hnone
  refine ⟨hnone, ?_⟩
  rw [boundSignatures_append, hf, ← hsig]
  rfl

/-- No method that is still to come has the key of a function that is bound. -/
theorem MethodsOk.lookup_none {f g : StaticFrame} {ds : List (Method Mark)}
    (h : MethodsOk o M f ds g) : ∀ {done : List (Method Mark)},
    f.functions = boundSignatures done →
    ∀ d ∈ ds, f.functions.lookup (Exec.functionOf d).key = none := by
  induction h with
  | nil => intro done _ d hd; cases hd
  | cons hd _ ih =>
      intro done hf d' hd'
      obtain ⟨hnone, hg⟩ := MethodsOk.functions hf hd
      rcases List.mem_cons.mp hd' with rfl | hd'
      · exact hnone
      · have hlater := ih hg d' hd'
        rw [hg, boundSignatures_append, List.lookup_append, Option.or_eq_none_iff] at hlater
        rw [hf]
        exact hlater.1

theorem MethodsOk.scope {f g : StaticFrame} {ds : List (Method Mark)} (h : MethodsOk o M f ds g) :
    ∀ {done before after : List (Method Mark)} {e : Method Mark},
      f.functions = boundSignatures done → ds = before ++ e :: after →
      ∃ g', g'.functions = boundSignatures (done ++ before ++ [e]) ∧
        (∃ ret inner last, inner.functions = [] ∧
          BlockOk o M ret inner (g' :: o.frames) e.body last) ∧
        ∀ d ∈ after, g'.functions.lookup (Exec.functionOf d).key = none := by
  induction h with
  | nil =>
      intro done before after e _ hds
      cases before <;> cases hds
  | @cons f g _ d ds types result hd hds ih =>
      intro done before after e hf hsplit
      obtain ⟨-, hg⟩ := MethodsOk.functions hf hd
      cases before with
      | nil =>
          cases hsplit
          obtain ⟨inner, last, hinner, hbody⟩ := hd.body
          refine ⟨g, by simpa using hg, ⟨_, inner, last, ?_, hbody⟩, hds.lookup_none hg⟩
          exact parameterFrame_functions hinner
      | cons b before =>
          cases hsplit
          obtain ⟨g', hg', hbody, hafter⟩ := ih hg rfl
          exact ⟨g', by simpa using hg', hbody, hafter⟩

end

/-! ## Calls of the program

A call is resolved in the scope of its method by the check and among all methods by the run.  If
the check found it among the methods, the run does too; if it was lent, a later method of the same
key may come before it. -/

section

variable {p : Program Mark} {o : StaticOutside} {r : RunOutside} {M : Model} {f g : StaticFrame}

/-- How calls find their functions while the methods `ds` are bound. -/
def linkage (p : Program Mark) (o : StaticOutside) (r : RunOutside) (M : Model) (m : Machine)
    (ds : List (Method Mark)) : Linkage :=
  ⟨(Interpreter.start m r).machine, boundFunctions ds, r.frames, p.Invokes o r M⟩

/-- What a check has found for a call, if it was found among the functions that were bound, and
otherwise. -/
theorem find_cases {h : StaticFrame} {ds : List (Method Mark)} {key : FunctionKey} {s : Signature}
    (hh : h.functions = boundSignatures ds)
    (hs : Chain.findFunction? (h :: o.frames) key = some s) :
    (∃ g, (boundFunctions ds).lookup key = some g ∧ g.toSignature = s) ∨
      (boundFunctions ds).lookup key = none ∧ Chain.findFunction? o.frames key = some s := by
  rw [Chain.findFunction?, List.findSome?_cons, Frame.findFunction?, hh, boundSignatures,
    World.lookup_map_snd] at hs
  cases hl : (boundFunctions ds).lookup key with
  | some g =>
      rw [hl] at hs
      exact .inl ⟨g, rfl, Option.some.inj hs⟩
  | none =>
      rw [hl] at hs
      exact .inr ⟨rfl, hs⟩

theorem corresponds_of_bound {ds : List (Method Mark)} {key : FunctionKey} {g : Function}
    (hds : ∀ d ∈ ds, d ∈ p.methods) (hg : (boundFunctions ds).lookup key = some g) :
    Corresponds p o r key g.toSignature g := by
  rcases mem_boundFunctions (lookup_mem hg) with h | ⟨d, hd, h⟩
  · cases h
    exact .builtin rfl
  · cases h
    exact .method (hds d hd) rfl

/-- A function that is lent to the check is lent to the run as well. -/
theorem SameKeys.find (hsame : SameKeys o r) {key : FunctionKey} {s : Signature}
    (hs : Chain.findFunction? o.frames key = some s) :
    ∃ g, Chain.findFunction? r.frames key = some g := by
  have hsome := hsame key
  rw [hs] at hsome
  exact Option.isSome_iff_exists.mp hsome

theorem keyed_base (ho : o.Keyed) {h : StaticFrame} {ds : List (Method Mark)}
    (hh : h.functions = boundSignatures ds) : ∀ f ∈ h :: o.frames, StaticFrame.Keyed f := by
  intro f hf
  rcases List.mem_cons.mp hf with rfl | hf
  · intro b hb
    rw [hh] at hb
    exact boundSignatures_keyed ds b hb
  · exact ho.frames f hf

/-- A field is checked where no method is bound. -/
theorem ProgramOk.field_typedIn (hp : ProgramOk o M p f g) {d : Field Mark} (hd : d ∈ p.fields) :
    ∃ h : StaticFrame, h.functions = boundSignatures [] ∧
      Program.TypedIn ⟨d.tag, [d], []⟩ o M (h :: o.frames) := by
  obtain ⟨h, hh, htyped⟩ := hp.fields.typed d hd
  refine ⟨h, hh, ?_, ?_⟩
  · intro d' hd'
    obtain rfl := List.mem_singleton.mp hd'
    exact htyped
  · intro d' hd'; cases hd'

/-- A method is checked where the methods up to it are bound, and none after it. -/
theorem ProgramOk.method_typedIn (hp : ProgramOk o M p f g) {before after : List (Method Mark)}
    {e : Method Mark} (hsplit : p.methods = before ++ e :: after) :
    ∃ h : StaticFrame, h.functions = boundSignatures (before ++ [e]) ∧
      Program.TypedIn ⟨e.tag, [], [e]⟩ o M (h :: o.frames) ∧
      ∀ d ∈ after, h.functions.lookup (Exec.functionOf d).key = none := by
  have hf : f.functions = boundSignatures [] := hp.fields.functions
  obtain ⟨h, hh, hbody, hafter⟩ := hp.methods.scope hf hsplit
  rw [List.nil_append] at hh
  refine ⟨h, hh, ⟨?_, ?_⟩, hafter⟩
  · intro d hd; cases hd
  · intro d hd
    obtain rfl := List.mem_singleton.mp hd
    exact hbody

/-- The calls in a field. -/
theorem field_codeOk (hp : ProgramOk o M p f g) (ho : o.Keyed) (hsame : SameKeys o r) (m : Machine)
    {d : Field Mark} (hd : d ∈ p.fields) : (linkage p o r M m []).CodeOk ⟨d.tag, [d], []⟩ := by
  intro mark name es hcall
  obtain ⟨h, hh, hcode⟩ := hp.field_typedIn hd
  obtain ⟨Γ, t, hΓ, ht⟩ := hcode.expr ho (keyed_base ho hh) hcall
  cases ht with
  | @call _ _ _ s hs _ hnoted _ =>
      rw [hΓ.findFunction] at hs
      rcases find_cases hh hs with ⟨g, hg, rfl⟩ | ⟨hnone, hlent⟩
      · refine ⟨g, ?_, .inField hd hcall hnoted (corresponds_of_bound (by simp) hg)⟩
        simp [Linkage.find, linkage, hg]
      · obtain ⟨g, hg⟩ := hsame.find hlent
        refine ⟨g, ?_, .inField hd hcall hnoted (.outside hlent hg)⟩
        simp [Linkage.find, linkage, hnone, hg]

/-- The calls in a method. -/
theorem method_codeOk (hp : ProgramOk o M p f g) (ho : o.Keyed) (hsame : SameKeys o r) (m : Machine)
    {before after : List (Method Mark)} {e : Method Mark}
    (hsplit : p.methods = before ++ e :: after) :
    (linkage p o r M m p.methods).CodeOk ⟨e.tag, [], [e]⟩ := by
  intro mark name es hcall
  obtain ⟨h, hh, hcode, hafter⟩ := hp.method_typedIn hsplit
  -- what the run looks through: the functions of the check, then the methods after `e`
  have hall : ∀ key, (boundFunctions p.methods).lookup key =
      ((boundFunctions (before ++ [e])).lookup key).or ((after.map methodEntry).lookup key) := by
    intro key
    rw [hsplit, ← List.lookup_append]
    simp [boundFunctions]
  obtain ⟨Γ, t, hΓ, ht⟩ := hcode.expr ho (keyed_base ho hh) hcall
  cases ht with
  | @call _ _ _ s hs _ hnoted _ =>
      rw [hΓ.findFunction] at hs
      rcases find_cases hh hs with ⟨g, hg, rfl⟩ | ⟨hnone, hlent⟩
      · refine ⟨g, by simp [Linkage.find, linkage, hall, hg], ?_⟩
        refine .inMethod hsplit hcall hnoted ?_ (corresponds_of_bound ?_ hg)
        · intro d hd hkey
          have hlookup := hafter d hd
          rw [hkey, hh, boundSignatures, World.lookup_map_snd, hg] at hlookup
          cases hlookup
        · intro d hd
          rw [hsplit]
          simp only [List.mem_append, List.mem_cons, List.not_mem_nil, or_false] at hd ⊢
          exact hd.imp_right .inl
      · cases ha : (after.map methodEntry).lookup (name, es.length) with
        | some g =>
            refine ⟨g, by simp [Linkage.find, linkage, hall, hnone, ha], ?_⟩
            obtain ⟨d, hd, hentry⟩ := List.mem_map.mp (lookup_mem ha)
            obtain ⟨hkey, rfl⟩ := Prod.mk.inj hentry
            exact .overtaken hsplit hcall hnoted hd hkey hlent
        | none =>
            obtain ⟨g, hg⟩ := hsame.find hlent
            refine ⟨g, by simp [Linkage.find, linkage, hall, hnone, ha, hg], ?_⟩
            refine .inMethod hsplit hcall hnoted ?_ (.outside hlent hg)
            intro d hd hkey
            have hne := List.lookup_eq_none_iff.mp ha _ (List.mem_map_of_mem hd)
            simp [methodEntry, hkey] at hne

/-- Every function that can be found while the methods `ds` are bound is safe to call, if the code
of these methods is. -/
theorem linkage_ok (hforeign : r.Foreign) {m : Machine} {ds : List (Method Mark)}
    (hds : ∀ d ∈ ds, (linkage p o r M m ds).CodeOk ⟨d.tag, [], [d]⟩) :
    (linkage p o r M m ds).Ok := by
  intro key g hg
  unfold Linkage.find at hg
  cases hl : (boundFunctions ds).lookup key with
  | some g' =>
      simp only [linkage, hl, Option.some_or, Option.some.injEq] at hg
      subst hg
      rcases mem_boundFunctions (lookup_mem hl) with h | ⟨d, hd, h⟩
      · cases h
        exact ⟨by rintro _ ⟨⟩, by rintro _ ⟨⟩⟩
      · obtain ⟨-, rfl⟩ := Prod.mk.inj h
        refine ⟨by rintro _ ⟨⟩, ?_⟩
        rintro _ ⟨⟩
        exact ⟨_, hds d hd, fun st hst => .body List.mem_cons_self hst⟩
  | none =>
      simp only [linkage, hl, Option.none_or] at hg
      obtain ⟨frame, hframe, hg⟩ := List.exists_of_findSome?_eq_some hg
      have hmem := lookup_mem hg
      exact ⟨fun f hf hq => hq.1 frame hframe _ hmem f hf,
        fun d hd => absurd hd (hforeign frame hframe _ hmem d)⟩

/-! ## The phases of a run

The functions that are bound change between the phases, and with them the linkage: none of the
methods while fields are initialized, one more after each definition, all of them when `main` is
called. -/

/-- Nothing has gone wrong with the calls of a run that has stopped. -/
def CallsOk (p : Program Mark) (o : StaticOutside) (r : RunOutside) (M : Model) (h : Halt)
    (s : State) : Prop :=
  (∀ q ∈ s.trace, ∀ id g, q.event = .call id g → p.Invokes o r M id g) ∧ (r.Quiet → h.Defined)

theorem CallsOk.of_stopped {m : Machine} {ds : List (Method Mark)} {h : Halt} {s : State}
    (hs : (linkage p o r M m ds).Stopped h s) : CallsOk p o r M h s :=
  ⟨hs.trace, hs.defined⟩

theorem fields_linked {m : Machine} {n depth : Nat} (hL : (linkage p o r M m []).Ok) :
    ∀ (ds : List (Field Mark)) {s : State},
      (∀ d ∈ ds, (linkage p o r M m []).CodeOk ⟨d.tag, [d], []⟩) →
      (linkage p o r M m []).Bound 0 s →
      Ends (Exec.fields (Interpreter.start m r).machine n depth ds s)
        (fun _ t => (linkage p o r M m []).Bound 0 t) (linkage p o r M m []).Stopped
  | [], _, _, hs => hs
  | d :: ds, s, hds, hs => by
      refine Ends.bind (Q := fun _ t => (linkage p o r M m []).Bound 0 t) ?_ ?_
      · refine Ends.bind ((Linkage.linkedAt hL n).initial (hds d List.mem_cons_self) ?_ hs) ?_
        · intro e he
          exact .fieldValue List.mem_cons_self he
        · intro v s₁ hs₁
          exact Linkage.define_ends hs₁
      · intro _ s₁ hs₁
        exact fields_linked hL ds (fun d hd => hds d (List.mem_cons_of_mem _ hd)) hs₁

theorem methods_linked {m : Machine} :
    ∀ (ds : List (Method Mark)) {done : List (Method Mark)} {s : State},
      (linkage p o r M m done).Bound 0 s →
      Ends (Exec.methods ds s) (fun _ t => (linkage p o r M m (done ++ ds)).Bound 0 t)
        (CallsOk p o r M)
  | [], done, _, hs => by
      rw [List.append_nil]
      exact hs
  | d :: ds, done, s, hs => by
      refine Ends.bind (Q := fun _ t => (linkage p o r M m (done ++ [d])).Bound 0 t) ?_ ?_
      · unfold Exec.method
        rw [get_bind]
        have hlocals : s.locals = [] := List.length_eq_zero_iff.mp hs.height
        have hdef : s.defineFunction (Exec.functionOf d) =
            (s.globals.defineFunction (Exec.functionOf d).key (Exec.functionOf d)).map
              fun globals => { s with globals } := by
          rw [State.defineFunction, hlocals]
        rw [hdef]
        cases hg : s.globals.defineFunction (Exec.functionOf d).key (Exec.functionOf d) with
        | error key => exact ⟨hs.trace, fun _ => .located (by rintro _ _ ⟨⟩)⟩
        | ok g =>
            obtain ⟨-, rfl⟩ := Frame.defineFunction_eq_ok hg
            refine ⟨hs.height, hs.locals, ?_, hs.outside, hs.trace⟩
            show s.globals.functions ++ _ = boundFunctions (done ++ [d])
            rw [hs.globals]
            simp [linkage, boundFunctions, methodEntry]
      · intro _ s₁ hs₁
        have hrest := methods_linked ds hs₁
        rwa [List.append_assoc] at hrest

theorem program_linked {m : Machine} {n depth : Nat} {s : State} (hp : ProgramOk o M p f g)
    (ho : o.Keyed) (hsame : SameKeys o r) (hforeign : r.Foreign)
    (hs : (linkage p o r M m []).Bound 0 s) :
    Ends (Exec.program (Interpreter.start m r).machine n depth p s)
      (fun _ t => (linkage p o r M m p.methods).Bound 0 t) (CallsOk p o r M) := by
  have hL₀ : (linkage p o r M m []).Ok := linkage_ok hforeign (by intro d hd; cases hd)
  have hL : (linkage p o r M m p.methods).Ok := by
    refine linkage_ok hforeign fun d hd => ?_
    obtain ⟨before, after, hsplit⟩ := List.append_of_mem hd
    exact method_codeOk hp ho hsame m hsplit
  refine Ends.bind ((fields_linked hL₀ p.fields (fun d hd => field_codeOk hp ho hsame m hd) hs).imp
    (fun _ _ h => h) fun _ _ h => .of_stopped h) ?_
  intro _ s₁ hs₁
  refine Ends.bind (methods_linked p.methods hs₁) ?_
  rw [List.nil_append]
  intro _ s₂ hs₂
  refine Ends.bind (Q := fun a t => a = s₂ ∧ t = s₂) ⟨rfl, rfl⟩ ?_
  rintro _ s₂ ⟨rfl, rfl⟩
  rw [hs₂.findFunction]
  cases hmain : (linkage p o r M m p.methods).find ("main", 0) with
  | none => exact ⟨hs₂.trace, fun _ => .located (by rintro _ _ ⟨⟩)⟩
  | some main =>
      exact ((Linkage.linkedAt hL n).invoke (hL _ main hmain) hs₂).imp (fun _ _ h => h)
        fun _ _ h => .of_stopped h

end

/-! ## Whole runs -/

/-- In a run of an accepted program, a call invokes the function that corresponds to what the
check has found, unless that is a function that is lent and a method of the same key comes after
the method that the call stands in.  No call is left without a function. -/
theorem Interpreter.run_invokes {o : StaticOutside} {r : RunOutside} {p : Program Mark} {M : Model}
    (hcheck : ((Checker.start o).check p).1 = .ok M) (ho : o.Keyed) (hsame : SameKeys o r)
    (hforeign : r.Foreign) (m : Machine) (fuel : Nat) :
    (∀ q ∈ ((Interpreter.start m r).run p fuel).2.state.trace, ∀ id g, q.event = .call id g →
      p.Invokes o r M id g) ∧
    (r.Quiet → ∀ h, ((Interpreter.start m r).run p fuel).1 = .error h → h.Defined) := by
  obtain ⟨f, g, hp⟩ : ∃ f g, ProgramOk o M p f g := Checker.check_typed (Prod.ext hcheck rfl)
  have hstart : (linkage p o r M m []).Bound 0 (Interpreter.start m r).reset.state :=
    ⟨rfl, .nil, rfl, rfl, by intro q hq; cases hq⟩
  have hrun : Ends ((Exec.program (Interpreter.start m r).machine fuel 0 p >>= Exec.exitCode)
      (Interpreter.start m r).reset.state)
      (fun _ t => (linkage p o r M m p.methods).Bound 0 t) (CallsOk p o r M) := by
    refine Ends.bind (program_linked hp ho hsame hforeign hstart) ?_
    intro v t ht
    cases v with
    | integer k => exact ht
    | _ => exact ⟨ht.trace, fun _ => .located (by rintro _ _ ⟨⟩)⟩
  rcases Interpreter.run_start m r p fuel with ⟨h, -⟩ | h
  · rw [h]
    refine ⟨?_, ?_⟩
    · intro q hq; cases hq
    · rintro - _ ⟨⟩ _ _ _ ⟨⟩
  · rw [h, Interpreter.perform]
    split
    · next k t ht => exact ⟨(hrun.ok_of ht).trace, by rintro - _ ⟨⟩⟩
    · next e t ht =>
        obtain ⟨htrace, hdefined⟩ := hrun.error_of ht
        refine ⟨htrace, ?_⟩
        rintro hq _ ⟨⟩
        exact hdefined hq

/-! ## A call that is overtaken

The exception is real.  In this program the check finds a function that is lent, and the run calls
a method that comes later. -/

/-- Frames with the same keys, one by one, find functions under the same keys. -/
theorem sameKeys_of_frames {o : StaticOutside} {r : RunOutside}
    (h : r.frames.map (·.functions.map Prod.fst) = o.frames.map (·.functions.map Prod.fst)) :
    SameKeys o r := by
  have hfound : ∀ {ν φ : Type} (c : Chain ν φ) (key : FunctionKey),
      (Chain.findFunction? c key).isSome = (c.map (·.functions.map Prod.fst)).any (key ∈ ·) := by
    intro ν φ c key
    rw [Chain.findFunction?, List.isSome_findSome?, List.any_map]
    congr 1
    funext f
    rw [Frame.findFunction?, Function.comp_apply, Bool.eq_iff_iff, decide_eq_true_iff]
    cases hl : f.functions.lookup key with
    | some a => simpa using ⟨a, lookup_mem hl⟩
    | none =>
        have hne := List.lookup_eq_none_iff.mp hl
        simp only [Option.isSome_none, Bool.false_eq_true, List.mem_map, false_iff, not_exists]
        rintro b ⟨hb, rfl⟩
        simpa using hne b hb
  intro key
  rw [hfound, hfound, h]

theorem Points.static_keyed : Points.static.Keyed where
  frames f hf := by
    obtain rfl := List.mem_singleton.mp hf
    intro b hb
    obtain ⟨s, -, rfl⟩ := List.mem_map.mp hb
    rfl
  types b hb := by
    obtain rfl := List.mem_singleton.mp hb
    intro b hb
    obtain ⟨s, -, rfl⟩ := List.mem_map.mp hb
    rfl

theorem Points.running_foreign : Points.running.Foreign := by
  intro f hf b hb d
  obtain rfl := List.mem_singleton.mp hf
  obtain ⟨s, -, rfl⟩ := List.mem_map.mp hb
  rintro ⟨⟩

/-- A method calls a function that is lent, and a later method has its name. -/
def Source.overtaking : Source :=
  { text := "DEF g(): Any DO RETURN id(1); END DEF id(x: Any): Any DO RETURN 2; END " ++
      "DEF main(): Integer DO g(); RETURN 0; END" }

/-- Whether a method is called where the check has found a function that is lent. -/
def Moment.overtakes (M : Model) (mo : Moment) : Bool :=
  match mo.event with
  | .call id g =>
    match M.functionOf? id, g.body with
    | some s, .method _ => s.origin = .outside
    | _, _ => false
  | _ => false

theorem Moment.not_corresponds_of_overtakes {M : Model} {mo : Moment} {p : Program Mark}
    {o : StaticOutside} {r : RunOutside} (hforeign : r.Foreign) (h : mo.overtakes M = true) :
    ∃ id g s, mo.event = .call id g ∧ M.functionOf? id = some s ∧
      ∀ key, ¬ Corresponds p o r key s g := by
  unfold Moment.overtakes at h
  split at h
  · next id g hev =>
      split at h
      · next s d hs hbody =>
          refine ⟨id, g, s, hev, hs, ?_⟩
          have horigin : s.origin = .outside := of_decide_eq_true h
          intro key hc
          cases hc with
          | method => cases horigin
          | builtin => cases horigin
          | outside _ hg =>
              obtain ⟨frame, hframe, hg⟩ := List.exists_of_findSome?_eq_some hg
              exact hforeign frame hframe _ (lookup_mem hg) d hbody
      · cases h
  · cases h

/-- Where a later method takes the place of a function that is lent, a call does not invoke what
corresponds to the finding of the check. -/
theorem Source.overtaking_not_corresponds : ∃ q M, overtaking.program = .ok q ∧
    overtaking.check .points = .ok M ∧ SameKeys Points.static Points.running ∧
    ∃ mo ∈ ((Interpreter.start { tracing := true } Points.running).run
        (q.mark 0).1 100).2.state.trace,
      ∃ id g s, mo.event = .call id g ∧ M.functionOf? id = some s ∧
        ∀ key, ¬ Corresponds (q.mark 0).1 Points.static Points.running key s g := by
  have hrun : (overtaking.program.bind fun q => (overtaking.check .points).map fun M =>
      ((Interpreter.start { tracing := true } Points.running).run
        (q.mark 0).1 100).2.state.trace.any (Moment.overtakes M)).toOption = some true := by
    decide +kernel
  cases hq : overtaking.program with
  | error e => rw [hq] at hrun; cases hrun
  | ok q =>
      cases hM : overtaking.check .points with
      | error e => rw [hq, hM] at hrun; cases hrun
      | ok M =>
          rw [hq, hM] at hrun
          obtain ⟨mo, hmo, hover⟩ := List.any_eq_true.mp (Option.some.inj hrun)
          exact ⟨q, M, rfl, rfl, sameKeys_of_frames rfl, mo, hmo,
            Moment.not_corresponds_of_overtakes Points.running_foreign hover⟩

theorem Source.overtaking_invokes : ∃ q M, overtaking.program = .ok q ∧
    ((Checker.start Points.static).check (q.mark 0).1).1 = .ok M ∧ Points.static.Keyed ∧
    SameKeys Points.static Points.running ∧ Points.running.Foreign ∧
    (∀ mo ∈ ((Interpreter.start { tracing := true } Points.running).run
        (q.mark 0).1 100).2.state.trace, ∀ id g, mo.event = .call id g →
      (q.mark 0).1.Invokes Points.static Points.running M id g) := by
  have hcheck : (overtaking.program.bind fun q =>
      ((Checker.start Points.static).check (q.mark 0).1).1.mapError
        (CheckFailure.failure overtaking.text)).toOption.isSome = true := by decide +kernel
  obtain ⟨M, hM⟩ := exists_ok_of_isSome hcheck
  obtain ⟨q, hq, hM⟩ := except_bind_eq_ok.mp hM
  cases hc : ((Checker.start Points.static).check (q.mark 0).1).1 with
  | error e => rw [hc] at hM; cases hM
  | ok M' =>
      exact ⟨q, M', hq, hc, Points.static_keyed, sameKeys_of_frames rfl, Points.running_foreign,
        (Interpreter.run_invokes hc Points.static_keyed (sameKeys_of_frames rfl)
          Points.running_foreign { tracing := true } 100).1⟩

end QuillLang
