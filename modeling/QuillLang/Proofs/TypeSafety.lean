/-
# Type safety

An accepted program that nothing is lent to keeps to its types from its first
field to the end of `main`, and stops early only for a reason that types do
not rule out.  The run goes through three phases: the fields become variables
one by one, the methods become functions one by one, and `main` runs when all
of them are there.
-/
import QuillLang.Proofs.Checked
import QuillLang.Proofs.Numbering
import QuillLang.Proofs.SimpleValues
import QuillLang.Proofs.Soundness
import QuillLang.Source

namespace QuillLang

/-- A method has as many types as parameters. -/
def Method.Paired {α : Type} (d : Method α) : Prop := d.parameters.length = d.parameterTypes.length

namespace World

variable {w : World} {m : Machine} {n depth : Nat}

/-! ## Fields

While fields are initialized the program has no methods, so the only function that they can call is
`print`. -/

/-- The scope of the program with one more variable. -/
def bindField (G : Globals) (x : String) (v : Variable) : Globals :=
  { G with vars := G.vars ++ [(x, v)] }

theorem defineField_ends {G : Globals} {s : State} {c : Cell} {v : Variable} {place : Place}
    {R : Halt → State → Prop} (hs : w.Agrees G [] s) (hx : G.vars.lookup c.name = none)
    (hb : w.Binds v c) :
    Ends (Exec.define m c place s)
      (fun _ t => w.Agrees (bindField G c.name v) [] t) R := by
  obtain ⟨t, ht, hagree⟩ := hs.defineField hx hb
  rw [define_of_ok ht]
  exact hagree.note (by rintro id v ⟨⟩)

/-- Before any method is bound there is only `print`. -/
theorem globalsOk_builtin {G : Globals}
    (h : G.functions = Interpreter.builtinFrame.functions) : w.GlobalsOk G := by
  intro b hb
  rw [h] at hb
  obtain rfl := List.mem_singleton.mp hb
  exact .print

theorem fields_sound :
    ∀ (fs : List (Field Mark)) {G : Globals} {g : StaticFrame} {s : State},
      G.functions = Interpreter.builtinFrame.functions →
      FieldsOk {} w.model (G.seen G.signatures) fs g → (∀ f ∈ fs, f ∈ w.program.fields) →
      w.Agrees G [] s →
      Ends (Exec.fields m n depth fs s)
        (fun _ t => ∃ G', G'.functions = Interpreter.builtinFrame.functions ∧
          g = G'.seen G'.signatures ∧ w.Agrees G' [] t) (w.Stopped m)
  | [], G, _, _, hG, .nil, _, hs => ⟨G, hG, rfl, hs⟩
  | f :: fs, G, _, s, hG, hfs, hmem, hs => by
      cases hfs with
      | @cons _ _ _ _ _ t hv hdef hnoted hrest =>
          have hf : f ∈ w.program.fields := hmem f List.mem_cons_self
          obtain ⟨hnone, rfl⟩ := Frame.defineVariable_eq_ok hdef
          refine Ends.bind (Q := fun _ s₁ =>
            w.Agrees (bindField G f.name (.ofNode f.tag.id f.name t)) [] s₁) ?_ ?_
          · refine Ends.bind ((soundAt (globalsOk_builtin hG) n).initial (Γ := [])
              (List.prefix_refl _) hv (fun e he => .fieldValue hf he) hs) ?_
            rintro v s₁ ⟨hv, hs₁⟩
            exact defineField_ends hs₁ hnone ⟨.field hf hnoted, rfl, rfl, hv⟩
          · intro _ s₁ hs₁
            exact fields_sound (G := bindField G _ _) fs hG hrest
              (fun f hf => hmem f (List.mem_cons_of_mem _ hf)) hs₁

/-! ## Methods

A method was checked when the methods up to it were bound.  It is in order in the scope with all of
them, because what its check saw is the beginning of that scope. -/

/-- The scope of the program with one more method. -/
def bindMethod (G : Globals) (d : Method Mark) : Globals :=
  { G with functions := G.functions ++ [((Exec.functionOf d).key, Exec.functionOf d)] }

theorem signatures_bindMethod (G : Globals) (d : Method Mark) :
    Globals.signatures (bindMethod G d) =
      G.signatures ++ [((Exec.functionOf d).key, (Exec.functionOf d).toSignature)] := by
  simp [Globals.signatures, bindMethod]

theorem method_ends {G : Globals} {s : State} {d : Method Mark} {R : Halt → State → Prop}
    (hs : w.Agrees G [] s) (hnone : G.signatures.lookup (Exec.functionOf d).key = none) :
    Ends (Exec.method d s) (fun _ t => w.Agrees (bindMethod G d) [] t) R := by
  obtain ⟨hlocals, hvars, hfuns, hout, hsus, htr⟩ := hs
  generalize hls : s.locals = ls at hlocals
  cases hlocals
  have hnone : s.globals.functions.lookup (Exec.functionOf d).key = none := by
    rw [Globals.signatures, lookup_map_snd, Option.map_eq_none_iff] at hnone
    rw [hfuns, hnone]
  have hrun : Exec.method d s = .ok () { s with globals := { s.globals with
      functions := s.globals.functions ++ [((Exec.functionOf d).key, Exec.functionOf d)] } } := by
    unfold Exec.method
    rw [get_bind]
    simp only [State.defineFunction, hls, Frame.defineFunction, Frame.findFunction?, hnone,
      Except.map]
    rfl
  rw [hrun]
  refine ⟨?_, hvars, ?_, hout, hsus, htr⟩
  · rw [hls]; exact .nil
  · rw [hfuns]; rfl

theorem methods_sound {R : Halt → State → Prop} :
    ∀ (ds : List (Method Mark)) {G : Globals} {g : StaticFrame} {s : State},
      MethodsOk {} w.model (G.seen G.signatures) ds g →
      (∀ d ∈ ds, d ∈ w.program.methods ∧ d.Paired) →
      w.Agrees G [] s →
      Ends (Exec.methods ds s)
        (fun _ t => ∃ G' : Globals, g = G'.seen G'.signatures ∧ G'.vars = G.vars ∧
          G'.Covers G.signatures ∧ w.Agrees G' [] t ∧
          ∀ b ∈ G'.functions, b ∈ G.functions ∨ w.FunctionOk G' b.1 b.2) R
  | [], G, _, _, .nil, _, hs =>
      ⟨G, rfl, rfl, List.prefix_refl _, hs, fun _ hb => .inl hb⟩
  | d :: ds, G, _, s, hds, hmem, hs => by
      cases hds with
      | @cons _ g _ _ _ types result hd hds =>
          have hsig := functionOf_signature hd.resolvesTypes hd.resolvesResult
          have hkey : (Exec.functionOf d).key = (d.signature types result).key :=
            congrArg Signature.key hsig
          obtain ⟨hnone, hg⟩ := Frame.defineFunction_eq_ok hd.bound
          have hseen : g = (bindMethod G d).seen (bindMethod G d).signatures := by
            rw [signatures_bindMethod, hsig]; exact hg
          subst hseen
          refine Ends.bind (method_ends hs (hkey ▸ hnone)) ?_
          intro _ s₁ hs₁
          refine (methods_sound ds hds (fun d hd => hmem d (List.mem_cons_of_mem _ hd)) hs₁).imp
            ?_ fun _ _ h => h
          rintro _ s₂ ⟨G', hg', hvars, hcovers, hs₂, hfun⟩
          have hfits : w.MethodFits G' d types result := by
            obtain ⟨inner, last, hinner, hbody⟩ := hd.body
            obtain ⟨hin, hpaired⟩ := hmem d List.mem_cons_self
            refine ⟨hin, hpaired.trans hd.resolvesTypes.length_eq, hd.noted, hsig, _, inner, last,
              hcovers, hinner, ?_⟩
            rw [Globals.seen, hvars]
            exact hbody
          refine ⟨G', hg', hvars, ?_, hs₂, ?_⟩
          · refine List.IsPrefix.trans ?_ hcovers
            rw [signatures_bindMethod]
            exact List.prefix_append _ _
          · intro b hb
            rcases hfun b hb with hb | hb
            · rcases List.mem_append.mp hb with hb | hb
              · exact .inl hb
              · obtain rfl := List.mem_singleton.mp hb
                exact .inr (.method hfits)
            · exact .inr hb

/-! ## Whole programs

The three phases one after the other, from a state with nothing in it but what the language
brings. -/

/-- The scope of a program before any of its declarations. -/
def builtinGlobals : Globals := { functions := Interpreter.builtinFrame.functions }

theorem program_sound {p : Program Mark} {M : Model} {f g : StaticFrame} {s : State}
    (hp : ProgramOk {} M p f g)
    (hpaired : ∀ d ∈ p.methods, d.Paired)
    (hs : World.Agrees ⟨p, M⟩ builtinGlobals [] s) :
    Ends (Exec.program m n depth p s)
      (fun v t => v.Sound .integer ∧ ∃ G, World.Agrees ⟨p, M⟩ G [] t)
      (World.Stopped ⟨p, M⟩ m) := by
  refine Ends.bind (fields_sound (G := builtinGlobals) p.fields rfl hp.fields
    (fun _ h => h) hs) ?_
  rintro _ s₁ ⟨G₁, hbuiltin, rfl, hs₁⟩
  refine Ends.bind (methods_sound p.methods hp.methods (fun d hd => ⟨hd, hpaired d hd⟩) hs₁) ?_
  rintro _ s₂ ⟨G, rfl, -, -, hs₂, hfun⟩
  have hG : World.GlobalsOk ⟨p, M⟩ G := by
    intro b hb
    rcases hfun b hb with hb | hb
    · rw [hbuiltin] at hb
      obtain rfl := List.mem_singleton.mp hb
      exact .print
    · exact hb
  obtain ⟨sig, hmain, hresult⟩ := hp.main
  have hmain : Chain.findFunction? ([] ++ [G.seen G.signatures]) ("main", 0) = some sig := hmain
  obtain ⟨main, hfind, rfl, hok⟩ := hs₂.findFunction hG (List.prefix_refl _) hmain
  have hnone : main.parameters = [] :=
    List.length_eq_zero_iff.mp (congrArg Prod.snd hok.key).symm
  refine Ends.bind (Q := fun a t => a = s₂ ∧ t = s₂) ⟨rfl, rfl⟩ ?_
  rintro _ _ ⟨rfl, rfl⟩
  rw [hfind]
  refine ((soundAt hG n).invoke hok (by rw [hnone]; exact .nil) hs₂).imp ?_ fun _ _ h => h
  rintro v t ⟨hv, ht⟩
  exact ⟨hresult ▸ hv, G, ht⟩

theorem exitCode_ends {v : Value} {G : Globals} {Γ : List StaticFrame} {s : State}
    (hv : v.Sound .integer) (hs : w.Agrees G Γ s) :
    Ends (Exec.exitCode v s) (fun k t => v = .integer k ∧ t = s) (w.Stopped m) := by
  rcases hv.integer_cases with rfl | ⟨k, rfl⟩
  · exact hs.stopped (.inl rfl)
  · exact ⟨rfl, rfl⟩

end World

/-! ## Parameters

Reading gives every parameter a type name, and checking makes sure that no two
parameters of a method have one name. -/

theorem Parse.method_paired {n : Nat} {place : Place} {ts rest : List Token} {d : Method Place}
    (h : Parse.method n place ts = .ok (d, rest)) : d.Paired := by
  unfold Parse.method at h
  obtain ⟨⟨name, ts₁⟩, -, h⟩ := except_bind_eq_ok.mp h
  obtain ⟨⟨_, ts₂⟩, -, h⟩ := except_bind_eq_ok.mp h
  obtain ⟨⟨ps, ts₃⟩, -, h⟩ := except_bind_eq_ok.mp h
  obtain ⟨⟨_, ts₄⟩, -, h⟩ := except_bind_eq_ok.mp h
  obtain ⟨⟨result, ts₅⟩, -, h⟩ := except_bind_eq_ok.mp h
  obtain ⟨⟨_, ts₆⟩, -, h⟩ := except_bind_eq_ok.mp h
  obtain ⟨⟨body, ts₇⟩, -, h⟩ := except_bind_eq_ok.mp h
  obtain ⟨⟨_, ts₈⟩, -, h⟩ := except_bind_eq_ok.mp h
  cases h
  simp [Method.Paired]

theorem Parse.methods_paired : ∀ {n : Nat} {ts rest : List Token} {ds : List (Method Place)},
    Parse.methods n ts = .ok (ds, rest) → ∀ d ∈ ds, d.Paired
  | 0, _, _, _, h => by cases h
  | n + 1, ts, _, _, h => by
      unfold Parse.methods at h
      split at h
      · obtain ⟨⟨t, ts₁⟩, -, h⟩ := except_bind_eq_ok.mp h
        obtain ⟨⟨d, ts₂⟩, hd, h⟩ := except_bind_eq_ok.mp h
        obtain ⟨⟨ds, ts₃⟩, hds, h⟩ := except_bind_eq_ok.mp h
        cases h
        intro d' hd'
        rcases List.mem_cons.mp hd' with rfl | hd'
        · exact Parse.method_paired hd
        · exact Parse.methods_paired hds d' hd'
      · cases h
        intro d hd
        cases hd

theorem Source.program_paired {src : Source} {q : Program Place} (h : src.program = .ok q) :
    ∀ d ∈ q.methods, d.Paired := by
  unfold Source.program Source.parseWith at h
  obtain ⟨ts, -, h⟩ := except_bind_eq_ok.mp h
  cases hp : parseProgram ts with
  | error e => rw [hp] at h; cases h
  | ok q' =>
      rw [hp] at h
      cases h
      unfold parseProgram Parse.program at hp
      obtain ⟨⟨fs, ts₁⟩, -, hp⟩ := except_bind_eq_ok.mp hp
      obtain ⟨⟨ds, ts₂⟩, hds, hp⟩ := except_bind_eq_ok.mp hp
      dsimp only at hp
      split at hp
      · cases hp
        exact Parse.methods_paired hds
      · split at hp <;> cases hp

theorem Method.markAll_paired : ∀ {ds : List (Method Place)} {n : Nat},
    (∀ d ∈ ds, d.Paired) → ∀ d ∈ (Method.markAll ds n).1, d.Paired
  | [], _, _, _, hd => by cases hd
  | d :: ds, n, h, d', hd' => by
      rcases List.mem_cons.mp hd' with rfl | hd'
      · exact h d List.mem_cons_self
      · exact Method.markAll_paired (fun d hd => h d (List.mem_cons_of_mem _ hd)) d' hd'

theorem parameterFrame_nodup {id : Nat} : ∀ {ps : List (String × Ty)} {f g : StaticFrame},
    parameterFrame id ps f = .ok g → (f.vars.map Prod.fst).Nodup →
    (f.vars.map Prod.fst ++ ps.map Prod.fst).Nodup
  | [], f, _, _, hnd => by simpa using hnd
  | (x, t) :: ps, f, g, h, hnd => by
      unfold parameterFrame at h
      split at h
      · next f' hdef =>
          obtain ⟨hnone, rfl⟩ := Frame.defineVariable_eq_ok hdef
          simpa using parameterFrame_nodup h (nodup_names_append hnd hnone _)
      · cases h

theorem MethodsOk.nodup {M : Model} {f g : StaticFrame} {ds : List (Method Mark)}
    (h : MethodsOk {} M f ds g) (hpaired : ∀ d ∈ ds, d.Paired) :
    ∀ d ∈ ds, d.parameters.Nodup := by
  induction h with
  | nil => intro d hd; cases hd
  | @cons _ _ _ d ds types _ hd _ ih =>
      intro d' hd'
      rcases List.mem_cons.mp hd' with rfl | hd'
      · obtain ⟨inner, _, hinner, -⟩ := hd.body
        have hlen : d'.parameters.length = types.length :=
          (hpaired d' List.mem_cons_self).trans hd.resolvesTypes.length_eq
        simpa [List.map_fst_zip (Nat.le_of_eq hlen)] using
          parameterFrame_nodup hinner List.nodup_nil
      · exact ih (fun d hd => hpaired d (List.mem_cons_of_mem _ hd)) d' hd'

/-! ## Accepted programs

What is asked for is a text that is read and accepted.  All else that the rules need, such as
distinct numbers of nodes and a type for each parameter, comes from there. -/

/-- The text of a source reads as a program that is accepted where nothing is lent to it. -/
structure Source.Accepts (src : Source) (q : Program Place) (M : Model) : Prop where
  reads : src.program = .ok q
  checks : src.check {} = .ok M

namespace Source.Accepts

variable {src : Source} {q : Program Place} {M : Model}

theorem check_eq (h : src.Accepts q M) : ((Checker.start {}).check (q.mark 0).1).1 = .ok M := by
  have hc := h.checks
  unfold Source.check at hc
  rw [h.reads] at hc
  obtain ⟨q', hq', hc⟩ := except_bind_eq_ok.mp hc
  cases hq'
  cases hr : ((Checker.start {}).check (q.mark 0).1).1 with
  | error e => rw [hr] at hc; cases hc
  | ok M' =>
      rw [hr] at hc
      cases hc
      rfl

theorem programOk (h : src.Accepts q M) : ∃ f g, ProgramOk {} M (q.mark 0).1 f g :=
  Checker.check_typed (Prod.ext h.check_eq rfl)

theorem paired (h : src.Accepts q M) : ∀ d ∈ (q.mark 0).1.methods, d.Paired :=
  Method.markAll_paired (Source.program_paired h.reads)

/-- A cell belongs to one variable only. -/
theorem declares_unique (h : src.Accepts q M) {u v : Variable}
    (hu : (q.mark 0).1.Declares M u) (hv : (q.mark 0).1.Declares M v) (hname : u.name = v.name)
    (horigin : u.origin = v.origin) : u = v := by
  obtain ⟨f, g, hp⟩ := h.programOk
  exact hu.unique (q.mark_numbered 0) (hp.methods.nodup h.paired) hv hname horigin

/-- The whole run of an accepted program, on any machine. -/
theorem run_stops (h : src.Accepts q M) (m : Machine) (fuel : Nat) :
    Ends (Exec.program (Interpreter.start m {}).machine fuel 0 (q.mark 0).1
        (Interpreter.start m {}).reset.state)
      (fun v t => v.Sound .integer ∧ ∃ G, World.Agrees ⟨(q.mark 0).1, M⟩ G [] t)
      (World.Stopped ⟨(q.mark 0).1, M⟩ (Interpreter.start m {}).machine) := by
  obtain ⟨f, g, hp⟩ := h.programOk
  refine World.program_sound hp h.paired ⟨.nil, .nil, rfl, rfl, ?_, ?_⟩
  · intro f hf; cases hf
  · intro q hq; cases hq

end Source.Accepts

/-! ## Preservation

The type of a variable is that of its declaration, which is found by the name and the node of its
cell. -/

namespace Program

/-- The variable that a program declares under the name of a cell and at its node. -/
def IsVariableOf (p : Program Mark) (M : Model) (c : Cell) (v : Variable) : Prop :=
  ∀ u, p.Declares M u ∧ u.name = c.name ∧ u.origin = c.origin ↔ u = v

/-- A cell holds `NIL` or a value of the type that its variable is declared with. -/
def CellFits (p : Program Mark) (M : Model) (c : Cell) : Prop :=
  ∃ v, p.IsVariableOf M c v ∧ c.value.Fits v.type

/-- All values and all variables have kept to their types, at every point of a run and at its
end. -/
structure KeepsTypes (p : Program Mark) (M : Model) (s : State) : Prop where
  values : ∀ q ∈ s.trace, ∀ id v, q.event = .value id v →
    ∃ e t, p.HasExpr e ∧ e.tag.id = id ∧ M.typeOf? e.tag.id = some t ∧ v.Fits t
  cells : ∀ q ∈ s.trace, ∀ c ∈ q.live, p.CellFits M c
  final : ∀ c ∈ s.live, p.CellFits M c

end Program

namespace Source.Accepts

variable {src : Source} {q : Program Place} {M : Model}

theorem cellFits (h : src.Accepts q M) {c : Cell} (hc : World.CellOk ⟨(q.mark 0).1, M⟩ c) :
    (q.mark 0).1.CellFits M c := by
  obtain ⟨v, hv, hname, horigin, hvalue⟩ := hc
  refine ⟨v, fun u => ⟨?_, ?_⟩, hvalue.fits⟩
  · rintro ⟨hu, hname', horigin'⟩
    exact h.declares_unique hu hv (hname'.trans hname) (horigin'.trans horigin)
  · rintro rfl
    exact ⟨hv, hname.symm, horigin.symm⟩

theorem keepsTypes (h : src.Accepts q M) {s : State}
    (htrace : ∀ mo ∈ s.trace, World.MomentOk ⟨(q.mark 0).1, M⟩ mo)
    (hlive : ∀ c ∈ s.live, World.CellOk ⟨(q.mark 0).1, M⟩ c) : (q.mark 0).1.KeepsTypes M s where
  values mo hmo id v hev := by
    obtain ⟨e, t, he, hid, ht, hv⟩ := (htrace mo hmo).event id v hev
    exact ⟨e, t, he, hid, hid ▸ ht, hv.fits⟩
  cells mo hmo c hc := h.cellFits ((htrace mo hmo).live c hc)
  final c hc := h.cellFits (hlive c hc)

end Source.Accepts

namespace Source.Accepts

variable {src : Source} {q : Program Place} {M : Model}

/-- The program gives an integer, which becomes the exit code, or it stops early. -/
theorem exit_stops (h : src.Accepts q M) (m : Machine) (fuel : Nat) :
    Ends ((Exec.program (Interpreter.start m {}).machine fuel 0 (q.mark 0).1 >>= Exec.exitCode)
        (Interpreter.start m {}).reset.state)
      (fun k t => (∃ G, World.Agrees ⟨(q.mark 0).1, M⟩ G [] t) ∧
        Exec.program (Interpreter.start m {}).machine fuel 0 (q.mark 0).1
          (Interpreter.start m {}).reset.state = .ok (.integer k) t)
      (World.Stopped ⟨(q.mark 0).1, M⟩ (Interpreter.start m {}).machine) := by
  have hrun := h.run_stops m fuel
  refine Ends.bind (Q := fun v t =>
    (v.Sound .integer ∧ ∃ G, World.Agrees ⟨(q.mark 0).1, M⟩ G [] t) ∧
    Exec.program (Interpreter.start m {}).machine fuel 0 (q.mark 0).1
      (Interpreter.start m {}).reset.state = .ok v t) ?_ ?_
  · cases hr : Exec.program (Interpreter.start m {}).machine fuel 0 (q.mark 0).1
      (Interpreter.start m {}).reset.state with
    | ok v t => exact ⟨hrun.ok_of hr, rfl⟩
    | error e t => exact hrun.error_of hr
  · rintro v t ⟨⟨hv, G, ht⟩, hvt⟩
    refine (World.exitCode_ends hv ht).imp ?_ fun _ _ h => h
    rintro k _ ⟨rfl, rfl⟩
    exact ⟨⟨G, ht⟩, hvt⟩

/-- Every value that a run computes, and every variable at every point of the run, keeps to the
type that checking has found.  So the value of the program is `NIL` or an integer, and a run that
ends well has an integer. -/
theorem run_keeps_types (h : src.Accepts q M) (m : Machine) (fuel : Nat) :
    (q.mark 0).1.KeepsTypes M ((Interpreter.start m {}).run (q.mark 0).1 fuel).2.state ∧
    (∀ v t, Exec.program (Interpreter.start m {}).machine fuel 0 (q.mark 0).1
      (Interpreter.start m {}).reset.state = .ok v t → v.Fits .integer) ∧
    ∀ k, ((Interpreter.start m {}).run (q.mark 0).1 fuel).1 = .ok k →
      ∃ t, Exec.program (Interpreter.start m {}).machine fuel 0 (q.mark 0).1
        (Interpreter.start m {}).reset.state = .ok (.integer k) t := by
  refine ⟨?_, fun v t hvt => ((h.run_stops m fuel).ok_of hvt).1.fits, ?_⟩
  · rcases Interpreter.run_start m {} (q.mark 0).1 fuel with ⟨hrun, -⟩ | hrun
    · rw [hrun]
      refine h.keepsTypes ?_ ?_
      · intro mo hmo; cases hmo
      · intro c hc; cases hc
    · have hexit := h.exit_stops m fuel
      rw [hrun, Interpreter.perform]
      split
      · next k t ht =>
          obtain ⟨⟨G, hG⟩, -⟩ := hexit.ok_of ht
          exact h.keepsTypes hG.trace hG.live
      · next e t ht =>
          have hstop := hexit.error_of ht
          exact h.keepsTypes hstop.trace hstop.live
  · intro k hk
    rcases Interpreter.run_start m {} (q.mark 0).1 fuel with ⟨hrun, -⟩ | hrun
    · rw [hrun] at hk; cases hk
    · have hexit := h.exit_stops m fuel
      rw [hrun, Interpreter.perform] at hk
      split at hk
      · next k' t ht =>
          cases hk
          exact ⟨t, (hexit.ok_of ht).2⟩
      · cases hk

end Source.Accepts

/-- A program with a variable that gets values of two kinds. -/
def Source.retyping : Source :=
  { text := "LET n = 2; DEF main(): Integer DO LET x: Any = n; x = \"a\"; RETURN n; END" }

theorem Source.retyping_keeps_types : ∃ q M, retyping.Accepts q M ∧
    ((Interpreter.start { tracing := true } {}).run (q.mark 0).1 100).1 = .ok 2 ∧
    ((Interpreter.start { tracing := true } {}).run (q.mark 0).1 100).2.state.trace ≠ [] ∧
    (q.mark 0).1.KeepsTypes M
      ((Interpreter.start { tracing := true } {}).run (q.mark 0).1 100).2.state := by
  obtain ⟨q, hq⟩ := exists_ok_of_isSome (r := retyping.program) (by decide +kernel)
  obtain ⟨M, hM⟩ := exists_ok_of_isSome (r := retyping.check {}) (by decide +kernel)
  have hrun : (retyping.program.map fun q =>
      ((Interpreter.start { tracing := true } {}).run (q.mark 0).1 100).1).toOption =
      some (.ok 2) := by decide +kernel
  have htrace : (retyping.program.map fun q =>
      ((Interpreter.start { tracing := true } {}).run (q.mark 0).1 100).2.state.trace.isEmpty
      ).toOption = some false := by decide +kernel
  rw [hq] at hrun htrace
  have hkeeps := Source.Accepts.run_keeps_types ⟨hq, hM⟩ { tracing := true } 100
  refine ⟨q, M, ⟨hq, hM⟩, Option.some.inj hrun, ?_, hkeeps.1⟩
  exact List.isEmpty_eq_false_iff.mp (Option.some.inj htrace)

/-! ## Progress

Types leave two more excuses than are needed: quotients of a negative scale and decimals without a
result.  Neither comes up, because of the scale of the machine and the literals of a text. -/

namespace Source.Accepts

variable {src : Source} {q : Program Place} {M : Model}

/-- A run that does not end well stops for a reason that types do not rule out, or does not begin
since its machine cannot keep the limit on running methods. -/
theorem run_error_excused (h : src.Accepts q M) (m : Machine) (hscale : 0 ≤ m.scale) (fuel : Nat)
    {e : Halt} (he : ((Interpreter.start m {}).run (q.mark 0).1 fuel).1 = .error e) :
    e.Excused ((q.mark 0).1.MixedAt M) ∨ e = .depth ∧ Machine.depthBound < m.maxDepth := by
  -- the literals of a text have digits after the point, so decimals never get too large
  have hbounds : m.Bounds 0 := ⟨by decide, by omega, le_rfl⟩
  rcases Interpreter.run_start m {} (q.mark 0).1 fuel with ⟨hrun, hlimit⟩ | hrun
  · rw [hrun] at he
    cases he
    exact .inr ⟨rfl, hlimit⟩
  · have hexit := h.exit_stops m fuel
    have hsignal := ((Interpreter.Simple.start hbounds).run (program_placed h.reads 0) fuel).2
    rw [he] at hsignal
    rw [hrun, Interpreter.perform] at he
    split at he
    · cases he
    · next e' t ht =>
        cases he
        rcases (hexit.error_of ht).excused with hexcused | ⟨hneg, -⟩ | ⟨signal, rfl⟩
        · exact .inl hexcused
        · exact absurd hscale (Int.not_le.mpr hneg)
        · cases hsignal

end Source.Accepts

/-- A program that compares an integer with a character. -/
def Source.mixing : Source :=
  { text := "LET a: Comparable = 1; LET b = a < 'c'; DEF main(): Integer DO RETURN 0; END" }

theorem Source.mixing_error_excused : ∃ q M, mixing.Accepts q M ∧ 0 ≤ ({} : Machine).scale ∧
    ((Interpreter.start {} {}).run (q.mark 0).1 100).1 =
      .error (.located (some ⟨1, 32, 31, none⟩) (.incomparable .integer .character)) ∧
    ((Halt.located (some ⟨1, 32, 31, none⟩) (.incomparable .integer .character)).Excused
        ((q.mark 0).1.MixedAt M) ∨
      Halt.located (some ⟨1, 32, 31, none⟩) (.incomparable .integer .character) = .depth ∧
        Machine.depthBound < ({} : Machine).maxDepth) := by
  obtain ⟨q, hq⟩ := exists_ok_of_isSome (r := mixing.program) (by decide +kernel)
  obtain ⟨M, hM⟩ := exists_ok_of_isSome (r := mixing.check {}) (by decide +kernel)
  have hrun : (mixing.program.map fun q =>
      ((Interpreter.start {} {}).run (q.mark 0).1 100).1).toOption =
      some (.error (.located (some ⟨1, 32, 31, none⟩) (.incomparable .integer .character))) := by
    decide +kernel
  rw [hq] at hrun
  have hrun := Option.some.inj hrun
  exact ⟨q, M, ⟨hq, hM⟩, by decide, hrun,
    Source.Accepts.run_error_excused ⟨hq, hM⟩ {} (by decide) 100 hrun⟩

end QuillLang
