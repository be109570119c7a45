/-
# Scopes that agree

While a well-typed program runs, its scopes mirror those it was checked in:
frame by frame the same variables in the same order, each with a value of the
type it was declared with.  This module says so (`World.Agrees`) and shows
that looking a variable up, defining one and assigning to one keep it so.

The methods of the program agree in a weaker way.  A method is checked when
only the methods up to it are bound, and runs when all of them are, so what
the check saw is a beginning of what the run sees.
-/
import QuillLang.Eval.Interpreter
import QuillLang.Proofs.Fits
import QuillLang.Proofs.Nodes
import QuillLang.Proofs.Scopes

namespace QuillLang

/-! ## Lists of bindings

Scopes and frames bind their names in the same order, since both define them in the order of the
text.  So two lists are compared entry by entry, and a name that is looked up leads to the same
entry of both. -/

section

variable {β γ : Type} {R : β → γ → Prop} {vs : List (String × β)} {cs : List (String × γ)}

/-- Two lists bind the same names in the same order to things that are related. -/
def BindingsAgree (R : β → γ → Prop) : List (String × β) → List (String × γ) → Prop :=
  List.Forall₂ fun a b => a.1 = b.1 ∧ R a.2 b.2

theorem BindingsAgree.lookup (h : BindingsAgree R vs cs) (x : String) :
    Option.Rel R (vs.lookup x) (cs.lookup x) := by
  induction h with
  | nil => exact .none
  | @cons a b vs cs hab _ ih =>
      obtain ⟨y, v⟩ := a
      obtain ⟨z, c⟩ := b
      obtain ⟨rfl, hR⟩ := hab
      by_cases hx : x = y
      · subst hx; simpa using Option.Rel.some hR
      · have hne : (x == y) = false := by simpa using hx
        simpa [List.lookup_cons, hne] using ih

theorem BindingsAgree.append (h : BindingsAgree R vs cs) {x : String} {v : β} {c : γ}
    (hR : R v c) : BindingsAgree R (vs ++ [(x, v)]) (cs ++ [(x, c)]) := by
  induction h with
  | nil => exact .cons ⟨rfl, hR⟩ .nil
  | cons hab _ ih => exact .cons hab ih

theorem BindingsAgree.exists_left (h : BindingsAgree R vs cs) {b : String × γ} (hb : b ∈ cs) :
    ∃ v, R v b.2 := by
  induction h with
  | nil => cases hb
  | @cons a b' vs cs hab _ ih =>
      rcases List.mem_cons.mp hb with rfl | hb
      · exact ⟨a.2, hab.2⟩
      · exact ih hb

theorem nodup_names_append (h : (vs.map Prod.fst).Nodup) {x : String} (hx : vs.lookup x = none)
    (v : β) : ((vs ++ [(x, v)]).map Prod.fst).Nodup := by
  rw [List.map_append, List.nodup_append]
  refine ⟨h, by simp, ?_⟩
  rintro y hy z hz rfl
  have hyx : y = x := by simpa using hz
  exact lookup_eq_none_iff_not_mem.mp hx (hyx ▸ hy)

/-- Where names are distinct, every binding of a name is the one that is found. -/
theorem eq_of_mem_of_lookup : ∀ {vs : List (String × β)} {x : String} {v w : β},
    (vs.map Prod.fst).Nodup → vs.lookup x = some v → (x, w) ∈ vs → w = v
  | [], _, _, _, _, _, hw => by cases hw
  | (y, u) :: vs, x, v, w, hnd, hv, hw => by
      simp only [List.map_cons, List.nodup_cons] at hnd
      by_cases hx : x = y
      · subst hx
        have huv : u = v := by simpa using hv
        rcases List.mem_cons.mp hw with h | h
        · exact (Prod.mk.inj h).2.trans huv
        · exact absurd (List.mem_map_of_mem (f := Prod.fst) h) hnd.1
      · have hne : (x == y) = false := by simpa using hx
        rw [List.lookup_cons, hne] at hv
        rcases List.mem_cons.mp hw with h | h
        · exact absurd (Prod.mk.inj h).1 hx
        · exact eq_of_mem_of_lookup hnd.2 hv h

end

/-! ## Variables and cells

What a check knows of a variable is its declaration and its type.  A cell of the run belongs to it
if it was made by that declaration and its value is of that type, and this does not change when
another value of the type is put in. -/

/-- A cell is the running counterpart of a variable. -/
structure Cell.Holds (c : Cell) (v : Variable) : Prop where
  name : c.name = v.name
  origin : c.origin = v.origin
  value : c.value.Sound v.type

theorem Cell.Holds.assign {c : Cell} {v : Variable} (h : c.Holds v) {u : Value}
    (hu : u.Sound v.type) : Cell.Holds { c with value := u } v :=
  ⟨h.name, h.origin, hu⟩

/-- Where values of two kinds may meet in an ordering comparison: its left operand was declared
`Comparable`. -/
def Program.MixedAt (p : Program Mark) (M : Model) (place : Place) (l r : Kind) : Prop :=
  ∃ m op left right, p.HasExpr (.binary m op left right) ∧ op.isOrdering = true ∧
    m.place = place ∧ M.typeOf? left.tag.id = some .comparable ∧ l ≠ .nil ∧ r ≠ .nil ∧ l ≠ r

/-- A program and what checking found out about it. -/
structure World where
  program : Program Mark
  model : Model

namespace World

variable {w : World}

/-- A cell belongs to a variable that the program declares, and holds a value of its type. -/
def Binds (w : World) (v : Variable) (c : Cell) : Prop :=
  w.program.Declares w.model v ∧ c.Holds v

/-- The variables of a scope and their cells. -/
structure VarsAgree (w : World) (vs : List (String × Variable)) (cs : List (String × Cell)) :
    Prop where
  bindings : BindingsAgree w.Binds vs cs
  distinct : (vs.map Prod.fst).Nodup

theorem VarsAgree.nil : w.VarsAgree [] [] := ⟨.nil, List.nodup_nil⟩

theorem VarsAgree.lookup_none {vs : List (String × Variable)} {cs : List (String × Cell)}
    (h : w.VarsAgree vs cs) {x : String} (hx : vs.lookup x = none) : cs.lookup x = none := by
  have hrel := h.bindings.lookup x
  rw [hx] at hrel
  generalize cs.lookup x = r at hrel
  cases hrel
  rfl

theorem VarsAgree.lookup_some {vs : List (String × Variable)} {cs : List (String × Cell)}
    (h : w.VarsAgree vs cs) {x : String} {v : Variable} (hx : vs.lookup x = some v) :
    ∃ c, cs.lookup x = some c ∧ w.Binds v c := by
  have hrel := h.bindings.lookup x
  rw [hx] at hrel
  generalize cs.lookup x = r at hrel
  cases hrel with
  | some hb => exact ⟨_, rfl, hb⟩

theorem VarsAgree.define {vs : List (String × Variable)} {cs : List (String × Cell)}
    (h : w.VarsAgree vs cs) {x : String} {v : Variable} {c : Cell} (hx : vs.lookup x = none)
    (hb : w.Binds v c) : w.VarsAgree (vs ++ [(x, v)]) (cs ++ [(x, c)]) :=
  ⟨h.bindings.append hb, nodup_names_append h.distinct hx v⟩

/-- Assigning changes every cell of a name; there is only one. -/
theorem VarsAgree.assign {vs : List (String × Variable)} {cs : List (String × Cell)}
    (h : w.VarsAgree vs cs) {x : String} {v : Variable} {u : Value} (hx : vs.lookup x = some v)
    (hu : u.Sound v.type) :
    w.VarsAgree vs (cs.map fun (y, c) => (y, if y = x then { c with value := u } else c)) := by
  refine ⟨?_, h.distinct⟩
  have hall : ∀ b ∈ vs, b.1 = x → u.Sound b.2.type := by
    rintro ⟨y, v'⟩ hmem rfl
    exact eq_of_mem_of_lookup h.distinct hx hmem ▸ hu
  clear hx
  obtain ⟨hb, -⟩ := h
  induction hb with
  | nil => exact .nil
  | @cons a b vs cs hab _ ih =>
      obtain ⟨y, c⟩ := b
      obtain ⟨hname, hdecl, hholds⟩ := hab
      refine .cons ⟨hname, hdecl, ?_⟩ (ih fun b hb => hall b (List.mem_cons_of_mem _ hb))
      by_cases hy : y = x
      · simpa [hy] using hholds.assign (hall a List.mem_cons_self (hname.trans hy))
      · simpa [hy] using hholds

/-! ## Blocks

Blocks hold variables and no functions.  The frames of a run are as many as the scopes of the
check, so that a variable is found in both at the same depth, and assigned to there. -/

/-- The scope of a block and its frame in the run. -/
structure FrameAgrees (w : World) (f : StaticFrame) (g : RunFrame) : Prop where
  vars : w.VarsAgree f.vars g.vars
  noSignature : f.functions = []
  noFunction : g.functions = []

theorem FrameAgrees.empty : w.FrameAgrees {} {} := ⟨.nil, rfl, rfl⟩

theorem FrameAgrees.define {f f' : StaticFrame} {g : RunFrame} (h : w.FrameAgrees f g)
    {x : String} {v : Variable} {c : Cell} (hf : f.defineVariable x v = .ok f')
    (hb : w.Binds v c) : ∃ g', g.defineVariable x c = .ok g' ∧ w.FrameAgrees f' g' := by
  obtain ⟨hx, rfl⟩ := Frame.defineVariable_eq_ok hf
  have hg : g.vars.lookup x = none := h.vars.lookup_none hx
  exact ⟨_, Frame.defineVariable_of_none hg c, h.vars.define hx hb, h.noSignature, h.noFunction⟩

theorem FrameAgrees.assign {f : StaticFrame} {g : RunFrame} (h : w.FrameAgrees f g) {x : String}
    {v : Variable} {u : Value} (hx : f.vars.lookup x = some v) (hu : u.Sound v.type) :
    ∃ g', g.modifyVariable? x (fun c => { c with value := u }) = some g' ∧ w.FrameAgrees f g' := by
  obtain ⟨c, hc, -⟩ := h.vars.lookup_some hx
  exact ⟨_, Frame.modifyVariable?_of_some hc _, h.vars.assign hx hu, h.noSignature, h.noFunction⟩

/-- The frames of the running method mirror the scopes of its blocks. -/
abbrev LocalsAgree (w : World) : List StaticFrame → Chain Cell Function → Prop :=
  List.Forall₂ w.FrameAgrees

theorem LocalsAgree.findVariable {Γ : List StaticFrame} {ls : Chain Cell Function}
    (h : w.LocalsAgree Γ ls) (x : String) :
    Option.Rel w.Binds (Chain.findVariable? Γ x) (Chain.findVariable? ls x) := by
  induction h with
  | nil => exact .none
  | @cons f g Γ ls hfg _ ih =>
      have hrel := hfg.vars.bindings.lookup x
      simp only [Chain.findVariable?, List.findSome?_cons, Frame.findVariable?]
      generalize f.vars.lookup x = a, g.vars.lookup x = b at hrel
      cases hrel with
      | some hb => exact .some hb
      | none => exact ih

theorem LocalsAgree.assign {Γ : List StaticFrame} {ls : Chain Cell Function}
    (h : w.LocalsAgree Γ ls) {x : String} {v : Variable} {u : Value}
    (hx : Chain.findVariable? Γ x = some v) (hu : u.Sound v.type) :
    ∃ ls', Chain.modifyVariable? ls x (fun c => { c with value := u }) = some ls' ∧
      w.LocalsAgree Γ ls' := by
  induction h with
  | nil => cases hx
  | @cons f g Γ ls hfg hrest ih =>
      simp only [Chain.findVariable?, List.findSome?_cons, Frame.findVariable?] at hx
      cases hs : f.vars.lookup x with
      | some v' =>
          rw [hs] at hx
          cases hx
          obtain ⟨g', hg', hagree⟩ := hfg.assign hs hu
          exact ⟨g' :: ls, by rw [Chain.modifyVariable?, hg'], .cons hagree hrest⟩
      | none =>
          rw [hs] at hx
          obtain ⟨ls', hls', hagree⟩ := ih hx
          refine ⟨g :: ls', ?_, .cons hfg hagree⟩
          rw [Chain.modifyVariable?, Frame.modifyVariable?_of_none (hfg.vars.lookup_none hs)]
          exact congrArg (Option.map (g :: ·)) hls'

theorem LocalsAgree.assign_none {Γ : List StaticFrame} {ls : Chain Cell Function}
    (h : w.LocalsAgree Γ ls) {x : String} (hx : Chain.findVariable? Γ x = none)
    (change : Cell → Cell) : Chain.modifyVariable? ls x change = none := by
  induction h with
  | nil => rfl
  | @cons f g Γ ls hfg _ ih =>
      simp only [Chain.findVariable?, List.findSome?_cons, Frame.findVariable?] at hx
      cases hs : f.vars.lookup x with
      | some v' => rw [hs] at hx; cases hx
      | none =>
          rw [hs] at hx
          rw [Chain.modifyVariable?, Frame.modifyVariable?_of_none (hfg.vars.lookup_none hs)]
          exact congrArg (Option.map (g :: ·)) (ih hx)

theorem LocalsAgree.silent {Γ : List StaticFrame} {ls : Chain Cell Function}
    (h : w.LocalsAgree Γ ls) : Chain.Silent Γ ∧ Chain.Silent ls := by
  induction h with
  | nil => exact ⟨.nil, .nil⟩
  | cons hfg _ ih => exact ⟨ih.1.cons hfg.noSignature, ih.2.cons hfg.noFunction⟩

/-! ## The scope of the program

Its variables as they were declared, and its functions as they can be called. -/

/-- The scope of a program whose methods are all bound. -/
abbrev Globals := Frame Variable Function

/-- The signatures of the functions of the program. -/
def Globals.signatures (G : Globals) : List (FunctionKey × Signature) :=
  G.functions.map fun b => (b.1, b.2.toSignature)

/-- The scope of the program as it was when only some of its functions were bound. -/
def Globals.seen (G : Globals) (fs : List (FunctionKey × Signature)) : StaticFrame :=
  { vars := G.vars, functions := fs }

/-- Those functions are the first ones of all. -/
def Globals.Covers (G : Globals) (fs : List (FunctionKey × Signature)) : Prop :=
  fs <+: G.signatures

/-- The function that a method becomes has the types that the check has found. -/
theorem functionOf_signature {d : Method Mark} {types : List Ty} {result : Ty}
    (htypes : List.Forall₂ (fun name t => Ty.ofName? name = some t) d.parameterTypes types)
    (hresult : resultType? d.returnType = some result) :
    (Exec.functionOf d).toSignature = d.signature types result := by
  have hparams : d.parameterTypes.map (fun t => runType (some t)) = types := by
    generalize d.parameterTypes = names at htypes
    induction htypes with
    | nil => rfl
    | cons ht _ ih => rw [List.map_cons, ih, runType, Option.bind_some, ht, Option.getD_some]
  have hres : runResult d.returnType = result := by
    cases hr : d.returnType with
    | none => rw [hr] at hresult; exact Option.some.inj hresult
    | some name =>
        rw [hr] at hresult
        rw [runResult, Option.bind_some, show Ty.ofName? name = some result from hresult,
          Option.getD_some]
  rw [Exec.functionOf, hparams, hres, Method.signature]

/-- A method that is well typed in the scope of the program. -/
structure MethodFits (w : World) (G : Globals) (d : Method Mark) (types : List Ty) (result : Ty) :
    Prop where
  mem : d ∈ w.program.methods
  paired : d.parameters.length = types.length
  noted : w.model.functionOf? d.tag.id = some (d.signature types result)
  signature : (Exec.functionOf d).toSignature = d.signature types result
  body : ∃ fs inner last, G.Covers fs ∧
    parameterFrame d.tag.id (d.parameters.zip types) {} = .ok inner ∧
    BlockOk {} w.model (some result) inner [G.seen fs] d.body last

/-- A function that a program can call: `print`, or a method of its own. -/
inductive FunctionOk (w : World) (G : Globals) : FunctionKey → Function → Prop where
  | print : FunctionOk w G printSignature.key { toSignature := printSignature, body := .print }
  | method {d : Method Mark} {types : List Ty} {result : Ty} :
      w.MethodFits G d types result →
      FunctionOk w G (Exec.functionOf d).key (Exec.functionOf d)

/-- All functions of the scope are in order. -/
def GlobalsOk (w : World) (G : Globals) : Prop := ∀ b ∈ G.functions, w.FunctionOk G b.1 b.2

theorem FunctionOk.key {G : Globals} {key : FunctionKey} {g : Function}
    (h : w.FunctionOk G key g) : key = g.key := by
  cases h <;> rfl

/-! ## States

What is asked of a state goes beyond the blocks that are being run: the frames of the callers are
waiting, and all that was recorded stands.  A run that has stopped is asked for less, since nobody
looks its names up any more. -/

/-- A cell of a variable of the program. -/
def CellOk (w : World) (c : Cell) : Prop := ∃ v, w.Binds v c

/-- What has happened is not that a node got a value of another type than its own. -/
def EventOk (w : World) (ev : Event) : Prop :=
  ∀ id v, ev = .value id v →
    ∃ e t, w.program.HasExpr e ∧ e.tag.id = id ∧ w.model.typeOf? id = some t ∧ v.Sound t

/-- A point of a run is in order: a value that was computed is one of the type of its node, and
all variables hold values of their types. -/
structure MomentOk (w : World) (q : Moment) : Prop where
  event : w.EventOk q.event
  live : ∀ c ∈ q.live, w.CellOk c

/-- A state agrees with the scopes `Γ` of the blocks that are being run, in the scope `G` of the
program. -/
structure Agrees (w : World) (G : Globals) (Γ : List StaticFrame) (s : State) : Prop where
  locals : w.LocalsAgree Γ s.locals
  vars : w.VarsAgree G.vars s.globals.vars
  functions : s.globals.functions = G.functions
  outside : s.outside = []
  suspended : ∀ f ∈ s.suspended, ∀ b ∈ f.vars, w.CellOk b.2
  trace : ∀ q ∈ s.trace, w.MomentOk q

/-- A run has stopped early, for a reason that types do not rule out. -/
structure Stopped (w : World) (m : Machine) (h : Halt) (s : State) : Prop where
  live : ∀ c ∈ s.live, w.CellOk c
  trace : ∀ q ∈ s.trace, w.MomentOk q
  excused : h.ExcusedAt m.scale (w.program.MixedAt w.model)

section

variable {m : Machine} {G : Globals} {Γ : List StaticFrame} {s : State}

theorem LocalsAgree.cellOk {ls : Chain Cell Function} (h : w.LocalsAgree Γ ls) :
    ∀ f ∈ ls, ∀ b ∈ f.vars, w.CellOk b.2 := by
  induction h with
  | nil => intro f hf; cases hf
  | cons hfg _ ih =>
      intro f hf b hb
      rcases List.mem_cons.mp hf with rfl | hf
      · exact hfg.vars.bindings.exists_left hb
      · exact ih f hf b hb

theorem mem_live {c : Cell} : c ∈ s.live ↔
    ∃ f ∈ s.locals ++ s.suspended ++ s.globals :: s.outside, ∃ b ∈ f.vars, b.2 = c := by
  simp only [State.live, List.mem_flatMap, List.mem_map]

theorem Agrees.live (h : w.Agrees G Γ s) : ∀ c ∈ s.live, w.CellOk c := by
  intro c hc
  obtain ⟨f, hf, b, hb, rfl⟩ := mem_live.mp hc
  rw [h.outside] at hf
  rcases List.mem_append.mp hf with hf | hf
  · rcases List.mem_append.mp hf with hf | hf
    · exact h.locals.cellOk f hf b hb
    · exact h.suspended f hf b hb
  · rw [List.mem_singleton] at hf
    subst hf
    exact h.vars.bindings.exists_left hb

theorem Agrees.stopped (h : w.Agrees G Γ s) {e : Halt}
    (he : e.Excused (w.program.MixedAt w.model)) : w.Stopped m e s :=
  ⟨h.live, h.trace, .inl he⟩

/-! ## Names

The check has looked a name up in scopes that had only some of the functions.  What it found is
still what is found, because functions that are bound later come behind the others. -/

theorem Agrees.findVariable (h : w.Agrees G Γ s) {fs : List (FunctionKey × Signature)}
    {x : String} {v : Variable} (hx : Chain.findVariable? (Γ ++ [G.seen fs]) x = some v) :
    ∃ c, Chain.findVariable? s.chain x = some c ∧ w.Binds v c := by
  have hrel := h.locals.findVariable x
  simp only [Chain.findVariable?, List.findSome?_append, State.chain, h.outside] at hx hrel ⊢
  generalize List.findSome? _ Γ = a, List.findSome? _ s.locals = b at hx hrel
  cases hrel with
  | some hb => cases hx; exact ⟨_, rfl, hb⟩
  | none =>
      have hx : G.vars.lookup x = some v := by
        simpa [Frame.findVariable?, Globals.seen] using hx
      obtain ⟨c, hc, hb⟩ := h.vars.lookup_some hx
      exact ⟨c, by simpa [Frame.findVariable?] using hc, hb⟩

theorem lookup_map_snd {κ β γ : Type} [BEq κ] (f : β → γ) (k : κ) :
    ∀ l : List (κ × β), (l.map fun b => (b.1, f b.2)).lookup k = (l.lookup k).map f
  | [] => rfl
  | (k', b) :: l => by
      simp only [List.map_cons, List.lookup_cons]
      cases k == k' with
      | true => rfl
      | false => exact lookup_map_snd f k l

/-- A function that a check has found is the one that the run finds. -/
theorem Agrees.findFunction (h : w.Agrees G Γ s) (hG : w.GlobalsOk G)
    {fs : List (FunctionKey × Signature)} (hfs : G.Covers fs) {key : FunctionKey}
    {sig : Signature} (hx : Chain.findFunction? (Γ ++ [G.seen fs]) key = some sig) :
    ∃ g, Chain.findFunction? s.chain key = some g ∧ g.toSignature = sig ∧ w.FunctionOk G key g := by
  rw [h.locals.silent.1.findFunction] at hx
  have hsig : fs.lookup key = some sig := by
    simpa [Chain.findFunction?, Frame.findFunction?, Globals.seen] using hx
  have hall := hfs.lookup_eq_some hsig
  rw [Globals.signatures, lookup_map_snd, Option.map_eq_some_iff] at hall
  obtain ⟨g, hg, rfl⟩ := hall
  obtain ⟨l₁, l₂, hmem, -⟩ := List.lookup_eq_some_iff.mp hg
  refine ⟨g, ?_, rfl, hG (key, g) (by simp [hmem])⟩
  rw [State.chain, h.locals.silent.2.findFunction]
  simpa [Chain.findFunction?, Frame.findFunction?, h.functions, h.outside] using hg

/-! ## Changes -/

theorem Agrees.define {f f' : StaticFrame} (h : w.Agrees G (f :: Γ) s) {x : String} {v : Variable}
    {c : Cell} (hf : f.defineVariable x v = .ok f') (hb : w.Binds v c) :
    ∃ t, s.define x c = .ok t ∧ w.Agrees G (f' :: Γ) t := by
  obtain ⟨hlocals, hvars, hfuns, hout, hsus, htr⟩ := h
  generalize hls : s.locals = ls at hlocals
  cases hlocals with
  | @cons _ g _ gs hfg hrest =>
      obtain ⟨g', hg', hagree⟩ := hfg.define hf hb
      refine ⟨{ s with locals := g' :: gs }, ?_, .cons hagree hrest, hvars, hfuns, hout, hsus, htr⟩
      rw [State.define, hls]
      simp only [hg', Except.map]

/-- A field is defined in the scope of the program itself. -/
theorem Agrees.defineField (h : w.Agrees G [] s) {x : String} {v : Variable} {c : Cell}
    (hx : G.vars.lookup x = none) (hb : w.Binds v c) :
    ∃ t, s.define x c = .ok t ∧ w.Agrees { G with vars := G.vars ++ [(x, v)] } [] t := by
  obtain ⟨hlocals, hvars, hfuns, hout, hsus, htr⟩ := h
  generalize hls : s.locals = ls at hlocals
  cases hlocals
  have hdef := Frame.defineVariable_of_none (hvars.lookup_none hx) c
  refine ⟨{ s with globals := { s.globals with vars := s.globals.vars ++ [(x, c)] } }, ?_,
    ?_, hvars.define hx hb, hfuns, hout, hsus, htr⟩
  · rw [State.define, hls]
    simp only [hdef, Except.map]
  · rw [hls]; exact .nil

theorem Agrees.assign (h : w.Agrees G Γ s) {fs : List (FunctionKey × Signature)} {x : String}
    {v : Variable} {u : Value} (hx : Chain.findVariable? (Γ ++ [G.seen fs]) x = some v)
    (hu : u.Sound v.type) : w.Agrees G Γ (s.assign x u) := by
  obtain ⟨hlocals, hvars, hfuns, hout, hsus, htr⟩ := h
  simp only [Chain.findVariable?, List.findSome?_append] at hx
  cases hΓ : List.findSome? (·.findVariable? x) Γ with
  | some v' =>
      rw [hΓ] at hx
      cases hx
      obtain ⟨ls', hls', hagree⟩ := hlocals.assign hΓ hu
      simp only [State.assign, hls']
      exact ⟨hagree, hvars, hfuns, hout, hsus, htr⟩
  | none =>
      rw [hΓ] at hx
      have hx : G.vars.lookup x = some v := by
        simpa [Frame.findVariable?, Globals.seen] using hx
      obtain ⟨c, hc, -⟩ := hvars.lookup_some hx
      simp only [State.assign, hlocals.assign_none hΓ, Frame.modifyVariable?_of_some hc]
      exact ⟨hlocals, hvars.assign hx hu, hfuns, hout, hsus, htr⟩

theorem Agrees.noted (h : w.Agrees G Γ s) (m : Machine) {ev : Event} (hev : w.EventOk ev) :
    w.Agrees G Γ (s.noted m ev) := by
  unfold State.noted
  split
  · refine ⟨h.locals, h.vars, h.functions, h.outside, h.suspended, ?_⟩
    intro q hq
    rcases List.mem_cons.mp hq with rfl | hq
    · exact ⟨hev, h.live⟩
    · exact h.trace q hq
  · exact h

theorem Agrees.note (h : w.Agrees G Γ s) {m : Machine} {ev : Event} (hev : w.EventOk ev)
    {R : Halt → State → Prop} : Ends (Exec.note m ev s) (fun _ t => w.Agrees G Γ t) R :=
  h.noted m hev

theorem Stopped.noted {e : Halt} (h : w.Stopped m e s) {ev : Event} (hev : w.EventOk ev) :
    w.Stopped m e (s.noted m ev) := by
  unfold State.noted
  split
  · refine ⟨h.live, ?_, h.excused⟩
    intro q hq
    rcases List.mem_cons.mp hq with rfl | hq
    · exact ⟨hev, h.live⟩
    · exact h.trace q hq
  · exact h

/-! ## Into a block and out of it

A block adds a frame to those of the method, a call puts new ones in their place.  In both cases
what was there comes back unchanged, so agreement with the scopes outside does as well. -/

theorem Agrees.enter (h : w.Agrees G Γ s) {f : StaticFrame} {g : RunFrame}
    (hfg : w.FrameAgrees f g) : w.Agrees G (f :: Γ) { s with locals := g :: s.locals } :=
  ⟨.cons hfg h.locals, h.vars, h.functions, h.outside, h.suspended, h.trace⟩

theorem Agrees.leave {f : StaticFrame} (h : w.Agrees G (f :: Γ) s) :
    w.Agrees G Γ { s with locals := s.locals.tail } := by
  obtain ⟨hlocals, hvars, hfuns, hout, hsus, htr⟩ := h
  refine ⟨?_, hvars, hfuns, hout, hsus, htr⟩
  show w.LocalsAgree Γ s.locals.tail
  generalize s.locals = ls at hlocals
  cases hlocals with
  | cons _ hrest => exact hrest

theorem Stopped.leave {e : Halt} (h : w.Stopped m e s) :
    w.Stopped m e { s with locals := s.locals.tail } := by
  refine ⟨?_, h.trace, h.excused⟩
  intro c hc
  obtain ⟨f, hf, hfc⟩ := mem_live.mp hc
  refine h.live c (mem_live.mpr ⟨f, ?_, hfc⟩)
  simp only [List.mem_append] at hf ⊢
  exact hf.imp_left (Or.imp_left List.mem_of_mem_tail)

theorem Agrees.call (h : w.Agrees G Γ s) {f : StaticFrame} {g : RunFrame}
    (hfg : w.FrameAgrees f g) :
    w.Agrees G [f] { s with locals := [g], suspended := s.locals ++ s.suspended } := by
  refine ⟨.cons hfg .nil, h.vars, h.functions, h.outside, ?_, h.trace⟩
  intro f' hf'
  rcases List.mem_append.mp hf' with hf' | hf'
  · exact h.locals.cellOk f' hf'
  · exact h.suspended f' hf'

/-- Back in the caller its own frames are as they were, and the rest is as the method left it. -/
theorem Agrees.back (h : w.Agrees G Γ s) {Γ' : List StaticFrame} {t : State}
    (ht : w.Agrees G Γ' t) :
    w.Agrees G Γ { t with locals := s.locals, suspended := s.suspended } :=
  ⟨h.locals, ht.vars, ht.functions, ht.outside, h.suspended, ht.trace⟩

theorem Stopped.back (h : w.Agrees G Γ s) {e : Halt} {t : State} (ht : w.Stopped m e t) :
    w.Stopped m e { t with locals := s.locals, suspended := s.suspended } := by
  refine ⟨?_, ht.trace, ht.excused⟩
  intro c hc
  obtain ⟨f, hf, hfc⟩ := mem_live.mp hc
  rcases List.mem_append.mp hf with hf | hf
  · exact h.live c (mem_live.mpr ⟨f, List.mem_append_left _ hf, hfc⟩)
  · exact ht.live c (mem_live.mpr ⟨f, List.mem_append_right _ hf, hfc⟩)

end

end World

end QuillLang
