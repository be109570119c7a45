/-
# Limits only cut runs short

A machine limits how many methods run inside each other.  A program that keeps
to the limit does not notice it: with a higher limit it ends in the same way
and prints the same text.  A program that does not is stopped, and what it has
printed by then is the start of what it prints with a higher limit
(`Interpreter.run_deeper`).  The fuel of a run is a limit of the same sort, and
both are raised at once.

The two runs are in the same state at every step until one of them is stopped,
so all there is to follow is the text printed by the other (`Outlasts`).  There
is an end to raising the limit: a machine that cannot count so far runs nothing
at all (`Source.idle_too_deep`).
-/
import QuillLang.Proofs.ScopeDiscipline
import QuillLang.Source

namespace QuillLang

/-! ## Printed text

A run that is cut short is told from the other by its text alone, so it has to be known of every
change to a state that it takes back nothing of what was printed. -/

/-- The text printed so far in one state is the start of that in another. -/
def State.GoesOn (s t : State) : Prop := ∃ text, t.output = s.output ++ text

namespace State

variable {s t u : State}

theorem GoesOn.of_eq (h : t.output = s.output) : s.GoesOn t := ⟨"", by rw [h, String.append_empty]⟩

theorem GoesOn.refl (s : State) : s.GoesOn s := .of_eq rfl

theorem GoesOn.trans (hst : s.GoesOn t) (htu : t.GoesOn u) : s.GoesOn u := by
  obtain ⟨text, ht⟩ := hst
  obtain ⟨more, hu⟩ := htu
  exact ⟨text ++ more, by rw [hu, ht, String.append_assoc]⟩

theorem output_noted (s : State) (m : Machine) (e : Event) : (s.noted m e).output = s.output := by
  unfold noted
  split <;> rfl

theorem output_assign (s : State) (x : String) (v : Value) :
    (s.assign x v).output = s.output := by
  unfold assign
  dsimp only
  split
  · rfl
  · split
    · rfl
    · split <;> rfl

theorem output_inInnermost {change : RunFrame → Except Duplicate RunFrame}
    (h : s.inInnermost change = .ok t) : t.output = s.output := by
  obtain ⟨-, g, -, rfl⟩ | ⟨f, fs, g, -, -, rfl⟩ := inInnermost_cases h <;> rfl

end State

/-! ## Two runs

Both runs take the same steps in the same states until one is stopped.  From then on only the other
goes on, and all that is still asked of it is that its text grows.  This is a relation that the
rules keep, if a limit that is not reached makes no difference (`limited`). -/

/-- A run has come to a limit: on the methods that run inside each other, or on its fuel. -/
def Halt.AtLimit : Halt → Prop
  | .error e => e.cause = .stackOverflow
  | .outOfFuel => True
  | .digits _ | .quotient _ | .signal _ | .depth | .missingArgument => False

section

variable {α : Type}

/-- The state in which an action ends. -/
def finalState : EStateM.Result Halt State α → State
  | .ok _ s => s
  | .error _ s => s

/-- How an action ends with lower limits and with higher ones: in the same way, unless it comes
to a limit and the other goes on from there. -/
inductive CutShort : EStateM.Result Halt State α → EStateM.Result Halt State α → Prop where
  | same (r : EStateM.Result Halt State α) : CutShort r r
  | cut {h : Halt} {s : State} {r : EStateM.Result Halt State α} : h.AtLimit →
      s.GoesOn (finalState r) → CutShort (.error h s) r

/-- An action with higher limits adds to the printed text, and the one with lower limits differs
from it only if it is cut short. -/
def Outlasts (x y : Exec α) : Prop := ∀ s, CutShort (y s) (x s) ∧ s.GoesOn (x.after s)

end

namespace Outlasts

variable {α β : Type}

theorem refl {x : Exec α} (h : ∀ s : State, s.GoesOn (x.after s)) : Outlasts x x :=
  fun s => ⟨.same _, h s⟩

/-- An action that prints nothing. -/
theorem silent {x : Exec α} (h : ∀ s, (x.after s).output = s.output) : Outlasts x x :=
  refl fun s => .of_eq (h s)

/-- An action goes on where the other one is stopped. -/
theorem throw_right {x : Exec α} {h : Halt} (hh : h.AtLimit)
    (hx : ∀ s : State, s.GoesOn (x.after s)) : Outlasts x (throw h) :=
  fun s => ⟨.cut hh (hx s), hx s⟩

theorem bind {x y : Exec α} {f g : α → Exec β} (hx : Outlasts x y)
    (hf : ∀ a, Outlasts (f a) (g a)) : Outlasts (x >>= f) (y >>= g) := by
  intro s
  obtain ⟨hcut, hgoes⟩ := hx s
  rw [Exec.after_bind]
  show CutShort (EStateM.bind y g s) (EStateM.bind x f s) ∧ _
  unfold Exec.after at hgoes
  unfold EStateM.bind
  generalize y s = r at hcut ⊢
  generalize x s = r' at hcut hgoes ⊢
  cases r' with
  | error h t =>
      refine ⟨?_, hgoes⟩
      cases hcut with
      | same => exact .same _
      | cut hh hstate => exact .cut hh hstate
  | ok a t =>
      obtain ⟨hcut', hgoes'⟩ := hf a t
      refine ⟨?_, hgoes.trans hgoes'⟩
      cases hcut with
      | same => exact hcut'
      | cut hh hstate => exact .cut hh (hstate.trans hgoes')

theorem relocating {x y : Exec α} (place : Place) (h : Outlasts x y) :
    Outlasts (Exec.relocating place x) (Exec.relocating place y) := by
  intro s
  obtain ⟨hcut, hgoes⟩ := h s
  rw [Exec.after_relocating]
  refine ⟨?_, hgoes⟩
  have hfinal : finalState (Exec.relocating place x s) = finalState (x s) :=
    Exec.after_relocating place x s
  unfold Exec.relocating at hfinal ⊢
  generalize y s = r at hcut ⊢
  generalize x s = r' at hcut hfinal ⊢
  cases hcut with
  | same => exact .same _
  | @cut e t _ hh hstate =>
      rw [← hfinal] at hstate
      cases e with
      | error e =>
          refine .cut ?_ hstate
          show (e.relocate place).cause = .stackOverflow
          unfold EvalError.relocate
          split <;> exact hh
      | outOfFuel => exact .cut trivial hstate
      | _ => exact hh.elim

/-- An action between two changes to the state that print nothing. -/
def between (pre : State → State) (post : State → State → State) (x : Exec α) : Exec α := fun s =>
  match x (pre s) with
  | .ok a t => .ok a (post s t)
  | .error h t => .error h (post s t)

theorem between_keeps {x y : Exec α} {pre : State → State} {post : State → State → State}
    (hpre : ∀ s, (pre s).output = s.output) (hpost : ∀ s t, (post s t).output = t.output)
    (h : Outlasts x y) : Outlasts (between pre post x) (between pre post y) := by
  intro s
  obtain ⟨hcut, text, htext⟩ := h (pre s)
  unfold Exec.after between
  unfold Exec.after at htext
  rw [hpre] at htext
  generalize y (pre s) = r at hcut ⊢
  generalize x (pre s) = r' at hcut htext ⊢
  have hgoes : s.GoesOn (finalState (match r' with
      | .ok a t => .ok a (post s t)
      | .error h t => .error h (post s t))) := by
    cases r' with
    | ok a t => exact ⟨text, (hpost s t).trans htext⟩
    | error h t => exact ⟨text, (hpost s t).trans htext⟩
  refine ⟨?_, hgoes⟩
  cases hcut with
  | same => exact .same _
  | @cut h t _ hh hstate =>
      obtain ⟨more, hmore⟩ := hstate
      refine .cut hh ⟨more, ?_⟩
      rw [hpost, ← hmore]
      cases r' with
      | ok a u => exact hpost s u
      | error h u => exact hpost s u

theorem noting {x y : Exec α} (m : Machine) (e : Event) (h : Outlasts x y) :
    Outlasts (Exec.noting m e x) (Exec.noting m e y) :=
  between_keeps (fun _ => rfl) (fun _ t => t.output_noted m e) h

theorem inBlock {x y : Exec α} (frame : RunFrame) (h : Outlasts x y) :
    Outlasts (Exec.inBlock frame x) (Exec.inBlock frame y) :=
  between_keeps (fun _ => rfl) (fun _ _ => rfl) h

theorem inMethod {x y : Exec α} (frame : RunFrame) (h : Outlasts x y) :
    Outlasts (Exec.inMethod frame x) (Exec.inMethod frame y) :=
  between_keeps (fun _ => rfl) (fun _ _ => rfl) h

theorem throw (h : Halt) : Outlasts (MonadExcept.throw h : Exec α) (MonadExcept.throw h) :=
  silent fun _ => rfl

theorem note (m : Machine) (e : Event) : Outlasts (Exec.note m e) (Exec.note m e) :=
  silent fun s => s.output_noted m e

theorem callee {f g : Function → Exec α} (key : FunctionKey) (place : Place)
    (h : ∀ c, Outlasts (f c) (g c)) :
    Outlasts (Exec.callee key place >>= f) (Exec.callee key place >>= g) := by
  intro s
  unfold Exec.after
  rw [Exec.callee_bind, Exec.callee_bind]
  cases Chain.findFunction? s.chain key with
  | some c => exact h c s
  | none => exact ⟨.same _, .refl s⟩

theorem print (v : Value) : Outlasts (Exec.print v) (Exec.print v) := by
  refine refl fun s => ?_
  unfold Exec.print
  cases v.text? with
  | none => exact .refl s
  | some text =>
      refine ⟨text ++ "\n", ?_⟩
      show s.output ++ text ++ "\n" = _
      exact String.append_assoc

theorem native (g : Native) (vs : List Value) : Outlasts (Exec.native g vs) (Exec.native g vs) :=
  silent fun s => by rw [Exec.after_native]

theorem callMember (m : Machine) (r : Value) (f : String) (vs : List Value) :
    Outlasts (Exec.callMember m r f vs) (Exec.callMember m r f vs) := by
  unfold Exec.callMember
  cases r with
  | string text => exact silent fun s => by rw [Exec.after_ofExcept]
  | record id =>
      intro s
      dsimp only
      unfold Exec.after
      rw [get_bind]
      cases ((s.records[id]?.map fun r => m.methods r.shape).getD []).lookup
          (f, vs.length + 1) with
      | some g => exact native g _ s
      | none => exact ⟨.same _, .refl s⟩
  | _ => exact throw _

theorem define (m : Machine) (c : Cell) (place : Place) :
    Outlasts (Exec.define m c place) (Exec.define m c place) := by
  refine silent fun s => ?_
  rw [Exec.after_define]
  cases hdefine : s.define c.name c with
  | error key => rfl
  | ok t =>
      rw [State.define_eq] at hdefine
      exact (t.output_noted m _).trans (State.output_inInnermost hdefine)

theorem method (d : Method Mark) : Outlasts (Exec.method d) (Exec.method d) := by
  refine silent fun s => ?_
  rw [Exec.after_method]
  cases hdefine : s.defineFunction (Exec.functionOf d) with
  | error key => rfl
  | ok t =>
      rw [State.defineFunction_eq] at hdefine
      exact State.output_inInnermost hdefine

theorem methods : ∀ ds, Outlasts (Exec.methods ds) (Exec.methods ds)
  | [] => silent fun _ => rfl
  | d :: ds => bind (method d) fun _ => methods ds

theorem lookup (x : String) (place : Place) :
    Outlasts (Exec.lookup x place) (Exec.lookup x place) :=
  silent fun s => by rw [Exec.after_lookup]

theorem lookupField (r : Value) (x : String) :
    Outlasts (Exec.lookupField r x) (Exec.lookupField r x) :=
  silent fun s => by rw [Exec.after_lookupField]

theorem assigning {x y : Exec Value} (m : Machine) (name : String) (place : Place)
    (h : Outlasts x y) :
    Outlasts (Exec.assigning m name place x) (Exec.assigning m name place y) :=
  bind (lookup name place) fun _ => bind h fun v =>
    bind (silent fun s => s.output_assign name v) fun _ => note m _

theorem assigningField {x y : Exec Value} (m : Machine) (r : Value) (name : String)
    (place : Place) (h : Outlasts x y) :
    Outlasts (Exec.assigningField m r name place x) (Exec.assigningField m r name place y) := by
  refine bind (relocating place (lookupField r name)) fun c => bind h fun v => ?_
  unfold Exec.assignField
  cases r with
  | record id => exact bind (silent fun _ => rfl) fun _ => note m _
  | _ => exact note m _

/-- A limit that is not reached is not noticed. -/
theorem limited {x y : Exec α} {depth : Nat} {low high : Int} (place : Place) (hle : low ≤ high)
    (h : (depth : Int) < high → Outlasts x y) :
    Outlasts (if high ≤ depth then Exec.fail .stackOverflow place else x)
      (if low ≤ depth then Exec.fail .stackOverflow place else y) := by
  by_cases hhigh : high ≤ depth
  · rw [if_pos hhigh, if_pos (Int.le_trans hle hhigh)]
    exact throw _
  · have hxy := h (Int.not_le.mp hhigh)
    rw [if_neg hhigh]
    split
    · exact throw_right rfl fun s => (hxy s).2
    · exact hxy

end Outlasts

/-- The machine with another limit on running methods. -/
def Machine.withLimit (m : Machine) (limit : Int) : Machine := { m with maxDepth := limit }

/-- The congruence of actions with a higher limit and with a lower one. -/
def outlasting (m : Machine) {low high : Int} (hle : low ≤ high) :
    Congruence (m.withLimit high) (m.withLimit low) where
  rel _ _ := Outlasts
  decl _ _ := Outlasts
  Callee _ := True
  scale := rfl
  pure _ := .silent fun _ => rfl
  throw := .throw
  bind := .bind
  note _ := .note m _
  lookup := .lookup
  lookupField := .lookupField
  relocating := .relocating
  callee key place h := .callee key place fun c => h c trivial
  print := .print
  native vs _ _ := .native _ vs
  callMember := .callMember m
  assigning x place h := .assigning m x place h
  assigningField r x place h := .assigningField m r x place h
  limited place h := .limited place hle h
  entering _ _ h := .noting m _ (.inMethod _ (.bind (.note m _) fun _ => h))
  inBlock _ h := .inBlock _ h
  decl_of_rel h := h
  decl_bind := .bind
  define := .define m

/-- Rules with any fuel go on where rules without fuel stop. -/
theorem outlasting_starved (m : Machine) {low high : Int} (hle : low ≤ high) (n : Nat) :
    (outlasting m hle).At n 0 :=
  have hrules := (outlasting m hle).rules n
  have hstarved : ∀ {α : Type} {x y : Exec α}, Outlasts x y → Outlasts x (throw .outOfFuel) :=
    fun h => .throw_right trivial fun s => (h s).2
  { expr := fun d e => hstarved (hrules.expr d e)
    form := fun d e => hstarved (hrules.form d e)
    arguments := fun d es => hstarved (hrules.arguments d es)
    invoke := fun d f vs hf => hstarved (hrules.invoke d f vs hf)
    stmt := fun d st hst => hstarved (hrules.stmt d st hst)
    declare := fun d st => hstarved (hrules.declare d st)
    initial := fun d e => hstarved (hrules.initial d e)
    block := fun d ss => hstarved (hrules.block d ss)
    iterate := fun d t x body vs => hstarved (hrules.iterate d t x body vs)
    repeating := fun d c body => hstarved (hrules.repeating d c body) }

/-- Higher limits outlast lower ones, by induction on the lower fuel. -/
theorem outlasting_rules (m : Machine) {low high : Int} (hle : low ≤ high) (n k : Nat) :
    (outlasting m hle).At (k + n) n := by
  induction n with
  | zero => exact outlasting_starved m hle k
  | succ n ih => exact ih.succ

theorem Outlasts.exitCode (v : Value) : Outlasts (Exec.exitCode v) (Exec.exitCode v) := by
  cases v with
  | integer n => exact .silent fun _ => rfl
  | _ => exact .throw _

theorem program_outlasts (m : Machine) {low high : Int} (hle : low ≤ high) {n n' : Nat}
    (hfuel : n ≤ n') (depth : Nat) (p : Program Mark) :
    Outlasts (Exec.program (m.withLimit high) n' depth p)
      (Exec.program (m.withLimit low) n depth p) := by
  have hrules : (outlasting m hle).At n' n :=
    Nat.sub_add_cancel hfuel ▸ outlasting_rules m hle n (n' - n)
  refine .bind (hrules.fields depth p.fields) fun _ => .bind (.methods p.methods) fun _ => ?_
  intro s
  unfold Exec.after
  rw [get_bind, get_bind]
  cases Chain.findFunction? s.chain ("main", 0) with
  | none => exact ⟨.same _, .refl s⟩
  | some f => exact hrules.invoke depth f [] trivial s

/-! ## Whole runs

An interpreter looks at its limit before it starts: one that is too high to be counted is refused,
and the comparison is only about machines that can keep both limits. -/

/-- What is seen of the run of a program: how it ends, and the text that it prints. -/
def Program.observed (p : Program Mark) (m : Machine) (r : RunOutside) (fuel : Nat) :
    Except Halt Int × String :=
  let (result, i) := (Interpreter.start m r).run p fuel
  (result, i.state.output)

/-- A run was stopped because too many methods ran inside each other. -/
def Overflows : Except Halt Int → Prop
  | .error (.error e) => e.cause = .stackOverflow
  | _ => False

instance : DecidablePred Overflows
  | .error (.error e) => inferInstanceAs (Decidable (e.cause = .stackOverflow))
  | .error (.digits _) | .error (.quotient _) | .error (.signal _) | .error .depth
  | .error .missingArgument | .error .outOfFuel | .ok _ => .isFalse id

/-- What is seen of how an action ends. -/
def seen : EStateM.Result Halt State Int → Except Halt Int × String
  | .ok n s => (.ok n, s.output)
  | .error h s => (.error h, s.output)

theorem seen_output (r : EStateM.Result Halt State Int) : (seen r).2 = (finalState r).output := by
  cases r <;> rfl

theorem Program.observed_eq (p : Program Mark) {m : Machine} (r : RunOutside) (fuel : Nat)
    (hlimit : m.maxDepth ≤ Machine.depthBound) :
    p.observed m r fuel =
      seen ((Exec.program { m with methods := r.methods } fuel 0 p >>= Exec.exitCode)
        (Interpreter.start m r).reset.state) := by
  have hrun : (Interpreter.start m r).run p fuel = (Interpreter.start m r).reset.perform
      (Exec.program { m with methods := r.methods } fuel 0 p >>= Exec.exitCode) := if_pos hlimit
  unfold Program.observed
  rw [hrun, Interpreter.perform]
  cases (Exec.program { m with methods := r.methods } fuel 0 p >>= Exec.exitCode)
    (Interpreter.start m r).reset.state with
  | ok n s => rfl
  | error h s => rfl

/-- On machines that can keep their limits, the run with the lower limit is cut short or the two
are the same. -/
theorem Program.observed_cutShort (p : Program Mark) (m : Machine) (r : RunOutside)
    {low high : Int} (hle : low ≤ high) (hbound : high ≤ Machine.depthBound) {n n' : Nat}
    (hfuel : n ≤ n') :
    ∃ short long, CutShort short long ∧ p.observed (m.withLimit low) r n = seen short ∧
      p.observed (m.withLimit high) r n' = seen long := by
  have hprogram := program_outlasts { m with methods := r.methods } hle hfuel 0 p
  have houtlasts := hprogram.bind Outlasts.exitCode
  have hlow : (m.withLimit low).maxDepth ≤ Machine.depthBound := Int.le_trans hle hbound
  exact ⟨_, _, (houtlasts (Interpreter.start m r).reset.state).1, p.observed_eq r n hlow,
    p.observed_eq r n' hbound⟩

/-- On a machine that can keep its limit, a higher limit and more fuel do not change a run that
has come to its end, and a run that was stopped at its limit has printed the start of the text
that it prints with a higher one.  With a limit beyond what can be counted nothing runs. -/
theorem Interpreter.run_deeper (p : Program Mark) (m : Machine) (r : RunOutside) {low high : Int}
    (hle : low ≤ high) {n n' : Nat} (hfuel : n ≤ n') :
    (high ≤ Machine.depthBound →
      (¬ Overflows (p.observed (m.withLimit low) r n).1 →
        (p.observed (m.withLimit low) r n).1 ≠ .error .outOfFuel →
        p.observed (m.withLimit high) r n' = p.observed (m.withLimit low) r n) ∧
      (Overflows (p.observed (m.withLimit low) r n).1 →
        ∃ text, (p.observed (m.withLimit high) r n').2 =
          (p.observed (m.withLimit low) r n).2 ++ text)) ∧
    (Machine.depthBound < high → p.observed (m.withLimit high) r n' = (.error .depth, "")) := by
  constructor
  · intro hbound
    obtain ⟨short, long, hcut, hlow, hhigh⟩ := p.observed_cutShort m r hle hbound hfuel
    rw [hlow, hhigh]
    cases hcut with
    | same => exact ⟨fun _ _ => rfl, fun _ => ⟨"", String.append_empty.symm⟩⟩
    | @cut h s _ hlimit hgoes =>
        refine ⟨fun hnot hfuel => ?_, fun _ => ?_⟩
        · cases h with
          | error e => exact absurd hlimit hnot
          | outOfFuel => exact absurd rfl hfuel
          | _ => exact hlimit.elim
        · obtain ⟨text, htext⟩ := hgoes
          exact ⟨text, (seen_output long).trans htext⟩
  · intro hbound
    have hrun : (Interpreter.start (m.withLimit high) r).run p n' =
        (.error .depth, (Interpreter.start (m.withLimit high) r).reset) :=
      if_neg (Int.not_le.mpr hbound)
    unfold Program.observed
    rw [hrun]
    rfl

/-- A program that calls itself until it divides by zero. -/
def Source.descent : Source :=
  { text := "DEF f(n: Any): Any DO print(n); RETURN f(n - 1 / n); END " ++
      "DEF main(): Any DO RETURN f(1); END" }

/-- It needs three methods inside each other, prints one line with a limit of two, and ends in the
same way with any higher limit. -/
theorem Source.descent_deeper : ∃ q, descent.program = .ok q ∧
    Overflows ((q.mark 0).1.observed (Machine.withLimit {} 2) {} 30).1 ∧
    (∃ text, ((q.mark 0).1.observed (Machine.withLimit {} 3) {} 40).2 = "1\n" ++ text) ∧
    (q.mark 0).1.observed (Machine.withLimit {} 1000) {} Interpreter.ample =
      (q.mark 0).1.observed (Machine.withLimit {} 3) {} 40 := by
  obtain ⟨q, hq⟩ := exists_ok_of_isSome (r := descent.program) (by decide +kernel)
  have hruns : (descent.program.map fun q =>
      let two := (q.mark 0).1.observed (Machine.withLimit {} 2) {} 30
      let three := (q.mark 0).1.observed (Machine.withLimit {} 3) {} 40
      decide (Overflows two.1 ∧ two.2 = "1\n" ∧ ¬ Overflows three.1 ∧
        three.1 ≠ .error .outOfFuel)).toOption = some true := by
    decide +kernel
  rw [hq] at hruns
  obtain ⟨htwo, htext, hthree, hfuel⟩ := of_decide_eq_true (Option.some.inj hruns)
  have hstart := Interpreter.run_deeper (q.mark 0).1 {} {} (show (2 : Int) ≤ 3 by decide)
    (show 30 ≤ 40 by decide)
  have hsame := Interpreter.run_deeper (q.mark 0).1 {} {} (show (3 : Int) ≤ 1000 by decide)
    (show 40 ≤ Interpreter.ample by decide)
  exact ⟨q, hq, htwo, htext ▸ (hstart.1 (by decide)).2 htwo,
    (hsame.1 (by decide)).1 hthree hfuel⟩

/-- A program that does nothing. -/
def Source.idle : Source := { text := "DEF main(): Integer DO RETURN 0; END" }

/-- A limit of one more than can be counted stops what ran before. -/
theorem Source.idle_too_deep : ∃ q, idle.program = .ok q ∧
    (q.mark 0).1.observed (Machine.withLimit {} 1000) {} 20 = (.ok 0, "") ∧
    (q.mark 0).1.observed (Machine.withLimit {} 85899346) {} 20 = (.error .depth, "") := by
  obtain ⟨q, hq⟩ := exists_ok_of_isSome (r := idle.program) (by decide +kernel)
  have hruns : (idle.program.map fun q =>
      decide ((q.mark 0).1.observed (Machine.withLimit {} 1000) {} 20 = (.ok 0, "") ∧
        (q.mark 0).1.observed (Machine.withLimit {} 85899346) {} 20 =
          (.error .depth, ""))).toOption = some true := by
    decide +kernel
  rw [hq] at hruns
  exact ⟨q, hq, of_decide_eq_true (Option.some.inj hruns)⟩

end QuillLang
