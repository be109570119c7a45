/-
# Recording leaves no mark on a run

A machine may record the points of a run.  What is proved about recorded
points says something about every run only if recording changes nothing else,
and this is shown here: a run that records and the same run without it agree
in their result and in all of their state but the record
(`Interpreter.run_untraced`).

The record is written and never read, so forgetting it commutes with every
change to a state.  In other words, to have forgotten the record is a
simulation (`forgetting`).
-/
import QuillLang.Proofs.Simulation

namespace QuillLang

/-- The state with nothing recorded. -/
def State.untraced (s : State) : State := { s with trace := [] }

/-- The machine that does not record. -/
def Machine.untraced (m : Machine) : Machine := { m with tracing := false }

/-- One state is the other without its record. -/
def Forgets (s t : State) : Prop := t = s.untraced

/-! ## Changes to the state

Each change may be made before the record is forgotten or after, with the same outcome. -/

namespace State

theorem noted_untraced (s : State) (m : Machine) (e : Event) :
    (s.noted m e).untraced = s.untraced.noted m.untraced e := by
  have hquiet : s.untraced.noted m.untraced e = s.untraced := if_neg Bool.false_ne_true
  rw [hquiet]
  unfold noted
  split <;> rfl

theorem define_untraced (s : State) (x : String) (c : Cell) :
    s.untraced.define x c = (s.define x c).map untraced := by
  unfold define untraced
  dsimp only
  cases s.locals with
  | nil => cases s.globals.defineVariable x c <;> rfl
  | cons f fs =>
      dsimp only
      cases f.defineVariable x c <;> rfl

theorem defineFunction_untraced (s : State) (f : Function) :
    s.untraced.defineFunction f = (s.defineFunction f).map untraced := by
  unfold defineFunction untraced
  dsimp only
  cases s.locals with
  | nil => cases s.globals.defineFunction f.key f <;> rfl
  | cons g gs =>
      dsimp only
      cases g.defineFunction f.key f <;> rfl

theorem assign_untraced (s : State) (x : String) (v : Value) :
    s.untraced.assign x v = (s.assign x v).untraced := by
  unfold assign untraced
  dsimp only
  split
  · rfl
  · split
    · rfl
    · split <;> rfl

end State

/-- To have forgotten the record is a simulation. -/
theorem forgetting (m : Machine) : Simulation m m.untraced Forgets where
  scale := rfl
  limit := rfl
  methods := rfl
  findVariable := by rintro s _ rfl x; rfl
  findFunction := by rintro s _ rfl key; rfl
  records := by rintro s _ rfl; rfl
  noted := by
    rintro s _ e rfl
    exact (s.noted_untraced m e).symm
  withRecords := by rintro s _ rs rfl; rfl
  printed := by rintro s _ text rfl; rfl
  assign := by
    rintro s _ x v rfl
    exact s.assign_untraced x v
  define := by
    rintro s _ x c rfl
    rw [s.define_untraced]
    cases s.define x c with
    | ok t => exact .ok rfl
    | error key => exact .error
  enterBlock := by rintro s _ frame - rfl; rfl
  leaveBlock := by rintro s _ rfl; rfl
  enterMethod := by rintro s _ frame - rfl; rfl
  leaveMethod := by rintro s _ s' _ rfl rfl; rfl

/-! ## Whole programs

The definition of methods is no rule and has to be followed on its own; then the simulation takes
`main` to its end. -/

theorem method_forgets (d : Method Mark) :
    Simulates Forgets (Exec.method d) (Exec.method d) := by
  rintro s _ rfl
  unfold Exec.method
  rw [get_bind, get_bind, s.defineFunction_untraced]
  cases s.defineFunction (Exec.functionOf d) with
  | ok t => exact .ok rfl
  | error key => exact .error rfl

theorem methods_forget : ∀ ds, Simulates Forgets (Exec.methods ds) (Exec.methods ds)
  | [] => .pure ()
  | d :: ds => .bind (method_forgets d) fun _ => methods_forget ds

theorem program_forgets (m : Machine) (fuel depth : Nat) (p : Program Mark) :
    Simulates Forgets (Exec.program m fuel depth p) (Exec.program m.untraced fuel depth p) := by
  refine .bind ((forgetting m).congruence.fields fuel depth p.fields) fun _ => ?_
  exact .bind (methods_forget p.methods) fun _ => (forgetting m).main fuel depth

/-- A run has the same result whether its points are recorded or not, and leaves the same state
but for the record. -/
theorem Interpreter.run_untraced (m : Machine) (r : RunOutside) (p : Program Mark) (fuel : Nat) :
    ((Interpreter.start m.untraced r).run p fuel).1 = ((Interpreter.start m r).run p fuel).1 ∧
    ((Interpreter.start m.untraced r).run p fuel).2.state =
      ((Interpreter.start m r).run p fuel).2.state.untraced := by
  have hprogram : Simulates Forgets
      (Exec.program (Interpreter.start m r).machine fuel 0 p >>= Exec.exitCode)
      (Exec.program (Interpreter.start m.untraced r).machine fuel 0 p >>= Exec.exitCode) :=
    .bind (program_forgets _ fuel 0 p) .exitCode
  have hrun := hprogram (Interpreter.start m r).reset.state
    (Interpreter.start m.untraced r).reset.state rfl
  unfold Interpreter.run Interpreter.guarded
  have hlimit : (Interpreter.start m.untraced r).reset.machine.maxDepth =
      (Interpreter.start m r).reset.machine.maxDepth := rfl
  rw [hlimit]
  split
  · unfold Interpreter.perform
    generalize (Exec.program (Interpreter.start m r).machine fuel 0 p >>= Exec.exitCode)
      (Interpreter.start m r).reset.state = x at hrun ⊢
    generalize (Exec.program (Interpreter.start m.untraced r).machine fuel 0 p >>= Exec.exitCode)
      (Interpreter.start m.untraced r).reset.state = y at hrun ⊢
    cases hrun with
    | ok h => exact ⟨rfl, h⟩
    | error h => exact ⟨rfl, h⟩
  · exact ⟨rfl, rfl⟩

end QuillLang
