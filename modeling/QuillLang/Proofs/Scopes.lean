/-
# Frames and chains

What defining and changing a variable do to a frame, and that a chain of
frames without functions (`Chain.Silent`) stands in the way of no function.
-/
import QuillLang.Scope

namespace QuillLang

theorem lookup_mem {κ β : Type} [BEq κ] [LawfulBEq κ] {l : List (κ × β)} {k : κ} {b : β}
    (h : l.lookup k = some b) : (k, b) ∈ l := by
  obtain ⟨l₁, l₂, hmem, -⟩ := List.lookup_eq_some_iff.mp h
  simp [hmem]

theorem lookup_eq_none_iff_not_mem {κ β : Type} [BEq κ] [LawfulBEq κ] {l : List (κ × β)} {k : κ} :
    l.lookup k = none ↔ k ∉ l.map (·.1) := by
  rw [List.lookup_eq_none_iff, List.mem_map]
  constructor
  · rintro h ⟨b, hb, rfl⟩
    simpa using h b hb
  · intro h b hb
    simpa using fun hk : k = b.1 => h ⟨b, hb, hk.symm⟩

namespace Frame

variable {ν φ : Type} {f : Frame ν φ} {x : String}

theorem defineVariable_of_none (h : f.vars.lookup x = none) (v : ν) :
    f.defineVariable x v = .ok { f with vars := f.vars ++ [(x, v)] } := by
  simp [defineVariable, findVariable?, h]

theorem defineVariable_eq_ok {v : ν} {g : Frame ν φ} (h : f.defineVariable x v = .ok g) :
    f.vars.lookup x = none ∧ g = { f with vars := f.vars ++ [(x, v)] } := by
  cases hx : f.vars.lookup x with
  | some _ => simp [defineVariable, findVariable?, hx] at h
  | none =>
      rw [defineVariable_of_none hx] at h
      exact ⟨rfl, (Except.ok.inj h).symm⟩

theorem defineFunction_eq_ok {key : FunctionKey} {a : φ} {g : Frame ν φ}
    (h : f.defineFunction key a = .ok g) :
    f.functions.lookup key = none ∧ g = { f with functions := f.functions ++ [(key, a)] } := by
  unfold defineFunction findFunction? at h
  split at h
  · cases h
  · next hnone => exact ⟨hnone, (Except.ok.inj h).symm⟩

theorem modifyVariable?_of_none (h : f.vars.lookup x = none) (change : ν → ν) :
    f.modifyVariable? x change = none := by
  simp [modifyVariable?, findVariable?, h]

theorem modifyVariable?_of_some {v : ν} (h : f.vars.lookup x = some v) (change : ν → ν) :
    f.modifyVariable? x change =
      some { f with vars := f.vars.map fun (y, u) => (y, if y = x then change u else u) } := by
  simp [modifyVariable?, findVariable?, h]

theorem modifyVariable?_functions {change : ν → ν} {g : Frame ν φ}
    (h : f.modifyVariable? x change = some g) : g.functions = f.functions := by
  cases hx : f.vars.lookup x with
  | none => rw [modifyVariable?_of_none hx] at h; cases h
  | some v =>
      rw [modifyVariable?_of_some hx] at h
      cases h
      rfl

end Frame

namespace Chain

variable {ν φ : Type}

/-- Frames without functions. -/
def Silent (c : Chain ν φ) : Prop := ∀ f ∈ c, f.functions = []

theorem Silent.nil : Silent ([] : Chain ν φ) := by
  intro f hf
  cases hf

theorem Silent.cons {c : Chain ν φ} {f : Frame ν φ} (h : Silent c) (hf : f.functions = []) :
    Silent (f :: c) := by
  intro g hg
  rcases List.mem_cons.mp hg with rfl | hg
  · exact hf
  · exact h g hg

theorem Silent.tail {c : Chain ν φ} (h : Silent c) : Silent c.tail :=
  fun f hf => h f (List.mem_of_mem_tail hf)

theorem Silent.congr {c c' : Chain ν φ} (h : Silent c)
    (hmap : c'.map (·.functions) = c.map (·.functions)) : Silent c' := by
  intro f hf
  have hmem : f.functions ∈ c.map (·.functions) := hmap ▸ List.mem_map_of_mem hf
  obtain ⟨g, hg, hfg⟩ := List.mem_map.mp hmem
  exact hfg.symm.trans (h g hg)

theorem Silent.findFunction {c : Chain ν φ} (h : Silent c) (base : Chain ν φ)
    (key : FunctionKey) : findFunction? (c ++ base) key = findFunction? base key := by
  induction c with
  | nil => rfl
  | cons f c ih =>
      have hf : f.findFunction? key = none := by
        rw [Frame.findFunction?, h f List.mem_cons_self]
        rfl
      rw [List.cons_append, findFunction?, List.findSome?_cons, hf]
      exact ih fun g hg => h g (List.mem_cons_of_mem _ hg)

/-- A function is found in the functions of the frames alone. -/
theorem findFunction?_congr {ν' : Type} {c : Chain ν φ} {c' : Chain ν' φ}
    (h : c.map (·.functions) = c'.map (·.functions)) (key : FunctionKey) :
    findFunction? c key = findFunction? c' key := by
  have hfind : ∀ {μ : Type} (d : Chain μ φ),
      findFunction? d key = (d.map (·.functions)).findSome? (·.lookup key) := by
    intro μ d
    rw [List.findSome?_map]
    rfl
  rw [hfind, hfind, h]

/-- A variable that is not there to be changed is not there at all. -/
theorem findVariable?_of_modify_none {x : String} {change : ν → ν} :
    ∀ {c : Chain ν φ}, modifyVariable? c x change = none → findVariable? c x = none
  | [], _ => rfl
  | f :: c, h => by
      unfold modifyVariable? at h
      cases hx : f.vars.lookup x with
      | some v => rw [Frame.modifyVariable?_of_some hx] at h; cases h
      | none =>
          rw [Frame.modifyVariable?_of_none hx] at h
          rw [findVariable?, List.findSome?_cons, Frame.findVariable?, hx]
          exact findVariable?_of_modify_none (Option.map_eq_none_iff.mp h)

theorem modifyVariable?_functions {x : String} {change : ν → ν} :
    ∀ {c c' : Chain ν φ}, modifyVariable? c x change = some c' →
      c'.map (·.functions) = c.map (·.functions)
  | [], _, h => by cases h
  | f :: c, c', h => by
      unfold modifyVariable? at h
      split at h
      · next g hg =>
          cases h
          rw [List.map_cons, List.map_cons, Frame.modifyVariable?_functions hg]
      · obtain ⟨d, hd, rfl⟩ := Option.map_eq_some_iff.mp h
        rw [List.map_cons, List.map_cons, modifyVariable?_functions hd]

end Chain

end QuillLang
