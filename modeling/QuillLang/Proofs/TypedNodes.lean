/-
# Every node of well-typed code is well typed

The rules type a node together with its parts, so all that stands inside
well-typed code is well typed too, in the scopes of the blocks around it.
Those scopes hold variables only; a function is always found in the scope of
the program or beyond it (`Chain.Silent`).

One thing has to be known of what is lent: a function is kept under its own
name and number of parameters.  Otherwise a call could have arguments that
stand for no parameter, and nobody would look at them.
-/
import QuillLang.Proofs.Nodes
import QuillLang.Proofs.Scopes

namespace QuillLang

/-! ## Keys

Signatures that are found under a name and a number have that number of parameters. -/

/-- Every function of a scope is kept under its own key. -/
def StaticFrame.Keyed (f : StaticFrame) : Prop := ∀ b ∈ f.functions, b.1 = b.2.key

/-- What is lent is kept under its own keys. -/
structure StaticOutside.Keyed (o : StaticOutside) : Prop where
  frames : ∀ f ∈ o.frames, StaticFrame.Keyed f
  types : ∀ b ∈ o.types, StaticFrame.Keyed b.2

theorem StaticOutside.keyed_empty : StaticOutside.Keyed {} :=
  ⟨fun _ h => absurd h List.not_mem_nil, fun _ h => absurd h List.not_mem_nil⟩

theorem StaticFrame.Keyed.find {f : StaticFrame} (h : f.Keyed) {key : FunctionKey} {s : Signature}
    (hs : f.findFunction? key = some s) : key = s.key := by
  obtain ⟨l₁, l₂, hmem, -⟩ := List.lookup_eq_some_iff.mp hs
  exact h (key, s) (by simp [hmem])

theorem Chain.find_keyed {Γ : Chain Variable Signature} (h : ∀ f ∈ Γ, StaticFrame.Keyed f)
    {key : FunctionKey} {s : Signature} (hs : Chain.findFunction? Γ key = some s) :
    key = s.key := by
  obtain ⟨f, hf, hfs⟩ := List.exists_of_findSome?_eq_some hs
  exact (h f hf).find hfs

theorem StaticOutside.Keyed.members {o : StaticOutside} (h : o.Keyed) (t : Ty) :
    (o.members t).Keyed := by
  cases t with
  | string =>
      intro b hb
      simp only [StaticOutside.members, stringMembers, List.map_cons, List.map_nil] at hb
      rcases List.mem_cons.mp hb with rfl | hb
      · rfl
      · obtain rfl := List.mem_singleton.mp hb
        rfl
  | outside name =>
      intro b hb
      simp only [StaticOutside.members] at hb
      cases hl : o.types.lookup name with
      | none => rw [hl] at hb; cases hb
      | some f =>
          rw [hl] at hb
          obtain ⟨l₁, l₂, hmem, -⟩ := List.lookup_eq_some_iff.mp hl
          exact h.types (name, f) (by simp [hmem]) b hb
  | _ => intro b hb; cases hb

/-! ## Blocks

Statements and parameters add variables to the scopes of blocks and never functions. -/

section

variable {o : StaticOutside} {M : Model} {ret : Option Ty} {Γ : Chain Variable Signature}

theorem StmtOk.functions {f g : StaticFrame} {s : Stmt Mark} (h : StmtOk o M ret f Γ s g) :
    g.functions = f.functions := by
  cases h with
  | declare _ hdef _ =>
      obtain ⟨-, rfl⟩ := Frame.defineVariable_eq_ok hdef
      rfl
  | _ => rfl

theorem BlockOk.stmt : ∀ {ss : List (Stmt Mark)} {f g : StaticFrame}, BlockOk o M ret f Γ ss g →
    ∀ s ∈ ss, ∃ f' g', f'.functions = f.functions ∧ StmtOk o M ret f' Γ s g'
  | _ :: _, f, _, .cons hs hss, s, hmem => by
      rcases List.mem_cons.mp hmem with rfl | hmem
      · exact ⟨f, _, rfl, hs⟩
      · obtain ⟨f', g', hf', hok⟩ := BlockOk.stmt hss s hmem
        exact ⟨f', g', hf'.trans hs.functions, hok⟩

theorem TakesArguments.typed : ∀ {es : List (Expr Mark)} {ts : List Ty},
    TakesArguments o M Γ es ts → es.length ≤ ts.length → ∀ e ∈ es, ∃ t, HasType o M Γ e t
  | _, _, .noArgument, _, _, he => by cases he
  | es, [], .noParameter, hlen, e, he => by
      obtain rfl : es = [] := List.length_eq_zero_iff.mp (Nat.le_zero.mp hlen)
      cases he
  | _ :: _, _ :: _, .more h _ hes, hlen, e, he => by
      rcases List.mem_cons.mp he with rfl | he
      · exact ⟨_, h⟩
      · exact hes.typed (Nat.le_of_succ_le_succ hlen) e he

theorem DeclaresType.typed {typeName : Option String} {value : Option (Expr Mark)} {t : Ty}
    (h : DeclaresType o M Γ typeName value t) : ∀ e, value = some e → ∃ u, HasType o M Γ e u := by
  rintro e rfl
  cases h with
  | both _ he _ => exact ⟨_, he⟩
  | inferred he => exact ⟨_, he⟩

end

theorem parameterFrame_functions {id : Nat} : ∀ {ps : List (String × Ty)} {f g : StaticFrame},
    parameterFrame id ps f = .ok g → g.functions = f.functions
  | [], _, _, h => by cases h; rfl
  | (x, t) :: ps, f, g, h => by
      unfold parameterFrame at h
      split at h
      · next f' hdef =>
          have hg : g.functions = f'.functions := parameterFrame_functions h
          obtain ⟨-, rfl⟩ := Frame.defineVariable_eq_ok hdef
          exact hg
      · cases h

/-! ## Nodes of well-typed code

From a program down to any node of it, along the rules.  The scopes around the node are those of
the blocks, in front of the scopes that all the code is in. -/

/-- The fields and the bodies of the methods of `c` are well typed in the scopes `base`. -/
structure Program.TypedIn (c : Program Mark) (o : StaticOutside) (M : Model)
    (base : Chain Variable Signature) : Prop where
  fields : ∀ f ∈ c.fields, ∀ e, f.value = some e → ∃ t, HasType o M base e t
  methods : ∀ d ∈ c.methods, ∃ ret inner last, inner.functions = [] ∧
    BlockOk o M ret inner base d.body last

namespace Program.TypedIn

variable {c : Program Mark} {o : StaticOutside} {M : Model} {base : Chain Variable Signature}

theorem stmt (h : c.TypedIn o M base) {s : Stmt Mark} (hs : c.HasStmt s) :
    ∃ ret Γ f g, Chain.Silent (f :: Γ) ∧ StmtOk o M ret f (Γ ++ base) s g := by
  -- a statement of a block that is itself well typed
  have inner {ret : Option Ty} {Γ : List StaticFrame} {f g : StaticFrame} {ss : List (Stmt Mark)}
      {s : Stmt Mark} (hΓ : Chain.Silent Γ) (hf : f.functions = [])
      (hss : BlockOk o M ret f (Γ ++ base) ss g) (hmem : s ∈ ss) :
      ∃ ret Γ f g, Chain.Silent (f :: Γ) ∧ StmtOk o M ret f (Γ ++ base) s g := by
    obtain ⟨f', g', hf', hok⟩ := hss.stmt s hmem
    exact ⟨ret, Γ, f', g', hΓ.cons (hf'.trans hf), hok⟩
  induction hs with
  | body hd hmem =>
      obtain ⟨ret, f, g, hf, hss⟩ := h.methods _ hd
      exact inner (Γ := []) .nil hf hss hmem
  | thenBody _ hmem ih =>
      obtain ⟨ret, Γ, f, g, hΓ, hok⟩ := ih
      cases hok with
      | branch _ _ hthen _ => exact inner (Γ := f :: Γ) hΓ rfl hthen hmem
  | elseBody _ hmem ih =>
      obtain ⟨ret, Γ, f, g, hΓ, hok⟩ := ih
      cases hok with
      | branch _ _ _ helse => exact inner (Γ := f :: Γ) hΓ rfl helse hmem
  | forBody _ hmem ih =>
      obtain ⟨ret, Γ, f, g, hΓ, hok⟩ := ih
      cases hok with
      | forIn _ _ hbody => exact inner (Γ := f :: Γ) hΓ rfl hbody hmem
  | loopBody _ hmem ih =>
      obtain ⟨ret, Γ, f, g, hΓ, hok⟩ := ih
      cases hok with
      | loop _ hbody => exact inner (Γ := f :: Γ) hΓ rfl hbody hmem

theorem expr (h : c.TypedIn o M base) (ho : o.Keyed) (hbase : ∀ f ∈ base, StaticFrame.Keyed f)
    {e : Expr Mark} (he : c.HasExpr e) : ∃ Γ t, Chain.Silent Γ ∧ HasType o M (Γ ++ base) e t := by
  induction he with
  | fieldValue hf hv =>
      obtain ⟨t, ht⟩ := h.fields _ hf _ hv
      exact ⟨[], t, .nil, ht⟩
  | alone hs =>
      obtain ⟨_, Γ, f, _, hΓ, hok⟩ := h.stmt hs
      cases hok with
      | expr _ ht => exact ⟨f :: Γ, _, hΓ, ht⟩
  | initial hs =>
      obtain ⟨_, Γ, f, _, hΓ, hok⟩ := h.stmt hs
      cases hok with
      | declare hv _ _ =>
          obtain ⟨t, ht⟩ := hv.typed _ rfl
          exact ⟨f :: Γ, t, hΓ, ht⟩
  | target hs =>
      obtain ⟨_, Γ, f, _, hΓ, hok⟩ := h.stmt hs
      cases hok with
      | assign _ hl _ _ => exact ⟨f :: Γ, _, hΓ, hl⟩
  | assigned hs =>
      obtain ⟨_, Γ, f, _, hΓ, hok⟩ := h.stmt hs
      cases hok with
      | assign _ _ hr _ => exact ⟨f :: Γ, _, hΓ, hr⟩
  | condition hs =>
      obtain ⟨_, Γ, f, _, hΓ, hok⟩ := h.stmt hs
      cases hok with
      | branch hc _ _ _ => exact ⟨f :: Γ, _, hΓ, hc⟩
  | items hs =>
      obtain ⟨_, Γ, f, _, hΓ, hok⟩ := h.stmt hs
      cases hok with
      | forIn ht _ _ => exact ⟨f :: Γ, _, hΓ, ht⟩
  | loopCondition hs =>
      obtain ⟨_, Γ, f, _, hΓ, hok⟩ := h.stmt hs
      cases hok with
      | loop hc _ => exact ⟨f :: Γ, _, hΓ, hc⟩
  | result hs =>
      obtain ⟨_, Γ, f, _, hΓ, hok⟩ := h.stmt hs
      cases hok with
      | ret _ ht _ => exact ⟨f :: Γ, _, hΓ, ht⟩
  | inner _ ih =>
      obtain ⟨Γ, t, hΓ, ht⟩ := ih
      cases ht with
      | group _ ht _ => exact ⟨Γ, _, hΓ, ht⟩
  | left _ ih =>
      obtain ⟨Γ, t, hΓ, ht⟩ := ih
      cases ht with
      | binary hl _ _ _ => exact ⟨Γ, _, hΓ, hl⟩
  | right _ ih =>
      obtain ⟨Γ, t, hΓ, ht⟩ := ih
      cases ht with
      | binary _ hr _ _ => exact ⟨Γ, _, hΓ, hr⟩
  | fieldReceiver _ ih =>
      obtain ⟨Γ, t, hΓ, ht⟩ := ih
      cases ht with
      | field ht _ _ _ => exact ⟨Γ, _, hΓ, ht⟩
  | argument _ hmem ih =>
      obtain ⟨Γ, t, hΓ, ht⟩ := ih
      cases ht with
      | call hf hes _ _ =>
          rw [hΓ.findFunction] at hf
          have hlen := congrArg Prod.snd (Chain.find_keyed hbase hf)
          obtain ⟨t, ht⟩ := hes.typed (Nat.le_of_eq hlen) _ hmem
          exact ⟨Γ, t, hΓ, ht⟩
  | receiver _ ih =>
      obtain ⟨Γ, t, hΓ, ht⟩ := ih
      cases ht with
      | invoke ht _ _ _ _ => exact ⟨Γ, _, hΓ, ht⟩
  | memberArgument _ hmem ih =>
      obtain ⟨Γ, t, hΓ, ht⟩ := ih
      cases ht with
      | invoke _ hf hes _ _ =>
          have hlen := congrArg Prod.snd ((ho.members _).find hf)
          simp only [Signature.key, Signature.arity] at hlen
          obtain ⟨t, ht⟩ := hes.typed (by rw [List.length_tail]; omega) _ hmem
          exact ⟨Γ, t, hΓ, ht⟩

end Program.TypedIn

end QuillLang
