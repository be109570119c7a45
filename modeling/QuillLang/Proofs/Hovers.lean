/-
# What an editor says of the name under the cursor

Of a document without notices an editor shows what the name under the cursor
means.  The uses of names are looked through in the order of the tree and the
first one is taken that covers the cursor.  No other could be taken: a position
lies in one token at most, and each use has a token of its own.  So what is said
is about the one access or call whose name is under the cursor, and there always
is something to say, because every node of a checked program has its type, and
every call its function (`Document.hover_reference`).
-/
import QuillLang.Proofs.CallResolution
import QuillLang.Proofs.Documents
import QuillLang.Proofs.NameTokens
import QuillLang.Proofs.TokenRanges

namespace QuillLang

/-! ## Every node is well typed

The rules give types to the parts of an expression on the way, so every node inside a well-typed
program has one.  The nodes are those that the uses of names are collected from. -/

section

variable {p : Program Mark} {e' : Expr Mark}

theorem Program.HasExpr.of_mem_cons {e : Expr Mark} {ns : List (Node Mark)} (h : p.HasExpr e)
    (hparts : Node.expr e' ∈ ns → p.HasExpr e') (hmem : Node.expr e' ∈ Node.expr e :: ns) :
    p.HasExpr e' := by
  rcases List.mem_cons.mp hmem with heq | hmem
  · cases heq
    exact h
  · exact hparts hmem

theorem Node.expr_mem_of_cons_stmt {s : Stmt Mark} {ns : List (Node Mark)}
    (hmem : Node.expr e' ∈ Node.stmt s :: ns) : Node.expr e' ∈ ns := by
  rcases List.mem_cons.mp hmem with heq | hmem
  · cases heq
  · exact hmem

mutual

/-- What is inside an expression of a program is an expression of the program. -/
theorem Program.HasExpr.of_mem_nodes : ∀ {e : Expr Mark}, p.HasExpr e →
    Node.expr e' ∈ e.nodes → p.HasExpr e'
  | .nil _, h, hmem | .boolean _ _, h, hmem | .character _ _, h, hmem | .string _ _, h, hmem
  | .integer _ _, h, hmem | .decimal _ _, h, hmem | .var _ _, h, hmem =>
      h.of_mem_cons (fun hmem => absurd hmem List.not_mem_nil) hmem
  | .group _ _, h, hmem => h.of_mem_cons h.inner.of_mem_nodes hmem
  | .field _ _ _, h, hmem => h.of_mem_cons h.fieldReceiver.of_mem_nodes hmem
  | .binary _ _ _ _, h, hmem =>
      h.of_mem_cons (fun hmem => (List.mem_append.mp hmem).elim h.left.of_mem_nodes
        h.right.of_mem_nodes) hmem
  | .call _ _ _, h, hmem =>
      h.of_mem_cons (Program.HasExpr.of_mem_nodesOf fun _ he => h.argument he) hmem
  | .invoke _ _ _ _, h, hmem =>
      h.of_mem_cons (fun hmem => (List.mem_append.mp hmem).elim h.receiver.of_mem_nodes
        (Program.HasExpr.of_mem_nodesOf fun _ he => h.memberArgument he)) hmem

theorem Program.HasExpr.of_mem_nodesOf : ∀ {es : List (Expr Mark)}, (∀ e ∈ es, p.HasExpr e) →
    Node.expr e' ∈ Expr.nodesOf es → p.HasExpr e'
  | _ :: _, h, hmem =>
      (List.mem_append.mp hmem).elim (h _ List.mem_cons_self).of_mem_nodes
        (Program.HasExpr.of_mem_nodesOf fun e he => h e (List.mem_cons_of_mem _ he))

end

mutual

/-- The expressions inside a statement of a program are expressions of the program. -/
theorem Program.HasStmt.of_mem_nodes : ∀ {s : Stmt Mark}, p.HasStmt s →
    Node.expr e' ∈ s.nodes → p.HasExpr e'
  | .expr _ _, h, hmem =>
      (Program.HasExpr.alone h).of_mem_nodes (Node.expr_mem_of_cons_stmt hmem)
  | .declare _ _ _ none, _, hmem => absurd (Node.expr_mem_of_cons_stmt hmem) List.not_mem_nil
  | .declare _ _ _ (some _), h, hmem =>
      (Program.HasExpr.initial h).of_mem_nodes (Node.expr_mem_of_cons_stmt hmem)
  | .assign _ _ _, h, hmem =>
      (List.mem_append.mp (Node.expr_mem_of_cons_stmt hmem)).elim
        (Program.HasExpr.target h).of_mem_nodes (Program.HasExpr.assigned h).of_mem_nodes
  | .branch _ _ _ _, h, hmem =>
      (List.mem_append.mp (Node.expr_mem_of_cons_stmt hmem)).elim
        (Program.HasExpr.condition h).of_mem_nodes fun hmem =>
          (List.mem_append.mp hmem).elim
            (Program.HasStmt.of_mem_nodesOf fun _ hs => h.thenBody hs)
            (Program.HasStmt.of_mem_nodesOf fun _ hs => h.elseBody hs)
  | .forIn _ _ _ _, h, hmem =>
      (List.mem_append.mp (Node.expr_mem_of_cons_stmt hmem)).elim
        (Program.HasExpr.items h).of_mem_nodes
        (Program.HasStmt.of_mem_nodesOf fun _ hs => h.forBody hs)
  | .loop _ _ _, h, hmem =>
      (List.mem_append.mp (Node.expr_mem_of_cons_stmt hmem)).elim
        (Program.HasExpr.loopCondition h).of_mem_nodes
        (Program.HasStmt.of_mem_nodesOf fun _ hs => h.loopBody hs)
  | .ret _ _, h, hmem =>
      (Program.HasExpr.result h).of_mem_nodes (Node.expr_mem_of_cons_stmt hmem)

theorem Program.HasStmt.of_mem_nodesOf : ∀ {ss : List (Stmt Mark)}, (∀ s ∈ ss, p.HasStmt s) →
    Node.expr e' ∈ Stmt.nodesOf ss → p.HasExpr e'
  | _ :: _, h, hmem =>
      (List.mem_append.mp hmem).elim (h _ List.mem_cons_self).of_mem_nodes
        (Program.HasStmt.of_mem_nodesOf fun s hs => h s (List.mem_cons_of_mem _ hs))

end

/-- Every expression of a well-typed program has a type in some scopes, in which each function is
found under its own key. -/
theorem ProgramOk.typed_node {o : StaticOutside} {M : Model} {f g : StaticFrame}
    (hp : ProgramOk o M p f g) (ho : o.Keyed) {e : Expr Mark} (he : Node.expr e ∈ p.nodes) :
    ∃ Γ t, (∀ key s, Chain.findFunction? Γ key = some s → key = s.key) ∧ HasType o M Γ e t := by
  have found {h : StaticFrame} {ds : List (Method Mark)} {Γ : Chain Variable Signature}
      (hh : h.functions = boundSignatures ds) (hΓ : Chain.Silent Γ) :
      ∀ key s, Chain.findFunction? (Γ ++ h :: o.frames) key = some s → key = s.key := by
    intro key s hs
    rw [hΓ.findFunction] at hs
    exact Chain.find_keyed (keyed_base ho hh) hs
  rcases List.mem_append.mp he with he | he
  · obtain ⟨d, hd, he⟩ := List.mem_flatMap.mp he
    obtain ⟨h, hh, hcode⟩ := hp.field_typedIn hd
    rcases List.mem_cons.mp he with heq | he
    · cases heq
    cases hv : d.value with
    | none => rw [hv] at he; cases he
    | some v =>
        rw [hv] at he
        have hexpr : Program.HasExpr ⟨d.tag, [d], []⟩ e :=
          (Program.HasExpr.fieldValue List.mem_cons_self hv).of_mem_nodes he
        obtain ⟨Γ, t, hΓ, ht⟩ := hcode.expr ho (keyed_base ho hh) hexpr
        exact ⟨_, t, found hh hΓ, ht⟩
  · obtain ⟨d, hd, he⟩ := List.mem_flatMap.mp he
    obtain ⟨before, after, hsplit⟩ := List.append_of_mem hd
    obtain ⟨h, hh, hcode, -⟩ := hp.method_typedIn hsplit
    rcases List.mem_cons.mp he with heq | he
    · cases heq
    have hexpr : Program.HasExpr ⟨d.tag, [], [d]⟩ e :=
      Program.HasStmt.of_mem_nodesOf (fun s hs => .body List.mem_cons_self hs) he
    obtain ⟨Γ, t, hΓ, ht⟩ := hcode.expr ho (keyed_base ho hh) hexpr
    exact ⟨_, t, found hh hΓ, ht⟩

end

/-! ## What is said

One constructor for each use of a name.  The text is made from the model, and the receiver of a
method is not shown among its parameters. -/

/-- What is to be said of an access or a call: what it is, its name and its type, and of a call the
types of the parameters that its arguments stand for. -/
inductive Model.Tells (M : Model) : Expr Mark → String → Prop where
  | var {m : Mark} {x : String} {t : Ty} :
      M.typeOf? m.id = some t →
      M.Tells (.var m x) ("(variable) " ++ x ++ ": " ++ t.name)
  | field {m : Mark} {e : Expr Mark} {x : String} {t : Ty} :
      M.typeOf? m.id = some t →
      M.Tells (.field m e x) ("(field) " ++ x ++ ": " ++ t.name)
  | call {m : Mark} {f : String} {es : List (Expr Mark)} {s : Signature} {t : Ty} :
      M.functionOf? m.id = some s → s.key = (f, es.length) → M.typeOf? m.id = some t →
      M.Tells (.call m f es)
        ("(function) " ++ f ++ "(" ++ commaSeparated (s.parameters.map Ty.name) ++ "): " ++ t.name)
  | invoke {m : Mark} {e : Expr Mark} {f : String} {es : List (Expr Mark)} {s : Signature}
      {receiver t : Ty} {ts : List Ty} :
      M.functionOf? m.id = some s → s.key = (f, es.length + 1) →
      M.typeOf? e.tag.id = some receiver → s.parameters = receiver :: ts →
      M.typeOf? m.id = some t →
      M.Tells (.invoke m e f es)
        ("(method) " ++ f ++ "(" ++ commaSeparated (ts.map Ty.name) ++ "): " ++ t.name)

/-- The first parameter of a method of the language is its receiver. -/
theorem members_receiver {t : Ty} {key : FunctionKey} {s : Signature}
    (h : (StaticOutside.members {} t).findFunction? key = some s) :
    ∃ ts, s.parameters = t :: ts := by
  cases t with
  | string =>
      rcases List.mem_cons.mp (lookup_mem h) with heq | hmem
      · cases heq
        exact ⟨_, rfl⟩
      · cases List.mem_singleton.mp hmem
        exact ⟨_, rfl⟩
  | _ => cases h

open Editor Document in
/-- Of an access or a call in a well-typed program something is said, and it is what is to be
said. -/
theorem describe_tells {M : Model} {Γ : Chain Variable Signature} {e : Expr Mark} {t : Ty}
    {r : Reference Mark} (hr : e.reference? = some r) (ht : HasType {} M Γ e t)
    (hΓ : ∀ key s, Chain.findFunction? Γ key = some s → key = s.key) :
    ∃ text, describe M r = some text ∧ M.Tells e text := by
  cases ht with
  | var _ _ htype =>
      cases hr
      exact ⟨_, by simp [describe, htype], .var htype⟩
  | field _ _ _ htype =>
      cases hr
      exact ⟨_, by simp [describe, htype], .field htype⟩
  | call hf _ hfunction htype =>
      cases hr
      refine ⟨_, ?_, .call hfunction (hΓ _ _ hf).symm htype⟩
      simp [describe, htype, hfunction, Use.isMember]
  | invoke he hf _ hfunction htype =>
      cases hr
      obtain ⟨ts, hts⟩ := members_receiver hf
      have hkey := (StaticOutside.keyed_empty.members _).find hf
      refine ⟨_, ?_, .invoke hfunction hkey.symm he.typeOf hts htype⟩
      simp [describe, htype, hfunction, Use.isMember, hts]
  | _ => cases hr

/-! ## One use at a position

The first use that covers the cursor is taken.  That there is only one is counted: tokens do not
overlap, and there are no more uses at a place than tokens. -/

section

variable {α : Type} {l : List α} {q : α → Bool}

theorem countP_le_one_of_pairwise {R : α → α → Prop} (h : l.Pairwise R)
    (hR : ∀ a b, R a b → q a = true → ¬ q b = true) : l.countP q ≤ 1 := by
  induction h with
  | nil => exact Nat.zero_le _
  | @cons a l ha _ ih =>
      cases hq : q a with
      | false => simpa [List.countP_cons, hq] using ih
      | true =>
          have hnone : l.countP q = 0 :=
            List.countP_eq_zero.mpr fun b hb => hR a b (ha b hb) hq
          exact Nat.le_of_eq (by rw [List.countP_cons_of_pos hq, hnone])

theorem pairwise_of_countP_le_one (h : l.countP q ≤ 1) :
    l.Pairwise fun a b => ¬ (q a = true ∧ q b = true) := by
  induction l with
  | nil => exact .nil
  | cons a l ih =>
      refine .cons (fun b hb hab => ?_)
        (ih (Nat.le_trans ((List.sublist_cons_self a l).countP_le) h))
      have hpos : 0 < l.countP q := List.countP_pos_iff.mpr ⟨b, hb, hab.2⟩
      rw [List.countP_cons_of_pos hab.1] at h
      omega

theorem find?_of_countP_le_one (h : l.countP q ≤ 1) {a : α} (ha : a ∈ l) (hq : q a = true) :
    l.find? q = some a := by
  have hmem : a ∈ l.filter q := List.mem_filter.mpr ⟨ha, hq⟩
  have hlen : (l.filter q).length = 1 :=
    Nat.le_antisymm (by rwa [← List.countP_eq_length_filter]) (List.length_pos_of_mem hmem)
  obtain ⟨b, hb⟩ := List.length_eq_one_iff.mp hlen
  rw [hb] at hmem
  rw [← List.head?_filter, hb, List.mem_singleton.mp hmem]
  rfl

end

theorem Program.mem_references {p : Program Mark} {e : Expr Mark} (he : Node.expr e ∈ p.nodes)
    {r : Reference Mark} (hr : e.reference? = some r) : r ∈ p.references := by
  rw [p.references_eq]
  exact List.mem_filterMap.mpr ⟨_, he, hr⟩

/-- A token is the name of an access or a call: it has the name as its text, and stands where the
access or the call does. -/
def Token.Names (t : Token) (e : Expr Mark) : Prop :=
  t.isName = true ∧
    ∃ r, e.reference? = some r ∧ r.name = t.lexeme ∧ r.tag.place = some t.location

namespace Editor.Document

/-- A document without notices has all that its text can have. -/
theorem exists_clean {uri text : String} {d : Document} (hd : ofText uri text = .ok d)
    (hclean : d.notices = []) :
    ∃ ts q M, tokenize text (some uri) = .ok ts ∧ parseProgram ts = .ok q ∧
      ((Checker.start {}).check (q.mark 0).1).1 = .ok M ∧
      d = { uri, text, tokens := ts, tree := some (q.mark 0).1, model := some M } := by
  rcases analyze_reports { uri, text } with ⟨d', hd', hreported⟩ | ⟨_, _, _, _, _, _, _, herror⟩
  · obtain rfl : d = d' := Except.ok.inj (hd.symm.trans hd')
    cases hreported with
    | clean hts _ hq hM => exact ⟨_, _, _, hts, hq, hM, rfl⟩
    | _ => cases hclean
  · rw [ofText, herror] at hd
    cases hd

/-- Whether a name that stands at a place covers a position. -/
def coversName (cursor : Position) (name : String) (place : Place) : Bool :=
  covers cursor ⟨⟨0, place⟩, .var, name⟩

theorem coversName_token {cursor : Position} {t : Token} :
    coversName cursor t.lexeme (some t.location) = true ↔ t.range.Contains cursor := by
  rw [Token.range, Range.contains_onLine]
  simp [coversName, covers, and_assoc]

/-- An access or a call whose name is at a position, among the tokens of its program. -/
def Under (ts : List Token) (cursor : Position) (x : Node Mark) : Prop :=
  ∃ e t, x = .expr e ∧ t ∈ ts ∧ t.Names e ∧ t.range.Contains cursor

theorem names_covers {t : Token} {e : Expr Mark} {cursor : Position} (h : t.Names e)
    (hcontains : t.range.Contains cursor) : ∃ r, e.reference? = some r ∧
      covers cursor r = true ∧ nameRange r.tag.place r.name = t.range := by
  obtain ⟨-, r, hr, htext, hplace⟩ := h
  refine ⟨r, hr, ?_, ?_⟩
  · show coversName cursor r.name r.tag.place = true
    rw [htext, hplace]
    exact coversName_token.mpr hcontains
  · rw [htext, hplace]
    rfl

theorem Under.covers {ts : List Token} {cursor : Position} {x : Node Mark}
    (h : Under ts cursor x) : (x.reference?.map (Document.covers cursor)).getD false = true := by
  obtain ⟨e, t, rfl, -, hnames, hcontains⟩ := h
  obtain ⟨r, hr, hcovers, -⟩ := names_covers hnames hcontains
  show (e.reference?.map (Document.covers cursor)).getD false = true
  rw [hr]
  exact hcovers

section

variable {source : String} {file : Option String} {ts : List Token} {p : Program Place}

theorem countP_covers (hts : tokenize source file = .ok ts) (hp : parseProgram ts = .ok p)
    (cursor : Position) : (p.mark 0).1.references.countP (covers cursor) ≤ 1 := by
  calc (p.mark 0).1.references.countP (covers cursor)
    _ = countUses (coversName cursor) p.references := by
        rw [← p.references_mark 0, countUses, List.countP_map]
        rfl
    _ ≤ ts.countP fun t => t.isName && coversName cursor t.lexeme (some t.location) :=
        parseProgram_uses _ (tokenize_plain hts) hp
    _ ≤ 1 := by
        refine countP_le_one_of_pairwise (tokenize_ranges hts) fun t u hbefore ht hu => ?_
        have ht := coversName_token.mp (Bool.and_eq_true_iff.mp ht).2
        exact hbefore.not_contains ht (coversName_token.mp (Bool.and_eq_true_iff.mp hu).2)

/-- Every use of a name has its token. -/
theorem exists_token (hts : tokenize source file = .ok ts) (hp : parseProgram ts = .ok p)
    {e : Expr Mark} (he : Node.expr e ∈ (p.mark 0).1.nodes) {r : Reference Mark}
    (hr : e.reference? = some r) :
    ∃ t ∈ ts, t.Names e ∧ r.name = t.lexeme ∧ r.tag.place = some t.location := by
  have hmem : r.unmarked ∈ p.references := by
    rw [← p.references_mark 0]
    exact List.mem_map_of_mem (Program.mem_references he hr)
  -- of the names with this text and this place there is one use, and so a token
  have hpos : 0 < countUses (fun name place => name = r.name ∧ place = r.tag.place) p.references :=
    List.countP_pos_iff.mpr ⟨_, hmem, by simp [Reference.unmarked]⟩
  obtain ⟨t, ht, hpicked⟩ := List.countP_pos_iff.mp
    (Nat.lt_of_lt_of_le hpos (parseProgram_uses _ (tokenize_plain hts) hp))
  simp only [Bool.and_eq_true, decide_eq_true_eq] at hpicked
  obtain ⟨hname, htext, hplace⟩ := hpicked
  exact ⟨t, ht, ⟨hname, r, hr, htext.symm, hplace.symm⟩, htext.symm, hplace.symm⟩

/-- No two nodes have their names at one position. -/
theorem pairwise_under (hts : tokenize source file = .ok ts) (hp : parseProgram ts = .ok p)
    (cursor : Position) : (p.mark 0).1.nodes.Pairwise fun x y =>
      ¬ (Under ts cursor x ∧ Under ts cursor y) := by
  have hcount := countP_covers hts hp cursor
  rw [Program.references_eq, List.countP_filterMap] at hcount
  exact (pairwise_of_countP_le_one hcount).imp fun hnot hxy => hnot ⟨hxy.1.covers, hxy.2.covers⟩

theorem under_of_find (hts : tokenize source file = .ok ts) (hp : parseProgram ts = .ok p)
    {cursor : Position} {r : Reference Mark}
    (hr : (p.mark 0).1.references.find? (covers cursor) = some r) :
    ∃ x ∈ (p.mark 0).1.nodes, Under ts cursor x := by
  have hcovers : covers cursor r = true := List.find?_some hr
  have hmem := List.mem_of_find?_eq_some hr
  rw [Program.references_eq] at hmem
  obtain ⟨x, hx, hxr⟩ := List.mem_filterMap.mp hmem
  cases x with
  | expr e =>
      obtain ⟨t, ht, hnames, htext, hplace⟩ := exists_token hts hp hx hxr
      refine ⟨_, hx, e, t, rfl, ht, hnames, coversName_token.mp ?_⟩
      rw [← htext, ← hplace]
      exact hcovers
  | _ => cases hxr

end

/-! ## Hovers -/

/-- A text as an editor is told to show it. -/
def fenced (text : String) : String := "```quill\n" ++ text ++ "\n```"

section

variable {d : Document} {p : Program Mark} {M : Model} {cursor : Position}

theorem hover_of_none (hp : d.tree = some p) (h : p.references.find? (covers cursor) = none) :
    d.hover cursor = none := by
  unfold hover
  rw [hp]
  cases d.model <;> simp [h]

theorem hover_of_some (hp : d.tree = some p) (hM : d.model = some M) {r : Reference Mark}
    (hr : p.references.find? (covers cursor) = some r) {text : String}
    (htext : describe M r = some text) :
    d.hover cursor = some ⟨fenced text, nameRange r.tag.place r.name⟩ := by
  simp [hover, hp, hM, hr, htext, fenced]

end

/-- In a document without notices every access and every call has a token that is its name.  No
two of them have a name at the same position.  Something is shown at a position if and only if it
is in the name of an access or a call; then what is shown is about this one, and its range is that
of the name. -/
theorem hover_reference {uri text : String} {d : Document} (hd : ofText uri text = .ok d)
    (hclean : d.notices = []) :
    ∃ p M, d.tree = some p ∧ d.model = some M ∧
      (∀ e, Node.expr e ∈ p.nodes → e.reference?.isSome → ∃ t ∈ d.tokens, t.Names e) ∧
      ∀ cursor,
        (p.nodes.Pairwise fun x y => ¬ (Under d.tokens cursor x ∧ Under d.tokens cursor y)) ∧
        ((∃ h, d.hover cursor = some h) ↔ ∃ x ∈ p.nodes, Under d.tokens cursor x) ∧
        ∀ e t, Node.expr e ∈ p.nodes → t ∈ d.tokens → t.Names e → t.range.Contains cursor →
          ∃ s, M.Tells e s ∧ d.hover cursor = some ⟨fenced s, t.range⟩ := by
  obtain ⟨ts, q, M, hts, hq, hM, rfl⟩ := exists_clean hd hclean
  obtain ⟨f, g, hok⟩ : ∃ f g, ProgramOk {} M (q.mark 0).1 f g :=
    Checker.check_typed (Prod.ext hM rfl)
  have hshown : ∀ cursor e t, Node.expr e ∈ (q.mark 0).1.nodes → t ∈ ts → t.Names e →
      t.range.Contains cursor → ∃ s, M.Tells e s ∧
        hover { uri, text, tokens := ts, tree := some (q.mark 0).1, model := some M } cursor =
          some ⟨fenced s, t.range⟩ := by
    intro cursor e t he ht hnames hcontains
    obtain ⟨r, hr, hcovers, hrange⟩ := names_covers hnames hcontains
    obtain ⟨Γ, type, hΓ, htype⟩ := hok.typed_node StaticOutside.keyed_empty he
    obtain ⟨s, hs, htells⟩ := describe_tells hr htype hΓ
    have hfind := find?_of_countP_le_one (countP_covers hts hq cursor)
      (Program.mem_references he hr) hcovers
    exact ⟨s, htells, hrange ▸ hover_of_some rfl rfl hfind hs⟩
  refine ⟨(q.mark 0).1, M, rfl, rfl, ?_, fun cursor =>
    ⟨pairwise_under hts hq cursor, ⟨?_, ?_⟩, hshown cursor⟩⟩
  · intro e he hsome
    obtain ⟨r, hr⟩ := Option.isSome_iff_exists.mp hsome
    obtain ⟨t, ht, hnames, -⟩ := exists_token hts hq he hr
    exact ⟨t, ht, hnames⟩
  · rintro ⟨h, hh⟩
    cases hfind : (q.mark 0).1.references.find? (covers cursor) with
    | none =>
        rw [hover_of_none rfl hfind] at hh
        cases hh
    | some r => exact under_of_find hts hq hfind
  · rintro ⟨_, he, e, t, rfl, ht, hnames, hcontains⟩
    obtain ⟨s, -, hs⟩ := hshown cursor e t he ht hnames hcontains
    exact ⟨_, hs⟩

/-- A text with a chain of members. -/
def memberChain : String := "DEF main(): Integer DO RETURN \"ab\".slice(0, 1).length(); END"

theorem memberChain_hover : ∃ d p M e t s, ofText "test:a" memberChain = .ok d ∧ d.notices = [] ∧
    d.tree = some p ∧ d.model = some M ∧ Node.expr e ∈ p.nodes ∧ t ∈ d.tokens ∧ t.Names e ∧
    M.Tells e s ∧ d.hover ⟨0, 36⟩ = some ⟨fenced s, t.range⟩ ∧
    d.hover ⟨0, 36⟩ = some ⟨fenced "(method) slice(Integer, Integer): String", .onLine 0 35 5⟩ := by
  have hread : (ofText "test:a" memberChain).toOption.any (fun d => d.notices.isEmpty &&
      d.hover ⟨0, 36⟩ ==
        some ⟨fenced "(method) slice(Integer, Integer): String", .onLine 0 35 5⟩) = true := by
    decide +kernel
  cases hd : ofText "test:a" memberChain with
  | error e => rw [hd] at hread; cases hread
  | ok d =>
      rw [hd] at hread
      obtain ⟨hclean, hhover⟩ := Bool.and_eq_true_iff.mp hread
      have hclean := List.isEmpty_iff.mp hclean
      have hhover := eq_of_beq hhover
      obtain ⟨p, M, hp, hM, -, hcursor⟩ := hover_reference hd hclean
      obtain ⟨-, hiff, hshown⟩ := hcursor ⟨0, 36⟩
      obtain ⟨_, he, e, t, rfl, ht, hnames, hcontains⟩ := hiff.mp ⟨_, hhover⟩
      obtain ⟨s, hs, hshows⟩ := hshown e t he ht hnames hcontains
      exact ⟨d, p, M, e, t, s, rfl, hclean, hp, hM, he, ht, hnames, hs, hshows, hhover⟩

end Editor.Document

end QuillLang
