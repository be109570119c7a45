/-
# What checking writes

A fact is kept under a heading: which kind of fact it is and which node it is
about.  Every node asks for the facts of its class, an access for a variable
and a type, a call for a function and a type, a method for a function.

The walk is followed rule by rule (`Writes`).  From a state that lacks the facts
under some headings, an action comes to a state that has just these in addition,
or stops with an error at one of the nodes that it looks at.  In particular no
fact is refused because its node has one already.

Arguments are checked against parameters pair by pair, and an argument without
a parameter would be passed over.  There is none, since a function is kept under
its own number of parameters (`Checker.Keyed`).
-/
import QuillLang.Proofs.Numbering
import QuillLang.Proofs.Outcome
import QuillLang.Proofs.TypedNodes
import Mathlib.Data.List.Perm.Basic

namespace QuillLang

open scoped List

/-! ## Headings

Facts of one kind about one node exclude each other, so headings are told apart by the kind and the
number of the node.  The class of the node goes along because facts are listed under it. -/

/-- Where a fact is kept: what kind of fact it is, and which node it is about. -/
structure Heading where
  slot : Slot
  mark : Mark
  node : NodeClass
deriving DecidableEq

/-- Two facts of one kind about one node exclude each other. -/
def Heading.key (h : Heading) : Slot × Nat := (h.slot, h.mark.id)

/-- All kinds of fact, in the order in which a node gets them. -/
def Slot.all : List Slot := [.ofVariable, .ofFunction, .ofType]

namespace Node

/-- The class under which a fact of a kind is listed for a node, if the node is to have one: every
expression has a type, every access and declaration a variable, every call and method a
function. -/
def carries {α : Type} : Slot → Node α → Option NodeClass
  | .ofType, .expr e => some e.nodeClass
  | .ofVariable, .expr (.var ..) | .ofVariable, .expr (.field ..) => some .access
  | .ofVariable, .stmt (.declare ..) => some .declaration
  | .ofVariable, .field _ => some .field
  | .ofFunction, .expr (.call ..) | .ofFunction, .expr (.invoke ..) => some .functionCall
  | .ofFunction, .method _ => some .method
  | _, _ => none

/-- The headings that a node asks for. -/
def headings (x : Node Mark) : List Heading :=
  Slot.all.filterMap fun k => (x.carries k).map fun node => ⟨k, x.tag, node⟩

/-- The headings that nodes ask for. -/
def allHeadings (ns : List (Node Mark)) : List Heading := ns.flatMap headings

@[simp] theorem allHeadings_cons (x : Node Mark) (ns : List (Node Mark)) :
    allHeadings (x :: ns) = x.headings ++ allHeadings ns := rfl

@[simp] theorem allHeadings_append (ns ms : List (Node Mark)) :
    allHeadings (ns ++ ms) = allHeadings ns ++ allHeadings ms := List.flatMap_append

theorem mark_of_mem_headings {x : Node Mark} {h : Heading} (hh : h ∈ x.headings) :
    h.mark = x.tag ∧ x.carries h.slot = some h.node := by
  obtain ⟨k, -, hk⟩ := List.mem_filterMap.mp hh
  obtain ⟨node, hnode, rfl⟩ := Option.map_eq_some_iff.mp hk
  exact ⟨rfl, hnode⟩

theorem mem_headings {x : Node Mark} {k : Slot} {node : NodeClass} (h : x.carries k = some node) :
    (⟨k, x.tag, node⟩ : Heading) ∈ x.headings :=
  List.mem_filterMap.mpr ⟨k, by cases k <;> decide, by rw [h]; rfl⟩

/-- Nodes of different numbers ask for different facts. -/
theorem nodup_allHeadings {ns : List (Node Mark)} (h : (ns.map (·.tag.id)).Nodup) :
    ((allHeadings ns).map Heading.key).Nodup := by
  induction ns with
  | nil => exact List.nodup_nil
  | cons x ns ih =>
      obtain ⟨hx, hns⟩ := List.nodup_cons.mp h
      rw [allHeadings_cons, List.map_append, List.nodup_append]
      refine ⟨?_, ih hns, ?_⟩
      · -- the headings of one node differ in their kind
        have hslots : ∀ ks : List Slot, ks.Nodup →
            ((ks.filterMap fun k => (x.carries k).map fun node =>
              (⟨k, x.tag, node⟩ : Heading)).map Heading.key).Nodup := by
          intro ks hks
          rw [List.map_filterMap]
          refine hks.filterMap fun k l key hk hl => ?_
          simp only [Option.mem_def, Option.map_map, Option.map_eq_some_iff] at hk hl
          obtain ⟨_, _, rfl⟩ := hk
          obtain ⟨_, _, hl⟩ := hl
          exact (congrArg Prod.fst hl).symm
        exact hslots Slot.all (by decide)
      · rintro key hkey _ hother rfl
        obtain ⟨h, hh, rfl⟩ := List.mem_map.mp hkey
        obtain ⟨h', hh', hsame⟩ := List.mem_map.mp hother
        obtain ⟨y, hy, hh'⟩ := List.mem_flatMap.mp hh'
        have hid : h'.mark.id = h.mark.id := congrArg Prod.snd hsame
        rw [(mark_of_mem_headings hh').1, (mark_of_mem_headings hh).1] at hid
        exact hx (List.mem_map.mpr ⟨y, hy, hid⟩)

end Node

namespace Model

/-- The nodes that have a fact of a kind. -/
def listing (M : Model) : Slot → List (Mark × NodeClass)
  | .ofType => M.types.map fun e => (e.mark, e.node)
  | .ofVariable => M.vars.map fun e => (e.mark, e.node)
  | .ofFunction => M.functions.map fun e => (e.mark, e.node)

/-- The headings under which a model has facts. -/
def headings (M : Model) : List Heading :=
  Slot.all.flatMap fun k => (M.listing k).map fun a => ⟨k, a.1, a.2⟩

/-- A model has no facts under some headings, and these exclude each other no more than the facts
it has. -/
def Lacks (M : Model) (hs : List Heading) : Prop := ((hs ++ M.headings).map Heading.key).Nodup

theorem mem_headings {M : Model} {k : Slot} {a : Mark × NodeClass} (h : a ∈ M.listing k) :
    (⟨k, a.1, a.2⟩ : Heading) ∈ M.headings :=
  List.mem_flatMap.mpr ⟨k, by cases k <;> decide, List.mem_map.mpr ⟨a, h, rfl⟩⟩

theorem size_eq_length (M : Model) : M.size = M.headings.length := by
  simp [size, headings, Slot.all, listing]
  omega

/-- One more entry is one more heading. -/
theorem headings_of_listing {M N : Model} {k : Slot} {a : Mark × NodeClass}
    (hk : N.listing k = a :: M.listing k) (hrest : ∀ j ≠ k, N.listing j = M.listing j) :
    N.headings.Perm (⟨k, a.1, a.2⟩ :: M.headings) := by
  cases k with
  | ofVariable =>
      simp [headings, Slot.all, hk, hrest .ofFunction nofun, hrest .ofType nofun]
  | ofFunction =>
      simp [headings, Slot.all, hk, hrest .ofVariable nofun, hrest .ofType nofun]
  | ofType =>
      simp only [headings, Slot.all, List.flatMap_cons, List.flatMap_nil, List.append_nil, hk,
        hrest .ofVariable nofun, hrest .ofFunction nofun, List.map_cons]
      rw [← List.append_assoc, ← List.append_assoc]
      exact List.perm_middle

namespace Lacks

variable {M N : Model} {hs ks : List Heading}

theorem left (h : M.Lacks (hs ++ ks)) : M.Lacks hs := by
  refine List.Nodup.sublist (List.Sublist.map _ ?_) h
  exact (List.sublist_append_left hs ks).append (List.Sublist.refl _)

/-- What is left to write when some of it has been written. -/
theorem right (h : M.Lacks (hs ++ ks)) (hN : N.headings.Perm (hs ++ M.headings)) : N.Lacks ks := by
  refine (List.Perm.nodup_iff (List.Perm.map _ ?_)).mp h
  calc hs ++ ks ++ M.headings
    _ ~ ks ++ hs ++ M.headings := List.perm_append_comm.append_right _
    _ ~ ks ++ N.headings := by
        rw [List.append_assoc]
        exact hN.symm.append_left ks

theorem perm (h : M.Lacks hs) (hks : hs.Perm ks) : M.Lacks ks :=
  (List.Perm.nodup_iff ((hks.append_right _).map _)).mp h

/-- A fact that a model lacks is written. -/
theorem write? {k : Slot} {m : Mark} {node : NodeClass} {β : Type} {es : List (Entry β)}
    (h : M.Lacks [⟨k, m, node⟩]) (hes : M.listing k = es.map fun e => (e.mark, e.node)) (fact : β) :
    Model.write? es ⟨m, node, fact⟩ = some (⟨m, node, fact⟩ :: es) := by
  have hnone : es.find? (fun e => e.mark.id = m.id) = none := by
    rw [List.find?_eq_none]
    intro e he hid
    have hmem : (e.mark, e.node) ∈ M.listing k := hes ▸ List.mem_map.mpr ⟨e, he, rfl⟩
    refine (List.nodup_cons.mp h).1 (List.mem_map.mpr ⟨_, mem_headings hmem, ?_⟩)
    exact congrArg (Prod.mk k) (of_decide_eq_true hid)
  simp [Model.write?, fact?, hnone]

end Lacks

end Model

/-! ## Actions that write facts

Writing is described by headings and not by facts, up to their order.  A model that lacks what an
action is to write has room for it, and what is written by the first step leaves room for the
second. -/

/-- All functions that a checker can find are kept under their own keys. -/
structure Checker.Keyed (c : Checker) : Prop where
  outside : c.outside.Keyed
  chain : ∀ f ∈ c.chain, StaticFrame.Keyed f

/-- An action writes the facts under some headings, or stops with an error at one of the places
that may be blamed. -/
def Writes (Blamed : Place → Prop) (hs : List Heading) {α : Type} (act : Check α) : Prop :=
  ∀ c : Checker, c.Keyed → c.model.Lacks hs →
    Ends (act c) (fun _ d => d.Keyed ∧ d.model.headings.Perm (hs ++ c.model.headings))
      fun e _ => ∃ cause place, e = .error ⟨cause, place⟩ ∧ Blamed place

namespace Writes

variable {Blamed : Place → Prop} {hs ks : List Heading} {α β : Type}

theorem pure (a : α) : Writes Blamed [] (Pure.pure a) := fun _ hc _ => ⟨hc, .refl _⟩

theorem fail {place : Place} (h : Blamed place) (cause : CheckCause) :
    Writes Blamed hs (Check.fail cause place : Check α) := fun _ _ _ => ⟨cause, place, rfl, h⟩

theorem bind {x : Check α} {f : α → Check β} (hx : Writes Blamed hs x)
    (hf : ∀ a, Writes Blamed ks (f a)) : Writes Blamed (hs ++ ks) (x >>= f) := by
  intro c hc hlacks
  refine Ends.bind (hx c hc hlacks.left) ?_
  rintro a d ⟨hd, hperm⟩
  refine (hf a d hd (hlacks.right hperm)).imp ?_ fun _ _ h => h
  rintro b e ⟨he, hperm'⟩
  refine ⟨he, hperm'.trans ?_⟩
  calc ks ++ d.model.headings
    _ ~ ks ++ (hs ++ c.model.headings) := hperm.append_left ks
    _ ~ hs ++ ks ++ c.model.headings := by
        rw [← List.append_assoc]
        exact List.perm_append_comm.append_right _

theorem perm {act : Check α} (h : Writes Blamed hs act) (hks : hs.Perm ks) :
    Writes Blamed ks act := by
  intro c hc hlacks
  refine (h c hc (hlacks.perm hks.symm)).imp ?_ fun _ _ h => h
  rintro a d ⟨hd, hperm⟩
  exact ⟨hd, hperm.trans (hks.append_right _)⟩

/-- A node gets its own facts after those of its parts. -/
theorem last {act : Check α} (h : Writes Blamed (hs ++ ks) act) : Writes Blamed (ks ++ hs) act :=
  h.perm List.perm_append_comm

/-- An action that writes nothing is followed by one that does. -/
theorem after {x : Check α} {f : α → Check β} (hx : Writes Blamed [] x)
    (hf : ∀ a, Writes Blamed hs (f a)) : Writes Blamed hs (x >>= f) := hx.bind hf

/-- An action that writes is followed by one that does not. -/
theorem before {x : Check α} {f : α → Check β} (hx : Writes Blamed hs x)
    (hf : ∀ a, Writes Blamed [] (f a)) : Writes Blamed hs (x >>= f) := by
  have h := hx.bind hf
  rwa [List.append_nil] at h

/-- An action that looks at the state. -/
theorem get {f : Checker → Check α} (hf : ∀ c, c.Keyed → Writes Blamed hs (f c)) :
    Writes Blamed hs (MonadState.get >>= f) := by
  intro c hc hlacks
  rw [get_bind]
  exact hf c hc c hc hlacks

theorem require {place : Place} (h : Blamed place) (target actual : Ty) :
    Writes Blamed [] (Check.require target actual place) := by
  unfold Check.require Ty.require
  split
  · exact pure ()
  · exact fun _ _ _ => ⟨_, place, rfl, h⟩

theorem resolveType {place : Place} (h : Blamed place) (name : String) :
    Writes Blamed [] (Check.resolveType name place) := by
  unfold Check.resolveType Ty.resolve
  split
  · exact pure _
  · exact fun _ _ _ => ⟨_, place, rfl, h⟩

theorem resolveTypes {place : Place} (h : Blamed place) :
    ∀ names, Writes Blamed [] (Check.resolveTypes place names)
  | [] => pure _
  | name :: names =>
      (resolveType h name).after fun _ => (resolveTypes h names).after fun _ => pure _

/-! ## Facts -/

theorem noteType (e : Expr Mark) (t : Ty) :
    Writes Blamed [⟨.ofType, e.tag, e.nodeClass⟩] (Check.noteType e t) := by
  intro c hc hlacks
  unfold Check.noteType
  rw [get_bind, hlacks.write? rfl t]
  refine ⟨⟨hc.outside, hc.chain⟩,
    Model.headings_of_listing (k := .ofType) (a := (e.tag, e.nodeClass)) rfl fun j hj => ?_⟩
  cases j with
  | ofType => exact absurd rfl hj
  | ofVariable | ofFunction => rfl

theorem noteVariable (m : Mark) (node : NodeClass) (v : Variable) :
    Writes Blamed [⟨.ofVariable, m, node⟩] (Check.noteVariable m node v) := by
  intro c hc hlacks
  unfold Check.noteVariable
  rw [get_bind, hlacks.write? rfl v]
  refine ⟨⟨hc.outside, hc.chain⟩,
    Model.headings_of_listing (k := .ofVariable) (a := (m, node)) rfl fun j hj => ?_⟩
  cases j with
  | ofVariable => exact absurd rfl hj
  | ofType | ofFunction => rfl

theorem noteFunction (m : Mark) (node : NodeClass) (s : Signature) :
    Writes Blamed [⟨.ofFunction, m, node⟩] (Check.noteFunction m node s) := by
  intro c hc hlacks
  unfold Check.noteFunction
  rw [get_bind, hlacks.write? rfl s]
  refine ⟨⟨hc.outside, hc.chain⟩,
    Model.headings_of_listing (k := .ofFunction) (a := (m, node)) rfl fun j hj => ?_⟩
  cases j with
  | ofFunction => exact absurd rfl hj
  | ofType | ofVariable => rfl

/-! ## Scopes -/

theorem defineVariable {m : Mark} (h : Blamed m.place) (x : String) (t : Ty) :
    Writes Blamed [] (Check.defineVariable x t m) := by
  intro c hc _
  unfold Check.defineVariable
  rw [get_bind]
  cases hdef : c.scope.defineVariable x (⟨x, x, t, .node m.id⟩ : Variable) with
  | error key => exact ⟨_, _, rfl, h⟩
  | ok scope =>
      obtain ⟨-, rfl⟩ := Frame.defineVariable_eq_ok hdef
      obtain ⟨hscope, henclosing⟩ := List.forall_mem_cons.mp hc.chain
      exact ⟨⟨hc.outside, List.forall_mem_cons.mpr ⟨hscope, henclosing⟩⟩, .refl _⟩

theorem defineMethod {place : Place} (h : Blamed place) (s : Signature) :
    Writes Blamed [] (Check.defineMethod s place) := by
  intro c hc _
  unfold Check.defineMethod
  rw [get_bind]
  cases hdef : c.scope.defineFunction s.key s with
  | error key => exact ⟨_, _, rfl, h⟩
  | ok scope =>
      obtain ⟨-, rfl⟩ := Frame.defineFunction_eq_ok hdef
      obtain ⟨hscope, henclosing⟩ := List.forall_mem_cons.mp hc.chain
      refine ⟨⟨hc.outside, List.forall_mem_cons.mpr ⟨?_, henclosing⟩⟩, .refl _⟩
      intro b hb
      rcases List.mem_append.mp hb with hb | hb
      · exact hscope b hb
      · rw [List.mem_singleton.mp hb]

theorem inScope {act : Check α} (h : Writes Blamed hs act) :
    Writes Blamed hs (Check.inScope act) := by
  intro c hc hlacks
  have hinner : Checker.Keyed { c with scope := {}, enclosing := c.chain } :=
    ⟨hc.outside, List.forall_mem_cons.mpr ⟨fun b hb => absurd hb List.not_mem_nil, hc.chain⟩⟩
  have hact := h _ hinner hlacks
  unfold Check.inScope
  cases hr : act { c with scope := {}, enclosing := c.chain } with
  | ok a d =>
      obtain ⟨hd, hperm⟩ := hact.ok_of hr
      exact ⟨⟨hd.outside, hc.chain⟩, hperm⟩
  | error e d => exact hact.error_of hr

theorem returning {act : Check α} (t : Ty) (h : Writes Blamed hs act) :
    Writes Blamed hs (Check.returning t act) := by
  intro c hc hlacks
  have hact := h { c with returnType := some t } ⟨hc.outside, hc.chain⟩ hlacks
  unfold Check.returning
  cases hr : act { c with returnType := some t } with
  | ok a d =>
      obtain ⟨hd, hperm⟩ := hact.ok_of hr
      exact ⟨⟨hd.outside, hd.chain⟩, hperm⟩
  | error e d => exact hact.error_of hr

end Writes

/-! ## The walk

Each node writes its own facts and those of its parts, in one order or another.  The places to
blame are those of the nodes that are looked at. -/

/-- The places of nodes may be blamed. -/
def BlamesAll (Blamed : Place → Prop) (ns : List (Node Mark)) : Prop :=
  ∀ x ∈ ns, Blamed x.tag.place

namespace BlamesAll

variable {Blamed : Place → Prop} {ns ms : List (Node Mark)} {x : Node Mark}

theorem head (h : BlamesAll Blamed (x :: ns)) : Blamed x.tag.place := h x List.mem_cons_self

theorem tail (h : BlamesAll Blamed (x :: ns)) : BlamesAll Blamed ns :=
  fun y hy => h y (List.mem_cons_of_mem _ hy)

theorem left (h : BlamesAll Blamed (ns ++ ms)) : BlamesAll Blamed ns :=
  fun y hy => h y (List.mem_append_left _ hy)

theorem right (h : BlamesAll Blamed (ns ++ ms)) : BlamesAll Blamed ms :=
  fun y hy => h y (List.mem_append_right _ hy)

theorem ofExpr {e : Expr Mark} (h : BlamesAll Blamed e.nodes) : Blamed e.tag.place :=
  h (.expr e) e.mem_nodes_self

end BlamesAll

namespace Check

variable {Blamed : Place → Prop}

open Node (allHeadings)

theorem operation_writes {place lp rp : Place} (h : Blamed place) (hl : Blamed lp)
    (hr : Blamed rp) (op : Operator) (l r : Ty) :
    Writes Blamed [] (operation place op l r lp rp) := by
  unfold operation
  split
  · exact (Writes.require hl _ _).after fun _ => (Writes.require hr _ _).after fun _ => .pure _
  · split
    · exact (Writes.require hl _ _).after fun _ => (Writes.require hr _ _).after fun _ =>
        (Writes.require hr _ _).after fun _ => .pure _
    · split
      · exact .pure _
      · split
        · exact (Writes.require hr _ _).after fun _ => .pure _
        · exact .fail h _

mutual

theorem expr_writes : ∀ e : Expr Mark, BlamesAll Blamed e.nodes →
    Writes Blamed (allHeadings e.nodes) (expr e)
  | .nil m, _ => by
      unfold expr
      exact .noteType (.nil m) _
  | .boolean m b, _ => by
      unfold expr
      exact .noteType (.boolean m b) _
  | .character m s, _ => by
      unfold expr
      exact .noteType (.character m s) _
  | .string m s, _ => by
      unfold expr
      exact .noteType (.string m s) _
  | .integer m n, h => by
      unfold expr
      split
      · exact .noteType (.integer m n) _
      · exact .fail h.head _
  | .decimal m d, h => by
      unfold expr
      split
      · exact .fail h.head _
      · exact .noteType (.decimal m d) _
  | .group m e, h => by
      unfold expr
      split
      · exact ((expr_writes e h.tail).bind fun t => .noteType (.group m e) t).last
      · exact .fail h.head _
  | .binary m op l r, h => by
      unfold expr
      have hl : BlamesAll Blamed l.nodes := h.tail.left
      have hr : BlamesAll Blamed r.nodes := h.tail.right
      rw [Expr.nodes, Node.allHeadings_cons, Node.allHeadings_append]
      refine Writes.last ?_
      rw [List.append_assoc]
      exact (expr_writes l hl).bind fun lt => (expr_writes r hr).bind fun rt =>
        (operation_writes h.head hl.ofExpr hr.ofExpr op lt rt).after fun t =>
          .noteType (.binary m op l r) t
  | .var m x, h => by
      unfold expr
      refine .get fun c _ => ?_
      split
      · exact .fail h.head _
      · exact (Writes.noteVariable m .access _).bind fun _ => .noteType (.var m x) _
  | .field m e x, h => by
      unfold expr
      refine ((expr_writes e h.tail).bind fun t => .get fun c _ => ?_).last
      dsimp only
      split
      · exact .fail h.head _
      · exact (Writes.noteVariable m .access _).bind fun _ => .noteType (.field m e x) _
  | .call m f es, h => by
      unfold expr
      refine .get fun c hc => ?_
      split
      · exact .fail h.head _
      · next s hs =>
          -- the function has as many parameters as there are arguments
          have hkey : (f, es.length) = s.key := Chain.find_keyed hc.chain hs
          have hlen : es.length = s.parameters.length := congrArg Prod.snd hkey
          exact ((arguments_write es s.parameters (Nat.le_of_eq hlen) h.tail).bind fun _ =>
            (Writes.noteFunction m .functionCall s).bind fun _ =>
              .noteType (.call m f es) s.result).last
  | .invoke m e f es, h => by
      unfold expr
      rw [Expr.nodes, Node.allHeadings_cons, Node.allHeadings_append]
      refine Writes.last ?_
      rw [List.append_assoc]
      refine (expr_writes e h.tail.left).bind fun t => .get fun c hc => ?_
      dsimp only
      split
      · exact .fail h.head _
      · next s hs =>
          -- the receiver stands for the first parameter
          have hkey : (f, es.length + 1) = s.key := (hc.outside.members t).find hs
          have hlen : es.length + 1 = s.parameters.length := congrArg Prod.snd hkey
          have htail : es.length = s.parameters.tail.length := by
            rw [List.length_tail]
            omega
          have harguments := arguments_write es s.parameters.tail (Nat.le_of_eq htail) h.tail.right
          exact harguments.bind fun _ => (Writes.noteFunction m .functionCall s).bind fun _ =>
            .noteType (.invoke m e f es) s.result

theorem arguments_write : ∀ (es : List (Expr Mark)) (ts : List Ty), es.length ≤ ts.length →
    BlamesAll Blamed (Expr.nodesOf es) →
    Writes Blamed (allHeadings (Expr.nodesOf es)) (arguments es ts)
  | [], _, _, _ => by
      unfold arguments
      exact .pure ()
  | e :: es, t :: ts, hlen, h => by
      unfold arguments
      rw [Expr.nodesOf, Node.allHeadings_append]
      have he : BlamesAll Blamed e.nodes := h.left
      exact (expr_writes e he).bind fun actual => (Writes.require he.ofExpr t actual).after fun _ =>
        arguments_write es ts (Nat.le_of_succ_le_succ hlen) h.right

end

theorem declaredType_writes {place : Place} (h : Blamed place) (name : String)
    (typeName : Option String) (value : Option (Expr Mark))
    (hvalue : BlamesAll Blamed (Expr.nodes? value)) :
    Writes Blamed (allHeadings (Expr.nodes? value)) (declaredType place name typeName value) := by
  unfold declaredType
  match typeName, value with
  | some typeName, none => exact .resolveType h typeName
  | some typeName, some e =>
      refine (Writes.resolveType h typeName).after fun declared => ?_
      refine (expr_writes e hvalue).before fun actual => ?_
      exact (Writes.require (BlamesAll.ofExpr hvalue) declared actual).after fun _ => .pure _
  | none, some e => exact expr_writes e hvalue
  | none, none => exact .fail h _

theorem declare_writes {m : Mark} (h : Blamed m.place) (node : NodeClass) (name : String)
    (typeName : Option String) (value : Option (Expr Mark))
    (hvalue : BlamesAll Blamed (Expr.nodes? value)) :
    Writes Blamed (⟨.ofVariable, m, node⟩ :: allHeadings (Expr.nodes? value))
      (declare m node name typeName value) :=
  ((declaredType_writes h name typeName value hvalue).bind fun t =>
    (Writes.defineVariable h name t).after fun v => .noteVariable m node v).last

mutual

theorem stmt_writes : ∀ s : Stmt Mark, BlamesAll Blamed s.nodes →
    Writes Blamed (allHeadings s.nodes) (stmt s)
  | .expr m e, h => by
      unfold stmt
      split
      · exact (expr_writes e h.tail).before fun _ => .pure ()
      · exact .fail h.head _
  | .declare m x t e, h => by
      unfold stmt
      exact declare_writes h.head .declaration x t e h.tail
  | .assign m l e, h => by
      unfold stmt
      split
      · have he : BlamesAll Blamed e.nodes := h.tail.right
        rw [Stmt.nodes, Node.allHeadings_cons, Node.allHeadings_append]
        refine (expr_writes l h.tail.left).bind fun target => ?_
        exact (expr_writes e he).before fun actual =>
          .require he.ofExpr target actual
      · exact .fail h.head _
  | .branch m c t e, h => by
      unfold stmt
      have hc : BlamesAll Blamed c.nodes := h.tail.left
      rw [Stmt.nodes, Node.allHeadings_cons, Node.allHeadings_append, Node.allHeadings_append]
      refine (expr_writes c hc).bind fun actual =>
        (Writes.require hc.ofExpr .boolean actual).after fun _ => ?_
      split
      · exact .fail h.head _
      · exact (Writes.inScope (block_writes t h.tail.right.left)).bind fun _ =>
          .inScope (block_writes e h.tail.right.right)
  | .forIn m x e b, h => by
      unfold stmt
      have he : BlamesAll Blamed e.nodes := h.tail.left
      rw [Stmt.nodes, Node.allHeadings_cons, Node.allHeadings_append]
      refine (expr_writes e he).bind fun actual => ?_
      split
      · split
        · exact .fail h.head _
        · exact .inScope ((Writes.defineVariable h.head x .integer).after fun _ =>
            block_writes b h.tail.right)
      · exact .fail he.ofExpr _
  | .loop _ c b, h => by
      unfold stmt
      have hc : BlamesAll Blamed c.nodes := h.tail.left
      rw [Stmt.nodes, Node.allHeadings_cons, Node.allHeadings_append]
      exact (expr_writes c hc).bind fun actual =>
        (Writes.require hc.ofExpr .boolean actual).after fun _ =>
          .inScope (block_writes b h.tail.right)
  | .ret m e, h => by
      unfold stmt
      refine .get fun c _ => ?_
      split
      · exact .fail h.head _
      · have he : BlamesAll Blamed e.nodes := h.tail
        refine (expr_writes e he).before fun actual => ?_
        split
        · exact .pure ()
        · exact .fail he.ofExpr _

theorem block_writes : ∀ ss : List (Stmt Mark), BlamesAll Blamed (Stmt.nodesOf ss) →
    Writes Blamed (allHeadings (Stmt.nodesOf ss)) (block ss)
  | [], _ => by
      unfold block
      exact .pure ()
  | s :: ss, h => by
      unfold block
      rw [Stmt.nodesOf, Node.allHeadings_append]
      exact (stmt_writes s h.left).bind fun _ => block_writes ss h.right

end

theorem parameters_write {m : Mark} (h : Blamed m.place) :
    ∀ ps, Writes Blamed [] (parameters m ps)
  | [] => .pure ()
  | (x, t) :: ps => (Writes.defineVariable h x t).after fun _ => parameters_write h ps

theorem method_writes (d : Method Mark) (h : BlamesAll Blamed d.nodes) :
    Writes Blamed (allHeadings d.nodes) (method d) := by
  have hd : Blamed d.tag.place := h.head
  have hresult : Writes Blamed [] (resultType d.tag.place d.returnType) := by
    unfold resultType
    split
    · exact .resolveType hd _
    · exact .pure _
  refine hresult.after fun result => (Writes.resolveTypes hd d.parameterTypes).after fun types => ?_
  refine (Writes.defineMethod hd _).after fun _ =>
    (Writes.noteFunction d.tag .method _).bind fun _ => ?_
  exact .returning result (.inScope ((parameters_write hd _).after fun _ =>
    block_writes d.body h.tail))

theorem fields_write : ∀ fs : List (Field Mark), BlamesAll Blamed (fs.flatMap Field.nodes) →
    Writes Blamed (allHeadings (fs.flatMap Field.nodes)) (fields fs)
  | [], _ => .pure ()
  | f :: fs, h => by
      rw [List.flatMap_cons, Node.allHeadings_append]
      have hf : BlamesAll Blamed f.nodes := BlamesAll.left (List.flatMap_cons ▸ h)
      have hfs : BlamesAll Blamed (fs.flatMap Field.nodes) :=
        BlamesAll.right (List.flatMap_cons ▸ h)
      exact (declare_writes hf.head .field f.name f.typeName f.value hf.tail).bind fun _ =>
        fields_write fs hfs

theorem methods_write : ∀ ds : List (Method Mark), BlamesAll Blamed (ds.flatMap Method.nodes) →
    Writes Blamed (allHeadings (ds.flatMap Method.nodes)) (methods ds)
  | [], _ => .pure ()
  | d :: ds, h => by
      rw [List.flatMap_cons, Node.allHeadings_append]
      have hd : BlamesAll Blamed d.nodes := BlamesAll.left (List.flatMap_cons ▸ h)
      have hds : BlamesAll Blamed (ds.flatMap Method.nodes) :=
        BlamesAll.right (List.flatMap_cons ▸ h)
      exact (method_writes d hd).bind fun _ => methods_write ds hds

/-- Checking a program writes the facts that its nodes ask for. -/
theorem program_writes (p : Program Mark) (h : BlamesAll Blamed p.nodes) (hnone : Blamed none)
    (hp : Blamed p.tag.place) : Writes Blamed (allHeadings p.nodes) (program p) := by
  have hmain : Blamed (mainPlace p) := by
    unfold mainPlace
    split
    · next d hd =>
        exact h.right (.method d) (List.mem_flatMap.mpr
          ⟨d, List.mem_of_find?_eq_some hd, List.mem_cons_self⟩)
    · exact hp
  rw [Program.nodes, Node.allHeadings_append]
  refine (fields_write p.fields h.left).bind fun _ => ?_
  refine (methods_write p.methods h.right).before fun _ => .get fun c _ => ?_
  split
  · exact .fail hnone _
  · exact .require hmain _ _

end Check

/-! ## Whole programs

A numbered program has no number twice, so at the start all of its facts are lacking. -/

theorem Checker.start_keyed {o : StaticOutside} (ho : o.Keyed) : (Checker.start o).Keyed := by
  refine ⟨ho, List.forall_mem_cons.mpr ⟨?_, ho.frames⟩⟩
  intro b hb
  obtain ⟨s, -, rfl⟩ := List.mem_map.mp hb
  rfl

section

variable {o : StaticOutside} {q : Program Place}

theorem Program.mark_nodup (q : Program Place) (n : Nat) :
    ((q.mark n).1.nodes.map (·.tag.id)).Nodup := by
  obtain ⟨len, -, hids⟩ := q.mark_numbered n
  exact hids ▸ List.nodup_range'

theorem Check.program_ends (ho : o.Keyed) (Blamed : Place → Prop)
    (h : BlamesAll Blamed (q.mark 0).1.nodes) (hnone : Blamed none) (hq : Blamed q.tag) :
    Ends (Check.program (q.mark 0).1 (Checker.start o))
      (fun _ d => d.model.headings ~ Node.allHeadings (q.mark 0).1.nodes)
      fun e _ => ∃ cause place, e = .error ⟨cause, place⟩ ∧ Blamed place := by
  have hlacks : (Checker.start o).model.Lacks (Node.allHeadings (q.mark 0).1.nodes) := by
    have hempty : (Checker.start o).model.headings = [] := rfl
    rw [Model.Lacks, hempty, List.append_nil]
    exact Node.nodup_allHeadings (q.mark_nodup 0)
  refine (program_writes _ h hnone hq _ (Checker.start_keyed ho) hlacks).imp ?_ fun _ _ h => h
  rintro _ d ⟨-, hperm⟩
  exact hperm.trans (List.append_nil _ ▸ .refl _)

/-- The model of an accepted program has the facts that its nodes ask for. -/
theorem Checker.headings_of_check (ho : o.Keyed) {M : Model}
    (h : ((Checker.start o).check (q.mark 0).1).1 = .ok M) :
    M.headings ~ Node.allHeadings (q.mark 0).1.nodes := by
  have hends := Check.program_ends (q := q) ho (fun _ => True) (fun _ _ => trivial) trivial
    trivial
  unfold Checker.check at h
  split at h
  · next d hrun =>
      cases h
      exact hends.ok_of hrun
  · cases h

/-- A program that is refused has an error, at one of its nodes or at none. -/
theorem Checker.error_of_check (ho : o.Keyed) (Blamed : Place → Prop)
    (hall : BlamesAll Blamed (q.mark 0).1.nodes) (hnone : Blamed none) (hq : Blamed q.tag)
    {e : CheckFailure} (h : ((Checker.start o).check (q.mark 0).1).1 = .error e) :
    ∃ cause place, e = .error ⟨cause, place⟩ ∧ Blamed place := by
  have hends := Check.program_ends ho Blamed hall hnone hq
  unfold Checker.check at h
  split at h
  · cases h
  · next d hrun =>
      cases h
      exact hends.error_of hrun

end

end QuillLang
