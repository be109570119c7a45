/-
# Complete models

Checking an accepted program writes one fact under each heading that its nodes
ask for, and nothing else (`Checker.headings_of_check`).  So its model is
complete: every expression has its type, every access and declaration its
variable, every call and method its function, each once
(`Source.model_complete`).
-/
import QuillLang.Proofs.CallResolution
import QuillLang.Proofs.WrittenFacts

namespace QuillLang

open scoped List

namespace Model

/-- The number of nodes that are to have a fact of a kind. -/
def wanted (k : Slot) (ns : List (Node Mark)) : Nat := ns.countP fun x => (x.carries k).isSome

/-- A model has one fact of a kind about every node that is to have one, and no others. -/
structure Describes (M : Model) (p : Program Mark) : Prop where
  one : ∀ k, ∀ x ∈ p.nodes, ∀ node, x.carries k = some node →
    (M.listing k).filter (·.1.id = x.tag.id) = [(x.tag, node)]
  only : ∀ k, ∀ a ∈ M.listing k, ∃ x ∈ p.nodes, x.tag = a.1 ∧ x.carries k = some a.2
  size : M.size = wanted .ofType p.nodes + wanted .ofVariable p.nodes + wanted .ofFunction p.nodes

theorem length_allHeadings (ns : List (Node Mark)) : (Node.allHeadings ns).length =
    wanted .ofType ns + wanted .ofVariable ns + wanted .ofFunction ns := by
  induction ns with
  | nil => rfl
  | cons x ns ih =>
      have hx : x.headings.length = (if (x.carries .ofType).isSome then 1 else 0) +
          (if (x.carries .ofVariable).isSome then 1 else 0) +
          (if (x.carries .ofFunction).isSome then 1 else 0) := by
        rw [Node.headings, List.length_filterMap_eq_countP]
        simp only [Option.isSome_map, Slot.all, List.countP_cons, List.countP_nil]
        omega
      simp only [wanted, List.countP_cons] at ih ⊢
      rw [Node.allHeadings_cons, List.length_append, ih, hx]
      omega

/-- Of things told apart by their numbers, one alone has its number. -/
theorem filter_eq_singleton {l : List (Mark × NodeClass)} (h : (l.map (·.1.id)).Nodup)
    {a : Mark × NodeClass} (ha : a ∈ l) : l.filter (·.1.id = a.1.id) = [a] := by
  induction l with
  | nil => cases ha
  | cons b l ih =>
      obtain ⟨hb, hl⟩ := List.nodup_cons.mp h
      rcases List.mem_cons.mp ha with rfl | ha
      · rw [List.filter_cons_of_pos (by simp), List.filter_eq_nil_iff.mpr]
        intro x hx hid
        exact hb (List.mem_map.mpr ⟨x, hx, of_decide_eq_true hid⟩)
      · rw [List.filter_cons_of_neg, ih hl ha]
        intro hid
        exact hb (List.mem_map.mpr ⟨a, ha, (of_decide_eq_true hid).symm⟩)

theorem listing_nodup {M : Model} (h : (M.headings.map Heading.key).Nodup) (k : Slot) :
    ((M.listing k).map (·.1.id)).Nodup := by
  have hsub : (M.listing k).map (fun a => (⟨k, a.1, a.2⟩ : Heading)) <+ M.headings := by
    cases k with
    | ofVariable => exact List.sublist_append_left _ _
    | ofFunction =>
        exact (List.sublist_append_left _ _).trans (List.sublist_append_right _ _)
    | ofType =>
        exact ((List.sublist_append_left _ _).trans (List.sublist_append_right _ _)).trans
          (List.sublist_append_right _ _)
  have hkeys := h.sublist (hsub.map Heading.key)
  rw [List.map_map] at hkeys
  refine List.Nodup.of_map (Prod.mk k) ?_
  rwa [List.map_map]

theorem describes_of_headings {M : Model} {p : Program Mark} (hp : (p.nodes.map (·.tag.id)).Nodup)
    (h : M.headings ~ Node.allHeadings p.nodes) : M.Describes p where
  one k x hx node hnode := by
    have hheading : (⟨k, x.tag, node⟩ : Heading) ∈ M.headings :=
      h.mem_iff.mpr (List.mem_flatMap.mpr ⟨x, hx, Node.mem_headings hnode⟩)
    have hmem : (x.tag, node) ∈ M.listing k := by
      obtain ⟨j, -, hj⟩ := List.mem_flatMap.mp hheading
      obtain ⟨a, ha, heq⟩ := List.mem_map.mp hj
      obtain ⟨rfl, hmark, hnode⟩ := Heading.mk.inj heq
      rw [← hmark, ← hnode]
      exact ha
    have hnodup : (M.headings.map Heading.key).Nodup :=
      (h.map Heading.key).nodup_iff.mpr (Node.nodup_allHeadings hp)
    exact filter_eq_singleton (listing_nodup hnodup k) hmem
  only k a ha := by
    obtain ⟨x, hx, hheading⟩ := List.mem_flatMap.mp (h.mem_iff.mp (mem_headings ha))
    obtain ⟨hmark, hnode⟩ := Node.mark_of_mem_headings hheading
    exact ⟨x, hx, hmark.symm, hnode⟩
  size := by rw [size_eq_length, h.length_eq, length_allHeadings]

end Model

/-- Reading a text gives no node a fact. -/
theorem Source.program_ne_resolved (s : Source) (node : NodeClass) (slot : Slot) :
    s.program ≠ .error (.resolved node slot) := by
  intro h
  unfold program parseWith tokens at h
  cases hts : tokenize s.text s.file with
  | error e => rw [hts] at h; cases h
  | ok ts =>
      rw [hts] at h
      cases hp : parseProgram ts with
      | ok p =>
          simp only [Except.mapError, bind, Except.bind, hp] at h
          cases h
      | error e =>
          simp only [Except.mapError, bind, Except.bind, hp] at h
          cases e <;> cases h

/-- The model of an accepted program has one type for every expression, one variable for every
access, declaration and field, one function for every call and method, and nothing else; and no
program, accepted or not, has a node that is given a second fact. -/
theorem Source.model_complete (s : Source) (o : Embedding) (ho : o.static.Keyed) :
    (∀ M, s.check o = .ok M → ∃ q, s.program = .ok q ∧ M.Describes (q.mark 0).1) ∧
    ∀ node slot, s.check o ≠ .error (.resolved node slot) := by
  cases hq : s.program with
  | error e =>
      have hcheck : s.check o = .error e := by rw [Source.check, hq]; rfl
      rw [hcheck]
      refine ⟨fun M hM => ?_, fun node slot hr => ?_⟩
      · cases hM
      · cases hr
        exact s.program_ne_resolved node slot hq
  | ok q =>
      have hcheck : s.check o = ((Checker.start o.static).check (q.mark 0).1).1.mapError
          (CheckFailure.failure s.text) := by rw [Source.check, hq]; rfl
      rw [hcheck]
      cases hc : ((Checker.start o.static).check (q.mark 0).1).1 with
      | ok M =>
          refine ⟨fun M' hM => ?_, fun node slot hr => ?_⟩
          · cases hM
            exact ⟨q, rfl, Model.describes_of_headings (q.mark_nodup 0)
              (Checker.headings_of_check ho hc)⟩
          · cases hr
      | error e =>
          obtain ⟨cause, place, rfl, -⟩ := Checker.error_of_check ho (fun _ => True)
            (fun _ _ => trivial) trivial trivial hc
          refine ⟨fun M hM => ?_, fun node slot hr => ?_⟩
          · cases hM
          · cases hr

/-- A program with every kind of fact, some of them about what is lent. -/
def Source.factual : Source :=
  { text := "LET n = 1.5; DEF k(): Integer DO RETURN 3; END " ++
      "DEF main(): Integer DO LET p = point(1, k()); " ++
      "FOR i IN range(0, p.sum()) DO p.y = (i + 1); END RETURN seed; END" }

theorem Source.factual_complete : ∃ M q, factual.check .points = .ok M ∧ Points.static.Keyed ∧
    factual.program = .ok q ∧ M.size = 29 ∧ M.Describes (q.mark 0).1 := by
  have hsize : ((factual.check .points).map Model.size).toOption = some 29 := by decide +kernel
  cases hM : factual.check .points with
  | error e => rw [hM] at hsize; cases hsize
  | ok M =>
      rw [hM] at hsize
      obtain ⟨q, hq, hdescribes⟩ :=
        (Source.model_complete factual .points Points.static_keyed).1 M hM
      exact ⟨M, q, rfl, Points.static_keyed, hq, Option.some.inj hsize, hdescribes⟩

end QuillLang
