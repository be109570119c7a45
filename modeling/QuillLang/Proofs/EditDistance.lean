/-
# Edits and the distance of two texts

A script is a row of edits, each of which inserts, deletes or substitutes one
character of the text that the edits before it have left.  The distance of two
texts is the length of a shortest script from one to the other
(`distance_shortest_script`).

The rows that the distance is computed from know nothing of scripts, whose
edits may come in any order and may undo each other.  Between the two stand
alignments: an alignment goes through both texts once, from their beginnings on,
and leaves out or pairs their characters.

* A script of the same length can be made from an alignment, edit by edit
  (`Aligned.exists_script`).
* One more edit makes alignments dearer by one at most, since it touches one
  stretch of the text, and the alignment can be cut around that stretch
  (`Aligned.of_edit`).  So no script is shorter than all alignments.
* The least cost of aligning two texts is settled by the costs of the three pairs
  that lack one last character or both (`Least.cell`), and so each row holds the
  least costs for all beginnings of the second text (`Row`).
-/
import QuillLang.Suggestion
import Mathlib.Data.List.Induction
import Mathlib.Order.Bounds.Basic

namespace QuillLang

/-! ## Scripts

An edit refers to the text that it finds, so a position means something else after each step.  What
makes scripts manageable is that an edit works in the same way with more text behind it. -/

/-- A change of one character. -/
inductive Edit where
  | insert (position : Nat) (c : Char)
  | delete (position : Nat)
  | substitute (position : Nat) (c : Char)
deriving DecidableEq, Repr

/-- Other characters in the place of the `count` that stand at a position, if there are so many. -/
def replaceAt? (position count : Nat) (added s : List Char) : Option (List Char) :=
  if position + count ≤ s.length then some (s.take position ++ (added ++ s.drop (position + count)))
  else none

theorem replaceAt?_eq_some {i n : Nat} {added s t : List Char}
    (h : replaceAt? i n added s = some t) : ∃ before removed after,
      s = before ++ (removed ++ after) ∧ t = before ++ (added ++ after) ∧
        before.length = i ∧ removed.length = n := by
  obtain ⟨hi, ht⟩ := Option.ite_none_right_eq_some.mp h
  refine ⟨s.take i, (s.drop i).take n, s.drop (i + n), ?_, (Option.some.inj ht).symm, ?_, ?_⟩
  · rw [← List.drop_drop, List.take_append_drop, List.take_append_drop]
  · rw [List.length_take]
    omega
  · rw [List.length_take, List.length_drop]
    omega

theorem replaceAt?_append (before removed added after : List Char) :
    replaceAt? before.length removed.length added (before ++ (removed ++ after)) =
      some (before ++ (added ++ after)) := by
  rw [replaceAt?, if_pos (by simp), List.take_left, ← List.drop_drop, List.drop_left,
    List.drop_left]

namespace Edit

/-- The text after an edit, if the text has the position of the edit. -/
def perform? : Edit → List Char → Option (List Char)
  | insert i c => replaceAt? i 0 [c]
  | delete i => replaceAt? i 1 []
  | substitute i c => replaceAt? i 1 [c]

/-- The text after a script. -/
def performAll? : List Edit → List Char → Option (List Char)
  | [], s => some s
  | e :: script, s => (e.perform? s).bind (performAll? script)

/-- The lengths of the scripts that turn a text into another one. -/
def scriptLengths (s t : List Char) : Set Nat :=
  {n | ∃ script, script.length = n ∧ performAll? script s = some t}

/-- An edit puts one character or none in the place of one or none. -/
theorem perform?_eq_replaceAt? (e : Edit) : ∃ i n added, n ≤ 1 ∧ List.length added ≤ 1 ∧
    e.perform? = replaceAt? i n added := by
  cases e with
  | insert i c => exact ⟨i, 0, [c], by decide, Nat.le_refl 1, rfl⟩
  | delete i => exact ⟨i, 1, [], by decide, Nat.zero_le 1, rfl⟩
  | substitute i c => exact ⟨i, 1, [c], by decide, Nat.le_refl 1, rfl⟩

/-- What stands behind a text does not matter to an edit of it. -/
theorem perform?_append {e : Edit} {s t : List Char} (h : e.perform? s = some t)
    (rest : List Char) : e.perform? (s ++ rest) = some (t ++ rest) := by
  obtain ⟨i, n, added, -, -, he⟩ := e.perform?_eq_replaceAt?
  rw [he] at h ⊢
  obtain ⟨before, removed, after, rfl, rfl, rfl, rfl⟩ := replaceAt?_eq_some h
  simp only [List.append_assoc]
  exact replaceAt?_append before removed added (after ++ rest)

theorem insert_at_end (s : List Char) (c : Char) :
    (insert s.length c).perform? s = some (s ++ [c]) := by
  simpa [perform?] using replaceAt?_append s [] [c] []

theorem delete_at_end (s : List Char) (c : Char) :
    (delete s.length).perform? (s ++ [c]) = some s := by
  simpa [perform?] using replaceAt?_append s [c] [] []

theorem substitute_at_end (s : List Char) (c d : Char) :
    (substitute s.length d).perform? (s ++ [c]) = some (s ++ [d]) :=
  replaceAt?_append s [c] [d] []

@[simp] theorem performAll?_append (script rest : List Edit) (s : List Char) :
    performAll? (script ++ rest) s = (performAll? script s).bind (performAll? rest) := by
  induction script generalizing s with
  | nil => rfl
  | cons e script ih =>
      simp only [List.cons_append, performAll?]
      cases e.perform? s with
      | none => rfl
      | some s' => exact ih s'

theorem performAll?_append_text {script : List Edit} {s t : List Char}
    (h : performAll? script s = some t) (rest : List Char) :
    performAll? script (s ++ rest) = some (t ++ rest) := by
  induction script generalizing s with
  | nil =>
      cases h
      rfl
  | cons e script ih =>
      obtain ⟨s', hs', h⟩ := Option.bind_eq_some_iff.mp h
      rw [performAll?, perform?_append hs' rest]
      exact ih h

end Edit

namespace Distance

/-! ## Alignments

Alignments are built up at the end of both texts.  They can be put one after the other, and cut
wherever the first text is cut, which scripts cannot. -/

/-- What it costs to have one character in the place of another. -/
def pairCost (c d : Char) : Nat := if c = d then 0 else 1

/-- Two texts can be aligned at a cost. -/
inductive Aligned : List Char → List Char → Nat → Prop where
  | nil : Aligned [] [] 0
  | delete {s t : List Char} {n : Nat} (c : Char) : Aligned s t n → Aligned (s ++ [c]) t (n + 1)
  | insert {s t : List Char} {n : Nat} (d : Char) : Aligned s t n → Aligned s (t ++ [d]) (n + 1)
  | pair {s t : List Char} {n : Nat} (c d : Char) :
      Aligned s t n → Aligned (s ++ [c]) (t ++ [d]) (n + pairCost c d)

namespace Aligned

variable {s t : List Char} {n : Nat}

theorem symm (h : Aligned s t n) : Aligned t s n := by
  induction h with
  | nil => exact .nil
  | delete c _ ih => exact .insert c ih
  | insert d _ ih => exact .delete d ih
  | pair c d _ ih =>
      have hcost : pairCost c d = pairCost d c := by simp only [pairCost, eq_comm]
      rw [hcost]
      exact .pair d c ih

theorem append {s' t' : List Char} {n' : Nat} (h : Aligned s t n) (h' : Aligned s' t' n') :
    Aligned (s ++ s') (t ++ t') (n + n') := by
  induction h' with
  | nil => simpa using h
  | delete c _ ih =>
      rw [← List.append_assoc, ← Nat.add_assoc]
      exact .delete c ih
  | insert d _ ih =>
      rw [← List.append_assoc, ← Nat.add_assoc]
      exact .insert d ih
  | pair c d _ ih =>
      rw [← List.append_assoc, ← List.append_assoc, ← Nat.add_assoc]
      exact .pair c d ih

/-- Where a text that ends with a character can be cut in two: at its end, or before that. -/
theorem cut_cases {a b : List Char} {c : Char} (h : s ++ [c] = a ++ b) :
    b = [] ∧ a = s ++ [c] ∨ ∃ b', b = b' ++ [c] ∧ s = a ++ b' := by
  rcases List.eq_nil_or_concat b with rfl | ⟨b', c', rfl⟩
  · exact .inl ⟨rfl, by rw [h, List.append_nil]⟩
  · rw [List.concat_eq_append, ← List.append_assoc] at h
    obtain ⟨hs, hc⟩ := List.append_inj' h rfl
    exact .inr ⟨b', by rw [List.concat_eq_append, hc], hs⟩

/-- An alignment can be cut wherever the first text is. -/
theorem split (h : Aligned s t n) : ∀ {a b : List Char}, s = a ++ b →
    ∃ t₁ t₂ n₁ n₂, t = t₁ ++ t₂ ∧ n = n₁ + n₂ ∧ Aligned a t₁ n₁ ∧ Aligned b t₂ n₂ := by
  induction h with
  | nil =>
      intro a b hs
      obtain ⟨rfl, rfl⟩ := List.append_eq_nil_iff.mp hs.symm
      exact ⟨[], [], 0, 0, rfl, rfl, .nil, .nil⟩
  | @delete s t n c h ih =>
      intro a b hs
      rcases cut_cases hs with ⟨rfl, rfl⟩ | ⟨b, rfl, hcut⟩
      · exact ⟨t, [], n + 1, 0, by simp, rfl, .delete c h, .nil⟩
      · obtain ⟨t₁, t₂, n₁, n₂, rfl, rfl, h₁, h₂⟩ := ih hcut
        exact ⟨t₁, t₂, n₁, n₂ + 1, rfl, rfl, h₁, .delete c h₂⟩
  | insert d _ ih =>
      intro a b hs
      obtain ⟨t₁, t₂, n₁, n₂, rfl, rfl, h₁, h₂⟩ := ih hs
      exact ⟨t₁, t₂ ++ [d], n₁, n₂ + 1, List.append_assoc .., rfl, h₁, .insert d h₂⟩
  | @pair s t n c d h ih =>
      intro a b hs
      rcases cut_cases hs with ⟨rfl, rfl⟩ | ⟨b, rfl, hcut⟩
      · exact ⟨t ++ [d], [], n + pairCost c d, 0, by simp, rfl, .pair c d h, .nil⟩
      · obtain ⟨t₁, t₂, n₁, n₂, rfl, rfl, h₁, h₂⟩ := ih hcut
        exact ⟨t₁, t₂ ++ [d], n₁, n₂ + pairCost c d, List.append_assoc .., Nat.add_assoc .., h₁,
          .pair c d h₂⟩

/-- The second text is longer by no more than the cost. -/
theorem length_le (h : Aligned s t n) : t.length ≤ s.length + n := by
  induction h with
  | nil => exact Nat.le_refl 0
  | _ =>
      simp only [List.length_append, List.length_singleton]
      omega

theorem self (s : List Char) : Aligned s s 0 := by
  induction s using List.reverseRecOn with
  | nil => exact .nil
  | append_singleton s c ih =>
      have h := Aligned.pair c c ih
      rwa [pairCost, if_pos rfl] at h

theorem nil_left (t : List Char) : Aligned [] t t.length := by
  induction t using List.reverseRecOn with
  | nil => exact .nil
  | append_singleton t d ih =>
      rw [List.length_append]
      exact .insert d ih

/-- Pairing as many characters as there are is one way to align two texts. -/
theorem exists_le_max (s t : List Char) : ∃ n ≤ max s.length t.length, Aligned s t n := by
  induction s using List.reverseRecOn generalizing t with
  | nil => exact ⟨t.length, by simp, nil_left t⟩
  | append_singleton s c ih =>
      rcases List.eq_nil_or_concat t with rfl | ⟨t, d, rfl⟩
      · exact ⟨(s ++ [c]).length, by simp, (nil_left _).symm⟩
      · obtain ⟨n, hn, h⟩ := ih t
        refine ⟨n + pairCost c d, ?_, ?_⟩
        · have hcost : pairCost c d ≤ 1 := by unfold pairCost; split <;> omega
          simp only [List.concat_eq_append, List.length_append, List.length_singleton]
          omega
        · rw [List.concat_eq_append]
          exact .pair c d h

/-! ## Alignments and scripts

An alignment is a script that works through the text once.  Conversely a script is taken back edit
by edit, from the text it ends with, and each edit costs one alignment at most. -/

/-- An alignment is carried out by a script that works through it. -/
theorem exists_script (h : Aligned s t n) :
    ∃ script : List Edit, script.length = n ∧ Edit.performAll? script s = some t := by
  induction h with
  | nil => exact ⟨[], rfl, rfl⟩
  | @delete s t n c _ ih =>
      obtain ⟨script, hlength, hscript⟩ := ih
      refine ⟨script ++ [.delete t.length], by simp [hlength], ?_⟩
      simp [Edit.performAll?_append_text hscript, Edit.performAll?, Edit.delete_at_end]
  | @insert s t n d _ ih =>
      obtain ⟨script, hlength, hscript⟩ := ih
      refine ⟨script ++ [.insert t.length d], by simp [hlength], ?_⟩
      simp [hscript, Edit.performAll?, Edit.insert_at_end]
  | @pair s t n c d _ ih =>
      obtain ⟨script, hlength, hscript⟩ := ih
      by_cases hcd : c = d
      · subst hcd
        exact ⟨script, by simp [hlength, pairCost], Edit.performAll?_append_text hscript [c]⟩
      · refine ⟨script ++ [.substitute t.length d], by simp [hlength, pairCost, hcd], ?_⟩
        simp [Edit.performAll?_append_text hscript, Edit.performAll?, Edit.substitute_at_end]

/-- Another stretch of one character at most costs one more at most. -/
theorem of_short {x y : List Char} (hx : x.length ≤ 1) (hy : y.length ≤ 1) (h : Aligned y t n) :
    ∃ m ≤ n + 1, Aligned x t m := by
  obtain ⟨m, hm, hx'⟩ := exists_le_max x t
  have hlength := h.length_le
  exact ⟨m, by omega, hx'⟩

/-- Before an edit the cost was higher by one at most. -/
theorem of_edit {e : Edit} {s' : List Char} (he : e.perform? s = some s') (h : Aligned s' t n) :
    ∃ m ≤ n + 1, Aligned s t m := by
  obtain ⟨i, k, added, hk, hadded, heq⟩ := e.perform?_eq_replaceAt?
  rw [heq] at he
  obtain ⟨before, removed, after, rfl, rfl, -, rfl⟩ := replaceAt?_eq_some he
  obtain ⟨t₁, t₂₃, n₁, n₂₃, rfl, rfl, h₁, h₂₃⟩ := h.split rfl
  obtain ⟨t₂, t₃, n₂, n₃, rfl, rfl, h₂, h₃⟩ := h₂₃.split rfl
  obtain ⟨m, hm, hmid⟩ := of_short hk hadded h₂
  exact ⟨n₁ + (m + n₃), by omega, h₁.append (hmid.append h₃)⟩

theorem of_script {script : List Edit} (h : Edit.performAll? script s = some t) :
    ∃ m ≤ script.length, Aligned s t m := by
  induction script generalizing s with
  | nil =>
      obtain rfl : s = t := Option.some.inj h
      exact ⟨0, Nat.le_refl 0, self s⟩
  | cons e script ih =>
      obtain ⟨s', hs', h⟩ := Option.bind_eq_some_iff.mp h
      obtain ⟨m, hm, haligned⟩ := ih h
      obtain ⟨k, hk, haligned⟩ := of_edit hs' haligned
      exact ⟨k, by rw [List.length_cons]; omega, haligned⟩

/-- How two texts that go on by one character each can be aligned. -/
theorem concat_cases {c d : Char} (h : Aligned (s ++ [c]) (t ++ [d]) n) :
    (∃ m, Aligned s (t ++ [d]) m ∧ n = m + 1) ∨ (∃ m, Aligned (s ++ [c]) t m ∧ n = m + 1) ∨
      ∃ m, Aligned s t m ∧ n = m + pairCost c d := by
  generalize hs : s ++ [c] = s' at h
  generalize ht : t ++ [d] = t' at h
  cases h with
  | nil => exact absurd hs (by simp)
  | @delete _ _ m c' h =>
      obtain ⟨rfl, -⟩ := List.append_inj' hs rfl
      exact .inl ⟨m, h, rfl⟩
  | @insert _ _ m d' h =>
      obtain ⟨rfl, -⟩ := List.append_inj' ht rfl
      exact .inr (.inl ⟨m, h, rfl⟩)
  | @pair _ _ m c' d' h =>
      obtain ⟨rfl, hc⟩ := List.append_inj' hs rfl
      obtain ⟨rfl, hd⟩ := List.append_inj' ht rfl
      cases hc
      cases hd
      exact .inr (.inr ⟨m, h, rfl⟩)

end Aligned

/-! ## Least costs

The last characters of both texts are paired or one of them is left out, and so the least cost of
two texts follows from the least costs where one or both lack their last character. -/

/-- The least cost of aligning two texts. -/
def Least (s t : List Char) (n : Nat) : Prop := IsLeast {m | Aligned s t m} n

namespace Least

variable {s t : List Char} {n : Nat}

theorem symm (h : Least s t n) : Least t s n := ⟨h.1.symm, fun _ hm => h.2 (Aligned.symm hm)⟩

theorem nil_left (t : List Char) : Least [] t t.length := by
  refine ⟨Aligned.nil_left t, fun m hm => ?_⟩
  have hlength := Aligned.length_le hm
  rwa [List.length_nil, Nat.zero_add] at hlength

theorem nil_right (s : List Char) : Least s [] s.length := (nil_left s).symm

/-- The cost of two texts from the costs where one or both lack their last character. -/
theorem cell {c d : Char} {up left diagonal : Nat} (hup : Least s (t ++ [d]) up)
    (hleft : Least (s ++ [c]) t left) (hdiagonal : Least s t diagonal) :
    Least (s ++ [c]) (t ++ [d])
      (min (min (up + 1) (left + 1)) (diagonal + pairCost c d)) := by
  refine ⟨?_, fun m hm => ?_⟩
  · have hmin : ∀ a b k : Nat, min (min a b) k = a ∨ min (min a b) k = b ∨ min (min a b) k = k := by
      omega
    rcases hmin (up + 1) (left + 1) (diagonal + pairCost c d) with h | h | h
    · rw [h]
      exact Aligned.delete c hup.1
    · rw [h]
      exact Aligned.insert d hleft.1
    · rw [h]
      exact Aligned.pair c d hdiagonal.1
  · rcases Aligned.concat_cases hm with ⟨k, hk, rfl⟩ | ⟨k, hk, rfl⟩ | ⟨k, hk, rfl⟩
    · have := hup.2 hk
      omega
    · have := hleft.2 hk
      omega
    · have := hdiagonal.2 hk
      omega

/-- A shortest script is as long as a cheapest alignment costs. -/
theorem isLeast_scriptLengths (h : Least s t n) : IsLeast (Edit.scriptLengths s t) n := by
  refine ⟨Aligned.exists_script h.1, ?_⟩
  rintro _ ⟨script, rfl, hscript⟩
  obtain ⟨m, hm, haligned⟩ := Aligned.of_script hscript
  exact Nat.le_trans (h.2 haligned) hm

end Least

/-! ## Rows

A row holds the least costs of one text and all beginnings of the other, and the next row is
computed from it, entry by entry.  The distance is the last entry of the last row. -/

/-- The least costs of aligning a text with one beginning of another text after the other, from
`before` up to all of `before ++ rest`. -/
inductive Row (s : List Char) : (before rest : List Char) → List Nat → Prop where
  | last {before : List Char} {n : Nat} : Least s before n → Row s before [] [n]
  | next {before rest : List Char} {d : Char} {n : Nat} {row : List Nat} :
      Least s before n → Row s (before ++ [d]) rest row → Row s before (d :: rest) (n :: row)

namespace Row

variable {s before rest : List Char} {row : List Nat}

theorem exists_cons (h : Row s before rest row) :
    ∃ n above, row = n :: above ∧ Least s before n := by
  cases h with
  | last hn => exact ⟨_, [], rfl, hn⟩
  | next hn _ => exact ⟨_, _, rfl, hn⟩

theorem getLast? (h : Row s before rest row) :
    ∃ n, row.getLast? = some n ∧ Least s (before ++ rest) n := by
  induction h with
  | @last before n hn => exact ⟨n, rfl, by rwa [List.append_nil]⟩
  | @next before rest d m row _ hrow ih =>
      obtain ⟨n, hlast, hn⟩ := ih
      obtain ⟨k, above, rfl, -⟩ := hrow.exists_cons
      refine ⟨n, ?_, ?_⟩
      · rw [List.getLast?_cons_cons, hlast]
      · rwa [List.append_assoc] at hn

theorem start (before rest : List Char) :
    Row [] before rest (List.range' before.length (rest.length + 1)) := by
  induction rest generalizing before with
  | nil => exact .last (.nil_left before)
  | cons d rest ih =>
      have h := ih (before ++ [d])
      rw [List.length_append, List.length_singleton] at h
      exact .next (.nil_left before) h

/-- The entries of a row are worked out from left to right. -/
theorem rowFrom {c : Char} {left : Nat} (h : Row s before rest row)
    (hleft : Least (s ++ [c]) before left) :
    Row (s ++ [c]) before rest (left :: Distance.rowFrom c left rest row) := by
  induction h generalizing left with
  | last _ => exact .last hleft
  | next hdiagonal hrow ih =>
      obtain ⟨up, above, rfl, hup⟩ := hrow.exists_cons
      exact .next hleft (ih (hup.cell hleft hdiagonal))

theorem lastRow {t : List Char} (h : Row s [] t row) (s' : List Char) :
    Row (s ++ s') [] t (Distance.lastRow t s' s.length row) := by
  induction s' generalizing s row with
  | nil => rwa [List.append_nil]
  | cons c s' ih =>
      have hcount : (s ++ [c]).length = s.length + 1 := by simp
      have hnext : Row (s ++ [c]) [] t (nextRow t c (s.length + 1) row) :=
        h.rowFrom (hcount ▸ Least.nil_right (s ++ [c]))
      have hrows := ih hnext
      rwa [hcount, List.append_assoc] at hrows

end Row

theorem toShorter_least (s t : List Char) : Least s t (toShorter s t) := by
  have hstart : Row [] [] t (List.range (t.length + 1)) := by
    rw [List.range_eq_range']
    exact Row.start [] t
  obtain ⟨n, hlast, hn⟩ := (Row.lastRow hstart s).getLast?
  rw [List.length_nil] at hlast
  rw [toShorter, hlast]
  exact hn

end Distance

open Distance

/-- The rows of the shorter text give the distance either way round. -/
theorem distance_least (s t : List Char) : Least s t (distance s t) := by
  unfold distance
  split
  · exact (toShorter_least t s).symm
  · exact toShorter_least s t

theorem length_le_distance (s t : List Char) : t.length ≤ s.length + distance s t :=
  (distance_least s t).1.length_le

theorem distance_comm (s t : List Char) : distance s t = distance t s :=
  (distance_least s t).unique (distance_least t s).symm

/-- The distance of two texts is the length of a shortest script of edits from one to the other.
So it is the same in both directions, it is zero between a text and itself only, and a way round
is never shorter. -/
theorem distance_shortest_script :
    (∀ s t, IsLeast (Edit.scriptLengths s t) (distance s t)) ∧
    (∀ s t, distance s t = distance t s) ∧
    (∀ s t, distance s t = 0 ↔ s = t) ∧
    ∀ r s t, distance r t ≤ distance r s + distance s t := by
  have hshortest : ∀ s t, IsLeast (Edit.scriptLengths s t) (distance s t) :=
    fun s t => (distance_least s t).isLeast_scriptLengths
  refine ⟨hshortest, distance_comm, fun s t => ⟨fun hzero => ?_, ?_⟩, fun r s t => ?_⟩
  · obtain ⟨script, hlength, hscript⟩ := (hshortest s t).1
    rw [hzero, List.length_eq_zero_iff] at hlength
    subst hlength
    exact Option.some.inj hscript
  · rintro rfl
    exact Nat.le_zero.mp ((hshortest s s).2 ⟨[], rfl, rfl⟩)
  · obtain ⟨script, hlength, hscript⟩ := (hshortest r s).1
    obtain ⟨script', hlength', hscript'⟩ := (hshortest s t).1
    refine (hshortest r t).2 ⟨script ++ script', ?_, ?_⟩
    · rw [List.length_append, hlength, hlength']
    · rw [Edit.performAll?_append, hscript]
      exact hscript'

example : distance "kitten".toList "sitting".toList = 3 := by decide

end QuillLang
