/-
# Suggestions are the nearest names

A name is suggested for a misspelt one if the two are near, case aside.  What
is to be suggested can be said without looking at lengths: take all candidates
that are near enough, put the nearer ones first and those at equal distance in
the order of their code points, and keep as many as are wanted (`Ranking`).

Candidates whose length is off by more than the distance allowed are dropped
before they are compared, and their length is taken before they are lowered.
No candidate is lost by that (`similar_eq_take_ranking`): texts are at least as
far apart as their lengths, and lower case keeps the length of a text in which
every character has a small letter of one character.  Only a capital I with a dot
has not, and it is part of no identifier.
-/
import QuillLang.Proofs.EditDistance
import QuillLang.Proofs.Lexemes
import Mathlib.Data.List.Perm.Basic

namespace QuillLang

open scoped List

/-! ## Lengths in lower case

The lower case of a text depends on its neighbours in one case only, and its length on none.  Of
all characters that names can have, none becomes two. -/

namespace Text

/-- Every character of a text, taken alone, is one character in lower case. -/
def LowersSingly (cs : List Char) : Prop := ∀ c ∈ cs, (lower [c]).length = 1

theorem length_lowerAfter (before : List Char) {cs : List Char} (h : LowersSingly cs) :
    (lowerAfter before cs).length = cs.length := by
  induction cs generalizing before with
  | nil => rfl
  | cons c cs ih =>
      obtain ⟨hc, hcs⟩ := List.forall_mem_cons.mp h
      -- where a capital sigma stands decides which small letter it has, not how many
      have hfirst : (if c = 'Σ' then [if meetsCased before && !meetsCased cs then 'ς' else 'σ']
          else lowerChar c).length = 1 := by
        split
        · rfl
        · next hsigma => simpa [lower, lowerAfter, hsigma] using hc
      rw [lowerAfter, List.length_append, hfirst, ih (c :: before) hcs, List.length_cons,
        Nat.add_comm]

theorem length_lower {cs : List Char} (h : LowersSingly cs) : (lower cs).length = cs.length :=
  length_lowerAfter [] h

theorem lowersSingly_of_ne {cs : List Char} (h : ∀ c ∈ cs, c ≠ 'İ') : LowersSingly cs := by
  intro c hc
  simp only [lower, lowerAfter, List.append_nil, lowerChar, if_neg (h c hc)]
  split <;> rfl

end Text

open Text

theorem Lexeme.lowersSingly {w : List Char} (h : Lexeme .identifier w) : LowersSingly w := by
  apply lowersSingly_of_ne
  cases h with
  | identifier hc hcs =>
      rintro _ hmem rfl
      rcases List.mem_cons.mp hmem with rfl | hmem
      · cases hc
      · exact absurd (hcs _ hmem) (by decide)

namespace Suggestion

/-! ## Rankings

A ranking is said to be in order and to have all candidates that are near enough, as often as they
were given.  There is only one, because two names that precede each other are the same. -/

/-- How far apart two names are, case aside. -/
def apart (name candidate : String) : Nat := distance (lower name.toList) (lower candidate.toList)

/-- The first of two names is to be suggested rather than the second, or as well. -/
def Precedes (name a b : String) : Prop :=
  apart name a < apart name b ∨ apart name a = apart name b ∧ a ≤ b

instance (name a b : String) : Decidable (Precedes name a b) := inferInstanceAs (Decidable (_ ∨ _))

/-- The candidates other than the name that are near enough to it, each as often as it was given,
with the nearest first. -/
structure Ranking (name : String) (candidates : List String) (limit : Nat) (ranked : List String) :
    Prop where
  perm : ranked ~ candidates.filter fun c => c ≠ name && apart name c ≤ limit
  sorted : ranked.Pairwise (Precedes name)

section

variable {name : String} {candidates : List String} {limit : Nat}

theorem Precedes.antisymm {a b : String} (h : Precedes name a b) (h' : Precedes name b a) :
    a = b := by
  rcases h with hlt | ⟨heq, hle⟩
  · rcases h' with hlt' | ⟨heq', -⟩ <;> omega
  · rcases h' with hlt' | ⟨-, hle'⟩
    · omega
    · exact String.le_antisymm hle hle'

theorem Ranking.unique {ranked other : List String} (h : Ranking name candidates limit ranked)
    (h' : Ranking name candidates limit other) : ranked = other :=
  (h.perm.trans h'.perm.symm).eq_of_pairwise (fun _ _ _ _ => Precedes.antisymm) h.sorted h'.sorted

end

/-! ## Scores

What is computed are scores, which are sorted.  They give the ranking if no candidate is dropped
for its length that would have been near enough. -/

theorem before_iff {a b : Scored} :
    before a b = true ↔ a.distance < b.distance ∨ a.distance = b.distance ∧ a.name ≤ b.name := by
  simp [before]

theorem before_trans (a b c : Scored) (h : before a b = true) (h' : before b c = true) :
    before a c = true := by
  rw [before_iff] at h h' ⊢
  rcases h with hlt | ⟨heq, hle⟩
  · rcases h' with hlt' | ⟨heq', -⟩ <;> omega
  · rcases h' with hlt' | ⟨heq', hle'⟩
    · omega
    · exact .inr ⟨heq.trans heq', String.le_trans hle hle'⟩

theorem before_total (a b : Scored) : (before a b || before b a) = true := by
  rw [Bool.or_eq_true, before_iff, before_iff]
  rcases Nat.lt_trichotomy a.distance b.distance with hlt | heq | hgt
  · exact .inl (.inl hlt)
  · exact (String.le_total a.name b.name).imp (fun hle => .inr ⟨heq, hle⟩)
      fun hle => .inr ⟨heq.symm, hle⟩
  · exact .inr (.inl hgt)

/-- Names are at least as far apart as their lengths. -/
theorem gap_le_apart {name candidate : String} (hname : LowersSingly name.toList)
    (hcandidate : LowersSingly candidate.toList) :
    max candidate.length name.length - min candidate.length name.length ≤ apart name candidate := by
  have h := length_le_distance (lower name.toList) (lower candidate.toList)
  have h' := length_le_distance (lower candidate.toList) (lower name.toList)
  rw [distance_comm (lower candidate.toList)] at h'
  simp only [length_lower hname, length_lower hcandidate, String.length_toList] at h h'
  unfold apart
  omega

/-- A candidate with its distance. -/
def scored (name candidate : String) : Scored := ⟨candidate, apart name candidate⟩

/-- Looking at lengths first makes no difference. -/
theorem score?_eq {name candidate : String} (hname : LowersSingly name.toList)
    (hcandidate : LowersSingly candidate.toList) (limit : Nat) :
    score? limit name candidate =
      (Option.guard (fun c => c ≠ name && apart name c ≤ limit) candidate).map (scored name) := by
  have hgap := gap_le_apart hname hcandidate
  unfold score?
  generalize max candidate.length name.length - min candidate.length name.length = gap at hgap ⊢
  by_cases hsame : candidate = name
  · simp [hsame, Option.guard]
  · by_cases hnear : apart name candidate ≤ limit
    · have hlength := Nat.le_trans hgap hnear
      unfold scored apart at *
      simp [hsame, hnear, Nat.not_lt.mpr hlength, Option.guard]
    · unfold apart at hnear ⊢
      simp [hsame, hnear, Option.guard]

theorem filterMap_score? {name : String} {candidates : List String}
    (hname : LowersSingly name.toList) (hcandidates : ∀ c ∈ candidates, LowersSingly c.toList)
    (limit : Nat) :
    candidates.filterMap (score? limit name) =
      (candidates.filter fun c => c ≠ name && apart name c ≤ limit).map (scored name) := by
  rw [List.filterMap_congr fun c hc => score?_eq hname (hcandidates c hc) limit,
    ← List.map_filterMap, List.filterMap_eq_filter]

/-- Names that are put in the order of their scores are in order themselves. -/
theorem pairwise_sorted (name : String) (near : List String) :
    (((near.map (scored name)).mergeSort before).map (·.name)).Pairwise (Precedes name) := by
  have hscored : ∀ a ∈ (near.map (scored name)).mergeSort before,
      a.distance = apart name a.name := by
    intro a ha
    obtain ⟨c, -, rfl⟩ := List.mem_map.mp ((List.mergeSort_perm _ _).mem_iff.mp ha)
    rfl
  rw [List.pairwise_map]
  refine (List.pairwise_mergeSort before_trans before_total _).imp_of_mem ?_
  intro a b ha hb hab
  rw [before_iff, hscored a ha, hscored b hb] at hab
  exact hab

theorem map_name_sorted (name : String) (near : List String) :
    ((near.map (scored name)).mergeSort before).map (·.name) ~ near := by
  have hnames : (near.map (scored name)).map (·.name) = near := by
    rw [List.map_map]
    exact List.map_id near
  exact ((List.mergeSort_perm _ _).map _).trans (.of_eq hnames)

/-- The characters of identifiers are single characters in lower case.  Where this holds of a name
and all candidates, there is one ranking of those that are near enough, and its beginning is what
is suggested. -/
theorem similar_eq_take_ranking :
    (∀ w, Lexeme .identifier w → LowersSingly w) ∧
    ∀ (name : String) (candidates : List String) (limit count : Nat), LowersSingly name.toList →
      (∀ c ∈ candidates, LowersSingly c.toList) →
      ∃ ranked, Ranking name candidates limit ranked ∧
        (∀ other, Ranking name candidates limit other → other = ranked) ∧
        similar name candidates limit count = ranked.take count := by
  refine ⟨fun w => Lexeme.lowersSingly, fun name candidates limit count hname hcandidates => ?_⟩
  have hranking : Ranking name candidates limit _ :=
    ⟨map_name_sorted name _, pairwise_sorted name _⟩
  refine ⟨_, hranking, fun other hother => hother.unique hranking, ?_⟩
  rw [similar, filterMap_score? hname hcandidates, front, if_pos (Int.natCast_nonneg count),
    Int.toNat_natCast, List.map_take]

/-- Some names near a misspelt one, one of them twice, and the misspelt one itself. -/
def namesNearTotl : List String := ["total", "TOTL", "to", "totl", "total", "other"]

theorem similar_totl : LowersSingly "totl".toList ∧
    (∀ c ∈ namesNearTotl, LowersSingly c.toList) ∧
    similar "totl" namesNearTotl (2 : Nat) (3 : Nat) = ["TOTL", "total", "total"] := by
  have hall : ("totl" :: namesNearTotl).all (fun s =>
      s.toList.all fun c => (lower [c]).length = 1) = true := by decide +kernel
  have hsingly : ∀ s ∈ "totl" :: namesNearTotl, LowersSingly s.toList :=
    fun s hs c hc => of_decide_eq_true (List.all_eq_true.mp (List.all_eq_true.mp hall s hs) c hc)
  obtain ⟨hname, hcandidates⟩ := List.forall_mem_cons.mp hsingly
  have hranking : Ranking "totl" namesNearTotl 2 ["TOTL", "total", "total", "to"] :=
    ⟨by decide +kernel, by decide +kernel⟩
  obtain ⟨ranked, -, hunique, htake⟩ :=
    similar_eq_take_ranking.2 "totl" namesNearTotl 2 3 hname hcandidates
  rw [← hunique _ hranking] at htake
  exact ⟨hname, hcandidates, htake⟩

end Suggestion

end QuillLang
