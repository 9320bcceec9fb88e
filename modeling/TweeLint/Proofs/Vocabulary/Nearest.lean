import Mathlib.Data.List.Induction
import Mathlib.Data.String.Basic
import TweeLint.Proofs.EditDistance.Scripts
import TweeLint.Suggestion

/-!
# The nearest name

What is suggested in place of a name is the nearest name of the vocabulary, letter case apart, and
of several at the same distance the first in code point order; a name too far away is not suggested
(`suggest?_optimal`).

The search takes a name that differs in letter case at once and compares distances only where there
is none. Both ways lead to the same name (`suggest?_eq_nearest?`), because a distance of zero means
the same letters. Of the comparison it is shown what one more candidate changes (`Best.step`): the
candidates come in code point order, so a later one at the same distance never counts.
-/

namespace TweeLint

theorem nameDistance_eq_zero_iff {name c : String} :
    nameDistance name c = 0 ↔ sameLetters c name = true := by
  rw [nameDistance, EditDistance.distance_eq_zero_iff, sameLetters, beq_iff_eq, eq_comm]

namespace Vocabulary

/-- One candidate for a name is preferred to another: it is nearer, or as near and first in code
point order. -/
def Preferred (name c d : String) : Prop :=
  nameDistance name c < nameDistance name d ∨
    (nameDistance name c = nameDistance name d ∧ c < d)

/-- Of the candidates for a name, one is near enough and preferred to all others. -/
structure Chosen (name : String) (candidates : List String) (c : String) : Prop where
  mem : c ∈ candidates
  near : nameDistance name c ≤ maxSuggestionDistance
  preferred : ∀ d ∈ candidates, d ≠ c → Preferred name c d

/-- What the comparison of distances knows behind some candidates: that all of them are too far
away, or which is chosen. -/
inductive Best (name : String) (candidates : List String) : Option String × Nat → Prop
  | far : (∀ c ∈ candidates, maxSuggestionDistance < nameDistance name c) →
      Best name candidates (none, maxSuggestionDistance + 1)
  | chosen {c : String} : Chosen name candidates c →
      Best name candidates (some c, nameDistance name c)

variable {name : String} {candidates : List String} {c d : String}

theorem Preferred.le (h : Preferred name c d) : nameDistance name c ≤ nameDistance name d := by
  rcases h with hlt | ⟨heq, -⟩
  · exact Nat.le_of_lt hlt
  · exact Nat.le_of_eq heq

theorem Preferred.asymm (hcd : Preferred name c d) : ¬ Preferred name d c := by
  intro hdc
  rcases hcd, hdc with ⟨hlt | ⟨heq, hcd⟩, hlt' | ⟨heq', hdc⟩⟩
  · omega
  · omega
  · omega
  · exact lt_asymm hcd hdc

theorem Chosen.unique (hc : Chosen name candidates c) (hd : Chosen name candidates d) : c = d := by
  by_contra hne
  exact (hc.preferred d hd.mem (Ne.symm hne)).asymm (hd.preferred c hc.mem hne)

/-! ### The comparison of distances -/

/-- **One more candidate**, which comes after all others, is chosen if it is nearer than they. -/
theorem Best.step {best : Option String × Nat} (h : Best name candidates best)
    (hlast : ∀ d ∈ candidates, d < c) : Best name (candidates ++ [c]) (nearer name best c) := by
  cases h with
  | far hfar =>
    by_cases hnear : nameDistance name c < maxSuggestionDistance + 1
    · rw [nearer, if_pos hnear]
      refine .chosen ⟨by simp, Nat.le_of_lt_succ hnear, fun d hd hne => Or.inl ?_⟩
      have hd : d ∈ candidates := by simpa [hne] using hd
      exact Nat.lt_of_le_of_lt (Nat.le_of_lt_succ hnear) (hfar d hd)
    · rw [nearer, if_neg hnear]
      refine .far fun d hd => ?_
      rcases List.mem_append.mp hd with hd | hd
      · exact hfar d hd
      · rw [List.mem_singleton.mp hd]
        exact Nat.lt_of_succ_le (Nat.le_of_not_lt hnear)
  | @chosen b hb =>
    by_cases hnear : nameDistance name c < nameDistance name b
    · rw [nearer, if_pos hnear]
      refine .chosen ⟨by simp, Nat.le_trans (Nat.le_of_lt hnear) hb.near,
        fun d hd hne => Or.inl ?_⟩
      have hd : d ∈ candidates := by simpa [hne] using hd
      by_cases hdb : d = b
      · rwa [hdb]
      · exact Nat.lt_of_lt_of_le hnear (hb.preferred d hd hdb).le
    · rw [nearer, if_neg hnear]
      refine .chosen ⟨List.mem_append_left _ hb.mem, hb.near, fun d hd hne => ?_⟩
      rcases List.mem_append.mp hd with hd | hd
      · exact hb.preferred d hd hne
      · -- as near as the one chosen so far, and behind it
        rw [List.mem_singleton.mp hd]
        rcases Nat.lt_or_eq_of_le (Nat.le_of_not_lt hnear) with hlt | heq
        · exact Or.inl hlt
        · exact Or.inr ⟨heq, hlast b hb.mem⟩

theorem best_foldl (name : String) {candidates : List String}
    (h : candidates.Pairwise (· < ·)) :
    Best name candidates (candidates.foldl (nearer name) (none, maxSuggestionDistance + 1)) := by
  induction candidates using List.reverseRecOn with
  | nil => exact .far (by simp)
  | append_singleton candidates c ih =>
    obtain ⟨hcandidates, -, hlast⟩ := List.pairwise_append.mp h
    rw [List.foldl_append]
    exact (ih hcandidates).step fun d hd => hlast d hd c (List.mem_singleton.mpr rfl)

variable {v : Vocabulary}

theorem nearest?_eq_some_iff : v.nearest? name = some c ↔ Chosen name v.names c := by
  have hbest := best_foldl name v.sorted
  rw [nearest?]
  generalize v.names.foldl (nearer name) (none, maxSuggestionDistance + 1) = best at hbest ⊢
  cases hbest with
  | far hfar =>
    refine iff_of_false (by simp) fun hc => ?_
    exact Nat.not_lt.mpr hc.near (hfar c hc.mem)
  | chosen hd =>
    refine ⟨fun h => ?_, fun hc => congrArg some (hd.unique hc)⟩
    rwa [← Option.some.inj h]

theorem nearest?_eq_none_iff :
    v.nearest? name = none ↔ ∀ c ∈ v, maxSuggestionDistance < nameDistance name c := by
  have hbest := best_foldl name v.sorted
  rw [nearest?]
  generalize v.names.foldl (nearer name) (none, maxSuggestionDistance + 1) = best at hbest ⊢
  cases hbest with
  | far hfar => exact iff_of_true rfl hfar
  | chosen hd =>
    refine iff_of_false (by simp) fun hfar => ?_
    exact Nat.not_lt.mpr hd.near (hfar _ hd.mem)

/-! ### The two ways of searching -/

/-- The first name with the same letters is the nearest one. -/
theorem chosen_of_find?
    (h : v.names.find? (fun candidate => sameLetters candidate name) = some c) :
    Chosen name v.names c := by
  obtain ⟨hsame, front, back, hnames, hfront⟩ := List.find?_eq_some_iff_append.mp h
  have hzero : nameDistance name c = 0 := nameDistance_eq_zero_iff.mpr hsame
  have hsorted := v.sorted
  rw [hnames] at hsorted ⊢
  refine ⟨by simp, by rw [hzero]; exact Nat.zero_le _, fun d hd hne => ?_⟩
  by_cases hpos : nameDistance name d = 0
  · -- the other names with the same letters come behind it
    have hback : d ∈ back := by
      rcases List.mem_append.mp hd with hd | hd
      · have hsame' := nameDistance_eq_zero_iff.mp hpos
        exact absurd hsame' (by simpa using hfront d hd)
      · exact (List.mem_cons.mp hd).resolve_left hne
    have horder := List.pairwise_cons.mp (List.pairwise_append.mp hsorted).2.1
    exact Or.inr ⟨hzero.trans hpos.symm, horder.1 d hback⟩
  · left
    rw [hzero]
    exact Nat.pos_of_ne_zero hpos

/-- **Both ways of searching find the same name.** -/
theorem suggest?_eq_nearest? (v : Vocabulary) (name : String) :
    v.suggest? name = v.nearest? name := by
  rw [suggest?]
  cases hfind : v.names.find? fun candidate => sameLetters candidate name with
  | none => rfl
  | some c => exact (nearest?_eq_some_iff.mpr (chosen_of_find? hfind)).symm

/-- **The suggestion is the best name there is**: none if all names are more than two edits away,
letter case apart, and otherwise the one name of the vocabulary that is nearest, and of those the
first in code point order. The comparison of distances alone would find it too. -/
theorem suggest?_optimal (v : Vocabulary) (name : String) :
    (v.suggest? name = none ↔ ∀ c ∈ v, 2 < nameDistance name c) ∧
      (∀ c, v.suggest? name = some c ↔ c ∈ v ∧ nameDistance name c ≤ 2 ∧
        ∀ d ∈ v, d ≠ c → nameDistance name c < nameDistance name d ∨
          (nameDistance name c = nameDistance name d ∧ c < d)) ∧
      v.suggest? name = v.nearest? name := by
  rw [suggest?_eq_nearest?]
  refine ⟨nearest?_eq_none_iff, fun c => ?_, rfl⟩
  rw [nearest?_eq_some_iff]
  exact ⟨fun ⟨hmem, hnear, hpreferred⟩ => ⟨hmem, hnear, hpreferred⟩,
    fun ⟨hmem, hnear, hpreferred⟩ => ⟨hmem, hnear, hpreferred⟩⟩

/-- The name that comes first is suggested, of two that differ in letter case. -/
example : suggest? (.ofList ["put", "Put", "puts"]) "PUT" = some "Put" := by decide

end Vocabulary

end TweeLint
