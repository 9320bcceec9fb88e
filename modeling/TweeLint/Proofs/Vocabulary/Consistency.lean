import TweeLint.Proofs.Vocabulary.Nearest

/-!
# Consistent suggestions

A suggestion is a choice among the names of a vocabulary, and what is chosen for a name does not
depend on how the choice is come by.

* **A suggestion is suggested for itself** (`suggest?_stable`). A name that is chosen comes before
  all names with the same letters, so of the names at distance zero from it, it is the first
  (`Chosen.self`).
* **Names that are not chosen do not matter** (`suggest?_of_subset`). What is chosen of more names is
  chosen of fewer, if it is one of them (`Chosen.of_subset`), so a vocabulary that grows keeps its
  suggestion or suggests one of the names that it gained.
-/

namespace TweeLint.Vocabulary

variable {name c d : String} {candidates more : List String} {v w : Vocabulary}

theorem suggest?_eq_some_iff : v.suggest? name = some c ↔ Chosen name v.names c := by
  rw [suggest?_eq_nearest?, nearest?_eq_some_iff]

/-! ### Names with the same letters -/

/-- Names with the same letters are at the same distance. -/
theorem nameDistance_of_sameLetters (name : String) (h : sameLetters d c = true) :
    nameDistance name d = nameDistance name c := by
  rw [nameDistance, nameDistance, eq_of_beq h]

theorem Chosen.lt_of_sameLetters (h : Chosen name candidates c) (hd : d ∈ candidates) (hne : d ≠ c)
    (hsame : sameLetters d c = true) : c < d := by
  have hdistance := nameDistance_of_sameLetters name hsame
  rcases h.preferred d hd hne with hlt | ⟨-, hlt⟩
  · omega
  · exact hlt

/-- **What is chosen for a name is chosen for itself.** -/
theorem Chosen.self (h : Chosen name candidates c) : Chosen c candidates c := by
  have hzero : nameDistance c c = 0 := nameDistance_eq_zero_iff.mpr (beq_self_eq_true _)
  refine ⟨h.mem, by rw [hzero]; exact Nat.zero_le _, fun d hd hne => ?_⟩
  rw [Preferred, hzero]
  by_cases hpos : nameDistance c d = 0
  · exact .inr ⟨hpos.symm, h.lt_of_sameLetters hd hne (nameDistance_eq_zero_iff.mp hpos)⟩
  · exact .inl (Nat.pos_of_ne_zero hpos)

/-- **A suggestion is suggested for itself.** It is a name of the vocabulary, and none with the same
letters comes before it, so suggesting a second time changes nothing. -/
theorem suggest?_stable (h : v.suggest? name = some c) :
    c ∈ v ∧ v.suggest? c = some c ∧
      ∀ d ∈ v, Text.lower d.toList = Text.lower c.toList → ¬ d < c := by
  have hchosen := suggest?_eq_some_iff.mp h
  refine ⟨hchosen.mem, suggest?_eq_some_iff.mpr hchosen.self, fun d hd hsame hlt => ?_⟩
  have hgt : c < d := hchosen.lt_of_sameLetters hd hlt.ne (beq_iff_eq.mpr hsame)
  exact lt_asymm hlt hgt

/-- A misspelt name in a vocabulary with three spellings of one name, of which the first is
suggested. -/
theorem suggest?_stable_spellings :
    suggest? (.ofList ["put", "Put", "PUT", "pit"]) "puts" = some "PUT" ∧
      suggest? (.ofList ["put", "Put", "PUT", "pit"]) "PUT" = some "PUT" ∧
      "put" ∈ NameSet.ofList ["put", "Put", "PUT", "pit"] ∧ ¬ "put" < "PUT" := by
  have h : suggest? (.ofList ["put", "Put", "PUT", "pit"]) "puts" = some "PUT" := by decide
  have hmem : "put" ∈ NameSet.ofList ["put", "Put", "PUT", "pit"] := by decide
  obtain ⟨-, hself, hfirst⟩ := suggest?_stable h
  exact ⟨h, hself, hmem, hfirst "put" hmem (by decide)⟩

/-! ### Vocabularies that grow -/

/-- **What is chosen of more names is chosen of fewer**, if it is one of them. -/
theorem Chosen.of_subset (h : Chosen name more c) (hsub : ∀ d ∈ candidates, d ∈ more)
    (hc : c ∈ candidates) : Chosen name candidates c :=
  ⟨hc, h.near, fun d hd hne => h.preferred d (hsub d hd) hne⟩

section Growth

variable (hsub : ∀ d ∈ v, d ∈ w)

include hsub

theorem suggest?_eq_of_mem (hw : w.suggest? name = some c) (hc : c ∈ v) :
    v.suggest? name = some c :=
  suggest?_eq_some_iff.mpr ((suggest?_eq_some_iff.mp hw).of_subset hsub hc)

/-- Where nothing is near, nothing is near in fewer names. -/
theorem suggest?_eq_none_of_subset (hw : w.suggest? name = none) : v.suggest? name = none := by
  rw [suggest?_eq_nearest?, nearest?_eq_none_iff] at hw ⊢
  exact fun c hc => hw c (hsub c hc)

theorem exists_suggest?_of_subset (hv : v.suggest? name = some c) :
    ∃ c', w.suggest? name = some c' ∧ (c' = c ∨ Preferred name c' c) := by
  cases hw : w.suggest? name with
  | none => exact nomatch (suggest?_eq_none_of_subset hsub hw).symm.trans hv
  | some c' =>
    refine ⟨c', rfl, ?_⟩
    by_cases heq : c' = c
    · exact .inl heq
    · have hc : c ∈ w := hsub c (suggest?_eq_some_iff.mp hv).mem
      exact .inr ((suggest?_eq_some_iff.mp hw).preferred c hc (Ne.symm heq))

/-- **A vocabulary that grows keeps its suggestion** or suggests a name that it gained, which is
nearer, or as near and first in code point order. What it suggests is what fewer names suggested, if
they have it; and as long as no name that it gained is suggested, nothing changes. -/
theorem suggest?_of_subset (name : String) :
    (∀ c, v.suggest? name = some c → ∃ c', w.suggest? name = some c' ∧ (c' = c ∨ c' ∉ v) ∧
        (nameDistance name c' < nameDistance name c ∨
          (nameDistance name c' = nameDistance name c ∧ c' ≤ c))) ∧
      (∀ c ∈ v, w.suggest? name = some c → v.suggest? name = some c) ∧
      ((∀ c, w.suggest? name = some c → c ∈ v) → v.suggest? name = w.suggest? name) := by
  refine ⟨fun c hc => ?_, fun c hc hw => suggest?_eq_of_mem hsub hw hc, fun hold => ?_⟩
  · obtain ⟨c', hw, hpreferred⟩ := exists_suggest?_of_subset hsub hc
    refine ⟨c', hw, ?_, ?_⟩
    · by_cases hmem : c' ∈ v
      · exact .inl (Option.some.inj ((suggest?_eq_of_mem hsub hw hmem).symm.trans hc))
      · exact .inr hmem
    · rcases hpreferred with rfl | hlt | ⟨heq, hlt⟩
      · exact .inr ⟨rfl, le_rfl⟩
      · exact .inl hlt
      · exact .inr ⟨heq, hlt.le⟩
  · cases hw : w.suggest? name with
    | none => exact suggest?_eq_none_of_subset hsub hw
    | some c => exact suggest?_eq_of_mem hsub hw (hold c hw)

end Growth

/-- One name more, as near as the one that was suggested and in front of it; and one that is not
chosen. -/
theorem suggest?_of_subset_front :
    ((∀ d ∈ NameSet.ofList ["put"], d ∈ NameSet.ofList ["pit", "put"]) ∧
        suggest? (.ofList ["put"]) "pt" = some "put" ∧
        ∃ c, suggest? (.ofList ["pit", "put"]) "pt" = some c ∧ c ∉ NameSet.ofList ["put"] ∧
          nameDistance "pt" c = nameDistance "pt" "put" ∧ c ≤ "put") ∧
      suggest? (.ofList ["put"]) "puts" = suggest? (.ofList ["pit", "put"]) "puts" := by
  have hsub : ∀ d ∈ NameSet.ofList ["put"], d ∈ NameSet.ofList ["pit", "put"] := by
    intro d hd
    rw [NameSet.mem_ofList] at hd ⊢
    exact List.mem_cons_of_mem _ hd
  have hput : suggest? (.ofList ["put"]) "pt" = some "put" := by decide
  have hputs : suggest? (.ofList ["pit", "put"]) "puts" = some "put" := by decide
  obtain ⟨c, hc, -, hbetter⟩ := (suggest?_of_subset hsub "pt").1 "put" hput
  obtain rfl : "pit" = c := Option.some.inj
    ((by decide : suggest? (.ofList ["pit", "put"]) "pt" = some "pit").symm.trans hc)
  have hsame : nameDistance "pt" "pit" = nameDistance "pt" "put" := by decide
  refine ⟨⟨hsub, hput, _, hc, by decide, hsame, ?_⟩, ?_⟩
  · rcases hbetter with hlt | ⟨-, hle⟩
    · omega
    · exact hle
  · refine (suggest?_of_subset hsub "puts").2.2 fun c hc => ?_
    obtain rfl := Option.some.inj (hputs.symm.trans hc)
    decide

end TweeLint.Vocabulary
