import TweeLint.Proofs.Checks
import TweeLint.Proofs.NameSet
import TweeLint.Proofs.Vocabulary.Consistency

/-!
# Vocabularies as sets

A vocabulary is made from a list of names, and only the set of these names counts
(`ofList_canonical`). Its own list is increasing, so it is a canonical form of the set, and what
takes the first fitting name of it takes the same one however the names were given: the suggestion
is chosen among the names that were given (`suggest?_ofList`), and a choice does not look at their
order (`Chosen.congr`).
-/

namespace TweeLint.Vocabulary

open NameSet (ofList mem_ofList codePoints)

/-- A choice depends on the set of candidates only. -/
theorem Chosen.congr {name c : String} {candidates others : List String}
    (h : ∀ d, d ∈ candidates ↔ d ∈ others) : Chosen name candidates c ↔ Chosen name others c :=
  ⟨fun hc => hc.of_subset (fun d hd => (h d).mpr hd) ((h c).mp hc.mem),
    fun hc => hc.of_subset (fun d hd => (h d).mp hd) ((h c).mpr hc.mem)⟩

/-- **A suggestion is chosen among the names that were given**, in whatever order they were. -/
theorem suggest?_ofList {names : List String} {name c : String} :
    suggest? (ofList names) name = some c ↔ Chosen name names c := by
  rw [suggest?_eq_some_iff]
  exact Chosen.congr fun _ => mem_ofList

/-- **A vocabulary is a canonical form of its set of names.** Its list is strictly increasing in code
point order and has the given names, and no others; so has the vocabulary itself. Two vocabularies
are equal if and only if they were made of the same names, and if and only if their lists are equal.
So the order and the repetitions in which the names are given change no suggestion and no report, and
no check fails on the way. -/
theorem ofList_canonical (xs ys : List String) :
    (ofList xs).names.Pairwise (fun a b => codePoints a < codePoints b) ∧
      (∀ name, name ∈ (ofList xs).names ↔ name ∈ xs) ∧
      (∀ name, name ∈ ofList xs ↔ name ∈ xs) ∧
      ((ofList xs == ofList ys) = true ↔ ∀ name, name ∈ xs ↔ name ∈ ys) ∧
      ((ofList xs).names = (ofList ys).names ↔ ∀ name, name ∈ xs ↔ name ∈ ys) ∧
      (∀ name c, suggest? (ofList xs) name = some c ↔ Chosen name xs c) ∧
      ((∀ name, name ∈ ys ↔ name ∈ xs) →
        (∀ name, suggest? (ofList ys) name = suggest? (ofList xs) name) ∧
        ∀ source document,
          Report.lintChecked (ofList ys) source document =
            .ok (Report.lint (ofList xs) source document)) := by
  refine ⟨NameSet.pairwise_codePoints _, fun _ => mem_ofList, fun _ => mem_ofList, ?_, ?_,
    fun _ _ => suggest?_ofList, fun hsame => ?_⟩
  · rw [beq_iff_eq, NameSet.ofList_eq_iff]
  · rw [NameSet.names_inj, NameSet.ofList_eq_iff]
  · have hequal : ofList ys = ofList xs := NameSet.ofList_eq_iff.mpr hsame
    refine ⟨fun name => ?_, fun source document => ?_⟩
    · rw [hequal]
    · rw [hequal, Report.lintChecked_eq_ok]

/-- Three names in another order, one of them twice. Two are as near to the unknown name as each
other. -/
theorem ofList_canonical_repeated :
    let xs := ["put", "if", "pit"]
    let ys := ["if", "pit", "put", "if"]
    (∀ name, name ∈ ys ↔ name ∈ xs) ∧ (ofList ys).names = ["if", "pit", "put"] ∧
      suggest? (ofList ys) "pt" = some "pit" ∧
      Report.lintChecked (ofList ys) "doc" "::A\n(pt: 1)" =
        .ok ⟨"doc", 1, [.unknownCall "A" ⟨"pt", ⟨2, 1⟩, 0⟩ (some "pit")]⟩ := by
  intro xs ys
  have hsame : ∀ name, name ∈ ys ↔ name ∈ xs := by
    intro name
    simp only [xs, ys, List.mem_cons, List.not_mem_nil, or_false]
    tauto
  obtain ⟨-, -, -, -, -, -, hlint⟩ := ofList_canonical xs ys
  obtain ⟨hsuggest, hreport⟩ := hlint hsame
  refine ⟨hsame, by decide, (hsuggest "pt").trans (by decide), ?_⟩
  exact (hreport "doc" "::A\n(pt: 1)").trans (congrArg Except.ok (by decide))

end TweeLint.Vocabulary
