import TweeLint.Proofs.Passage.Findings
import TweeLint.Proofs.Passage.Parentheses

/-!
# Larger vocabularies

When a vocabulary gains names, the diagnostics that quote one of its names go, and nothing else
about a report changes but suggestions (`lint_of_subset`). What is reported of the parentheses does
not depend on the vocabulary at all.

The law is one about single calls (`Vocabulary.verdict?_of_subset`): each call has a verdict of its
own, so the lists that are made of verdicts follow it, passage by passage.
-/

namespace TweeLint

namespace Diagnostic

/-- The diagnostic, its suggestion disregarded. -/
def withoutSuggestion (d : Diagnostic) : Diagnostic :=
  { d with suggestion := none }

/-- A diagnostic about a call that quotes a name of the vocabulary. -/
def quotesNameOf (v : Vocabulary) (d : Diagnostic) : Bool :=
  d.kind = .invalidMacro && v.names.any fun name => d.message = s!"Unknown macro name: '{name}'"

theorem quoted_inj {name other : String}
    (h : s!"Unknown macro name: '{name}'" = s!"Unknown macro name: '{other}'") : name = other :=
  (String.append_right_inj _).mp ((String.append_left_inj _).mp h)

/-- The name that a diagnostic quotes is the name of the call. -/
theorem quotesNameOf_unknownCall {v : Vocabulary} {passage : String} {call : MacroCall}
    {suggestion : Option String} :
    (unknownCall passage call suggestion).quotesNameOf v = true ↔ call.name ∈ v := by
  rw [quotesNameOf, Bool.and_eq_true, List.any_eq_true]
  constructor
  · intro hquotes
    obtain ⟨-, name, hname, hquoted⟩ := hquotes
    rw [quoted_inj (of_decide_eq_true hquoted)]
    exact hname
  · intro hmem
    exact ⟨rfl, call.name, hmem, decide_eq_true rfl⟩

end Diagnostic

open Diagnostic

variable {v w : Vocabulary}

/-! ### Calls -/

/-- **The verdict on a call in a larger vocabulary**: none if the name is one that it gained. -/
theorem Vocabulary.verdict?_of_subset (h : ∀ name ∈ v, name ∈ w) (passage : String)
    (call : MacroCall) :
    (w.verdict? passage call).map withoutSuggestion =
      ((v.verdict? passage call).filter (! ·.quotesNameOf w)).map withoutSuggestion := by
  by_cases hw : call.name ∈ w
  · have hquoted : ∀ suggestion,
        (unknownCall passage call suggestion).quotesNameOf w = true :=
      fun _ => quotesNameOf_unknownCall.mpr hw
    by_cases hv : call.name ∈ v <;> simp [verdict?, hv, hw, hquoted, Option.filter_some]
  · have hv : call.name ∉ v := fun hv => hw (h call.name hv)
    have hquoted : ∀ suggestion,
        (unknownCall passage call suggestion).quotesNameOf w = false := by
      intro suggestion
      rw [Bool.eq_false_iff]
      exact fun hq => hw (quotesNameOf_unknownCall.mp hq)
    simp only [verdict?, if_neg hv, if_neg hw, Option.filter_some, hquoted, Option.map_some]
    rfl

theorem Vocabulary.verdicts_of_subset (h : ∀ name ∈ v, name ∈ w) (passage : String)
    (calls : List MacroCall) :
    (w.verdicts passage calls).map withoutSuggestion =
      ((v.verdicts passage calls).filter (! ·.quotesNameOf w)).map withoutSuggestion := by
  rw [verdicts, verdicts, List.filter_filterMap, List.map_filterMap, List.map_filterMap]
  congr 1
  funext call
  exact verdict?_of_subset h passage call

theorem Vocabulary.kind_of_mem_verdicts {passage : String} {calls : List MacroCall}
    {d : Diagnostic} (hd : d ∈ v.verdicts passage calls) : d.kind = .invalidMacro := by
  obtain ⟨call, -, -, rfl⟩ := mem_verdicts_iff.mp hd
  rfl

/-! ### Parentheses -/

theorem Balance.kind_of_mem_check {passage : String} {start : Position} {content : String}
    {d : Diagnostic} (hd : d ∈ check passage start content) : d.kind ≠ .invalidMacro := by
  rw [check_eq_ofParens] at hd
  exact kind_of_mem_ofParens hd

theorem Balance.filter_check (passage : String) (start : Position) (content : String) :
    (check passage start content).filter (! ·.quotesNameOf w) = check passage start content := by
  rw [List.filter_eq_self]
  intro d hd
  simp [quotesNameOf, kind_of_mem_check hd]

/-! ### Passages and documents -/

theorem Passage.map_lint_of_subset (h : ∀ name ∈ v, name ∈ w) (p : Passage) :
    (p.lint w).map withoutSuggestion =
      ((p.lint v).filter (! ·.quotesNameOf w)).map withoutSuggestion := by
  rw [lint, lint, List.filter_append, List.map_append, List.map_append,
    Vocabulary.verdicts_of_subset h, Balance.filter_check]

/-- What is left of a passage's diagnostics without those about calls does not depend on the
vocabulary. -/
theorem Passage.filter_lint (v : Vocabulary) (p : Passage) :
    (p.lint v).filter (fun d => d.kind ≠ .invalidMacro) =
      Balance.check p.name p.contentStart p.content := by
  have hnames : (v.verdicts p.name p.calls).filter (fun d => d.kind ≠ .invalidMacro) = [] := by
    rw [List.filter_eq_nil_iff]
    intro d hd
    simp [Vocabulary.kind_of_mem_verdicts hd]
  have hparens : (Balance.check p.name p.contentStart p.content).filter
      (fun d => d.kind ≠ .invalidMacro) = Balance.check p.name p.contentStart p.content := by
    rw [List.filter_eq_self]
    intro d hd
    simp [Balance.kind_of_mem_check hd]
  rw [lint, List.filter_append, hnames, hparens, List.nil_append]

/-- **A larger vocabulary takes out the diagnostics that quote one of its names**, and leaves the
others as they are, in their order, suggestions apart. The diagnostics of parentheses are the same
for all vocabularies. -/
theorem lint_of_subset (h : ∀ name ∈ v, name ∈ w) (source document : String) :
    (Report.lint w source document).source = (Report.lint v source document).source ∧
      (Report.lint w source document).passageCount =
        (Report.lint v source document).passageCount ∧
      (Report.lint w source document).diagnostics.map withoutSuggestion =
        ((Report.lint v source document).diagnostics.filter (! ·.quotesNameOf w)).map
          withoutSuggestion ∧
      ∀ u : Vocabulary,
        (Report.lint u source document).diagnostics.filter (fun d => d.kind ≠ .invalidMacro) =
          (Report.lint v source document).diagnostics.filter
            (fun d => d.kind ≠ .invalidMacro) := by
  refine ⟨rfl, rfl, ?_, fun u => ?_⟩
  · simp only [Report.lint, List.filter_flatMap, List.map_flatMap, Passage.map_lint_of_subset h]
  · simp only [Report.lint, List.filter_flatMap, Passage.filter_lint]

/-- Of two unknown names and an open parenthesis, the larger vocabulary knows one name. -/
theorem lint_of_subset_gain :
    (∀ name ∈ NameSet.ofList ["if"], name ∈ NameSet.ofList ["if", "put"]) ∧
      ((Report.lint (.ofList ["if", "put"]) "doc" "::A\n(put: (get: 1)").diagnostics.map
          withoutSuggestion =
        [.unknownCall "A" ⟨"get", ⟨2, 7⟩, 6⟩ none, .unclosed "A" ⟨2, 1⟩]) := by
  have h : ∀ name ∈ NameSet.ofList ["if"], name ∈ NameSet.ofList ["if", "put"] := by
    intro name hname
    rw [NameSet.mem_ofList] at hname ⊢
    exact List.mem_cons.mpr (Or.inl (List.mem_singleton.mp hname))
  refine ⟨h, ?_⟩
  rw [(lint_of_subset h "doc" "::A\n(put: (get: 1)").2.2.1]
  decide

end TweeLint
