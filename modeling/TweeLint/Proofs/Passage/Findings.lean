import TweeLint.Lint
import TweeLint.Proofs.Balance.Scan
import TweeLint.Proofs.MacroCall

/-!
# What is reported of a passage

The two checks of a passage in terms of its content alone.

* **Nothing is reported** of a content that the vocabulary accepts, and something of any other
  (`Passage.lint_eq_nil_iff`). Blanks around a text do not count here (`Vocabulary.accepts_pad`), so
  the text that a content was trimmed from is accepted with it (`Section.accepts_content`).
* **What is reported is there**: each diagnostic stands at a parenthesis of the content that bears
  it out (`Passage.findings_of_mem_lint`).
-/

namespace TweeLint

/-- A text that a vocabulary has nothing against: its parentheses are balanced, and all its calls have
known names. -/
structure Vocabulary.Accepts (v : Vocabulary) (text : List Char) : Prop where
  balanced : Balance.Balanced text
  calls : ∀ i name, MacroCall.BeginsCall name (text.drop i) → String.ofList name ∈ v

/-- The parenthesis at which a problem of a kind is found. -/
def DiagnosticKind.parenthesis : DiagnosticKind → Char
  | invalidMacro => '('
  | unclosedMacro => '('
  | unmatchedParenthesis => ')'

/-- A diagnostic of a passage stands at a parenthesis of its content, with `pre` in front of it and
`rest` behind. -/
structure Diagnostic.FoundIn (v : Vocabulary) (p : Passage) (d : Diagnostic)
    (pre rest : List Char) : Prop where
  content : p.content.toList = pre ++ d.kind.parenthesis :: rest
  position : d.position = p.contentStart.after pre
  passage : d.passage = p.name
  call : d.kind = .invalidMacro → ∃ name, MacroCall.BeginsCall name (d.kind.parenthesis :: rest) ∧
    d.message = s!"Unknown macro name: '{String.ofList name}'" ∧ String.ofList name ∉ v

namespace Vocabulary

theorem verdict?_eq_none_iff {v : Vocabulary} {passage : String} {call : MacroCall} :
    v.verdict? passage call = none ↔ call.name ∈ v := by
  by_cases h : call.name ∈ v <;> simp [verdict?, h]

theorem verdict?_eq_some_iff {v : Vocabulary} {passage : String} {call : MacroCall}
    {d : Diagnostic} :
    v.verdict? passage call = some d ↔
      call.name ∉ v ∧ d = .unknownCall passage call (v.suggest? call.name) := by
  by_cases h : call.name ∈ v
  · simp [verdict?, h]
  · simp [verdict?, h, eq_comm]

/-- What is reported of calls is the verdict on one of them. -/
theorem mem_verdicts_iff {v : Vocabulary} {passage : String} {calls : List MacroCall}
    {d : Diagnostic} :
    d ∈ v.verdicts passage calls ↔ ∃ call ∈ calls,
      call.name ∉ v ∧ d = .unknownCall passage call (v.suggest? call.name) := by
  simp only [verdicts, List.mem_filterMap, verdict?_eq_some_iff]

theorem accepts_iff {v : Vocabulary} {text : List Char} :
    v.Accepts text ↔ Balance.Balanced text ∧
      ∀ name, (∃ i, MacroCall.BeginsCall name (text.drop i)) → String.ofList name ∈ v := by
  constructor
  · intro haccepts
    obtain ⟨hbalanced, hcalls⟩ := haccepts
    exact ⟨hbalanced, fun name ⟨i, hname⟩ => hcalls i name hname⟩
  · intro haccepts
    obtain ⟨hbalanced, hcalls⟩ := haccepts
    exact ⟨hbalanced, fun i name hname => hcalls name ⟨i, hname⟩⟩

/-- Blanks around a text do not count. -/
theorem accepts_pad {v : Vocabulary} {front back : List Char} (hf : Text.AllBlank front)
    (hb : Text.AllBlank back) (text : List Char) :
    v.Accepts (front ++ (text ++ back)) ↔ v.Accepts text := by
  rw [accepts_iff, accepts_iff, Balance.balanced_pad hf hb]
  simp only [MacroCall.exists_beginsCall_pad hf hb]

end Vocabulary

/-- A section's content is accepted with its body, of which it is what trimming leaves. -/
theorem Section.accepts_content {v : Vocabulary} {s : Section} :
    v.Accepts s.passage.content.toList ↔ v.Accepts s.body := by
  obtain ⟨back, hback, hbody⟩ := Text.exists_eq_trim s.body
  have hpad := Vocabulary.accepts_pad (v := v) (Text.allBlank_takeWhile s.body) hback
    (Text.trim s.body)
  rw [← hbody] at hpad
  rw [hpad, Section.passage, String.toList_ofList]

namespace Passage

/-- **Nothing is reported of a passage** if and only if the vocabulary accepts its content. -/
theorem lint_eq_nil_iff {v : Vocabulary} {p : Passage} :
    p.lint v = [] ↔ v.Accepts p.content.toList := by
  rw [lint, List.append_eq_nil_iff, Balance.check_eq_nil_iff, Vocabulary.verdicts,
    List.filterMap_eq_nil_iff]
  simp only [Vocabulary.verdict?_eq_none_iff, calls, MacroCall.mem_find_iff]
  constructor
  · intro hnone
    obtain ⟨hcalls, hbalanced⟩ := hnone
    refine ⟨hbalanced, fun i name hname => ?_⟩
    exact hcalls _ ⟨p.content.toList.take i, _, name, (List.take_append_drop i _).symm, hname, rfl⟩
  · intro haccepts
    obtain ⟨hbalanced, hcalls⟩ := haccepts
    refine ⟨?_, hbalanced⟩
    intro call hcall
    obtain ⟨pre, rest, name, hcontent, hname, rfl⟩ := hcall
    refine hcalls pre.length name ?_
    rwa [hcontent, List.drop_left]

/-- **What is reported of a passage is there.** -/
theorem findings_of_mem_lint {v : Vocabulary} {p : Passage} {d : Diagnostic} (hd : d ∈ p.lint v) :
    ∃ pre rest, d.FoundIn v p pre rest := by
  rw [lint, List.mem_append] at hd
  rcases hd with hd | hd
  · obtain ⟨call, hcall, hname, rfl⟩ := Vocabulary.mem_verdicts_iff.mp hd
    obtain ⟨pre, rest, name, hcontent, hbegins, rfl⟩ := MacroCall.mem_find_iff.mp hcall
    obtain ⟨-, -, blanks, tail, -, htext⟩ := id hbegins
    rw [htext] at hcontent hbegins
    exact ⟨pre, _, hcontent, rfl, rfl, fun _ => ⟨name, hbegins, rfl, hname⟩⟩
  · obtain ⟨pre, rest, ⟨hcontent, rfl⟩ | ⟨hcontent, rfl⟩⟩ := Balance.exists_of_mem_check hd
    · exact ⟨pre, rest, hcontent, rfl, rfl, by simp [Diagnostic.unmatched]⟩
    · exact ⟨pre, rest, hcontent, rfl, rfl, by simp [Diagnostic.unclosed]⟩

end Passage

/-- A report is made section by section. -/
theorem Report.lint_eq_sections (v : Vocabulary) (source document : String) :
    Report.lint v source document =
      ⟨source, (sections document).length, (sections document).flatMap (·.passage.lint v)⟩ := by
  simp [lint, passages, List.flatMap_map]

/-- A report is about the sections of the document. -/
theorem Report.mem_diagnostics_lint {v : Vocabulary} {source document : String} {d : Diagnostic} :
    d ∈ (Report.lint v source document).diagnostics ↔
      ∃ s ∈ sections document, d ∈ s.passage.lint v := by
  simp [Report.lint, passages]

end TweeLint
