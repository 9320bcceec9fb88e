import TweeLint.Proofs.Interchange
import TweeLint.Proofs.Passage.Findings
import TweeLint.Proofs.Passage.Headers

/-!
# No check fails

Linting a document with every value checked gives the report of the document (`lintChecked_eq_ok`):
no value that is made on the way is out of bounds, and there is a group of diagnostics for each
passage. A check looks at places only, and every place is where some text leads that stands behind
a place with line and column at least 1, which is never below that (`Position.InBounds.after`).

The same holds of the search for calls and of the balance scan on their own, for every start that is
not below line 1 and column 1 itself.
-/

namespace TweeLint

open Section

/-! ### Checks of single values -/

theorem checkCount_valid {name : String} {n : Int} (h : 1 ≤ n) : checkCount name n = .valid n := by
  rw [checkCount, Checked.atLeast, if_neg (Int.not_lt.mpr h), Checked.under]

theorem Position.check_valid {p : Position} (h : p.InBounds) (lineName columnName : String) :
    p.check lineName columnName = .valid p := by
  rw [check, checkCount_valid h.line, checkCount_valid h.column]
  rfl

theorem MacroCall.check_valid {c : MacroCall} (h : c.position.InBounds) : c.check = .valid c := by
  rw [check, Position.check_valid h]
  rfl

theorem Diagnostic.check_valid {d : Diagnostic} (h : d.position.InBounds) : d.check = .valid d := by
  rw [check, Position.check_valid h]
  rfl

theorem Passage.check_valid {p : Passage} (hheader : 1 ≤ p.headerLine)
    (h : p.contentStart.InBounds) : p.check = .valid p := by
  rw [check, checkCount_valid hheader, Position.check_valid h]
  rfl

/-- A run over a list in which nothing fails. -/
theorem mapM_eq_ok_map {α β ε : Type} {f : α → Except ε β} {g : α → β} {as : List α}
    (h : ∀ a ∈ as, f a = .ok (g a)) : as.mapM f = .ok (as.map g) := by
  induction as with
  | nil => rfl
  | cons a as ih =>
    rw [List.mapM_cons, h a List.mem_cons_self, ih fun b hb => h b (List.mem_cons_of_mem _ hb)]
    rfl

theorem checkEach_eq_ok {α : Type} {check : α → Checked α} {values : List α}
    (h : ∀ a ∈ values, check a = .valid a) : checkEach check values = .ok values := by
  have hmap : checkEach check values = .ok (values.map id) :=
    mapM_eq_ok_map fun a ha => by rw [h a ha]; rfl
  rw [hmap, List.map_id]

/-! ### Where values are placed -/

variable {start : Position} {content passage : String}

theorem MacroCall.inBounds_of_mem_find (h : start.InBounds) {c : MacroCall}
    (hc : c ∈ find start content) : c.position.InBounds := by
  obtain ⟨pre, rest, name, -, -, rfl⟩ := mem_find_iff.mp hc
  exact h.after pre

theorem Vocabulary.inBounds_of_mem_verdicts {v : Vocabulary} {calls : List MacroCall}
    (h : ∀ c ∈ calls, c.position.InBounds) {d : Diagnostic} (hd : d ∈ v.verdicts passage calls) :
    d.position.InBounds := by
  obtain ⟨c, hc, -, rfl⟩ := mem_verdicts_iff.mp hd
  exact h c hc

theorem Balance.inBounds_of_mem_check (h : start.InBounds) {d : Diagnostic}
    (hd : d ∈ check passage start content) : d.position.InBounds := by
  obtain ⟨pre, -, ⟨-, rfl⟩ | ⟨-, rfl⟩⟩ := exists_of_mem_check hd
  · exact h.after pre
  · exact h.after pre

theorem Passage.inBounds_of_mem_lint {v : Vocabulary} {p : Passage} (h : p.contentStart.InBounds)
    {d : Diagnostic} (hd : d ∈ p.lint v) : d.position.InBounds := by
  obtain ⟨pre, rest, hfound⟩ := findings_of_mem_lint hd
  rw [hfound.position]
  exact h.after pre

/-- A passage of a document is placed within its bounds. -/
theorem inBounds_of_mem_passages {document : String} {p : Passage} (hp : p ∈ passages document) :
    1 ≤ p.headerLine ∧ p.contentStart.InBounds := by
  obtain ⟨s, hs, rfl⟩ := List.mem_map.mp hp
  obtain ⟨h, h', hspans⟩ := exists_spans_of_mem hs
  have hline : (1 : Int) ≤ s.line := by
    rw [hspans.line]
    omega
  exact ⟨hline, Position.InBounds.after ⟨hline, Int.le_refl 1⟩ _⟩

theorem Report.inBounds_of_mem_lint {v : Vocabulary} {source document : String} {d : Diagnostic}
    (hd : d ∈ (Report.lint v source document).diagnostics) : d.position.InBounds := by
  obtain ⟨p, hp, hd⟩ := List.mem_flatMap.mp hd
  exact Passage.inBounds_of_mem_lint (inBounds_of_mem_passages hp).2 hd

/-! ### Runs with every value checked -/

theorem MacroCall.findChecked_eq_ok (h : start.InBounds) (content : String) :
    findChecked start content = .ok (find start content) :=
  checkEach_eq_ok fun _ hc => check_valid (inBounds_of_mem_find h hc)

theorem Balance.checkChecked_eq_ok (passage : String) (h : start.InBounds) (content : String) :
    checkChecked passage start content = .ok (check passage start content) :=
  checkEach_eq_ok fun _ hd => Diagnostic.check_valid (inBounds_of_mem_check h hd)

/-- **No check fails in a passage** whose content is placed within bounds. -/
theorem Passage.lintChecked_eq_ok (v : Vocabulary) {p : Passage} (h : p.contentStart.InBounds) :
    p.lintChecked v = .ok (p.lint v) := by
  have hcalls := MacroCall.findChecked_eq_ok h p.content
  have hnames : checkEach Diagnostic.check (v.verdicts p.name p.calls) =
      .ok (v.verdicts p.name p.calls) :=
    checkEach_eq_ok fun d hd => Diagnostic.check_valid
      (Vocabulary.inBounds_of_mem_verdicts (fun c hc => MacroCall.inBounds_of_mem_find h hc) hd)
  have hparens := Balance.checkChecked_eq_ok p.name h p.content
  calc p.lintChecked v
      = (do
          let names ← checkEach Diagnostic.check (v.verdicts p.name p.calls)
          let parentheses ← Balance.checkChecked p.name p.contentStart p.content
          return names ++ parentheses) := by
        rw [lintChecked, hcalls]
        rfl
    _ = .ok (p.lint v) := by
        rw [hnames, hparens]
        rfl

/-- No check fails in the passages of a document, and each has its group of diagnostics. -/
theorem diagnosticsChecked_eq_ok (v : Vocabulary) (document : String) :
    diagnosticsChecked v document = .ok (passages document, (passages document).map (·.lint v)) := by
  have hpassages : passagesChecked document = .ok (passages document) :=
    checkEach_eq_ok fun p hp =>
      Passage.check_valid (inBounds_of_mem_passages hp).1 (inBounds_of_mem_passages hp).2
  have hgroups : (passages document).mapM (·.lintChecked v) =
      .ok ((passages document).map (·.lint v)) :=
    mapM_eq_ok_map fun p hp => Passage.lintChecked_eq_ok v (inBounds_of_mem_passages hp).2
  rw [diagnosticsChecked, hpassages]
  show ((passages document).mapM (·.lintChecked v) >>= fun groups =>
    Except.ok (passages document, groups)) = _
  rw [hgroups]
  rfl

theorem Report.lintChecked_eq_ok (v : Vocabulary) (source document : String) :
    lintChecked v source document = .ok (lint v source document) := by
  have hassemble : assemble source (passages document) ((passages document).map (·.lint v)) =
      .ok (lint v source document) := by
    rw [assemble, if_pos (List.length_map _).symm, ← List.flatMap_def]
    rfl
  rw [lintChecked, diagnosticsChecked_eq_ok]
  show (assemble source (passages document) ((passages document).map (·.lint v))).mapError
    LintError.mismatch = _
  rw [hassemble]
  rfl

/-- **No check fails.** Of every document a report is made: linting with every value checked gives
what linting without checks gives, and the passages, the calls in them and the report with its
diagnostics also pass the checks that a record has to pass when it is read. Neither the search for
calls nor the balance scan fails in any text that starts at line and column 1 or above. -/
theorem lint_passes_checks (v : Vocabulary) (source document : String) :
    Report.lintChecked v source document = .ok (Report.lint v source document) ∧
    (∀ p ∈ passages document, Passage.ofJson p.toJson = .valid p ∧
      ∀ c ∈ p.calls, MacroCall.ofJson c.toJson = .valid c) ∧
    Report.ofJson (Report.lint v source document).toJson =
      .valid (Report.lint v source document) ∧
    ∀ (start : Position) (passage content : String), 1 ≤ start.line → 1 ≤ start.column →
      MacroCall.findChecked start content = .ok (MacroCall.find start content) ∧
      Balance.checkChecked passage start content = .ok (Balance.check passage start content) := by
  refine ⟨Report.lintChecked_eq_ok v source document, fun p hp => ?_, ?_,
    fun start passage content hline hcolumn => ?_⟩
  · obtain ⟨hheader, hstart⟩ := inBounds_of_mem_passages hp
    exact ⟨Passage.ofJson_toJson hheader hstart,
      fun c hc => MacroCall.ofJson_toJson (MacroCall.inBounds_of_mem_find hstart hc)⟩
  · refine Report.ofJson_toJson fun d hd => ?_
    obtain ⟨p, hp, hd⟩ := List.mem_flatMap.mp hd
    exact Passage.inBounds_of_mem_lint (inBounds_of_mem_passages hp).2 hd
  · exact ⟨MacroCall.findChecked_eq_ok ⟨hline, hcolumn⟩ content,
      Balance.checkChecked_eq_ok passage ⟨hline, hcolumn⟩ content⟩

/-- A call on the first line of a text that starts within a line, and one below. -/
theorem lint_passes_checks_start :
    (1 : Int) ≤ (Position.mk 7 3).line ∧ (1 : Int) ≤ (Position.mk 7 3).column ∧
      MacroCall.findChecked ⟨7, 3⟩ "(a:\n (b:" = .ok [⟨"a", ⟨7, 3⟩, 0⟩, ⟨"b", ⟨8, 2⟩, 5⟩] ∧
      Balance.checkChecked "P" ⟨7, 3⟩ "(a:\n (b:" =
        .ok [.unclosed "P" ⟨7, 3⟩, .unclosed "P" ⟨8, 2⟩] := by
  have hchecks := (lint_passes_checks .empty "doc" "").2.2.2 ⟨7, 3⟩ "P" "(a:\n (b:" (by decide)
    (by decide)
  exact ⟨by decide, by decide, hchecks.1.trans (congrArg Except.ok (by decide)),
    hchecks.2.trans (congrArg Except.ok (by decide))⟩

end TweeLint
