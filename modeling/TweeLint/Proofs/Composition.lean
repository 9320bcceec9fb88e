import TweeLint.Lint
import TweeLint.Proofs.Balance.Scan
import TweeLint.Proofs.MacroCall
import TweeLint.Proofs.Passage.Headers

/-!
# Documents put together

Where a document of whole lines is followed by one that begins with a header, the passages of the
two are those of the first and those of the second, which only stand further down
(`Position.down`). The seam changes nothing in front of it: the body of the last passage ends there
whether a header or nothing follows.

All that is found in a passage moves with it (`Passage.lint_down`), so the same holds of the report
(`lint_append`), and no passage has an effect on what is reported of another.
-/

namespace TweeLint

/-- The section `k` lines further down. -/
def Section.down (k : Nat) (s : Section) : Section :=
  { s with line := s.line + k }

/-- The passage `k` lines further down. -/
def Passage.down (k : Nat) (p : Passage) : Passage :=
  { p with headerLine := p.headerLine + k, contentStart := p.contentStart.down k }

/-- The diagnostic `k` lines further down. -/
def Diagnostic.down (k : Nat) (d : Diagnostic) : Diagnostic :=
  { d with position := d.position.down k }

/-! ### Whole lines -/

namespace Text

/-- A text that has a line feed behind each of its lines. -/
def WholeLines (cs : List Char) : Prop :=
  cs = [] ∨ ∃ ds, cs = ds ++ ['\n']

theorem lines_ne_nil_of_feed (cs : List Char) : lines (cs ++ ['\n']) ≠ [] := by
  intro h
  have hflat := flatten_lines (cs ++ ['\n'])
  rw [h] at hflat
  simp at hflat

theorem consLine_append (c : Char) {ls : List (List Char)} (h : ls ≠ []) (ms : List (List Char)) :
    consLine c (ls ++ ms) = consLine c ls ++ ms := by
  obtain ⟨l, ls, rfl⟩ := List.exists_cons_of_ne_nil h
  by_cases hc : c = '\n' <;> simp [consLine, hc]

theorem length_consLine (c : Char) {ls : List (List Char)} (h : ls ≠ []) :
    (consLine c ls).length = [c].count '\n' + ls.length := by
  obtain ⟨l, ls, rfl⟩ := List.exists_cons_of_ne_nil h
  by_cases hc : c = '\n'
  · subst hc
    simp [consLine]
    omega
  · simp [consLine, hc]

/-- The lines of a text behind whole lines. -/
theorem lines_append {cs : List Char} (h : WholeLines cs) (ds : List Char) :
    lines (cs ++ ds) = lines cs ++ lines ds := by
  rcases h with rfl | ⟨cs, rfl⟩
  · rfl
  · induction cs with
    | nil => rfl
    | cons c cs ih =>
      rw [List.cons_append, List.cons_append, lines_cons, lines_cons, ih,
        consLine_append c (lines_ne_nil_of_feed cs)]

theorem length_lines {cs : List Char} (h : WholeLines cs) :
    (lines cs).length = cs.count '\n' := by
  rcases h with rfl | ⟨cs, rfl⟩
  · rfl
  · induction cs with
    | nil => rfl
    | cons c cs ih =>
      rw [List.cons_append, lines_cons, length_consLine c (lines_ne_nil_of_feed cs), ih,
        ← List.count_append]
      rfl

/-- A byte-order mark in front of whole lines is no line of its own. -/
theorem WholeLines.dropMark {cs : List Char} (h : WholeLines cs) : WholeLines (dropMark cs) := by
  rcases h with rfl | ⟨cs, rfl⟩
  · exact Or.inl rfl
  · cases cs with
    | nil => exact Or.inr ⟨[], rfl⟩
    | cons c cs =>
      rw [List.cons_append, Text.dropMark]
      split
      · exact Or.inr ⟨cs, rfl⟩
      · exact Or.inr ⟨c :: cs, rfl⟩

theorem count_dropMark (cs : List Char) : (dropMark cs).count '\n' = cs.count '\n' := by
  cases cs with
  | nil => rfl
  | cons c cs =>
    rw [dropMark]
    split
    · next hc =>
      subst hc
      exact (List.count_cons_of_ne (by decide)).symm
    · rfl

/-- A byte-order mark is only looked for at the front. -/
theorem dropMark_append {cs : List Char} (ds : List Char) (hd : ds.head? ≠ some mark) :
    dropMark (cs ++ ds) = dropMark cs ++ ds := by
  cases cs with
  | nil =>
    cases ds with
    | nil => rfl
    | cons d ds => simpa [dropMark] using hd
  | cons c cs =>
    rw [List.cons_append, dropMark, dropMark]
    split <;> rfl

end Text

/-! ### Sections -/

namespace Section

/-- Lines from a header on begin sections of their own. -/
theorem gathered_append (k : Nat) (ls : List (List Char)) {m : List Char} (hm : isHeader m = true)
    (ms : List (List Char)) :
    gathered k (ls ++ m :: ms) =
      ((gathered k ls).1, (gathered k ls).2 ++ (gathered (k + ls.length) (m :: ms)).2) := by
  induction ls generalizing k with
  | nil =>
    have hfst := gathered_fst k (m :: ms)
    rw [List.takeWhile_cons_of_neg (by simp [hm])] at hfst
    exact Prod.ext hfst rfl
  | cons l ls ih =>
    have hk : k + (l :: ls).length = k + 1 + ls.length := by
      rw [List.length_cons]
      omega
    rw [List.cons_append, gathered_cons k l (ls ++ m :: ms), gathered_cons k l ls, ih, hk]
    -- the header `m` cuts the body of the last section off from what follows
    generalize gathered (k + 1 + ls.length) (m :: ms) = low
    by_cases hl : isHeader l = true <;> simp [gather, hl]

/-- Lines that are numbered from further on have their sections further down. -/
theorem gathered_down (j k : Nat) (ls : List (List Char)) :
    (gathered (j + k) ls).2 = (gathered j ls).2.map (·.down k) := by
  rw [gathered_snd, gathered_snd, List.map_map]
  refine List.map_congr_left fun h _ => ?_
  simp only [sectionAt, down, Function.comp_apply, Section.mk.injEq, and_self, and_true]
  omega

/-- A text that begins with two colons has a header for its first line. -/
theorem lines_of_header (cs : List Char) :
    ∃ l ls, Text.lines (':' :: ':' :: cs) = l :: ls ∧ isHeader l = true := by
  rw [Text.lines_cons, Text.lines_cons]
  cases Text.lines cs with
  | nil => exact ⟨[':', ':'], [], rfl, rfl⟩
  | cons l ls => exact ⟨':' :: ':' :: l, ls, rfl, rfl⟩

theorem passage_down (k : Nat) (s : Section) : (s.down k).passage = s.passage.down k := by
  have hstart : (Position.mk ((s.line + k : Nat) : Int) 1) = (Position.mk s.line 1).down k := by
    simp [Position.down]
  simp only [passage, Passage.down, name, tags, down, contentStart, Passage.mk.injEq, true_and]
  exact ⟨by simp, by rw [hstart, Position.after_down]⟩

end Section

/-- The sections of two documents put together. -/
theorem sections_append {upper lower : String} (hu : Text.WholeLines upper.toList)
    (hl : [':', ':'] <+: lower.toList) :
    sections (upper ++ lower) =
      sections upper ++ (sections lower).map (·.down (upper.toList.count '\n')) := by
  obtain ⟨cs, hcs⟩ := hl
  obtain ⟨m, ms, hms, hm⟩ := Section.lines_of_header cs
  have hlower : lower.toList = ':' :: ':' :: cs := hcs.symm
  have hmark : Text.dropMark lower.toList = lower.toList := by
    rw [hlower]
    rfl
  have hhead : lower.toList.head? ≠ some Text.mark := by
    rw [hlower, List.head?_cons]
    decide
  rw [sections, sections, sections, hmark, String.toList_append, Text.dropMark_append _ hhead,
    Text.lines_append hu.dropMark, hlower, hms, Section.ofLines_eq, Section.gathered_append _ _ hm,
    Section.gathered_down, Text.length_lines hu.dropMark, Text.count_dropMark]
  rfl

/-! ### Diagnostics -/

theorem Balance.check_down (k : Nat) (passage : String) (start : Position) (content : String) :
    check passage (start.down k) content = (check passage start content).map (·.down k) := by
  rw [check, check, scan_down]
  simp [State.down, Diagnostic.down, Diagnostic.unmatched, Diagnostic.unclosed, Site.down,
    Function.comp_def]

theorem Vocabulary.verdicts_down (v : Vocabulary) (k : Nat) (passage : String)
    (calls : List MacroCall) :
    v.verdicts passage (calls.map (·.down k)) = (v.verdicts passage calls).map (·.down k) := by
  rw [verdicts, verdicts, List.filterMap_map, List.map_filterMap]
  congr 1
  funext call
  simp only [Function.comp_apply, verdict?, MacroCall.down]
  split <;> rfl

/-- **All that is found in a passage moves with it.** -/
theorem Passage.lint_down (v : Vocabulary) (k : Nat) (p : Passage) :
    (p.down k).lint v = (p.lint v).map (·.down k) := by
  rw [lint, lint, List.map_append, ← Vocabulary.verdicts_down, ← Balance.check_down, calls, calls,
    ← MacroCall.find_down]
  rfl

/-- **A document below whole lines is linted as if it stood alone**, and so are the lines. -/
theorem lint_append (v : Vocabulary) (source : String) {upper lower : String}
    (hu : upper = "" ∨ ∃ t, upper = t ++ "\n") (hl : ∃ t, lower = "::" ++ t) :
    passages (upper ++ lower) =
        passages upper ++ (passages lower).map (·.down (upper.toList.count '\n')) ∧
      Report.lint v source (upper ++ lower) =
        ⟨source, (Report.lint v source upper).passageCount + (Report.lint v source lower).passageCount,
          (Report.lint v source upper).diagnostics ++
            (Report.lint v source lower).diagnostics.map (·.down (upper.toList.count '\n'))⟩ ∧
      (Report.lint v source (upper ++ lower)).isValid =
        ((Report.lint v source upper).isValid && (Report.lint v source lower).isValid) := by
  have hwhole : Text.WholeLines upper.toList := by
    rcases hu with rfl | ⟨t, rfl⟩
    · exact Or.inl rfl
    · exact Or.inr ⟨t.toList, String.toList_append⟩
  have hheader : [':', ':'] <+: lower.toList := by
    obtain ⟨t, rfl⟩ := hl
    exact ⟨t.toList, by rw [String.toList_append]; rfl⟩
  have hpassages : passages (upper ++ lower) =
      passages upper ++ (passages lower).map (·.down (upper.toList.count '\n')) := by
    rw [passages, sections_append hwhole hheader, List.map_append, List.map_map, passages, passages,
      List.map_map]
    congr 1
    exact List.map_congr_left fun s _ => Section.passage_down _ s
  have hreport : Report.lint v source (upper ++ lower) =
      ⟨source, (Report.lint v source upper).passageCount + (Report.lint v source lower).passageCount,
        (Report.lint v source upper).diagnostics ++
          (Report.lint v source lower).diagnostics.map (·.down (upper.toList.count '\n'))⟩ := by
    simp only [Report.lint, hpassages, List.length_append, List.length_map, List.flatMap_append,
      List.flatMap_map, Passage.lint_down, List.map_flatMap]
  refine ⟨hpassages, hreport, ?_⟩
  rw [hreport]
  simp only [Report.isValid]
  cases (Report.lint v source upper).diagnostics <;> simp

/-- A parenthesis that is closed in another passage only is not closed. -/
theorem lint_append_open_close :
    (∃ t, "::A\n(\n" = t ++ "\n") ∧ (∃ t, "::B\n)" = "::" ++ t) ∧
      Report.lint .empty "doc" ("::A\n(\n" ++ "::B\n)") =
        ⟨"doc", 2, [.unclosed "A" ⟨2, 1⟩, .unmatched "B" ⟨4, 1⟩]⟩ := by
  have hu : ∃ t, "::A\n(\n" = t ++ "\n" := ⟨"::A\n(", by decide⟩
  have hl : ∃ t, "::B\n)" = "::" ++ t := ⟨"B\n)", by decide⟩
  refine ⟨hu, hl, ?_⟩
  rw [(lint_append .empty "doc" (Or.inr hu) hl).2.1]
  decide

end TweeLint
