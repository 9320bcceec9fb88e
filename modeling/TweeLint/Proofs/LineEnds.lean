import Mathlib.Data.List.Basic
import TweeLint.Proofs.Passage.Headers
import TweeLint.Proofs.Passage.Parentheses
import TweeLint.Proofs.Text.LineEnds

/-!
# Line ends do not count

A document whose lines end with a carriage return and a line feed is reported on as if they ended
with the line feed alone (`lint_plainEnds`). Its passages are not the same, for their contents keep
the carriage returns. But the lines are, so there are the same sections (`ofLines_plainEnds`), and in
each of them the name is the same (`name_plainEnds`), and so are the parentheses with their names and
positions (`parens_plainEnds`).
-/

namespace TweeLint

open Text

/-! ### Calls and parentheses -/

theorem MacroCall.nameBehind?_plainEnds {cs : List Char} (h : Paired cs) :
    nameBehind? (plainEnds cs) = nameBehind? cs := by
  have hrest : Paired (cs.dropWhile isNameChar) := h.dropWhile (by decide)
  simp only [nameBehind?]
  rw [takeWhile_plainEnds (by decide) (by decide) h, dropWhile_plainEnds (by decide) (by decide) h,
    dropWhile_isBlank_plainEnds hrest]
  -- the character behind the blanks is no carriage return, so it stays
  cases hblanks : (cs.dropWhile isNameChar).dropWhile isBlank with
  | nil => rfl
  | cons c rest =>
    have hc : c ≠ '\r' := by
      rintro rfl
      have hnot : isBlank '\r' = false := not_of_head_dropWhile (by rw [hblanks]; rfl)
      exact absurd hnot (by decide)
    rw [plainEnds_cons hc]
    by_cases hcolon : c = ':' <;> simp [hcolon]

/-- **The parentheses are the same**, at the same positions. -/
theorem parens_plainEnds {cs : List Char} (h : Paired cs) (p : Position) :
    parens p [] (plainEnds cs) = parens p [] cs := by
  induction h generalizing p with
  | nil => rfl
  | @cons c cs hc hcs ih =>
    rw [plainEnds_cons hc, parens, parens, ih, List.append_nil, List.append_nil, Paren.at?,
      Paren.at?, MacroCall.nameBehind?_plainEnds hcs]
  | pair _ ih =>
    rw [plainEnds_pair, parens, parens, parens, ih]
    rfl

/-! ### Sections -/

namespace Section

/-- The section with the line feed alone at its line ends. -/
def plainEnds (s : Section) : Section :=
  ⟨s.line, Text.plainEnds s.header, Text.plainEnds s.body⟩

theorem isHeader_plainEnds {l : List Char} (h : Paired l) :
    isHeader (Text.plainEnds l) = isHeader l := by
  cases h with
  | nil => rfl
  | @cons c cs hc hcs =>
    rw [plainEnds_cons hc]
    cases hcs with
    | nil => rfl
    | @cons d ds hd _ =>
      rw [plainEnds_cons hd]
      by_cases hc : c = ':' <;> by_cases hd : d = ':' <;> simp [isHeader, hc, hd]
    | pair _ => by_cases hc : c = ':' <;> simp [isHeader]
  | pair _ => rfl

theorem gathered_plainEnds (k : Nat) {ls : List (List Char)} (h : ∀ l ∈ ls, Paired l) :
    gathered k (ls.map Text.plainEnds) =
      ((gathered k ls).1.map Text.plainEnds, (gathered k ls).2.map plainEnds) := by
  induction ls generalizing k with
  | nil => rfl
  | cons l ls ih =>
    have hls : ∀ m ∈ ls, Paired m := fun m hm => h m (List.mem_cons_of_mem _ hm)
    have hbody : ∀ m ∈ (gathered (k + 1) ls).1, Paired m := by
      intro m hm
      rw [gathered_fst] at hm
      exact hls m ((List.takeWhile_prefix _).subset hm)
    rw [List.map_cons, gathered_cons, gathered_cons, ih (k + 1) hls, gather, gather,
      isHeader_plainEnds (h l List.mem_cons_self)]
    by_cases hl : isHeader l = true <;> simp [hl, plainEnds, plainEnds_flatten hbody]

/-- No line end is cut in two by the sections. -/
theorem paired_of_mem_gathered {k : Nat} {ls : List (List Char)} (h : ∀ l ∈ ls, Paired l)
    {s : Section} (hs : s ∈ (gathered k ls).2) : Paired s.header ∧ Paired s.body := by
  induction ls generalizing k with
  | nil => exact absurd hs List.not_mem_nil
  | cons l ls ih =>
    have hls : ∀ m ∈ ls, Paired m := fun m hm => h m (List.mem_cons_of_mem _ hm)
    rw [gathered_cons, gather] at hs
    split at hs
    · rcases List.mem_cons.mp hs with rfl | hs
      · refine ⟨h l List.mem_cons_self, Paired.flatten fun m hm => ?_⟩
        rw [gathered_fst] at hm
        exact hls m ((List.takeWhile_prefix _).subset hm)
      · exact ih hls hs
    · exact ih hls hs

/-- The name ends at a bracket, a brace or the line feed; a carriage return in front of that is
trimmed away. -/
theorem trim_takeWhile_plainEnds {cs : List Char} (h : Paired cs) :
    trim ((Text.plainEnds cs).takeWhile isNameChar) = trim (cs.takeWhile isNameChar) := by
  have hback : ∃ back, AllBlank back ∧
      cs.takeWhile isNameChar = (Text.plainEnds cs).takeWhile isNameChar ++ back := by
    induction h with
    | nil => exact ⟨[], fun _ hc => absurd hc List.not_mem_nil, rfl⟩
    | @cons c cs hc _ ih =>
      obtain ⟨back, hblank, ih⟩ := ih
      rw [plainEnds_cons hc, List.takeWhile_cons, List.takeWhile_cons]
      split
      · exact ⟨back, hblank, by rw [ih]; rfl⟩
      · exact ⟨[], fun _ hd => absurd hd List.not_mem_nil, rfl⟩
    | pair _ _ => exact ⟨['\r'], by simp [AllBlank]; decide, by simp [isNameChar]⟩
  obtain ⟨back, hblank, hcs⟩ := hback
  rw [hcs]
  have hnil : AllBlank [] := fun _ hc => absurd hc List.not_mem_nil
  exact (trim_pad hnil hblank _).symm

theorem name_plainEnds {s : Section} (h : Paired s.header) (hheader : isHeader s.header = true) :
    s.plainEnds.name = s.name := by
  obtain ⟨cs, hcs⟩ := isHeader_iff.mp hheader
  obtain hdr : s.header = ':' :: ':' :: cs := hcs.symm
  have hpaired : Paired cs := by
    rw [hdr] at h
    cases h with
    | cons _ h =>
      cases h with
      | cons _ h => exact h
  simp only [name, plainEnds, hdr, List.drop_succ_cons, List.drop_zero]
  exact trim_takeWhile_plainEnds hpaired

theorem isHeader_of_mem_gathered {k : Nat} {ls : List (List Char)} {s : Section}
    (hs : s ∈ (gathered k ls).2) : isHeader s.header = true := by
  induction ls generalizing k with
  | nil => exact absurd hs List.not_mem_nil
  | cons l ls ih =>
    rw [gathered_cons, gather] at hs
    split at hs
    · next hl =>
      rcases List.mem_cons.mp hs with rfl | hs
      · exact hl
      · exact ih hs
    · exact ih hs

/-- **A section is reported on alike.** -/
theorem lint_plainEnds (v : Vocabulary) {s : Section} (hheader : Paired s.header)
    (hbody : Paired s.body) (hname : isHeader s.header = true) :
    s.plainEnds.passage.lint v = s.passage.lint v := by
  rw [lint_passage, lint_passage, name_plainEnds hheader hname]
  simp only [plainEnds]
  rw [Position.after_plainEnds hheader, parens_plainEnds hbody]

end Section

/-! ### Documents -/

/-- The sections of a document with the line feed alone at its line ends. -/
theorem sections_plainEnds {document plain : String} (h : Paired (dropMark document.toList))
    (hplain : dropMark plain.toList = plainEnds (dropMark document.toList)) :
    sections plain = (sections document).map Section.plainEnds := by
  rw [sections, sections, hplain, lines_plainEnds h, Section.ofLines_eq, Section.ofLines_eq,
    Section.gathered_plainEnds 1 h.of_mem_lines]

/-- **Line ends do not count**: a document and the one with line feeds alone have the same
report. -/
theorem Report.lint_plainEnds (v : Vocabulary) (source : String) {document plain : String}
    (h : Paired (dropMark document.toList))
    (hplain : dropMark plain.toList = plainEnds (dropMark document.toList)) :
    lint v source plain = lint v source document := by
  have hsections := sections_plainEnds h hplain
  simp only [lint, passages, hsections, List.length_map, List.map_map, List.flatMap_map,
    Report.mk.injEq, true_and]
  refine List.flatMap_congr fun s hs => ?_
  obtain ⟨hheader, hbody⟩ := Section.paired_of_mem_gathered h.of_mem_lines hs
  exact s.lint_plainEnds v hheader hbody (Section.isHeader_of_mem_gathered hs)

end TweeLint
