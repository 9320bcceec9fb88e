import TweeLint.Proofs.Passage.Findings
import TweeLint.Proofs.Passage.Headers

/-!
# When a document is valid

The verdict on a document, said on its lines: it is valid if and only if the vocabulary accepts the
raw text behind each header line, up to the next one (`isValid_lint_iff`). The report is made from
trimmed contents, and the blanks that are trimmed away do not count.

The lines before the first header are in none of these texts. The induction goes over them one by
one: each moves all headers, and all that is between them, by one index and changes nothing else
(`headersAccepted_cons`).
-/

namespace TweeLint

namespace Section

/-- The vocabulary accepts the text behind each header line. -/
def HeadersAccepted (v : Vocabulary) (ls : List (List Char)) : Prop :=
  ∀ h h', HeaderAt ls h → NextHeader ls h h' → v.Accepts (bodyBetween ls h h')

/-- The lines from the first header on. -/
def fromFirstHeader (ls : List (List Char)) : List (List Char) :=
  ls.dropWhile (! isHeader ·)

/-! ### One line in front -/

section Front

variable {l : List Char} {ls : List (List Char)} {h h' : Nat}

theorem headerAt_succ : HeaderAt (l :: ls) (h + 1) ↔ HeaderAt ls h := by
  simp [HeaderAt]

theorem headerAt_zero : HeaderAt (l :: ls) 0 ↔ isHeader l = true := by
  simp [HeaderAt, isHeader_iff]

theorem nextHeader_succ : NextHeader (l :: ls) (h + 1) (h' + 1) ↔ NextHeader ls h h' := by
  constructor
  · intro hnext
    obtain ⟨hlt, hle, hheader, hbetween⟩ := hnext
    rw [List.length_cons] at hle hheader
    refine ⟨by omega, by omega, fun hlen => ?_, fun k hk hk' => ?_⟩
    · exact headerAt_succ.mp (hheader (by omega))
    · exact fun hk'' => hbetween (k + 1) (by omega) (by omega) (headerAt_succ.mpr hk'')
  · intro hnext
    obtain ⟨hlt, hle, hheader, hbetween⟩ := hnext
    refine ⟨by omega, by simpa using hle, fun hlen => ?_, fun k hk hk' => ?_⟩
    · exact headerAt_succ.mpr (hheader (by simpa using hlen))
    · obtain ⟨k, rfl⟩ : ∃ m, k = m + 1 := ⟨k - 1, by omega⟩
      rw [headerAt_succ]
      exact hbetween k (by omega) (by omega)

theorem bodyBetween_succ : bodyBetween (l :: ls) (h + 1) (h' + 1) = bodyBetween ls h h' := by
  simp [bodyBetween, between]

/-- A line in front that is no header has no text behind it that counts. -/
theorem headersAccepted_cons {v : Vocabulary} (hl : isHeader l = false) :
    HeadersAccepted v (l :: ls) ↔ HeadersAccepted v ls := by
  constructor
  · intro hall h h' hheader hnext
    rw [← bodyBetween_succ (l := l)]
    exact hall (h + 1) (h' + 1) (headerAt_succ.mpr hheader) (nextHeader_succ.mpr hnext)
  · intro hall h h' hheader hnext
    -- the line in front is no header, so headers are all one further
    cases h with
    | zero =>
      rw [headerAt_zero, hl] at hheader
      exact absurd hheader (by decide)
    | succ h =>
      obtain ⟨k, rfl⟩ : ∃ k, h' = k + 1 := ⟨h' - 1, by have := hnext.lt; omega⟩
      rw [bodyBetween_succ]
      exact hall h k (headerAt_succ.mp hheader) (nextHeader_succ.mp hnext)

end Front

theorem headersAccepted_fromFirstHeader {v : Vocabulary} (ls : List (List Char)) :
    HeadersAccepted v (fromFirstHeader ls) ↔ HeadersAccepted v ls := by
  induction ls with
  | nil => rfl
  | cons l ls ih =>
    cases hl : isHeader l with
    | true => simp [fromFirstHeader, hl]
    | false =>
      rw [headersAccepted_cons hl, ← ih, fromFirstHeader, fromFirstHeader,
        List.dropWhile_cons_of_pos (by simp [hl])]

end Section

open Section

/-! ### The verdict -/

namespace Report

theorem isValid_lint_iff_sections {v : Vocabulary} {source document : String} :
    (lint v source document).isValid = true ↔
      ∀ s ∈ sections document, s.passage.lint v = [] := by
  simp [lint, isValid, passages]

theorem isValid_lint_iff_headersAccepted {v : Vocabulary} {source document : String} :
    (lint v source document).isValid = true ↔ HeadersAccepted v (documentLines document) := by
  rw [isValid_lint_iff_sections]
  constructor
  · intro hall h h' hheader hnext
    obtain ⟨s, hs, h'', hspans⟩ := exists_mem_sections hheader
    obtain rfl := hspans.next.unique hnext
    rw [← hspans.body, ← accepts_content, ← Passage.lint_eq_nil_iff]
    exact hall s hs
  · intro hall s hs
    obtain ⟨h, h', hspans⟩ := exists_spans_of_mem hs
    rw [Passage.lint_eq_nil_iff, accepts_content, hspans.body]
    exact hall h h' hspans.headerAt hspans.next

end Report

/-- **A document is valid** if and only if the raw text behind each of its header lines, up to the
next one, has balanced parentheses and no call of an unknown name. What stands before the first
header does not matter, nor where the document came from. -/
theorem isValid_lint_iff (v : Vocabulary) (source document : String) :
    ((Report.lint v source document).isValid = true ↔
      ∀ h h', HeaderAt (documentLines document) h → NextHeader (documentLines document) h h' →
        v.Accepts (bodyBetween (documentLines document) h h')) ∧
    ∀ source' document',
      fromFirstHeader (documentLines document') = fromFirstHeader (documentLines document) →
        (Report.lint v source' document').isValid = (Report.lint v source document).isValid := by
  refine ⟨Report.isValid_lint_iff_headersAccepted, fun source' document' hfrom => ?_⟩
  rw [Bool.eq_iff_iff, Report.isValid_lint_iff_headersAccepted,
    Report.isValid_lint_iff_headersAccepted, ← headersAccepted_fromFirstHeader,
    ← headersAccepted_fromFirstHeader (documentLines document), hfrom]

end TweeLint
