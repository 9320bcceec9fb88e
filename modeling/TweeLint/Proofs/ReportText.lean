import Mathlib.Algebra.Order.BigOperators.Group.List
import Mathlib.Algebra.Order.Group.Nat
import TweeLint.Interchange
import TweeLint.Proofs.Json.Writing
import TweeLint.Proofs.Places

/-!
# Reports as JSON texts

The text that is written for a report is read back as what it was written for, by every reader that
takes three layers of brackets and the numbers of the report (`Report.Fits.within`). The numbers
in the report of a document are no greater than the document is long, and one
(`Report.bounded_lint`).
-/

namespace TweeLint

/-- No number in a report is greater than a bound. -/
structure Report.Bounded (r : Report) (bound : Nat) : Prop where
  passages : r.passageCount ≤ bound
  lines : ∀ d ∈ r.diagnostics, d.position.line.natAbs ≤ bound
  columns : ∀ d ∈ r.diagnostics, d.position.column.natAbs ≤ bound

/-- A report fits the limits of a reader that takes three layers of brackets and as many digits as
the numbers in the report have. -/
structure Report.Fits (r : Report) (limits : Json.ReadLimits) : Prop where
  depth : 3 ≤ limits.depth
  passages : (Nat.toDigits 10 r.passageCount).length ≤ limits.digits
  lines : ∀ d ∈ r.diagnostics, (Nat.toDigits 10 d.position.line.natAbs).length ≤ limits.digits
  columns : ∀ d ∈ r.diagnostics, (Nat.toDigits 10 d.position.column.natAbs).length ≤ limits.digits

/-! ### The form of a report -/

theorem Diagnostic.within_toJson {digits depth : Nat} {d : Diagnostic}
    (hline : (Nat.toDigits 10 d.position.line.natAbs).length ≤ digits)
    (hcolumn : (Nat.toDigits 10 d.position.column.natAbs).length ≤ digits) :
    Json.Within digits (depth + 1) d.toJson := by
  have hsuggestion : Json.Within digits depth (.ofOption d.suggestion) := by
    cases d.suggestion with
    | none => simp only [Json.ofOption, Json.Within]
    | some name => simp only [Json.ofOption, Json.Within]
  simp only [toJson, Json.Within, List.forall_mem_cons, List.not_mem_nil, false_implies,
    implies_true, true_and, and_true]
  exact ⟨hline, hcolumn, hsuggestion⟩

/-- **A report has three layers of brackets** and the numbers that it has. -/
theorem Report.Fits.within {limits : Json.ReadLimits} {r : Report} (h : r.Fits limits) :
    Json.Within limits.digits limits.depth r.toJson := by
  obtain ⟨depth, hdepth⟩ : ∃ depth, limits.depth = depth + 3 := Nat.exists_eq_add_of_le' h.depth
  have hdiagnostics : ∀ j ∈ r.diagnostics.map Diagnostic.toJson,
      Json.Within limits.digits (depth + 1) j :=
    List.forall_mem_map.mpr fun d hd => Diagnostic.within_toJson (h.lines d hd) (h.columns d hd)
  rw [hdepth]
  simp only [toJson, Json.Within, List.forall_mem_cons, List.not_mem_nil, false_implies,
    implies_true, true_and, and_true]
  exact ⟨h.passages, hdiagnostics⟩

theorem Report.Bounded.fits {limits : Json.ReadLimits} {bound : Nat} {r : Report}
    (h : r.Bounded bound) (hdepth : 3 ≤ limits.depth) (hpos : 0 < limits.digits)
    (hdigits : bound < 10 ^ limits.digits) : r.Fits limits := by
  have hlength : ∀ n ≤ bound, (Nat.toDigits 10 n).length ≤ limits.digits := fun n hn =>
    (Nat.length_toDigits_le_iff (by decide) hpos).mpr (Nat.lt_of_le_of_lt hn hdigits)
  exact ⟨hdepth, hlength _ h.passages, fun d hd => hlength _ (h.lines d hd),
    fun d hd => hlength _ (h.columns d hd)⟩

/-- Every report fits some limits. -/
theorem Report.exists_fits (r : Report) : ∃ limits : Json.ReadLimits, r.Fits limits := by
  obtain ⟨sum, hsum⟩ : ∃ sum, sum = (r.diagnostics.map fun d =>
    d.position.line.natAbs + d.position.column.natAbs).sum := ⟨_, rfl⟩
  have hle : ∀ d ∈ r.diagnostics, d.position.line.natAbs + d.position.column.natAbs ≤ sum :=
    fun d hd => hsum ▸ List.le_sum_of_mem (List.mem_map_of_mem hd)
  have hbounded : r.Bounded (r.passageCount + sum) := by
    refine ⟨Nat.le_add_right _ _, fun d hd => ?_, fun d hd => ?_⟩
    · have := hle d hd
      omega
    · have := hle d hd
      omega
  exact ⟨⟨3, _⟩, hbounded.fits (Nat.le_refl 3) (Nat.succ_pos _)
    (Nat.lt_trans (Nat.lt_succ_self _) (Nat.lt_pow_self (by decide)))⟩

/-! ### The report of a document -/

/-- A line of a document is not longer than the document. -/
theorem length_le_of_rawLines {document : String} {i : Nat} {l : List Char}
    (h : (rawLines document)[i]? = some l) : l.length ≤ document.length := by
  have hmem := List.mem_of_getElem? (Text.getElem?_endLines h)
  have hsub := (List.sublist_flatten_of_mem hmem).length_le
  rw [Text.flatten_endLines, rawLines, Text.joinLines_splitLines, List.length_append,
    String.length_toList] at hsub
  omega

theorem length_splitLines_le (cs : List Char) : (Text.splitLines cs).length ≤ cs.length + 1 := by
  rw [Text.length_splitLines]
  exact Nat.succ_le_succ List.count_le_length

theorem length_dropMark_le (cs : List Char) : (Text.dropMark cs).length ≤ cs.length := by
  cases cs with
  | nil => exact Nat.le_refl 0
  | cons c cs =>
    rw [Text.dropMark]
    split
    · exact Nat.le_succ _
    · exact Nat.le_refl _

theorem length_documentLines_le (document : String) :
    (documentLines document).length ≤ document.length + 1 := by
  rw [← String.length_toList]
  exact Nat.le_trans (length_splitLines_le _) (Nat.succ_le_succ (length_dropMark_le _))

theorem length_sections_le (document : String) :
    (sections document).length ≤ document.length + 1 := by
  rw [Section.sections_eq, List.length_map, Section.headers]
  refine Nat.le_trans (List.length_filter_le _ _) ?_
  rw [List.length_range]
  exact length_documentLines_le document

/-- A diagnostic is on a line of the document, and within it. -/
theorem position_le_of_mem_lint {v : Vocabulary} {source document : String} {d : Diagnostic}
    (hd : d ∈ (Report.lint v source document).diagnostics) :
    d.position.line.natAbs ≤ document.length + 1 ∧
      d.position.column.natAbs ≤ document.length + 1 := by
  obtain ⟨s, hs, hd⟩ := Report.mem_diagnostics_lint.mp hd
  obtain ⟨h, h', hspans⟩ := Section.exists_spans_of_mem hs
  obtain ⟨pre, rest, hfound⟩ := Passage.findings_of_mem_lint hd
  obtain ⟨i, j, hpoints⟩ := hfound.exists_pointsAt hspans
  obtain ⟨l, hl, -, -, hj⟩ := hpoints.character
  obtain ⟨hi, -⟩ := List.getElem?_eq_some_iff.mp hl
  obtain ⟨hj, -⟩ := List.getElem?_eq_some_iff.mp hj
  have hlines : (rawLines document).length ≤ document.length + 1 := by
    rw [← String.length_toList]
    exact length_splitLines_le _
  have hwidth := length_le_of_rawLines hl
  rw [hpoints.position]
  dsimp only
  omega

/-- **The numbers in a report** are no greater than the document is long, and one. -/
theorem Report.bounded_lint (v : Vocabulary) (source document : String) :
    (Report.lint v source document).Bounded (document.length + 1) where
  passages := by
    rw [Report.lint_eq_sections]
    exact length_sections_le document
  lines _ hd := (position_le_of_mem_lint hd).1
  columns _ hd := (position_le_of_mem_lint hd).2

/-- **The report of a document is read back** from its text, by a reader that takes numbers as great
as the document is long. -/
theorem Report.read_write_lint {limits : Json.ReadLimits} (v : Vocabulary)
    (source document : String) (hdepth : 3 ≤ limits.depth)
    (hdigits : document.length + 1 < 10 ^ limits.digits) :
    Json.read limits (Report.lint v source document).toJson.write =
      .ok (Report.lint v source document).toJson := by
  have hpos : 0 < limits.digits := by
    refine Nat.pos_of_ne_zero fun hzero => ?_
    rw [hzero] at hdigits
    omega
  have hfits : (Report.lint v source document).Fits limits :=
    (Report.bounded_lint v source document).fits hdepth hpos hdigits
  exact Json.read_write hfits.within

end TweeLint
