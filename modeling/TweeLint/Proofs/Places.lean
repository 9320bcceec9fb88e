import TweeLint.Proofs.Passage.Findings
import TweeLint.Proofs.Passage.LineReading

/-!
# Where diagnostics point

Each diagnostic of a report points at a parenthesis of the document as it was given, and names the
passage in which that parenthesis stands (`Diagnostic.PointsAt`, `lint_pointsAt`).

The position is made in three steps: the section's line counts lines of the document, the content's
start counts on over header and leading blanks, and the diagnostic counts on inside the content. All
three count on the same text, so together they are where the text in front of the parenthesis leads
(`Section.Spans.exists_rawPlace`). A byte-order mark is in none of them, but it is on the first
line, and what a diagnostic points at is below a header (`drop_rawLines`).
-/

namespace TweeLint

open Section

/-- The lines of a document as it was given, a byte-order mark included. -/
def rawLines (document : String) : List (List Char) :=
  Text.splitLines document.toList

/-- A diagnostic points at index `j` of line `i` of a document, below header line `h`. -/
structure Diagnostic.PointsAt (v : Vocabulary) (document : String) (d : Diagnostic)
    (i j h : Nat) : Prop where
  position : d.position = ⟨i + 1, j + 1⟩
  line : 2 ≤ d.position.line ∧ d.position.line ≤ (rawLines document).length
  character : ∃ l, (rawLines document)[i]? = some l ∧
    1 ≤ d.position.column ∧ d.position.column ≤ l.length ∧ l[j]? = some d.kind.parenthesis
  call : d.kind = .invalidMacro →
    ∃ name, MacroCall.BeginsCall name (Text.textFrom (rawLines document) i j) ∧
      d.message = s!"Unknown macro name: '{String.ofList name}'" ∧ String.ofList name ∉ v
  headerAt : HeaderAt (documentLines document) h
  below : h < i
  nearest : ∀ k, h < k → k ≤ i → ¬ HeaderAt (documentLines document) k
  passage : ∃ l, (documentLines document)[h]? = some l ∧ d.passage.toList = headerName l

/-! ### The byte-order mark -/

/-- **A byte-order mark changes no line but the first.** -/
theorem drop_rawLines (document : String) {i : Nat} (hi : 0 < i) :
    (rawLines document).drop i = (documentLines document).drop i := by
  rw [rawLines, documentLines]
  cases document.toList with
  | nil => rfl
  | cons c cs =>
    rw [Text.dropMark]
    split
    · next hc =>
      have hfeed : c ≠ '\n' := by
        rw [hc]
        decide
      rw [Text.splitLines_cons hfeed, List.drop_modifyHead_of_pos hi]
    · rfl

theorem getElem?_rawLines (document : String) {i : Nat} (hi : 0 < i) :
    (rawLines document)[i]? = (documentLines document)[i]? := by
  rw [← List.head?_drop, drop_rawLines document hi, List.head?_drop]

theorem textFrom_rawLines (document : String) {i : Nat} (hi : 0 < i) (j : Nat) :
    Text.textFrom (rawLines document) i j = Text.textFrom (documentLines document) i j := by
  rw [Text.textFrom, drop_rawLines document hi, Text.textFrom]

/-! ### From the content to the document -/

/-- **A character of a section's content stands in a line of the document**, where counting on from
the start of the content leads. -/
theorem Section.Spans.exists_rawPlace {document : String} {h h' : Nat} {s : Section}
    (hs : Spans (documentLines document) h h' s) {pre rest : List Char} {c : Char}
    (hcontent : Text.trim s.body = pre ++ c :: rest) (hc : c ≠ '\n') :
    ∃ (i j : Nat) (l tail : List Char), s.contentStart.after pre = ⟨i + 1, j + 1⟩ ∧
      h < i ∧ i < h' ∧ (rawLines document)[i]? = some l ∧ l[j]? = some c ∧
      Text.textFrom (rawLines document) i j = c :: (rest ++ tail) := by
  obtain ⟨i, j, tail, hplace, hi, hi', hchar, hfrom, -⟩ := hs.exists_contentPlace hcontent hc
  obtain ⟨l, hl, hcol⟩ := Option.bind_eq_some_iff.mp hchar
  -- the line is below a header, so the byte-order mark is not on it
  have hpos : 0 < i := by omega
  refine ⟨i, j, l, tail, hplace, hi, hi', ?_, hcol, ?_⟩
  · rw [getElem?_rawLines document hpos]
    exact hl
  · rw [textFrom_rawLines document hpos]
    exact hfrom

theorem DiagnosticKind.parenthesis_ne_feed (kind : DiagnosticKind) : kind.parenthesis ≠ '\n' := by
  cases kind <;> decide

/-- What is found in a section's content is pointed at in the document. -/
theorem Diagnostic.FoundIn.exists_pointsAt {v : Vocabulary} {document : String} {h h' : Nat}
    {s : Section} (hs : Spans (documentLines document) h h' s) {d : Diagnostic}
    {pre rest : List Char} (hd : d.FoundIn v s.passage pre rest) :
    ∃ i j, d.PointsAt v document i j h := by
  obtain ⟨header, hheader, hname, -⟩ := (Passage.ofLines_of_spans hs).header
  have hcontent : Text.trim s.body = pre ++ d.kind.parenthesis :: rest := by
    rw [← hd.content, Section.passage, String.toList_ofList]
  obtain ⟨i, j, l, tail, hplace, hi, hi', hl, hcol, hfrom⟩ :=
    hs.exists_rawPlace hcontent d.kind.parenthesis_ne_feed
  have hposition : d.position = ⟨i + 1, j + 1⟩ := hd.position.trans hplace
  have hline : d.position.line = i + 1 := congrArg Position.line hposition
  have hcolumn : d.position.column = j + 1 := congrArg Position.column hposition
  obtain ⟨hlen, -⟩ := List.getElem?_eq_some_iff.mp hl
  obtain ⟨hwidth, -⟩ := List.getElem?_eq_some_iff.mp hcol
  refine ⟨i, j, hposition, by omega, ⟨l, hl, by omega, by omega, hcol⟩, fun hkind => ?_,
    hs.headerAt, hi, fun k hk hk' => ?_, ⟨header, hheader, ?_⟩⟩
  · obtain ⟨name, hbegins, hmessage, hunknown⟩ := hd.call hkind
    rw [hfrom]
    exact ⟨name, hbegins.append tail, hmessage, hunknown⟩
  · exact hs.next.between k hk (Nat.lt_of_le_of_lt hk' hi')
  · rw [hd.passage, hname]

/-- What is reported of a section is on a line of the section. -/
theorem Section.Spans.line_of_mem_lint {document : String} {h h' : Nat} {s : Section}
    (hs : Spans (documentLines document) h h' s) {v : Vocabulary} {d : Diagnostic}
    (hd : d ∈ s.passage.lint v) : ∃ i : Nat, d.position.line = i + 1 ∧ h < i ∧ i < h' := by
  obtain ⟨pre, rest, hfound⟩ := Passage.findings_of_mem_lint hd
  have hcontent : Text.trim s.body = pre ++ d.kind.parenthesis :: rest := by
    rw [← hfound.content, Section.passage, String.toList_ofList]
  obtain ⟨i, j, -, hplace, hi, hi', -⟩ :=
    hs.exists_contentPlace hcontent d.kind.parenthesis_ne_feed
  exact ⟨i, congrArg Position.line (hfound.position.trans hplace), hi, hi'⟩

/-- **Every diagnostic points at a parenthesis of the document**, which bears it out, and names the
passage of the nearest header above. -/
theorem lint_pointsAt (v : Vocabulary) (source document : String) {d : Diagnostic}
    (hd : d ∈ (Report.lint v source document).diagnostics) :
    ∃ i j h, d.PointsAt v document i j h := by
  obtain ⟨s, hs, hd⟩ := Report.mem_diagnostics_lint.mp hd
  obtain ⟨h, h', hspans⟩ := exists_spans_of_mem hs
  obtain ⟨pre, rest, hfound⟩ := Passage.findings_of_mem_lint hd
  obtain ⟨i, j, hpoints⟩ := hfound.exists_pointsAt hspans
  exact ⟨i, j, h, hpoints⟩

/-- A call on an indented line, in a document with a byte-order mark. -/
theorem lint_pointsAt_unknownCall :
    ⟨.invalidMacro, "A", ⟨2, 3⟩, "Unknown macro name: 'foo'", none⟩ ∈
        (Report.lint .empty "doc" "\uFEFF::A\n  (foo: 1)").diagnostics ∧
      ∃ i j h, Diagnostic.PointsAt .empty "\uFEFF::A\n  (foo: 1)"
        ⟨.invalidMacro, "A", ⟨2, 3⟩, "Unknown macro name: 'foo'", none⟩ i j h := by
  have hd : ⟨.invalidMacro, "A", ⟨2, 3⟩, "Unknown macro name: 'foo'", none⟩ ∈
      (Report.lint .empty "doc" "\uFEFF::A\n  (foo: 1)").diagnostics := by decide
  exact ⟨hd, lint_pointsAt .empty "doc" "\uFEFF::A\n  (foo: 1)" hd⟩

end TweeLint
