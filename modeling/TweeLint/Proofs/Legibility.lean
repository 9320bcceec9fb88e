import Mathlib
import TweeLint.Proofs.Passage.Findings
import TweeLint.Proofs.Suggestion

/-!
# The text of a report says all of it

Two reports of documents that have the same text are the same (`text_lint_inj`). A passage name is
any text on one line, so it may look like a place or a suggestion, or be empty; what keeps the text
clear is what stands around the name.

* **A line feed ends a line.** There is none inside of one, so cutting the text gives the lines of
  the report back (`Report.Legible.splitLines_text`).
* **A place is found from the right.** No message has a closing parenthesis in it, so the last one
  of a line ends the place; the last comma in front of it is followed by the column, and the last
  opening parenthesis in front of that by the line (`Report.eq_of_placeLine_eq`).
* **A suggestion is indented further.** A passage name does not begin with a blank, so the third
  character of a line, or the fourth if the name is empty, tells the two kinds of lines apart
  (`Report.placeLine_ne_hintLine`).

With these the lines on diagnostics are read one after the other
(`Report.eq_of_flatMap_diagnosticLines_eq`). The reports of documents are made of such words
(`Report.legible_lint`).
-/

namespace TweeLint

/-! ### What a diagnostic can say -/

/-- The messages about problems of each kind. -/
inductive DiagnosticKind.Says : DiagnosticKind → String → Prop
  | invalidMacro {name : String} : (∀ c ∈ name.toList, MacroCall.isNameChar c = true) →
      Says .invalidMacro s!"Unknown macro name: '{name}'"
  | unclosedMacro : Says .unclosedMacro "Unclosed macro or parenthesis"
  | unmatchedParenthesis : Says .unmatchedParenthesis "Unexpected closing parenthesis"

/-- A text that is a line or a part of one, without a space in front. -/
structure Text.Flush (cs : List Char) : Prop where
  oneLine : '\n' ∉ cs
  front : cs.head? ≠ some ' '

/-- A diagnostic in such words that it can be read off its lines. -/
structure Diagnostic.Legible (d : Diagnostic) : Prop where
  passage : Text.Flush d.passage.toList
  message : d.kind.Says d.message
  suggestion : ∀ name ∈ d.suggestion, name ≠ "" ∧ '\n' ∉ name.toList

/-- A report in such words that it can be read off its text. -/
structure Report.Legible (r : Report) : Prop where
  source : '\n' ∉ r.source.toList
  diagnostics : ∀ d ∈ r.diagnostics, d.Legible

namespace DiagnosticKind.Says

variable {kind kind' : DiagnosticKind} {message : String}

/-- The third character of the messages of each kind. -/
def thirdChar : DiagnosticKind → Char
  | .invalidMacro => 'k'
  | .unclosedMacro => 'c'
  | .unmatchedParenthesis => 'e'

theorem toList_unknown (name : String) : (s!"Unknown macro name: '{name}'").toList =
    "Unknown macro name: '".toList ++ (name.toList ++ "'".toList) := by
  show ("Unknown macro name: '" ++ name ++ "'").toList = _
  simp only [String.toList_append, List.append_assoc]

theorem getElem?_two (h : kind.Says message) : message.toList[2]? = some (thirdChar kind) := by
  cases h with
  | invalidMacro => rw [toList_unknown]; rfl
  | unclosedMacro => rfl
  | unmatchedParenthesis => rfl

/-- A message is of one kind. -/
theorem unique (h : kind.Says message) (h' : kind'.Says message) : kind = kind' := by
  have hthird : thirdChar kind = thirdChar kind' :=
    Option.some.inj (h.getElem?_two.symm.trans h'.getElem?_two)
  cases kind <;> cases kind' <;> first | rfl | exact absurd hthird (by decide)

/-- A message is a part of a line without a closing parenthesis. -/
theorem not_mem (h : kind.Says message) : ')' ∉ message.toList ∧ '\n' ∉ message.toList := by
  cases h with
  | @invalidMacro name hname =>
    have hclose : ')' ∉ name.toList := fun hmem => absurd (hname _ hmem) (by decide)
    have hfeed : '\n' ∉ name.toList := MacroCall.feed_not_mem_name hname
    rw [toList_unknown]
    simp [hclose, hfeed]
  | unclosedMacro => decide
  | unmatchedParenthesis => decide

end DiagnosticKind.Says

/-! ### Numbers -/

section Numbers

variable {c : Char}

theorem not_mem_toDigits (hdigit : c.isDigit = false) (n : Nat) : c ∉ Nat.toDigits 10 n := by
  intro hc
  have htrue : c.isDigit = true := Nat.isDigit_of_mem_toDigits (by decide) (by decide) hc
  exact absurd htrue (Bool.eq_false_iff.mp hdigit)

/-- A written number has no character in it that is neither a digit nor a sign. -/
theorem not_mem_repr (hdigit : c.isDigit = false) (hsign : c ≠ '-') (n : Int) :
    c ∉ n.repr.toList := by
  rw [Int.repr_eq_if]
  split
  · rw [Nat.toList_repr]
    exact not_mem_toDigits hdigit _
  · rw [String.toList_append, List.mem_append, not_or, Nat.toList_repr]
    exact ⟨fun hc => hsign (List.mem_singleton.mp hc), not_mem_toDigits hdigit _⟩

end Numbers

/-! ### The lines on a diagnostic -/

theorem Text.eq_nil_of_cons_eq_append {x : Char} {mid zs ws : List Char} (hzs : x ∉ zs)
    (h : x :: zs = mid ++ x :: ws) : mid = [] ∧ zs = ws := by
  cases mid with
  | nil => exact ⟨rfl, (List.cons.inj h).2⟩
  | cons y mid =>
    have hmem : x ∈ zs := by
      rw [(List.cons.inj h).2]
      exact List.mem_append_cons_self
    exact absurd hmem hzs

/-- There is one way to cut a text at the last place of a character. -/
theorem Text.append_cons_inj {x : Char} {xs ys zs ws : List Char} (hzs : x ∉ zs) (hws : x ∉ ws)
    (h : xs ++ x :: zs = ys ++ x :: ws) : xs = ys ∧ zs = ws := by
  rcases List.append_eq_append_iff.mp h with ⟨mid, rfl, hmid⟩ | ⟨mid, rfl, hmid⟩
  · obtain ⟨rfl, rfl⟩ := eq_nil_of_cons_eq_append hzs hmid
    exact ⟨(List.append_nil xs).symm, rfl⟩
  · obtain ⟨rfl, rfl⟩ := eq_nil_of_cons_eq_append hws hmid
    exact ⟨List.append_nil ys, rfl⟩

namespace Report

/-- The line on a diagnostic. -/
def placeLine (d : Diagnostic) : String :=
  s!"  {d.passage} (line {d.position.line}, col {d.position.column}): {d.message}"

/-- The line on a suggestion. -/
def hintLine (name : String) : String :=
  s!"    Did you mean: {name}?"

variable {d e : Diagnostic} {ds es : List Diagnostic} {name name' : String}

theorem diagnosticLines_eq (h : d.Legible) :
    diagnosticLines d = placeLine d :: d.suggestion.toList.map hintLine := by
  rw [diagnosticLines]
  cases hsuggestion : d.suggestion with
  | none => rfl
  | some name =>
    have hname : name ≠ "" := (h.suggestion name hsuggestion).1
    have hempty : name.isEmpty = false := by simpa using hname
    simp only [hempty]
    rfl

/-- The line on a diagnostic, cut at the closing parenthesis, the comma and the opening parenthesis
of the place. -/
theorem toList_placeLine (d : Diagnostic) : (placeLine d).toList =
    ((' ' :: ' ' :: (d.passage.toList ++ [' '])) ++ '(' :: ("line ".toList ++
      d.position.line.repr.toList) ++ ',' :: (" col ".toList ++
      d.position.column.repr.toList)) ++ ')' :: (": ".toList ++ d.message.toList) := by
  show ("  " ++ d.passage ++ " (line " ++ d.position.line.repr ++ ", col " ++
    d.position.column.repr ++ "): " ++ d.message).toList = _
  simp

theorem toList_hintLine (name : String) : (hintLine name).toList =
    ' ' :: ' ' :: ' ' :: ' ' :: ("Did you mean: ".toList ++ (name.toList ++ "?".toList)) := by
  show ("    Did you mean: " ++ name ++ "?").toList = _
  simp

/-- **A place is found from the right**, so the line on a diagnostic says all but the suggestion. -/
theorem eq_of_placeLine_eq (hd : d.Legible) (he : e.Legible) (h : placeLine d = placeLine e) :
    d = { e with suggestion := d.suggestion } := by
  have hclose : ∀ {d : Diagnostic}, d.Legible → ')' ∉ ": ".toList ++ d.message.toList :=
    fun hd => by simp [hd.message.not_mem.1]
  have hcomma : ∀ n : Int, ',' ∉ " col ".toList ++ n.repr.toList := fun n => by
    simp [not_mem_repr (by decide : ','.isDigit = false) (by decide) n]
  have hopen : ∀ n : Int, '(' ∉ "line ".toList ++ n.repr.toList := fun n => by
    simp [not_mem_repr (by decide : '('.isDigit = false) (by decide) n]
  have hchars := congrArg String.toList h
  rw [toList_placeLine, toList_placeLine] at hchars
  -- the message, the column and the line come off one after the other, from the right
  obtain ⟨hchars, hmessage⟩ := Text.append_cons_inj (hclose hd) (hclose he) hchars
  obtain ⟨hchars, hcolumn⟩ := Text.append_cons_inj (hcomma _) (hcomma _) hchars
  obtain ⟨hchars, hline⟩ := Text.append_cons_inj (hopen _) (hopen _) hchars
  have hmessage : d.message = e.message := String.toList_inj.mp (List.append_cancel_left hmessage)
  have hcolumn : d.position.column = e.position.column :=
    Int.repr_inj.mp (String.toList_inj.mp (List.append_cancel_left hcolumn))
  have hline : d.position.line = e.position.line :=
    Int.repr_inj.mp (String.toList_inj.mp (List.append_cancel_left hline))
  have hpassage : d.passage = e.passage := by
    obtain ⟨-, hchars⟩ := List.cons.inj (List.cons.inj hchars).2
    exact String.toList_inj.mp (List.append_cancel_right hchars)
  have hkind : d.kind = e.kind := hd.message.unique (hmessage ▸ he.message)
  calc d = ⟨d.kind, d.passage, ⟨d.position.line, d.position.column⟩, d.message, d.suggestion⟩ := rfl
    _ = ⟨e.kind, e.passage, ⟨e.position.line, e.position.column⟩, e.message, d.suggestion⟩ := by
      rw [hkind, hpassage, hline, hcolumn, hmessage]

/-- **A suggestion is indented further** than a diagnostic. -/
theorem placeLine_ne_hintLine (hd : d.Legible) (name : String) : placeLine d ≠ hintLine name := by
  intro h
  have hchars := congrArg String.toList h
  rw [toList_placeLine, toList_hintLine] at hchars
  simp only [List.cons_append, List.append_assoc, List.cons.injEq, true_and] at hchars
  cases hpassage : d.passage.toList with
  | nil =>
    rw [hpassage] at hchars
    exact absurd (List.cons.inj (List.cons.inj hchars).2).1 (by decide)
  | cons c cs =>
    have hfront : c ≠ ' ' := fun hc => hd.passage.front (by rw [hpassage, hc]; rfl)
    rw [hpassage] at hchars
    exact hfront (List.cons.inj hchars).1

theorem hintLine_inj (h : hintLine name = hintLine name') : name = name' := by
  have hchars := congrArg String.toList h
  rw [toList_hintLine, toList_hintLine] at hchars
  exact String.toList_inj.mp (by simpa using hchars)

/-- The lines on diagnostics do not begin with one on a suggestion. -/
theorem flatMap_diagnosticLines_ne (h : ∀ d ∈ ds, d.Legible) (name : String) (rest : List String) :
    ds.flatMap diagnosticLines ≠ hintLine name :: rest := by
  intro hlines
  cases ds with
  | nil => exact absurd hlines (List.cons_ne_nil _ _).symm
  | cons d ds =>
    have hd : d.Legible := h d List.mem_cons_self
    rw [List.flatMap_cons, diagnosticLines_eq hd] at hlines
    exact placeLine_ne_hintLine hd name (List.cons.inj hlines).1

/-- The suggestions of two diagnostics are told apart by what follows the first line of each. -/
theorem suggestion_eq_of_lines_eq {suggestion suggestion' : Option String}
    (hds : ∀ d ∈ ds, d.Legible) (hes : ∀ e ∈ es, e.Legible)
    (h : suggestion.toList.map hintLine ++ ds.flatMap diagnosticLines =
      suggestion'.toList.map hintLine ++ es.flatMap diagnosticLines) :
    suggestion = suggestion' ∧ ds.flatMap diagnosticLines = es.flatMap diagnosticLines := by
  cases suggestion with
  | none =>
    cases suggestion' with
    | none => exact ⟨rfl, h⟩
    | some name => exact absurd h (flatMap_diagnosticLines_ne hds name _)
  | some name =>
    cases suggestion' with
    | none => exact absurd h.symm (flatMap_diagnosticLines_ne hes name _)
    | some name' =>
      obtain ⟨hname, hrest⟩ := List.cons.inj h
      exact ⟨congrArg some (hintLine_inj hname), hrest⟩

/-- **The lines on diagnostics say all of them.** -/
theorem eq_of_flatMap_diagnosticLines_eq (hds : ∀ d ∈ ds, d.Legible) (hes : ∀ e ∈ es, e.Legible)
    (h : ds.flatMap diagnosticLines = es.flatMap diagnosticLines) : ds = es := by
  induction ds generalizing es with
  | nil =>
    cases es with
    | nil => rfl
    | cons e es =>
      rw [List.flatMap_cons, diagnosticLines_eq (hes e List.mem_cons_self)] at h
      exact absurd h.symm (List.cons_ne_nil _ _)
  | cons d ds ih =>
    obtain ⟨hd, hds⟩ := List.forall_mem_cons.mp hds
    cases es with
    | nil =>
      rw [List.flatMap_cons, diagnosticLines_eq hd] at h
      exact absurd h (List.cons_ne_nil _ _)
    | cons e es =>
      obtain ⟨he, hes⟩ := List.forall_mem_cons.mp hes
      rw [List.flatMap_cons, List.flatMap_cons, diagnosticLines_eq hd, diagnosticLines_eq he] at h
      obtain ⟨hplace, hrest⟩ := List.cons.inj h
      obtain ⟨hsuggestion, hrest⟩ := suggestion_eq_of_lines_eq hds hes hrest
      have hde : d = e := by
        rw [eq_of_placeLine_eq hd he hplace, hsuggestion]
      rw [hde, ih hds hes hrest]

/-! ### The lines of a report -/

/-- The lines on what was found, below the head of a report. -/
def findingLines : List Diagnostic → List String
  | [] => ["✓ No errors found!"]
  | d :: ds => ("Errors (" ++ (d :: ds).length.repr ++ "):") :: (d :: ds).flatMap diagnosticLines

theorem textLines_eq (r : Report) : r.textLines =
    "" :: ("Linting: " ++ r.source) :: ("Passages checked: " ++ r.passageCount.repr) :: "" ::
      findingLines r.diagnostics := by
  obtain ⟨source, count, diagnostics⟩ := r
  cases diagnostics <;> rfl

theorem eq_of_findingLines_eq (hds : ∀ d ∈ ds, d.Legible) (hes : ∀ e ∈ es, e.Legible)
    (h : findingLines ds = findingLines es) : ds = es := by
  have hfront : ∀ n : Nat, "✓ No errors found!" ≠ "Errors (" ++ n.repr ++ "):" := by
    intro n heq
    have hchars := congrArg String.toList heq
    simp at hchars
  cases ds with
  | nil =>
    cases es with
    | nil => rfl
    | cons e es => exact absurd (List.cons.inj h).1 (hfront _)
  | cons d ds =>
    cases es with
    | nil => exact absurd (List.cons.inj h).1.symm (hfront _)
    | cons e es => exact eq_of_flatMap_diagnosticLines_eq hds hes (List.cons.inj h).2

theorem feed_not_mem_diagnosticLines (h : d.Legible) :
    ∀ line ∈ diagnosticLines d, '\n' ∉ line.toList := by
  have hnumber : ∀ n : Int, '\n' ∉ n.repr.toList := not_mem_repr (by decide) (by decide)
  rw [diagnosticLines_eq h, List.forall_mem_cons]
  constructor
  · rw [toList_placeLine]
    simp [h.passage.oneLine, h.message.not_mem.2, hnumber]
  · intro line hline
    obtain ⟨name, hname, rfl⟩ := List.mem_map.mp hline
    rw [toList_hintLine]
    simp [(h.suggestion name (Option.mem_toList.mp hname)).2]

namespace Legible

variable {r s : Report}

theorem feed_not_mem_textLines (h : r.Legible) : ∀ line ∈ r.textLines, '\n' ∉ line.toList := by
  have hnumber : ∀ n : Nat, '\n' ∉ Nat.toDigits 10 n := not_mem_toDigits (by decide)
  rw [textLines_eq]
  simp only [List.forall_mem_cons]
  refine ⟨by decide, by simp [h.source], by simp [hnumber], by decide, ?_⟩
  cases hfound : r.diagnostics with
  | nil => exact List.forall_mem_singleton.mpr (by decide)
  | cons d ds =>
    rw [findingLines, List.forall_mem_cons]
    refine ⟨by simp [hnumber], fun line hline => ?_⟩
    obtain ⟨d', hd', hline⟩ := List.mem_flatMap.mp hline
    exact feed_not_mem_diagnosticLines (h.diagnostics d' (hfound ▸ hd')) line hline

/-- **The text of a report is cut at its line feeds** into the lines of the report. -/
theorem splitLines_text (h : r.Legible) :
    Text.splitLines r.text.toList = r.textLines.map String.toList ++ [[]] := by
  have hlines : ∀ l ∈ r.textLines.map String.toList, '\n' ∉ l :=
    List.forall_mem_map.mpr h.feed_not_mem_textLines
  have htext : r.text.toList = Text.feedLines (r.textLines.map String.toList) := by
    rw [text, String.toList_ofList, Text.feedLines_map]
  rw [htext, Text.splitLines_feedLines hlines]

theorem textLines_of_text_eq (hr : r.Legible) (hs : s.Legible) (h : r.text = s.text) :
    r.textLines = s.textLines := by
  have hsplit := congrArg (Text.splitLines ·.toList) h
  simp only [hr.splitLines_text, hs.splitLines_text] at hsplit
  exact List.map_injective_iff.mpr (fun _ _ => String.toList_inj.mp)
    (List.append_cancel_right hsplit)

/-- **The text of a report that can be read says all of it.** -/
theorem eq_of_text_eq (hr : r.Legible) (hs : s.Legible) (h : r.text = s.text) : r = s := by
  have hlines := hr.textLines_of_text_eq hs h
  simp only [textLines_eq, List.cons.injEq, true_and] at hlines
  obtain ⟨hsource, hcount, hfindings⟩ := hlines
  have hsource : r.source = s.source := (String.append_right_inj _).mp hsource
  have hcount : r.passageCount = s.passageCount :=
    Nat.repr_inj.mp ((String.append_right_inj _).mp hcount)
  have hdiagnostics : r.diagnostics = s.diagnostics :=
    eq_of_findingLines_eq hr.diagnostics hs.diagnostics hfindings
  calc r = ⟨r.source, r.passageCount, r.diagnostics⟩ := rfl
    _ = ⟨s.source, s.passageCount, s.diagnostics⟩ := by rw [hsource, hcount, hdiagnostics]

end Legible

end Report

/-! ### The reports of documents -/

/-- A passage name is on one line, without blanks in front. -/
theorem Section.flush_name (s : Section) : Text.Flush s.name where
  oneLine hmem := by
    obtain ⟨back, -, hcut⟩ := Text.exists_eq_trim ((s.header.drop 2).takeWhile isNameChar)
    have hchar : '\n' ∈ (s.header.drop 2).takeWhile isNameChar := by
      rw [hcut]
      exact List.mem_append_right _ (List.mem_append_left _ hmem)
    exact absurd (List.mem_takeWhile_imp hchar) (by decide)
  front hblank := by
    obtain ⟨cs, hname⟩ := List.head?_eq_some_iff.mp hblank
    exact absurd (Text.isBlank_of_head_trim hname) (by decide)

variable {v w : Vocabulary}

/-- What is reported of a passage can be read. -/
theorem Passage.legible_of_mem_lint {p : Passage} {d : Diagnostic} (hp : Text.Flush p.name.toList)
    (hv : ∀ name ∈ v, name ≠ "" ∧ '\n' ∉ name.toList) (hd : d ∈ p.lint v) : d.Legible := by
  rw [lint, List.mem_append] at hd
  rcases hd with hd | hd
  · obtain ⟨call, hcall, -, rfl⟩ := Vocabulary.mem_verdicts_iff.mp hd
    obtain ⟨pre, rest, name, -, ⟨-, hname, -⟩, rfl⟩ := MacroCall.mem_find_iff.mp hcall
    refine ⟨hp, .invalidMacro ?_, fun s hs => hv s (Vocabulary.suggest?_mem hs)⟩
    rwa [String.toList_ofList]
  · obtain ⟨-, -, ⟨-, rfl⟩ | ⟨-, rfl⟩⟩ := Balance.exists_of_mem_check hd
    · exact ⟨hp, .unmatchedParenthesis, fun s hs => absurd hs (Option.not_mem_none s)⟩
    · exact ⟨hp, .unclosedMacro, fun s hs => absurd hs (Option.not_mem_none s)⟩

/-- **The report of a document can be read**, if there are no line feeds in its source and in the
names of the vocabulary. -/
theorem Report.legible_lint {source : String} (hv : ∀ name ∈ v, name ≠ "" ∧ '\n' ∉ name.toList)
    (hsource : '\n' ∉ source.toList) (document : String) :
    (Report.lint v source document).Legible where
  source := hsource
  diagnostics d hd := by
    obtain ⟨s, -, hd⟩ := Report.mem_diagnostics_lint.mp hd
    refine Passage.legible_of_mem_lint ?_ hv hd
    show Text.Flush (String.ofList s.name).toList
    rw [String.toList_ofList]
    exact s.flush_name

/-- **The text of a lint report says all of it**: two reports of documents with the same text are
the same, with their source, number of passages and diagnostics. -/
theorem text_lint_inj {source source' document document' : String}
    (hv : ∀ name ∈ v, name ≠ "" ∧ '\n' ∉ name.toList)
    (hw : ∀ name ∈ w, name ≠ "" ∧ '\n' ∉ name.toList)
    (hs : '\n' ∉ source.toList) (hs' : '\n' ∉ source'.toList)
    (h : (Report.lint v source document).text = (Report.lint w source' document').text) :
    Report.lint v source document = Report.lint w source' document' :=
  (Report.legible_lint hv hs document).eq_of_text_eq (Report.legible_lint hw hs' document') h

/-- A passage name that looks like a place, in two documents with the same text of their reports. -/
theorem text_lint_inj_imitation :
    let v : Vocabulary := .ofList ["put"]
    let w : Vocabulary := .ofList ["put", "print"]
    let document := "::A (line 3, col 4): x\n(puts:"
    (∀ name ∈ v, name ≠ "" ∧ '\n' ∉ name.toList) ∧
      (∀ name ∈ w, name ≠ "" ∧ '\n' ∉ name.toList) ∧ '\n' ∉ "a.tw".toList ∧
      (Report.lint v "a.tw" document).text = (Report.lint w "a.tw" (document ++ "\n=")).text ∧
      Report.lint v "a.tw" document = Report.lint w "a.tw" (document ++ "\n=") := by
  intro v w document
  have hv : ∀ name ∈ v, name ≠ "" ∧ '\n' ∉ name.toList := by decide
  have hw : ∀ name ∈ w, name ≠ "" ∧ '\n' ∉ name.toList := by decide
  have hlines : (Report.lint v "a.tw" document).textLines =
      (Report.lint w "a.tw" (document ++ "\n=")).textLines := by decide +kernel
  have htext : (Report.lint v "a.tw" document).text =
      (Report.lint w "a.tw" (document ++ "\n=")).text := by rw [Report.text, hlines, ← Report.text]
  exact ⟨hv, hw, by decide, htext, text_lint_inj hv hw (by decide) (by decide) htext⟩

end TweeLint
