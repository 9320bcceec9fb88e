import TweeLint.Proofs.Checks
import TweeLint.Proofs.CommandLine
import TweeLint.Proofs.ReportText

/-!
# Reports as lines of JSON

Reports that are printed as JSON can be told apart and read back, whatever texts stand in them. What
is written for a report holds all of it (`Report.heldBy_toJsonLine`), and has no control character
in it, so it is one line. Each line is printed with a line feed behind it, so cutting the output at
its line feeds gives the lines back, with an empty piece behind the last (`splitLines_join_printed`).
-/

namespace TweeLint

/-- A line holds a report: no control character is in it, and within all limits that the report fits
it is a JSON text and is read, as an object with exactly the members of the report, which is read as
the report in turn. -/
structure Report.HeldBy (r : Report) (line : List Char) : Prop where
  plain : ∀ c ∈ line, 0x20 ≤ c.toNat
  fits : ∃ limits : Json.ReadLimits, r.Fits limits
  reads : ∀ limits : Json.ReadLimits, r.Fits limits → ∃ j, Json.IsText limits j line ∧
    Json.read limits line = .ok j ∧
    j = .object
      [("source", .string r.source), ("passage_count", .int r.passageCount),
        ("diagnostics", .array (r.diagnostics.map fun d => .object
          [("kind", .string d.kind.label), ("passage", .string d.passage),
            ("line", .int d.position.line), ("column", .int d.position.column),
            ("message", .string d.message), ("suggestion", d.suggestion.elim .null .string)])),
        ("is_valid", .bool r.diagnostics.isEmpty)] ∧
    ofJson j = .valid r

/-! ### One report -/

theorem Json.ofOption_eq_elim (s? : Option String) : ofOption s? = s?.elim null string := by
  cases s? with
  | none => rfl
  | some s => rfl

theorem Report.toList_toJsonLine (r : Report) : r.toJsonLine.toList = r.toJson.write :=
  String.toList_ofList

/-- **The line that is written for a report holds it.** -/
theorem Report.heldBy_toJsonLine {r : Report} (h : ∀ d ∈ r.diagnostics, d.position.InBounds) :
    r.HeldBy r.toJsonLine.toList := by
  obtain ⟨limits, hlimits⟩ := r.exists_fits
  rw [toList_toJsonLine]
  refine ⟨Json.plain_write hlimits.within, ⟨limits, hlimits⟩, fun limits hfits =>
    ⟨r.toJson, Json.isText_write hfits.within, Json.read_write hfits.within, ?_,
      Report.ofJson_toJson h⟩⟩
  simp only [← Json.ofOption_eq_elim]
  rfl

theorem Report.feed_not_mem_toJsonLine (r : Report) : '\n' ∉ r.toJsonLine.toList := by
  obtain ⟨limits, hlimits⟩ := r.exists_fits
  rw [toList_toJsonLine]
  exact (Json.plain_write hlimits.within).feed_not_mem

/-! ### Several reports -/

namespace CommandLine

/-- **The output is cut at its line feeds** into the lines of the reports. -/
theorem splitLines_join_printed (reports : List Report) :
    Text.splitLines (String.join (reports.map (printed .json))).toList =
      reports.map (·.toJsonLine.toList) ++ [[]] := by
  have hlines : ∀ l ∈ reports.map (·.toJsonLine.toList), '\n' ∉ l :=
    List.forall_mem_map.mpr fun r _ => r.feed_not_mem_toJsonLine
  have houtput : (String.join (reports.map (printed .json))).toList =
      Text.feedLines (reports.map (·.toJsonLine.toList)) := by
    rw [String.toList_join, Text.feedLines_map, List.flatMap_map]
    congr
    funext r
    exact String.toList_append
  rw [houtput, Text.splitLines_feedLines hlines]

/-- The output for reports in bounds has a line for each, which holds it. -/
theorem forall₂_heldBy {reports : List Report}
    (h : ∀ r ∈ reports, ∀ d ∈ r.diagnostics, d.position.InBounds) :
    List.Forall₂ Report.HeldBy reports (reports.map (·.toJsonLine.toList)) :=
  List.forall₂_map_right_iff.mpr
    (List.forall₂_same.mpr fun r hr => Report.heldBy_toJsonLine (h r hr))

/-- **Reports are printed as lines of JSON**, one for each report, in their order, and each line
holds its report. A line does so for every report whose positions count from 1, whatever its texts
are, and so does the output for every batch of such reports. In a run that lints documents they are
the reports of those documents that can be loaded, unless the look-up of a document is refused and
the run breaks off. -/
theorem json_lines :
    (∀ r : Report, (∀ d ∈ r.diagnostics, d.position.InBounds) → r.HeldBy r.toJsonLine.toList) ∧
    (∀ b : Batch, (∀ r ∈ b.reports, ∀ d ∈ r.diagnostics, d.position.InBounds) →
      ∃ lines, Text.splitLines (printedBatch .json b).output.toList = lines ++ [[]] ∧
        List.Forall₂ Report.HeldBy b.reports lines) ∧
    ∀ (files : Files) (environment : Environment) (choices : Nat → Nat) (arguments : List String)
      (options : Options) (settings : Settings) (path level : String) (docs : List Path)
      (v : Vocabulary),
      Demand.ofArguments arguments = .ok (.lint options) → options.format = .json →
      options.path = some path → Settings.load files environment = .ok settings →
      settings.checkedLevel = .ok level → Collected files (Path.ofString path) docs → docs ≠ [] →
      Vocabulary.load files (options.vocabulary.or settings.vocabularyPath) = .ok v →
      (∃ refusal, Service.FirstRefused files docs refusal ∧
        run files environment choices arguments = .error (.refused refusal)) ∨
      ∃ outcome lines, run files environment choices arguments = .ok outcome ∧
        Text.splitLines outcome.output.toList = lines ++ [[]] ∧
        List.Forall₂ (fun document line => ∃ text,
            Document.load settings.maxDocumentSize files document = .ok text ∧
            (Report.lint v document.toText text).HeldBy line)
          (docs.filter (Document.loads settings.maxDocumentSize files)) lines := by
  refine ⟨fun r hr => Report.heldBy_toJsonLine hr,
    fun b hb => ⟨_, splitLines_join_printed b.reports, forall₂_heldBy hb⟩, ?_⟩
  intro files environment choices arguments options settings path level docs v harguments hformat
    hpath hsettings hlevel hcollected hsome hloaded
  have hrun := run_eq_lintTarget choices harguments hpath hsettings hlevel
  have hcourse := lintTarget_course settings files choices options (Path.ofString path)
  cases hlint : lintTarget settings files choices options (Path.ofString path) with
  | error e =>
    have hbreaksOff := (lintTarget_eq_error_iff settings files choices options _).mp hlint
    obtain ⟨refusal, rfl, hfirst⟩ := hbreaksOff.firstRefused hcollected hloaded
    rw [hlint] at hrun
    exact .inl ⟨refusal, hfirst, hrun⟩
  | ok outcome =>
    rw [hlint] at hrun hcourse
    obtain ⟨⟨reports, hreports, houtput⟩, -⟩ := hcourse.printed hcollected hsome hloaded
    refine .inr ⟨outcome, reports.map (·.toJsonLine.toList), hrun, ?_, ?_⟩
    · rw [houtput, hformat, splitLines_join_printed]
    · refine List.forall₂_map_right_iff.mpr (hreports.imp fun document r hr => ?_)
      obtain ⟨text, htext, rfl⟩ := hr
      exact ⟨text, htext, Report.heldBy_toJsonLine fun d hd => Report.inBounds_of_mem_lint hd⟩

/-- Texts with a quote, a backslash, control characters and a line separator; and a run over one
document. -/
theorem json_lines_escapes :
    let r : Report := ⟨"\"\\\n", 1,
      [⟨.unclosedMacro, "\x01\u2028😀", ⟨2, 1⟩, "\t", some ""⟩, .unmatched "" ⟨3, 1⟩]⟩
    let document := "::A\n("
    let files := Files.ofTree (.directory [("a.tw", .file (Text.Utf8.encode document.toList))])
    let options : Options := ⟨some "a.tw", none, .json, none⟩
    let settings : Settings := ⟨"INFO", none, 4, 5000000, "localhost", 8000⟩
    let arguments := ["--format", "json", "a.tw"]
    (∀ d ∈ r.diagnostics, d.position.InBounds) ∧
      (∃ line line', Text.splitLines (printedBatch .json ⟨[r, r], []⟩).output.toList =
          [line, line', []] ∧ r.HeldBy line ∧ r.HeldBy line') ∧
      (Demand.ofArguments arguments = .ok (.lint options) ∧
        Settings.load files [] = .ok settings ∧ settings.checkedLevel = .ok "INFO" ∧
        Collected files (Path.ofString "a.tw") [⟨"", ["a.tw"]⟩]) ∧
      ∃ outcome line, run files [] (fun _ => 0) arguments = .ok outcome ∧
        Text.splitLines outcome.output.toList = [line, []] ∧
        (Report.lint .bundled "a.tw" document).HeldBy line := by
  intro r document files options settings arguments
  have hbounds : ∀ d ∈ r.diagnostics, d.position.InBounds :=
    List.forall_mem_cons.mpr ⟨⟨by decide, by decide⟩,
      List.forall_mem_singleton.mpr ⟨by decide, by decide⟩⟩
  have hbatch : ∀ r' ∈ [r, r], ∀ d ∈ r'.diagnostics, d.position.InBounds := by
    intro r' hr'
    obtain rfl : r' = r := by simpa using hr'
    exact hbounds
  have harguments : Demand.ofArguments arguments = .ok (.lint options) := by decide
  have hsettings : Settings.load files [] = .ok settings := by rfl
  have hlevel : settings.checkedLevel = .ok "INFO" := by decide
  have hfind : files.find (Path.ofString "a.tw") =
      .ok (.file (Text.Utf8.encode document.toList)) := by rfl
  have hcollected : Collected files (Path.ofString "a.tw") [⟨"", ["a.tw"]⟩] :=
    .file hfind rfl (by decide)
  have hload : Document.load settings.maxDocumentSize files ⟨"", ["a.tw"]⟩ = .ok document := by
    decide
  have hfilter : [(⟨"", ["a.tw"]⟩ : Path)].filter
      (Document.loads settings.maxDocumentSize files) = [⟨"", ["a.tw"]⟩] := by decide
  refine ⟨hbounds, ?_, ⟨harguments, hsettings, hlevel, hcollected⟩, ?_⟩
  · obtain ⟨lines, hlines, hheld⟩ := json_lines.2.1 ⟨[r, r], []⟩ hbatch
    obtain ⟨line, rest, hline, hrest, rfl⟩ := List.forall₂_cons_left_iff.mp hheld
    obtain ⟨line', rest', hline', hnone, rfl⟩ := List.forall₂_cons_left_iff.mp hrest
    obtain rfl := List.forall₂_nil_left_iff.mp hnone
    exact ⟨line, line', hlines, hline, hline'⟩
  · have hcases := json_lines.2.2 files [] (fun _ => 0) arguments options settings "a.tw" "INFO"
      [⟨"", ["a.tw"]⟩] .bundled harguments rfl rfl hsettings hlevel hcollected
      (List.cons_ne_nil _ _) rfl
    have hlooks : ∀ doc ∈ [(⟨"", ["a.tw"]⟩ : Path)], ∃ found, files.look doc = .ok found :=
      List.forall_mem_singleton.mpr ⟨_, Files.look_of_find hfind⟩
    obtain ⟨outcome, lines, hrun, hlines, hheld⟩ :=
      hcases.resolve_left fun ⟨_, hfirst, _⟩ => hfirst.not_forall hlooks
    rw [hfilter] at hheld
    obtain ⟨line, rest, ⟨text, htext, hline⟩, hrest, rfl⟩ := List.forall₂_cons_left_iff.mp hheld
    obtain rfl := List.forall₂_nil_left_iff.mp hrest
    obtain rfl := Except.ok.inj (hload.symm.trans htext)
    exact ⟨outcome, line, hrun, hlines, hline⟩

end CommandLine

end TweeLint
