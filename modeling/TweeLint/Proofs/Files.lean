import TweeLint.Proofs.LineEnds
import TweeLint.Proofs.Text.WellFormed
import TweeLint.Service

/-!
# Files and texts

What is read from a file is settled by its bytes (`Document.load_file`). Behind the byte-order mark
they are those of a text, which is read with line feeds at its line ends if it is within the limit,
or they are refused, at the place up to which they are well formed. The beginning of a mark is the
exception: such a file holds the empty text.

A text that is linted keeps its carriage returns and its byte-order mark; a file that holds the text
is read without them. The report is the same (`Service.lintFile_eq_lintText`), as long as carriage
returns stand at line ends only, no second mark stands behind the first, and the text is within the
limit.
-/

namespace TweeLint

open Text

/-! ### Bytes of any kind -/

/-- The bytes without one byte-order mark in front. -/
def Text.withoutMark (bytes : List UInt8) : List UInt8 :=
  if Utf8.markBytes <+: bytes then bytes.drop 3 else bytes

/-- Only the beginning of a mark is read in another way than what is behind the mark. -/
theorem Text.ofBytes_eq {bytes : List UInt8} (hone : bytes ≠ [0xEF]) (htwo : bytes ≠ [0xEF, 0xBB]) :
    ofBytes bytes = (Utf8.decode (withoutMark bytes)).map feedEnds := by
  unfold ofBytes
  split
  · next h =>
    rcases Utf8.prefix_markBytes (List.isPrefixOf_iff_prefix.mp h) with rfl | rfl | rfl | rfl
    · rfl
    · contradiction
    · contradiction
    · rfl
  · simp only [List.isPrefixOf_iff_prefix]
    rw [← withoutMark, funext unifyLineEnds_eq_feedEnds]

/-- A file that can be opened is loaded as what its bytes hold. -/
theorem Document.load_of_file {limit : Int} {files : Files} {path : Path} {bytes : List UInt8}
    (hfile : files.find path = .ok (.file bytes)) :
    load limit files path = (decode limit path bytes).mapError .document := by
  rw [load, Files.look_of_find hfile]

theorem Document.load_of_ofBytes_error {limit : Int} {files : Files} {path : Path}
    {bytes : List UInt8} {fault : Utf8.Fault} (hfile : files.find path = .ok (.file bytes))
    (hbytes : ofBytes bytes = .error fault) :
    load limit files path = .error (.document (.undecodable path fault)) := by
  rw [load_of_file hfile, decode, hbytes]
  rfl

theorem Document.load_of_ofBytes_ok {limit : Int} {files : Files} {path : Path}
    {bytes : List UInt8} {cs : List Char} (hfile : files.find path = .ok (.file bytes))
    (hbytes : ofBytes bytes = .ok cs) :
    load limit files path =
      if cs.length ≤ limit then .ok (String.ofList cs)
      else .error (.document (.tooLarge path cs.length limit)) := by
  simp only [load_of_file hfile, decode, hbytes]
  split
  · next h =>
    rw [if_neg (Int.not_le.mpr h)]
    rfl
  · next h =>
    rw [if_pos (Int.not_lt.mp h)]
    rfl

/-- The text of a fault says where it starts, and where it ends if it is longer than one byte. -/
theorem Text.Utf8.Fault.message_eq (f : Fault) :
    f.message =
      "'utf-8' codec can't decode " ++
        (if f.length = 1 then s!"byte 0x{hexByte f.byte} in position {f.start}"
        else s!"bytes in position {f.start}-{f.start + f.length - 1}") ++
        s!": {f.reason.text}" := by
  have hbyte : "'utf-8' codec can't decode byte 0x" =
      "'utf-8' codec can't decode " ++ "byte 0x" := rfl
  have hbytes : "'utf-8' codec can't decode bytes in position " =
      "'utf-8' codec can't decode " ++ "bytes in position " := rfl
  unfold message
  split
  · simp only [hbyte, toString, String.append_assoc]
  · simp only [hbytes, toString, String.append_assoc]

theorem DocumentError.message_undecodable (path : Path) (fault : Utf8.Fault) :
    (undecodable path fault).message =
      s!"Cannot decode {path} as UTF-8: 'utf-8' codec can't decode " ++
        (if fault.length = 1 then s!"byte 0x{Utf8.hexByte fault.byte} in position {fault.start}"
        else s!"bytes in position {fault.start}-{fault.start + fault.length - 1}") ++
        s!": {fault.reason.text}" := by
  have hpath : " as UTF-8: 'utf-8' codec can't decode " =
      " as UTF-8: " ++ "'utf-8' codec can't decode " := rfl
  have hmessage : (undecodable path fault).message =
      s!"Cannot decode {path} as UTF-8: {fault.message}" := rfl
  rw [hmessage, Utf8.Fault.message_eq]
  simp only [hpath, toString, String.append_assoc]

/-- **A file is read by its bytes**, as the text that they are behind a mark, or with the fault in
them. -/
theorem Document.load_file {limit : Int} {files : Files} {path : Path} {bytes : List UInt8}
    (hfile : files.find path = .ok (.file bytes)) (hone : bytes ≠ [0xEF])
    (htwo : bytes ≠ [0xEF, 0xBB]) :
    (∀ cs, withoutMark bytes = Utf8.encode cs →
      '\r' ∉ feedEnds cs ∧
      load limit files path =
        if (feedEnds cs).length ≤ limit then .ok (String.ofList (feedEnds cs))
        else .error (.document (.tooLarge path (feedEnds cs).length limit))) ∧
    (¬ Utf8.WellFormed (withoutMark bytes) →
      ∃ fault : Utf8.Fault,
        load limit files path = .error (.document (.undecodable path fault)) ∧
        Utf8.LongestWellFormed (withoutMark bytes) fault.start ∧
        (DocumentError.undecodable path fault).message =
          s!"Cannot decode {path} as UTF-8: 'utf-8' codec can't decode " ++
            (if fault.length = 1 then
              s!"byte 0x{Utf8.hexByte fault.byte} in position {fault.start}"
            else s!"bytes in position {fault.start}-{fault.start + fault.length - 1}") ++
            s!": {fault.reason.text}") := by
  refine ⟨fun cs hcs => ⟨return_not_mem_feedEnds cs, ?_⟩, fun h => ?_⟩
  · have hbytes : ofBytes bytes = .ok (feedEnds cs) := by
      rw [ofBytes_eq hone htwo, hcs, Utf8.decode_encode]
      rfl
    exact load_of_ofBytes_ok hfile hbytes
  · cases hdecode : Utf8.decode (withoutMark bytes) with
    | ok cs => exact absurd ⟨cs, Utf8.decode_eq_ok_iff.mp hdecode⟩ h
    | error fault =>
      have hbytes : ofBytes bytes = .error fault := by
        rw [ofBytes_eq hone htwo, hdecode]
        rfl
      exact ⟨fault, load_of_ofBytes_error hfile hbytes, Utf8.longestWellFormed_of_decode hdecode,
        DocumentError.message_undecodable path fault⟩

/-- Behind the mark are line ends of both kinds, and the text may be too long; a second file ends
within a character. -/
theorem Document.load_file_marked :
    let marked : List UInt8 := Utf8.markBytes ++ Utf8.encode "a\r\n\r".toList
    let cut : List UInt8 := [0x61, 0xE2, 0x82]
    let files := Files.ofTree (.directory [("a.tw", .file marked), ("b.tw", .file cut)])
    (files.find ⟨"", ["a.tw"]⟩ = .ok (.file marked) ∧ marked ≠ [0xEF] ∧ marked ≠ [0xEF, 0xBB] ∧
        files.find ⟨"", ["b.tw"]⟩ = .ok (.file cut) ∧ cut ≠ [0xEF] ∧ cut ≠ [0xEF, 0xBB]) ∧
      load 3 files ⟨"", ["a.tw"]⟩ = .ok "a\n\n" ∧
      load 2 files ⟨"", ["a.tw"]⟩ = .error (.document (.tooLarge ⟨"", ["a.tw"]⟩ 3 2)) ∧
      ¬ Utf8.WellFormed (withoutMark cut) ∧
      load 2 files ⟨"", ["b.tw"]⟩ =
          .error (.document (.undecodable ⟨"", ["b.tw"]⟩ ⟨1, 2, 0xE2, .unexpectedEnd⟩)) ∧
      Utf8.LongestWellFormed cut 1 := by
  intro marked cut files
  have ha : files.find ⟨"", ["a.tw"]⟩ = .ok (.file marked) := rfl
  have hb : files.find ⟨"", ["b.tw"]⟩ = .ok (.file cut) := rfl
  have hone : marked ≠ [0xEF] := by decide
  have htwo : marked ≠ [0xEF, 0xBB] := by decide
  have hcone : cut ≠ [0xEF] := by decide
  have hctwo : cut ≠ [0xEF, 0xBB] := by decide
  have hcut : ¬ Utf8.WellFormed (withoutMark cut) := by decide
  have htext : withoutMark marked = Utf8.encode "a\r\n\r".toList := rfl
  have hfault : load 2 files ⟨"", ["b.tw"]⟩ =
      .error (.document (.undecodable ⟨"", ["b.tw"]⟩ ⟨1, 2, 0xE2, .unexpectedEnd⟩)) := rfl
  obtain ⟨fault, hload, hlongest, _⟩ := (@load_file 2 _ _ _ hb hcone hctwo).2 hcut
  rw [hfault] at hload
  obtain rfl := (DocumentError.undecodable.inj (LoadError.document.inj (Except.error.inj hload))).2
  refine ⟨⟨ha, hone, htwo, hb, hcone, hctwo⟩, ?_, ?_, hcut, hfault, hlongest⟩
  · exact ((load_file ha hone htwo).1 _ htext).2
  · exact ((load_file ha hone htwo).1 _ htext).2

/-! ### Bytes of a text -/

/-- No mark is left once one was dropped, unless there were two. -/
theorem Text.head?_dropMark {cs : List Char} (h : ¬ [mark, mark] <+: cs) :
    (dropMark cs).head? ≠ some mark := by
  cases cs with
  | nil => exact fun h => nomatch h
  | cons c cs =>
    intro hhead
    rw [dropMark] at hhead
    split at hhead
    · next hc =>
      obtain ⟨tail, rfl⟩ := List.head?_eq_some_iff.mp hhead
      exact h ⟨tail, by rw [hc]; rfl⟩
    · next hc => exact hc (Option.some.inj hhead)

/-- The text that is read from a file, where no line end is a carriage return alone. -/
theorem Document.load_of_find {limit : Int} {files : Files} {path : Path} {cs : List Char}
    (hfile : files.find path = .ok (.file (Utf8.encode cs))) (h : Paired cs)
    (hlimit : (plainEnds (dropMark cs)).length ≤ limit) :
    load limit files path = .ok (String.ofList (plainEnds (dropMark cs))) := by
  have hbytes : ofBytes (Utf8.encode cs) = .ok (plainEnds (dropMark cs)) := by
    rw [ofBytes_encode, unifyLineEnds_eq h.dropMark]
  rw [load_of_ofBytes_ok hfile hbytes, if_pos hlimit]

namespace Service

/-- **A file is linted like the text it holds**, mark, carriage returns and all. -/
theorem lintFile_eq_lintText (s : Service) {files : Files} {path : Path} {document : String}
    (hfile : files.find path = .ok (.file (Utf8.encode document.toList)))
    (hreturns : Returns document.toList) (hmarks : ¬ [mark, mark] <+: document.toList)
    (hlimit : (plainEnds (dropMark document.toList)).length ≤ s.limit) :
    s.lintFile files path = .ok (s.lintText path.toText document) := by
  have hpaired := Paired.of_returns hreturns
  have hhead : (plainEnds (dropMark document.toList)).head? ≠ some mark := fun h =>
    head?_dropMark hmarks (head?_plainEnds (by decide) hpaired.dropMark h)
  have hplain : dropMark (String.ofList (plainEnds (dropMark document.toList))).toList =
      plainEnds (dropMark document.toList) := by
    rw [String.toList_ofList, dropMark_of_head? hhead]
  have hload := Document.load_of_find hfile hpaired hlimit
  calc s.lintFile files path
      = .ok (s.lintText path.toText
          (String.ofList (plainEnds (dropMark document.toList)))) := by
        rw [lintFile, hload]
        rfl
    _ = .ok (s.lintText path.toText document) := by
        rw [lintText, lintText, Report.lint_plainEnds s.vocabulary _ hpaired.dropMark hplain]

/-- A mark, a carriage return behind the tags and one between a name and its colon. -/
theorem lintFile_eq_lintText_marked :
    let document := "\uFEFF::A [x]\r\n(foo\r\n:)\n("
    let files := Files.ofTree (.directory [("a.tw", .file (Utf8.encode document.toList))])
    let s : Service := ⟨.empty, 17, 1⟩
    (files.find ⟨"", ["a.tw"]⟩ = .ok (.file (Utf8.encode document.toList)) ∧
        Returns document.toList ∧ ¬ [mark, mark] <+: document.toList ∧
        (plainEnds (dropMark document.toList)).length ≤ s.limit) ∧
      s.lintFile files ⟨"", ["a.tw"]⟩ =
        .ok ⟨"a.tw", 1, [.unknownCall "A" ⟨"foo", ⟨2, 1⟩, 6⟩ none, .unclosed "A" ⟨4, 1⟩]⟩ := by
  intro document files s
  have hfile : files.find ⟨"", ["a.tw"]⟩ = .ok (.file (Utf8.encode document.toList)) := rfl
  have hreturns : Returns document.toList := by decide
  have hmarks : ¬ [mark, mark] <+: document.toList := by decide
  have hlimit : (plainEnds (dropMark document.toList)).length ≤ s.limit := by decide
  refine ⟨⟨hfile, hreturns, hmarks, hlimit⟩, ?_⟩
  rw [lintFile_eq_lintText s hfile hreturns hmarks hlimit]
  exact congrArg Except.ok (by decide)

end Service

end TweeLint
