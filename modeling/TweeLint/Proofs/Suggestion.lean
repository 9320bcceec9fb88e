import TweeLint.Proofs.Passage.ReplacedLine
import TweeLint.Proofs.Passage.Respelling
import TweeLint.Proofs.Places
import TweeLint.Proofs.Vocabulary.Nearest

/-!
# Accepting a suggestion

What is suggested in place of an unknown name is a name of the vocabulary (`suggest?_mem`). Where it
can be written as the name of a call, writing it (`respelled`) takes away the diagnostic that
suggested it, and nothing else: all other diagnostics stay, pushed along where they are on the same
line further right (`lint_respelled`).
-/

namespace TweeLint

open Section

/-! ### What is suggested -/

namespace Vocabulary

/-- **A suggestion is a name of the vocabulary.** -/
theorem suggest?_mem {v : Vocabulary} {name s : String} (h : v.suggest? name = some s) : s ∈ v := by
  rw [suggest?_eq_nearest?] at h
  exact (nearest?_eq_some_iff.mp h).mem

end Vocabulary

/-! ### The document with another name -/

/-- The document in which the name behind the parenthesis at `p` is written in another way. -/
def respelled (document : String) (p : Position) (name spelling : String) : String :=
  String.ofList (Text.joinLines ((rawLines document).modify (p.line - 1).toNat fun l =>
    l.take p.column.toNat ++ (spelling.toList ++ l.drop (p.column.toNat + name.length))))

theorem respelled_line (front name spelling back : List Char) :
    (front ++ '(' :: (name ++ back)).take (front.length + 1) ++
        (spelling ++ (front ++ '(' :: (name ++ back)).drop (front.length + 1 + name.length)) =
      front ++ '(' :: (spelling ++ back) := by
  have hcut : front ++ '(' :: (name ++ back) = (front ++ ['(']) ++ (name ++ back) := by simp
  have hlen : (front ++ ['(']).length = front.length + 1 := by simp
  rw [hcut, List.take_left' hlen, ← List.drop_drop, List.drop_left' hlen, List.drop_left]
  simp

/-- In the text as a whole, one stretch is replaced. -/
theorem toList_respelled {document name spelling : String} {above below : List Char}
    (hdocument : document.toList = above ++ '(' :: (name.toList ++ below))
    (hname : '\n' ∉ name.toList) (hspelling : '\n' ∉ spelling.toList) :
    (respelled document ⟨above.count '\n' + 1, (Text.lastLine above).length + 1⟩ name
      spelling).toList = above ++ '(' :: (spelling.toList ++ below) := by
  obtain ⟨l, rest, hsplit⟩ := Text.splitLines_around above below
  have hold := hsplit ('(' :: name.toList) (by simpa using hname)
  have hnew := hsplit ('(' :: spelling.toList) (by simpa using hspelling)
  have hlen : (Text.splitLines above).dropLast.length = above.count '\n' := by
    simp [Text.length_splitLines]
  have hline : ((above.count '\n' + 1 : Int) - 1).toNat = above.count '\n' := by omega
  have hcolumn : ((Text.lastLine above).length + 1 : Int).toNat = (Text.lastLine above).length + 1 := by
    omega
  simp only [List.cons_append] at hold hnew
  simp only [respelled, hline, hcolumn, String.toList_ofList, rawLines, hdocument, hold]
  rw [List.modify_eq_take_drop, List.take_left' hlen, List.drop_left' hlen, List.modifyHead_cons,
    ← String.length_toList, respelled_line, ← hnew, Text.joinLines_splitLines]

/-! ### The mark in front -/

/-- A text with a mark in front, or without, that is replaced from somewhere on. -/
theorem Text.exists_of_dropMark_eq {cs xs ys : List Char} (hxs : xs ≠ [])
    (h : dropMark cs = xs ++ ys) :
    ∃ front, (front = xs ∨ front = mark :: xs) ∧ cs = front ++ ys ∧
      ∀ zs, dropMark (front ++ zs) = xs ++ zs := by
  obtain ⟨x, xs, rfl⟩ := List.exists_cons_of_ne_nil hxs
  cases cs with
  | nil => exact absurd h (by simp [dropMark])
  | cons c cs =>
    rw [dropMark] at h
    split at h
    · next hc =>
      subst hc
      exact ⟨mark :: x :: xs, Or.inr rfl, by rw [h]; rfl, fun zs => by simp [dropMark]⟩
    · next hc =>
      obtain ⟨rfl, rfl⟩ := List.cons.inj h
      exact ⟨c :: xs, Or.inl rfl, rfl, fun zs => by simp [dropMark, hc]⟩

/-! ### One section of the document -/

namespace Section.Spans

variable {document : String} {h h' : Nat} {s : Section}

/-- The text in front of a place in a section, in a document with a mark or without. -/
theorem exists_document_eq (hs : Spans (documentLines document) h h' s) (pre below : List Char)
    (hbody : s.body ≠ [])
    (hbelow : Text.dropMark document.toList =
      Text.feedLines ((documentLines document).take h) ++ (s.header ++ pre) ++ below) :
    ∃ above, document.toList = above ++ below ∧
      (Position.mk s.line 1).after (s.header ++ pre) =
        ⟨above.count '\n' + 1, (Text.lastLine above).length + 1⟩ ∧
      ∀ cs, Text.dropMark (above ++ cs) =
        Text.feedLines ((documentLines document).take h) ++ (s.header ++ pre) ++ cs := by
  have hplace : (Position.mk s.line 1).after (s.header ++ pre) = _ := hs.after_header pre
  rw [← documentLines, Position.start_after] at hplace
  obtain ⟨l, -, -, hheader⟩ := hs.header_of_body hbody
  have hfeed : '\n' ∈ Text.feedLines ((documentLines document).take h) ++ (s.header ++ pre) := by
    rw [hheader]
    simp
  obtain ⟨above, habove, hdocument, hdrop⟩ :=
    Text.exists_of_dropMark_eq (List.ne_nil_of_mem hfeed) hbelow
  refine ⟨above, hdocument, ?_, hdrop⟩
  rw [hplace]
  rcases habove with rfl | rfl
  · rfl
  · -- the mark is on the first line, which is not the last
    rw [List.count_cons_of_ne (by decide), Text.lastLine_cons_of_mem (by decide) hfeed]

/-- The document in which a name in a section is written in another way. -/
theorem documentLines_respelled (hs : Spans (documentLines document) h h' s) {pre rest : List Char}
    {name spelling : String} (hbody : s.body = pre ++ '(' :: (name.toList ++ rest))
    (hname : '\n' ∉ name.toList) (hspelling : '\n' ∉ spelling.toList) :
    ∃ i m, h < i ∧ i < h' ∧ NoHeaders (documentLines document) i m ∧
      documentLines (respelled document ((Position.mk s.line 1).after (s.header ++ pre)) name
        spelling) = (documentLines document).set i m ∧
      ∀ j s', Spans (documentLines (respelled document
          ((Position.mk s.line 1).after (s.header ++ pre)) name spelling)) h j s' →
        s' = ⟨s.line, s.header, pre ++ '(' :: (spelling.toList ++ rest)⟩ := by
  have hbelow := hs.eq_append_below
  rw [hbody] at hbelow
  obtain ⟨above, hdocument, hplace, hdrop⟩ := hs.exists_document_eq pre
    ('(' :: (name.toList ++ (rest ++ Text.joinLines ((documentLines document).drop h'))))
    (by simp [hbody]) (hbelow.trans (by simp [documentLines]))
  have ht := hdrop ('(' :: (spelling.toList ++
    (rest ++ Text.joinLines ((documentLines document).drop h'))))
  rw [← toList_respelled hdocument hname hspelling, ← hplace] at ht
  obtain ⟨i, m, hi, hi', hno, hset⟩ := hs.exists_set hbody hname hspelling ht
  exact ⟨i, m, hi, hi', hno, hset, fun j s' hs' => hs.eq_of_set ht hi hi' hno hset hs'⟩

end Section.Spans

/-- A call in a section begins in the document where its parenthesis stands. -/
theorem Section.Spans.beginsCall_textFrom {document : String} {h h' : Nat} {s : Section}
    (hs : Spans (documentLines document) h h' s) {pre name rest : List Char}
    (hbody : s.body = pre ++ '(' :: (name ++ rest))
    (hbegins : MacroCall.BeginsCall name ('(' :: (name ++ rest))) {p : Position}
    (hp : p = (Position.mk s.line 1).after (s.header ++ pre)) :
    MacroCall.BeginsCall name
      (Text.textFrom (rawLines document) (p.line - 1).toNat (p.column - 1).toNat) := by
  obtain ⟨i, j, tail, hplace, hi, hi', -, hfrom, -⟩ := hs.exists_place hbody (by decide)
  have hline : ((i : Int) + 1 - 1).toNat = i := by omega
  have hcolumn : ((j : Int) + 1 - 1).toNat = j := by omega
  rw [hp, hplace, hline, hcolumn, textFrom_rawLines document (by omega), documentLines, hfrom]
  exact hbegins.append tail

/-- **The sections with another name in one of them**: the others are the same, and nothing is
reported of them on the line of that name. -/
theorem exists_sections_respelled {document : String} {s : Section} (hs : s ∈ sections document)
    {pre rest : List Char} {name spelling : String}
    (hbody : s.body = pre ++ '(' :: (name.toList ++ rest)) (hname : '\n' ∉ name.toList)
    (hspelling : '\n' ∉ spelling.toList) :
    ∃ front back, sections document = front ++ s :: back ∧
      sections (respelled document ((Position.mk s.line 1).after (s.header ++ pre)) name spelling) =
        front ++ ⟨s.line, s.header, pre ++ '(' :: (spelling.toList ++ rest)⟩ :: back ∧
      ∀ s' ∈ front ++ back, ∀ (v : Vocabulary) (d : Diagnostic), d ∈ s'.passage.lint v →
        d.position.line ≠ ((Position.mk s.line 1).after (s.header ++ pre)).line := by
  rw [sections_eq] at hs
  obtain ⟨h, hmem, rfl⟩ := List.mem_map.mp hs
  have hh := mem_headers.mp hmem
  obtain ⟨h', hspans⟩ := spans_at hh
  obtain ⟨j, k, -, hplace, hj, hj', -⟩ := hspans.exists_place hbody (by decide)
  obtain ⟨i, m, hi, hi', hno, hset, hedited⟩ :=
    hspans.documentLines_respelled hbody hname hspelling
  obtain ⟨above, below, hsplit, hother⟩ := exists_headers_eq hh
  have hsame : ∀ g ∈ above ++ below,
      sectionAt 1 (Text.endLines ((documentLines document).set i m)) g =
        sectionAt 1 (Text.endLines (documentLines document)) g := by
    intro g hg
    obtain ⟨hheader, hne⟩ := hother g hg
    exact sectionAt_set_of_ne hno hh hspans.next hi hi' hheader hne
  refine ⟨above.map (sectionAt 1 (Text.endLines (documentLines document))),
    below.map (sectionAt 1 (Text.endLines (documentLines document))), ?_, ?_, ?_⟩
  · rw [sections_eq, hsplit, List.map_append, List.map_cons]
  · obtain ⟨j', hspans'⟩ := spans_at ((headerAt_set hno h).mpr hh)
    rw [← hset] at hspans'
    rw [sections_eq, ← hedited j' _ hspans', hset, headers_set hno, hsplit, List.map_append,
      List.map_cons, List.map_congr_left fun g hg => hsame g (List.mem_append_left _ hg),
      List.map_congr_left fun g hg => hsame g (List.mem_append_right _ hg)]
  · intro s' hs' v d hd hline
    rw [← List.map_append] at hs'
    obtain ⟨g, hg, rfl⟩ := List.mem_map.mp hs'
    obtain ⟨hheader, hne⟩ := hother g hg
    obtain ⟨g', hspans'⟩ := spans_at hheader
    obtain ⟨i', hi', hg, hg'⟩ := hspans'.line_of_mem_lint hd
    rw [hplace, hi'] at hline
    obtain rfl : i' = j := by
      dsimp only at hline
      omega
    exact hne (hspans'.next.eq_of_between hheader hh hspans.next hg hg' hj hj')

/-! ### The report -/

/-- Off the line, nothing is pushed. -/
theorem Diagnostic.map_push_eq_self {ds : List Diagnostic} {p : Position} {k : Int}
    (h : ∀ d ∈ ds, d.position.line ≠ p.line) : ds.map (·.move (p.push k)) = ds := by
  refine (List.map_congr_left fun d hd => ?_).trans (List.map_id ds)
  rw [move, Position.push_of_line_ne (h d hd)]
  rfl

/-- An element that stands in the middle and nowhere else. -/
theorem count_erase_middle {α : Type} [DecidableEq α] {x : α} {xs ys : List α}
    (h : x ∉ xs ++ ys) :
    (xs ++ x :: ys).count x = 1 ∧ (xs ++ x :: ys).erase x = xs ++ ys := by
  rw [List.mem_append, not_or] at h
  constructor
  · rw [List.count_append, List.count_cons_self, List.count_eq_zero.mpr h.1,
      List.count_eq_zero.mpr h.2]
  · rw [List.erase_append_right _ h.1, List.erase_cons_head]

/-- **Accepting a suggestion** takes away the diagnostic that made it, and nothing else. -/
theorem lint_respelled (v : Vocabulary) (source document : String) {d : Diagnostic} {s : String}
    (hd : d ∈ (Report.lint v source document).diagnostics) (hkind : d.kind = .invalidMacro)
    (hsuggestion : d.suggestion = some s) (hne : s ≠ "")
    (hchars : ∀ c ∈ s.toList, MacroCall.isNameChar c = true) :
    ∃ name : String, d.message = s!"Unknown macro name: '{name}'" ∧
      MacroCall.BeginsCall name.toList (Text.textFrom (rawLines document)
        (d.position.line - 1).toNat (d.position.column - 1).toNat) ∧
      (Report.lint v source document).diagnostics.count d = 1 ∧
      Report.lint v source (respelled document d.position name s) =
        ⟨source, (Report.lint v source document).passageCount,
          ((Report.lint v source document).diagnostics.erase d).map
            (·.move (d.position.push ((s.length : Int) - name.length)))⟩ := by
  obtain ⟨t, ht, hdt⟩ := Report.mem_diagnostics_lint.mp hd
  obtain ⟨pre, rest, name, hbody, hbegins, hunknown, hdeq⟩ := t.exists_call_of_mem_lint hdt hkind
  obtain ⟨h, h', hspans⟩ := exists_spans_of_mem ht
  have hposition : d.position = (Position.mk t.line 1).after (t.header ++ pre) := by
    rw [hdeq]
    rfl
  have hmem : s ∈ v := by
    rw [hdeq] at hsuggestion
    exact Vocabulary.suggest?_mem hsuggestion
  -- the passage with the call, and the other passages
  obtain ⟨before, after, hold, hnew, hothers⟩ :=
    Section.exists_lint_respelled hbody hbegins hunknown hne hchars hmem hposition
  obtain ⟨front, back, hsections, hrespelled, hlines⟩ := exists_sections_respelled ht hbody
    (MacroCall.feed_not_mem_name hbegins.2.1) (MacroCall.feed_not_mem_name hchars)
  rw [← hposition] at hrespelled hlines
  rw [← hposition] at hdeq
  rw [← hdeq] at hold
  have hfront : ∀ d' ∈ front.flatMap (·.passage.lint v), d'.position.line ≠ d.position.line :=
    List.forall_mem_flatMap.mpr fun t' ht' => hlines t' (List.mem_append_left _ ht') v
  have hback : ∀ d' ∈ back.flatMap (·.passage.lint v), d'.position.line ≠ d.position.line :=
    List.forall_mem_flatMap.mpr fun t' ht' => hlines t' (List.mem_append_right _ ht') v
  have hdiagnostics : (Report.lint v source document).diagnostics =
      (front.flatMap (·.passage.lint v) ++ before) ++
        d :: (after ++ back.flatMap (·.passage.lint v)) := by
    rw [Report.lint_eq_sections, hsections]
    simp [hold]
  have honce : d ∉ (front.flatMap (·.passage.lint v) ++ before) ++
      (after ++ back.flatMap (·.passage.lint v)) := by
    intro hmem
    simp only [List.mem_append] at hmem hothers
    rcases hmem with (hmem | hmem) | hmem | hmem
    · exact hfront d hmem rfl
    · exact hothers d (Or.inl hmem) hkind rfl
    · exact hothers d (Or.inr hmem) hkind rfl
    · exact hback d hmem rfl
  obtain ⟨hcount, herase⟩ := count_erase_middle honce
  refine ⟨name, by rw [hdeq]; rfl, hspans.beginsCall_textFrom hbody hbegins hposition, ?_, ?_⟩
  · rw [hdiagnostics, hcount]
  · rw [hdiagnostics, herase, Report.lint_eq_sections, Report.lint_eq_sections, hrespelled,
      hsections]
    simp only [List.flatMap_append, List.flatMap_cons, hnew, List.map_append, List.length_append,
      List.length_cons, List.append_assoc, Diagnostic.map_push_eq_self hfront,
      Diagnostic.map_push_eq_self hback]

/-- A shorter name in a document with a mark, between two other problems of its line. -/
theorem lint_respelled_puts :
    ⟨.invalidMacro, "A", ⟨2, 4⟩, "Unknown macro name: 'puts'", some "put"⟩ ∈
        (Report.lint (.ofList ["put"]) "doc" "\uFEFF::A\n)  (puts: (x:").diagnostics ∧
      Report.lint (.ofList ["put"]) "doc"
          (respelled "\uFEFF::A\n)  (puts: (x:" ⟨2, 4⟩ "puts" "put") =
        ⟨"doc", 1, [⟨.invalidMacro, "A", ⟨2, 10⟩, "Unknown macro name: 'x'", none⟩,
          .unmatched "A" ⟨2, 1⟩, .unclosed "A" ⟨2, 4⟩, .unclosed "A" ⟨2, 10⟩]⟩ := by
  have hd : ⟨.invalidMacro, "A", ⟨2, 4⟩, "Unknown macro name: 'puts'", some "put"⟩ ∈
      (Report.lint (.ofList ["put"]) "doc" "\uFEFF::A\n)  (puts: (x:").diagnostics := by decide
  have hchars : ∀ c ∈ "put".toList, MacroCall.isNameChar c = true := List.all_eq_true.mp (by decide)
  refine ⟨hd, ?_⟩
  obtain ⟨name, -, hbegins, -, hreport⟩ :=
    lint_respelled (.ofList ["put"]) "doc" _ hd rfl rfl (by decide) hchars
  have hfrom : Text.textFrom (rawLines "\uFEFF::A\n)  (puts: (x:") 1 3 = '(' :: "puts: (x:".toList := by
    decide
  have hname : MacroCall.nameBehind? "puts: (x:".toList = some name.toList :=
    MacroCall.nameBehind?_eq_some_iff.mpr (hfrom ▸ hbegins)
  have hputs : MacroCall.nameBehind? "puts: (x:".toList = some "puts".toList := by decide
  obtain rfl : "puts" = name := String.toList_inj.mp (Option.some.inj (hputs.symm.trans hname))
  rw [hreport]
  decide

end TweeLint
