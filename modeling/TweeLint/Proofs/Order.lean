import TweeLint.Proofs.Passage.Respelling
import TweeLint.Proofs.Places

/-!
# The order of a report

A report goes through its document header by header. What it says of one passage comes in two runs,
first the unknown names and then the parentheses, and each run goes through the passage from front
to back (`lint_ordered`). So a diagnostic is known by its kind and its place.

The second run is made of two lists, the strays and what was left open. It is in document order
because nothing is open where a parenthesis is stray: whatever is open in the end stands behind all
strays. Said without the two lists, what a scan keeps is what it read with some of it left out
(`leftInOrder_foldl`), so the order of a report's positions is the order of the parentheses
(`pairwise_parens`).
-/

namespace TweeLint

open Section

/-! ### What the order is -/

/-- Header line `h` is the nearest one above a position. Header lines count from 0, and the lines of
positions from 1. -/
structure Section.NearestAbove (ls : List (List Char)) (p : Position) (h : Nat) : Prop where
  headerAt : HeaderAt ls h
  above : (h : Int) + 1 < p.line
  nearest : ∀ k : Nat, HeaderAt ls k → (k : Int) + 1 < p.line → k ≤ h

/-- The order within a passage, of a diagnostic `d` and a later one `e`. -/
structure Diagnostic.InPassageOrder (d e : Diagnostic) : Prop where
  /-- Unknown names come before parentheses. -/
  names : e.kind = .invalidMacro → d.kind = .invalidMacro
  /-- Of the parentheses, stray ones come before unclosed ones. -/
  strays : e.kind = .unmatchedParenthesis → d.kind ≠ .unclosedMacro
  /-- Names are in document order, and so are parentheses of either kind. -/
  positions : (d.kind = .invalidMacro ↔ e.kind = .invalidMacro) → d.position < e.position

/-- The order of a report, of a diagnostic `d` and a later one `e`. -/
structure Diagnostic.Precedes (ls : List (List Char)) (d e : Diagnostic) : Prop where
  headers : ∀ h k, NearestAbove ls d.position h → NearestAbove ls e.position k → h ≤ k
  passage : ∀ h, NearestAbove ls d.position h → NearestAbove ls e.position h → d.InPassageOrder e

theorem Section.NearestAbove.unique {ls : List (List Char)} {p : Position} {h k : Nat}
    (hh : NearestAbove ls p h) (hk : NearestAbove ls p k) : h = k :=
  Nat.le_antisymm (hk.nearest h hh.headerAt hh.above) (hh.nearest k hk.headerAt hk.above)

/-! ### Parentheses in order -/

/-- The parentheses of a text are listed from front to back. -/
theorem pairwise_parens (p : Position) (behind text : List Char) :
    ((parens p behind text).map Paren.position).Pairwise (· < ·) := by
  induction text generalizing p with
  | nil => exact .nil
  | cons c text ih =>
    have hlater : ∀ q ∈ (parens (p.advance c) behind text).map Paren.position, p < q := by
      intro q hq
      obtain ⟨m, hm, rfl⟩ := List.mem_map.mp hq
      exact lt_position_of_mem_parens (Position.lt_advance_self p c) hm
    rw [parens, List.map_append]
    cases hat : Paren.at? p c (text ++ behind) with
    | none => exact ih (p.advance c)
    | some m =>
      refine List.pairwise_cons.mpr ⟨?_, ih (p.advance c)⟩
      rwa [Paren.position_of_at? hat]

namespace Vocabulary

theorem kind_of_verdictAt? {v : Vocabulary} {passage : String} {m : Paren} {d : Diagnostic}
    (h : v.verdictAt? passage m = some d) : d.kind = .invalidMacro := by
  unfold verdictAt? at h
  split at h
  · rw [(verdict?_eq_some_iff.mp h).2]
    rfl
  · exact absurd h (by simp)

/-- The diagnostics for names are in the order of the parentheses. -/
theorem positions_filterMap_verdictAt? (v : Vocabulary) (passage : String) (ms : List Paren) :
    ((ms.filterMap (v.verdictAt? passage)).map Diagnostic.position).Sublist
      (ms.map Paren.position) := by
  induction ms with
  | nil => exact .slnil
  | cons m ms ih =>
    rw [List.filterMap_cons, List.map_cons]
    cases hverdict : v.verdictAt? passage m with
    | none => exact ih.cons _
    | some d =>
      rw [List.map_cons, position_of_verdictAt? hverdict]
      exact ih.cons_cons _

end Vocabulary

namespace Balance

/-- The positions that are kept of the parentheses without a counterpart, the stray ones first. -/
def leftInOrder (s : List Position × List Position) : List Position :=
  s.2.reverse ++ s.1.reverse

theorem leftInOrder_step (s : List Position × List Position) (m : Paren) :
    (leftInOrder (leaveOpen s m)).Sublist (leftInOrder s ++ [m.position]) := by
  obtain ⟨openers, strays⟩ := s
  obtain ⟨position, kind⟩ := m
  cases kind with
  | opening name? => simp [leftInOrder, leaveOpen]
  | closing =>
    cases openers with
    | nil =>
      -- a stray parenthesis goes to the end of the list because nothing is open
      simp [leftInOrder, leaveOpen]
    | cons o os => simp [leftInOrder, leaveOpen]

/-- **What is left** is what was read, in its order, with some of it left out. -/
theorem leftInOrder_foldl (s : List Position × List Position) (ms : List Paren) :
    (leftInOrder (ms.foldl leaveOpen s)).Sublist (leftInOrder s ++ ms.map Paren.position) := by
  induction ms generalizing s with
  | nil => simp
  | cons m ms ih =>
    have hstep := (leftInOrder_step s m).append_right (ms.map Paren.position)
    rw [List.append_assoc] at hstep
    exact (ih (leaveOpen s m)).trans hstep

/-- The diagnostics for parentheses are in the order of the parentheses. -/
theorem positions_ofParens (passage : String) (ms : List Paren) :
    ((ofParens passage ms).map Diagnostic.position).Sublist (ms.map Paren.position) := by
  have hpositions : (ofParens passage ms).map Diagnostic.position =
      leftInOrder (ms.foldl leaveOpen ([], [])) := by
    rw [ofParens, List.map_append, List.map_map, List.map_map]
    exact congrArg₂ (· ++ ·) (List.map_id _) (List.map_id _)
  rw [hpositions]
  exact leftInOrder_foldl ([], []) ms

/-- Stray parentheses are reported first. -/
theorem strays_ofParens (passage : String) (ms : List Paren) :
    (ofParens passage ms).Pairwise fun d e =>
      e.kind = .unmatchedParenthesis → d.kind ≠ .unclosedMacro := by
  rw [ofParens, List.pairwise_append, List.pairwise_map, List.pairwise_map]
  refine ⟨List.pairwise_of_forall fun p q _ => ?_, List.pairwise_of_forall fun p q h => ?_, ?_⟩
  · simp [Diagnostic.unmatched]
  · exact absurd h (by simp [Diagnostic.unclosed])
  · intro d hd e he h
    obtain ⟨q, -, rfl⟩ := List.mem_map.mp he
    exact absurd h (by simp [Diagnostic.unclosed])

end Balance

/-! ### One passage -/

/-- A list of parentheses from front to back is reported on in two runs from front to back. -/
theorem pairwise_lintParens (v : Vocabulary) (passage : String) {ms : List Paren}
    (h : (ms.map Paren.position).Pairwise (· < ·)) :
    (lintParens v passage ms).Pairwise Diagnostic.InPassageOrder := by
  have hnames := List.pairwise_map.mp (h.sublist (v.positions_filterMap_verdictAt? passage ms))
  have hparens := List.pairwise_map.mp (h.sublist (Balance.positions_ofParens passage ms))
  have hname : ∀ d ∈ ms.filterMap (v.verdictAt? passage), d.kind = .invalidMacro := by
    intro d hd
    obtain ⟨m, -, hverdict⟩ := List.mem_filterMap.mp hd
    exact Vocabulary.kind_of_verdictAt? hverdict
  have hparen : ∀ d ∈ Balance.ofParens passage ms, d.kind ≠ .invalidMacro :=
    fun d hd => Balance.kind_of_mem_ofParens hd
  rw [lintParens, List.pairwise_append]
  refine ⟨hnames.imp_of_mem fun hd he hlt => ?_,
    (hparens.and (Balance.strays_ofParens passage ms)).imp_of_mem fun hd he horder => ?_,
    fun d hd e he => ?_⟩
  · exact ⟨fun _ => hname _ hd, fun _ => by simp [hname _ hd], fun _ => hlt⟩
  · exact ⟨fun h => absurd h (hparen _ he), horder.2, fun _ => horder.1⟩
  · exact ⟨fun h => absurd h (hparen e he), fun _ => by simp [hname d hd],
      fun h => absurd (h.mp (hname d hd)) (hparen e he)⟩

theorem Section.pairwise_lint_passage (v : Vocabulary) (s : Section) :
    (s.passage.lint v).Pairwise Diagnostic.InPassageOrder := by
  rw [lint_passage]
  exact pairwise_lintParens v _ (pairwise_parens _ _ _)

/-! ### One report -/

/-- What is reported of a section stands below its header line. -/
theorem Section.Spans.nearestAbove {document : String} {h h' : Nat} {s : Section}
    (hs : Spans (documentLines document) h h' s) {v : Vocabulary} {d : Diagnostic}
    (hd : d ∈ s.passage.lint v) : NearestAbove (documentLines document) d.position h := by
  obtain ⟨i, hline, hi, hi'⟩ := hs.line_of_mem_lint hd
  refine ⟨hs.headerAt, by omega, fun k hk hki => ?_⟩
  by_contra hlt
  exact hs.next.between k (by omega) (by omega) hk

theorem exists_nearestAbove {v : Vocabulary} {source document : String} {d : Diagnostic}
    (hd : d ∈ (Report.lint v source document).diagnostics) :
    ∃ h, NearestAbove (documentLines document) d.position h := by
  obtain ⟨s, hs, hd⟩ := Report.mem_diagnostics_lint.mp hd
  obtain ⟨h, h', hspans⟩ := exists_spans_of_mem hs
  exact ⟨h, hspans.nearestAbove hd⟩

/-- **The diagnostics of a report are in order.** -/
theorem pairwise_lint (v : Vocabulary) (source document : String) :
    (Report.lint v source document).diagnostics.Pairwise
      (Diagnostic.Precedes (documentLines document)) := by
  have hbelow : ∀ h ∈ headers (documentLines document), ∀ d : Diagnostic,
      d ∈ (sectionAt 1 (Text.endLines (documentLines document)) h).passage.lint v →
        NearestAbove (documentLines document) d.position h := by
    intro h hh d hd
    obtain ⟨h', hspans⟩ := spans_at (mem_headers.mp hh)
    exact hspans.nearestAbove hd
  have hheaders : (headers (documentLines document)).Pairwise (· < ·) :=
    List.pairwise_lt_range.filter _
  rw [Report.lint_eq_sections, sections_eq, List.flatMap_map, List.pairwise_flatMap]
  constructor
  · intro h hh
    refine (pairwise_lint_passage v _).imp_of_mem fun {d e} hd he horder => ⟨?_, fun _ _ _ => horder⟩
    intro i j hi hj
    rw [hi.unique (hbelow h hh d hd), hj.unique (hbelow h hh e he)]
  · refine hheaders.imp_of_mem fun {h k} hh hk hlt d hd e he => ⟨?_, ?_⟩
    · intro i j hi hj
      rw [hi.unique (hbelow h hh d hd), hj.unique (hbelow k hk e he)]
      exact Nat.le_of_lt hlt
    · intro i hi hj
      -- the two are in different passages
      rw [hi.unique (hbelow h hh d hd)] at hj
      exact absurd (hj.unique (hbelow k hk e he)) (Nat.ne_of_lt hlt)

/-- **The order of a report.** Each diagnostic has one nearest header line above it. Along a report
these never decrease; under the same header line the unknown names come first and then the
parentheses, each in document order and so the stray parentheses before the unclosed ones. No two
diagnostics have kind, line and column in common. -/
theorem lint_ordered (v : Vocabulary) (source document : String) :
    (∀ d ∈ (Report.lint v source document).diagnostics,
      ∃! h, NearestAbove (documentLines document) d.position h) ∧
    (Report.lint v source document).diagnostics.Pairwise
      (Diagnostic.Precedes (documentLines document)) ∧
    ((Report.lint v source document).diagnostics.map fun d =>
      (d.kind, d.position.line, d.position.column)).Nodup := by
  refine ⟨fun d hd => ?_, pairwise_lint v source document, ?_⟩
  · obtain ⟨h, hh⟩ := exists_nearestAbove hd
    exact ⟨h, hh, fun k hk => hk.unique hh⟩
  · refine List.pairwise_map.mpr ((pairwise_lint v source document).imp_of_mem ?_)
    intro d e hd he hprecedes hsame
    obtain ⟨hkind, hplace⟩ := Prod.mk.inj hsame
    obtain ⟨hline, hcolumn⟩ := Prod.mk.inj hplace
    have hposition : d.position = e.position := by
      show Position.mk d.position.line d.position.column =
        Position.mk e.position.line e.position.column
      rw [hline, hcolumn]
    obtain ⟨h, hh⟩ := exists_nearestAbove hd
    have horder := hprecedes.passage h hh (hposition ▸ hh)
    have hlt : d.position < e.position := horder.positions (by rw [hkind])
    exact Position.ne_of_lt hlt hposition

/-- A stray parenthesis in front of an unknown name is reported behind it; what is in the second
passage comes last. -/
theorem lint_ordered_stray :
    let document := "::A\n)(x:\n(\n::B\n(y:"
    let diagnostics : List Diagnostic :=
      [.unknownCall "A" ⟨"x", ⟨2, 2⟩, 1⟩ none, .unmatched "A" ⟨2, 1⟩, .unclosed "A" ⟨2, 2⟩,
        .unclosed "A" ⟨3, 1⟩, .unknownCall "B" ⟨"y", ⟨5, 1⟩, 0⟩ none, .unclosed "B" ⟨5, 1⟩]
    (Report.lint .empty "doc" document).diagnostics = diagnostics ∧
      (∀ d ∈ diagnostics, ∃! h, NearestAbove (documentLines document) d.position h) ∧
      diagnostics.Pairwise (Diagnostic.Precedes (documentLines document)) := by
  intro document diagnostics
  have hlint : (Report.lint .empty "doc" document).diagnostics = diagnostics := by decide
  have hordered := lint_ordered .empty "doc" document
  rw [hlint] at hordered
  exact ⟨hlint, hordered.1, hordered.2.1⟩

end TweeLint
