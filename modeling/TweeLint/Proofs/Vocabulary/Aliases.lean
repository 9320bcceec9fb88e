import TweeLint.Proofs.Text.SplitLines
import TweeLint.Proofs.Vocabulary.Reference

/-!
# The lines that list aliases

On which lines of its section a reference manual lists aliases (`ofReference_aliases`): an alias
stands behind blanks only, on a line that begins with a blank (`IndentedAlias`) or directly below a
line with nothing but blanks on it (`AliasBelowBlank`). In the second case the alias may stand at the
very start of its line, so prose in parentheses below an empty line is listed too
(`ofReference_lists_prose`).

What decides is the text in front of the parenthesis. It has blanks behind the start of some line
(`EndsIndented`), and character by character that is the same as having only blanks on its last line,
and some there or none on the line above (`endsIndented_iff`).
-/

namespace TweeLint

namespace Vocabulary.Reference

open Text

/-- A line on which an alias stands behind `indent`, which is blank. -/
def AliasLine (indent name line : List Char) : Prop :=
  AllBlank indent ∧ ∃ rest, line = indent ++ '(' :: (name ++ ':' :: ')' :: rest)

/-- An alias on a line that begins with a blank. -/
def IndentedAlias (ls : List (List Char)) (name : List Char) : Prop :=
  ∃ line ∈ ls, ∃ indent, indent ≠ [] ∧ AliasLine indent name line

/-- An alias at the start of a line, directly below a blank one. -/
def AliasBelowBlank (ls : List (List Char)) (name : List Char) : Prop :=
  ∃ front above line below, ls = front ++ above :: line :: below ∧ AllBlank above ∧
    AliasLine [] name line

/-! ### The line in front of a parenthesis -/

/-- The line above the one at which a text ends is blank. -/
def BelowBlank (text : List Char) : Prop :=
  ∃ above ∈ (splitLines text).dropLast.getLast?, AllBlank above

theorem endsLine_iff {text : List Char} : EndsLine text ↔ lastLine text = [] := by
  rcases List.eq_nil_or_concat text with rfl | ⟨text, c, rfl⟩
  · simp [EndsLine]
  · rw [List.concat_eq_append, endsLine_concat]
    by_cases hc : c = '\n'
    · subst hc
      simp [lastLine_concat_feed]
    · simp [hc, lastLine_concat hc]

theorem belowBlank_concat_feed {text : List Char} :
    BelowBlank (text ++ ['\n']) ↔ AllBlank (lastLine text) := by
  have habove : (splitLines (text ++ ['\n'])).dropLast = splitLines text := by
    rw [splitLines_append_feed, splitLines_nil, List.dropLast_concat]
  rw [BelowBlank, habove, splitLines_eq, List.getLast?_concat]
  simp

/-- **Blanks lead back to the start of a line** just if the text ends with nothing but blanks on its
line, and there are some or the line above is blank. -/
theorem endsIndented_iff {text : List Char} :
    EndsIndented text ↔
      AllBlank (lastLine text) ∧ (lastLine text ≠ [] ∨ BelowBlank text) := by
  induction text using List.reverseRecOn with
  | nil => simp [not_endsIndented_nil, BelowBlank]
  | append_singleton text c ih =>
    -- in front of `c` there are only blanks on the line, if any
    have hfront : EndsLine text ∨ EndsIndented text ↔ AllBlank (lastLine text) := by
      rw [endsLine_iff, ih]
      by_cases hlast : lastLine text = []
      · simp [hlast, AllBlank]
      · simp [hlast]
    rw [endsIndented_concat, hfront]
    by_cases hc : c = '\n'
    · subst hc
      simp [lastLine_concat_feed, belowBlank_concat_feed, AllBlank, isBlank_feed]
    · rw [lastLine_concat hc]
      simp [AllBlank, or_imp, forall_and, and_comm]

/-! ### The line of an alias -/

/-- An alias to which blanks lead from the start of some line, seen on the lines. -/
theorem aliasLine_of_endsIndented {pre rest name : List Char} (hpre : EndsIndented pre)
    (halias : BeginsAlias name rest) :
    IndentedAlias (splitLines (pre ++ rest)) name ∨
      AliasBelowBlank (splitLines (pre ++ rest)) name := by
  obtain ⟨hname, more, rfl⟩ := halias
  have hfeed : '\n' ∉ '(' :: (name ++ [':', ')']) := by
    simp [hname.not_mem (c := '\n') (by decide)]
  obtain ⟨l, below, hsplit⟩ := splitLines_around pre more
  have hlines := hsplit _ hfeed
  have hrest : '(' :: (name ++ [':', ')']) ++ more = '(' :: (name ++ ':' :: ')' :: more) := by simp
  rw [hrest] at hlines
  obtain ⟨hblank, hindent⟩ := endsIndented_iff.mp hpre
  have hline : AliasLine (lastLine pre) name (lastLine pre ++ ('(' :: (name ++ [':', ')']) ++ l)) :=
    ⟨hblank, l, by simp⟩
  rw [hlines]
  by_cases hlast : lastLine pre = []
  · obtain ⟨above, habove, habove'⟩ := hindent.resolve_left (not_not_intro hlast)
    obtain ⟨front, hfront⟩ := List.getLast?_eq_some_iff.mp habove
    rw [hlast] at hline
    refine Or.inr ⟨front, above, _, below, ?_, habove', hline⟩
    rw [hfront, hlast]
    simp
  · exact Or.inl ⟨_, by simp, lastLine pre, hlast, hline⟩

/-- A text is the lines above a line, that line and what is behind it. -/
theorem exists_eq_line {text line : List Char} {front below : List (List Char)}
    (h : splitLines text = front ++ line :: below) :
    ∃ tail, text = feedLines front ++ (line ++ tail) := by
  have hlt : front.length < (splitLines text).length := by simp [h]
  have hcut := joinLines_eq_append hlt
  rw [joinLines_splitLines, h, List.take_left, List.drop_left] at hcut
  by_cases hbelow : below = []
  · subst hbelow
    exact ⟨[], by rw [hcut, joinLines_singleton, List.append_nil]⟩
  · exact ⟨'\n' :: joinLines below, by rw [hcut, joinLines_cons line hbelow]⟩

theorem endsLine_feedLines (ls : List (List Char)) : EndsLine (feedLines ls) := by
  rcases List.eq_nil_or_concat ls with rfl | ⟨ls, l, rfl⟩
  · exact Or.inl rfl
  · right
    simp [feedLines, List.concat_eq_append]

theorem exists_of_aliasLine {text name : List Char} (hname : IsName name)
    (h : IndentedAlias (splitLines text) name ∨ AliasBelowBlank (splitLines text) name) :
    ∃ pre rest, text = pre ++ rest ∧ EndsIndented pre ∧ BeginsAlias name rest := by
  rcases h with ⟨line, hmem, indent, hne, hblank, rest, rfl⟩ |
    ⟨front, above, line, below, hlines, hblank, -, rest, rfl⟩
  · obtain ⟨front, below, hlines⟩ := List.append_of_mem hmem
    obtain ⟨tail, htext⟩ := exists_eq_line hlines
    refine ⟨feedLines front ++ indent, '(' :: (name ++ ':' :: ')' :: (rest ++ tail)), ?_,
      ⟨feedLines front, indent, rfl, endsLine_feedLines front, hblank, hne⟩, hname, _, rfl⟩
    rw [htext]
    simp
  · -- the blanks that lead back to the start of a line are the line above and its line feed
    have hlines' : splitLines text =
        (front ++ [above]) ++ ([] ++ '(' :: (name ++ ':' :: ')' :: rest)) :: below := by
      rw [hlines]
      simp
    obtain ⟨tail, htext⟩ := exists_eq_line hlines'
    have hfeed : AllBlank ['\n'] := by simp [AllBlank, isBlank_feed]
    refine ⟨feedLines front ++ (above ++ ['\n']), '(' :: (name ++ ':' :: ')' :: (rest ++ tail)), ?_,
      ⟨feedLines front, above ++ ['\n'], rfl, endsLine_feedLines front, hblank.append hfeed,
        by simp⟩, hname, _, rfl⟩
    rw [htext]
    simp [feedLines]

/-- **The names in a section**, with the lines on which they stand. -/
theorem lists_iff_lines {text name : List Char} :
    Lists text name ↔
      (∃ pre rest, text = pre ++ rest ∧ BeginsEntry name rest) ∨
        (IsName name ∧
          (IndentedAlias (splitLines text) name ∨ AliasBelowBlank (splitLines text) name)) := by
  refine or_congr_right ?_
  constructor
  · intro halias
    obtain ⟨pre, rest, rfl, hpre, hrest⟩ := halias
    exact ⟨hrest.isName, aliasLine_of_endsIndented hpre hrest⟩
  · intro halias
    exact exists_of_aliasLine halias.1 halias.2

end Vocabulary.Reference

open Vocabulary.Reference

/-- **The lines that list aliases.** A name is in the vocabulary of a manual if its section has a
bulleted entry of it, or an alias on a line that begins with a blank or directly below a blank line.
Where no line that begins with a parenthesis stands directly below a blank one, every name without
an entry is an alias on a line that begins with a blank. -/
theorem Vocabulary.ofReference_aliases {markdown : String} {v : Vocabulary}
    (h : ofReference markdown = .ok v) :
    ∃ names, IsSection markdown.toList names ∧
      (∀ name : String, name ∈ v ↔
        (∃ pre rest, names = pre ++ rest ∧ BeginsEntry name.toList rest) ∨
          (IsName name.toList ∧ (IndentedAlias (Text.splitLines names) name.toList ∨
            AliasBelowBlank (Text.splitLines names) name.toList))) ∧
      ((∀ front above line below, Text.splitLines names = front ++ above :: line :: below →
          Text.AllBlank above → line.head? ≠ some '(') →
        ∀ name ∈ v, (¬ ∃ pre rest, names = pre ++ rest ∧ BeginsEntry name.toList rest) →
          IndentedAlias (Text.splitLines names) name.toList) := by
  obtain ⟨names, hsection, hlists⟩ := ofReference_eq_ok_iff.mp h
  have hlines : ∀ name : String, name ∈ v ↔ _ := fun name =>
    (hlists name).trans lists_iff_lines
  refine ⟨names, hsection, hlines, fun hprose name hname hentry => ?_⟩
  obtain ⟨-, halias⟩ := ((hlines name).mp hname).resolve_left hentry
  rcases halias with hindented | ⟨front, above, line, below, hsplit, hblank, -, rest, hline⟩
  · exact hindented
  · refine absurd ?_ (hprose front above line below hsplit hblank)
    rw [hline]
    rfl

/-- A manual with an alias on an indented line, and one at the start of a line below an empty one;
and a manual without the second, where the first is found by its line. -/
theorem Vocabulary.ofReference_aliases_two :
    let listing := "##### List of macros\n\t(a:)\n".toList
    (ofReference "##### List of macros\n\t(a:)\n\n(note:)\n##### Special keywords" =
        .ok (.ofList ["a", "note"]) ∧
      ofReference "##### List of macros\n\t(a:)\n##### Special keywords" = .ok (.ofList ["a"])) ∧
      (∃ names,
        IsSection "##### List of macros\n\t(a:)\n\n(note:)\n##### Special keywords".toList names ∧
        ∀ name : String, name ∈ NameSet.ofList ["a", "note"] ↔
          (∃ pre rest, names = pre ++ rest ∧ BeginsEntry name.toList rest) ∨
            (IsName name.toList ∧ (IndentedAlias (Text.splitLines names) name.toList ∨
              AliasBelowBlank (Text.splitLines names) name.toList))) ∧
      IsSection "##### List of macros\n\t(a:)\n##### Special keywords".toList listing ∧
      (∀ front above line below, Text.splitLines listing = front ++ above :: line :: below →
        Text.AllBlank above → line.head? ≠ some '(') ∧
      IndentedAlias (Text.splitLines listing) "a".toList := by
  intro listing
  have hmanual : ofReference "##### List of macros\n\t(a:)\n\n(note:)\n##### Special keywords" =
      .ok (.ofList ["a", "note"]) := rfl
  have hmanual' : ofReference "##### List of macros\n\t(a:)\n##### Special keywords" =
      .ok (.ofList ["a"]) := rfl
  have hlisting : section? "##### List of macros\n\t(a:)\n##### Special keywords".toList =
      some listing := rfl
  have hprose : ∀ front above line below,
      Text.splitLines listing = front ++ above :: line :: below →
        Text.AllBlank above → line.head? ≠ some '(' := by
    intro front above line below hsplit _
    have hlines : ∀ l ∈ Text.splitLines listing, l.head? ≠ some '(' := by decide
    exact hlines line (by simp [hsplit])
  have hentry : ¬ ∃ pre rest, listing = pre ++ rest ∧ BeginsEntry "a".toList rest := by
    rintro ⟨pre, rest, hnames, -, blanks, tail, -, -, rfl⟩
    have hstar : '*' ∈ listing := by simp [hnames]
    exact absurd hstar (by decide)
  obtain ⟨names, hsection, hlines, -⟩ := ofReference_aliases hmanual
  obtain ⟨names', hnames', -, hindented⟩ := ofReference_aliases hmanual'
  obtain rfl := Option.some.inj (hlisting.symm.trans (section?_eq_some_iff.mpr hnames'))
  exact ⟨⟨hmanual, hmanual'⟩, ⟨names, hsection, hlines⟩, hnames', hprose,
    hindented hprose "a" (by decide) hentry⟩

/-- Prose below an empty line, which a manual lists: its section has no entry of the name, and no
line with the name that begins with a blank. -/
theorem Vocabulary.ofReference_lists_prose :
    ∃ v names, ofReference "##### List of macros\n\n(note:)\n##### Special keywords" = .ok v ∧
      IsSection "##### List of macros\n\n(note:)\n##### Special keywords".toList names ∧
      "note" ∈ v ∧
      (¬ ∃ pre rest, names = pre ++ rest ∧ BeginsEntry "note".toList rest) ∧
      ¬ IndentedAlias (Text.splitLines names) "note".toList := by
  have hsection : IsSection "##### List of macros\n\n(note:)\n##### Special keywords".toList
      "##### List of macros\n\n(note:)\n".toList := section?_eq_some_iff.mp rfl
  refine ⟨.ofList ["note"], _, rfl, hsection, by decide, fun hentry => ?_, fun hindented => ?_⟩
  · obtain ⟨pre, rest, hnames, -, blanks, tail, -, -, rfl⟩ := hentry
    have hstar : '*' ∈ "##### List of macros\n\n(note:)\n".toList := by simp [hnames]
    exact absurd hstar (by decide)
  · obtain ⟨line, hline, indent, hne, hblank, rest, rfl⟩ := hindented
    obtain ⟨c, indent, rfl⟩ := List.exists_cons_of_ne_nil hne
    have hlines : Text.splitLines "##### List of macros\n\n(note:)\n".toList =
        ["##### List of macros".toList, [], "(note:)".toList, []] := rfl
    rw [hlines] at hline
    have hhead : some c ∈ [some '#', none, some '(', none] :=
      List.mem_map_of_mem (f := List.head?) hline
    have hfirst : c = '#' ∨ c = '(' := by simpa using hhead
    have hc : Text.isBlank c = false := by
      rcases hfirst with rfl | rfl <;> decide
    rw [hblank c List.mem_cons_self] at hc
    exact absurd hc (by decide)

end TweeLint
