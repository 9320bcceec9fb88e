import TweeLint.Proofs.Vocabulary.Reference

/-!
# Text around the section

What a reference manual lists depends on one stretch of it: from its first heading that begins the
list through its first heading that ends it (`ofReference_outside`). Anything may stand behind that
stretch, and anything in front of it that makes no heading earlier.

Behind a first occurrence nothing counts, because every occurrence in front of it ends in front of
its end (`firstAt_append`). In front of it everything counts that could be an occurrence itself
(`firstAt_append_left`).
-/

namespace TweeLint

namespace Vocabulary.Reference

/-- One of the two headings occurs at an index below `n`. -/
def HeadingBefore (text : List Char) (n : Nat) : Prop :=
  ∃ i < n, sectionStart <+: text.drop i ∨ sectionEnd <+: text.drop i

instance (text : List Char) (n : Nat) : Decidable (HeadingBefore text n) :=
  inferInstanceAs (Decidable (∃ i < n, _))

/-! ### First occurrences -/

section Occurrences

variable {pattern text : List Char} {i j : Nat}

/-- An occurrence that ends within a text is seen without what follows the text. -/
theorem prefix_drop_append (more : List Char) (h : i + pattern.length ≤ text.length) :
    pattern <+: (text ++ more).drop i ↔ pattern <+: text.drop i := by
  rw [List.drop_append_of_le_length (Nat.le_of_add_right_le h)]
  constructor
  · intro hpre
    refine List.prefix_of_prefix_length_le hpre (List.prefix_append _ _) ?_
    rw [List.length_drop]
    omega
  · intro hpre
    exact hpre.trans (List.prefix_append _ _)

theorem firstAt_append (more : List Char) (h : i + pattern.length ≤ text.length) :
    FirstAt pattern (text ++ more) i ↔ FirstAt pattern text i := by
  have hbefore : ∀ j < i, (pattern <+: (text ++ more).drop j ↔ pattern <+: text.drop j) :=
    fun j hj => prefix_drop_append more (by omega)
  rw [FirstAt, FirstAt, prefix_drop_append more h]
  refine and_congr_right fun _ => forall₂_congr fun j hj => ?_
  rw [hbefore j hj]

theorem firstAt_append_left {front : List Char} :
    FirstAt pattern (front ++ text) (front.length + i) ↔
      (∀ j < front.length, ¬ pattern <+: (front ++ text).drop j) ∧ FirstAt pattern text i := by
  constructor
  · intro h
    obtain ⟨hpre, hno⟩ := h
    rw [List.drop_length_add_append] at hpre
    refine ⟨fun j hj => hno j (by omega), hpre, fun j hj hj' => ?_⟩
    refine hno (front.length + j) (by omega) ?_
    rwa [List.drop_length_add_append]
  · intro h
    obtain ⟨hfront, hpre, hno⟩ := h
    refine ⟨by rwa [List.drop_length_add_append], fun j hj hj' => ?_⟩
    by_cases hlt : j < front.length
    · exact hfront j hlt hj'
    · obtain ⟨m, rfl⟩ : ∃ m, j = front.length + m := ⟨j - front.length, by omega⟩
      rw [List.drop_length_add_append] at hj'
      exact hno m (by omega) hj'

/-- An occurrence of something ends within the text. -/
theorem FirstAt.add_length_le (h : FirstAt pattern text i) (hpattern : pattern ≠ []) :
    i + pattern.length ≤ text.length := by
  have hlength := h.1.length_le
  have hpos := List.length_pos_iff.mpr hpattern
  rw [List.length_drop] at hlength
  omega

end Occurrences

/-! ### The section in a longer text -/

variable {text names front back : List Char}

theorem sectionStart_ne_nil : sectionStart ≠ [] := by decide

theorem sectionEnd_ne_nil : sectionEnd ≠ [] := by decide

theorem length_sectionStart_le : sectionStart.length ≤ sectionEnd.length := by decide

/-- **A text keeps its section** with anything behind it, and anything in front of it that makes no
heading earlier. -/
theorem IsSection.surround (h : IsSection text names)
    (hfront : ¬ HeadingBefore (front ++ text) front.length) (back : List Char) :
    IsSection (front ++ text ++ back) names := by
  obtain ⟨first, last, hfirst, hlast, hle, rfl⟩ := h
  have hfirst' : FirstAt sectionStart (front ++ text) (front.length + first) :=
    firstAt_append_left.mpr ⟨fun j hj hpre => hfront ⟨j, hj, Or.inl hpre⟩, hfirst⟩
  have hlast' : FirstAt sectionEnd (front ++ text) (front.length + last) :=
    firstAt_append_left.mpr ⟨fun j hj hpre => hfront ⟨j, hj, Or.inr hpre⟩, hlast⟩
  have hend := hlast'.add_length_le sectionEnd_ne_nil
  refine ⟨front.length + first, front.length + last,
    (firstAt_append back (hfirst'.add_length_le sectionStart_ne_nil)).mpr hfirst',
    (firstAt_append back hend).mpr hlast', by omega, ?_⟩
  rw [List.take_append_of_le_length (by omega), List.take_length_add_append,
    List.drop_length_add_append]

/-- A text is cut around its section. What is cut out, with the heading that ends the section, is a
text with the same section. -/
theorem IsSection.exists_cut (h : IsSection text names) :
    ∃ front back, text = front ++ ((names ++ sectionEnd) ++ back) ∧
      FirstAt sectionStart text front.length ∧
      FirstAt sectionEnd text (front.length + names.length) ∧
      IsSection (names ++ sectionEnd) names := by
  obtain ⟨first, last, hfirst, hlast, hle, rfl⟩ := h
  obtain ⟨front, rest, rfl, rfl⟩ : ∃ front rest, text = front ++ rest ∧ first = front.length := by
    have hend := hfirst.add_length_le sectionStart_ne_nil
    exact ⟨text.take first, text.drop first, (List.take_append_drop _ _).symm,
      (List.length_take_of_le (by omega)).symm⟩
  obtain ⟨m, rfl⟩ : ∃ m, last = front.length + m := ⟨last - front.length, by omega⟩
  have hstart : FirstAt sectionStart rest 0 := (firstAt_append_left.mp hfirst).2
  have hstop : FirstAt sectionEnd rest m := (firstAt_append_left.mp hlast).2
  obtain ⟨names, hnames⟩ : ∃ names, names = rest.take m := ⟨_, rfl⟩
  obtain ⟨back, hback⟩ := hstop.1
  have hend := hstop.add_length_le sectionEnd_ne_nil
  have hlength : names.length = m := by rw [hnames, List.length_take_of_le (by omega)]
  have hrest : rest = (names ++ sectionEnd) ++ back := by
    rw [List.append_assoc, hback, hnames, List.take_append_drop]
  have hcut : ((front ++ rest).take (front.length + m)).drop front.length = names := by
    rw [List.take_length_add_append, List.drop_left, hnames]
  -- the heading that ends the section is the longer one, so both end where it ends
  have hstart' : FirstAt sectionStart (names ++ sectionEnd) 0 := by
    rw [hrest] at hstart
    refine (firstAt_append back ?_).mp hstart
    rw [List.length_append, Nat.zero_add]
    exact Nat.le_trans length_sectionStart_le (Nat.le_add_left _ _)
  have hstop' : FirstAt sectionEnd (names ++ sectionEnd) names.length := by
    rw [hrest, ← hlength] at hstop
    exact (firstAt_append back (by simp)).mp hstop
  rw [hcut]
  refine ⟨front, back, by rw [hrest], hfirst, by rwa [hlength],
    0, names.length, hstart', hstop', Nat.zero_le _, ?_⟩
  rw [List.take_left, List.drop_zero]

end Vocabulary.Reference

open Vocabulary.Reference

/-- **Text outside the section has no influence.** A manual keeps its vocabulary with any text
behind it, and with any in front of it that makes no heading earlier. It also keeps it when the text
in front of its first heading that begins the list, and the text behind its first heading that ends
it, are replaced in that way. -/
theorem Vocabulary.ofReference_outside {markdown : String} {v : Vocabulary}
    (h : ofReference markdown = .ok v) :
    (∀ front back : String, ¬ HeadingBefore (front ++ markdown).toList front.length →
      ofReference (front ++ markdown ++ back) = .ok v) ∧
    ∃ front names back : String,
      markdown = front ++ (names ++ String.ofList sectionEnd ++ back) ∧
      FirstAt sectionStart markdown.toList front.length ∧
      FirstAt sectionEnd markdown.toList (front.length + names.length) ∧
      ∀ front' back' : String,
        ¬ HeadingBefore (front' ++ (names ++ String.ofList sectionEnd)).toList front'.length →
        ofReference (front' ++ (names ++ String.ofList sectionEnd) ++ back') = .ok v := by
  obtain ⟨names, hsection, hlists⟩ := ofReference_eq_ok_iff.mp h
  have hkeeps : ∀ text front back : String, IsSection text.toList names →
      ¬ HeadingBefore (front ++ text).toList front.length →
      ofReference (front ++ text ++ back) = .ok v := by
    intro text front back htext hfront
    rw [String.toList_append, ← String.length_toList] at hfront
    refine ofReference_eq_ok_iff.mpr ⟨names, ?_, hlists⟩
    rw [String.toList_append, String.toList_append]
    exact htext.surround hfront back.toList
  refine ⟨fun front back => hkeeps markdown front back hsection, ?_⟩
  obtain ⟨front, back, hcut, hfirst, hlast, hkept⟩ := hsection.exists_cut
  refine ⟨.ofList front, .ofList names, .ofList back, ?_, ?_, ?_, fun front' back' => ?_⟩
  · rw [← String.toList_inj, hcut]
    simp
  · simpa using hfirst
  · simpa using hlast
  · refine hkeeps _ front' back' ?_
    simpa using hkept

/-- A manual in front of which a heading is begun, and behind which another section stands. -/
theorem Vocabulary.ofReference_outside_two_sections :
    ofReference "* [(z: y)\n##### List of macros\n* [(a: x)\n##### Special keywords" =
        .ok (.ofList ["a"]) ∧
      ¬ HeadingBefore ("##### List of\n" ++
        "* [(z: y)\n##### List of macros\n* [(a: x)\n##### Special keywords").toList
          "##### List of\n".length ∧
      ofReference ("##### List of\n" ++
          "* [(z: y)\n##### List of macros\n* [(a: x)\n##### Special keywords" ++
          "\n\t(b:)\n##### List of macros\n\t(c:)\n##### Special keywords") =
        .ok (.ofList ["a"]) := by
  have hmanual : ofReference
      "* [(z: y)\n##### List of macros\n* [(a: x)\n##### Special keywords" =
        .ok (.ofList ["a"]) := rfl
  have hfront : ¬ HeadingBefore ("##### List of\n" ++
      "* [(z: y)\n##### List of macros\n* [(a: x)\n##### Special keywords").toList
        "##### List of\n".length := by
    rw [String.toList_append]
    decide
  exact ⟨hmanual, hfront, (ofReference_outside hmanual).1 _ _ hfront⟩

end TweeLint
