import Mathlib.Data.List.Lex
import Mathlib.Data.String.Basic
import TweeLint.Path
import TweeLint.Proofs.Text.Blank

/-!
# Names of Twee files, and the order of paths

A name is that of a Twee file if it is cut by a dot into a stem, which is not empty, and an
extension without dots that is `twee` or `tw` in lower case (`isTweeName_iff`). Paths are ordered by
their names, so the order is that of lists of texts (`lt_iff`), and it is linear.
-/

namespace TweeLint

/-! ### Lower case behind a dot -/

namespace Text

theorem lowerFrom_eq (inWord : Bool) (done cs : List Char) :
    lowerFrom inWord done cs = done.reverse ++ lowerFrom inWord [] cs := by
  induction cs generalizing inWord done with
  | nil => simp [lowerFrom]
  | cons c cs ih =>
    rw [lowerFrom, lowerFrom, ih, ih _ (_ ++ [])]
    simp

/-- A dot is in no word, so what stands behind it does not depend on it. -/
theorem lower_dot (cs : List Char) : lower ('.' :: cs) = '.' :: lower cs := by
  rw [lower, lowerFrom, lowerFrom_eq]
  rfl

end Text

namespace Path

/-! ### Names of Twee files -/

/-- A name that is cut at its last dot, with something in front of it and an extension of a Twee
file behind it. -/
def TweeName (name : String) : Prop :=
  ∃ stem letters : List Char, name.toList = stem ++ '.' :: letters ∧ stem ≠ [] ∧ '.' ∉ letters ∧
    (Text.lower letters = ['t', 'w', 'e', 'e'] ∨ Text.lower letters = ['t', 'w'])

/-- The extension of a name with a dot in it. -/
theorem extension_append {stem letters : List Char} (hletters : '.' ∉ letters) :
    extension (stem ++ '.' :: letters) =
      if stem = [] ∨ letters = [] then [] else '.' :: letters := by
  have hstop : ∀ c ∈ letters.reverse, (c != '.') = true := by
    intro c hc
    rw [bne_iff_ne]
    rintro rfl
    exact hletters (List.mem_reverse.mp hc)
  have hreverse : (stem ++ '.' :: letters).reverse = letters.reverse ++ '.' :: stem.reverse := by
    simp
  rw [extension, hreverse, List.dropWhile_append_of_pos hstop, List.takeWhile_append_of_pos hstop]
  cases hstem : stem.reverse with
  | nil =>
    obtain rfl : stem = [] := by simpa using hstem
    simp
  | cons c rest =>
    have hne : stem ≠ [] := by rintro rfl; simp at hstem
    by_cases hnil : letters = []
    · simp [hnil]
    · simp [hnil, hne]

/-- A name without a dot has no extension. -/
theorem extension_of_not_mem {name : List Char} (h : '.' ∉ name) : extension name = [] := by
  have hdrop : name.reverse.dropWhile (· != '.') = [] := by
    have hall : ∀ c ∈ name.reverse, (c != '.') = true := by
      intro c hc
      rw [bne_iff_ne]
      rintro rfl
      exact h (List.mem_reverse.mp hc)
    have hdrop := @List.dropWhile_append_of_pos _ (· != '.') name.reverse [] hall
    rwa [List.append_nil] at hdrop
  rw [extension, hdrop]

theorem isTweeName_iff_extension {name : String} :
    isTweeName name = true ↔
      Text.lower (extension name.toList) = ['.', 't', 'w', 'e', 'e'] ∨
        Text.lower (extension name.toList) = ['.', 't', 'w'] := by
  have htwee : ".twee".toList = ['.', 't', 'w', 'e', 'e'] := rfl
  have htw : ".tw".toList = ['.', 't', 'w'] := rfl
  simp [isTweeName, tweeExtensions, htwee, htw]

/-- **The names of Twee files.** -/
theorem isTweeName_iff {name : String} : isTweeName name = true ↔ TweeName name := by
  rw [isTweeName_iff_extension]
  have hnone : Text.lower [] = [] := rfl
  constructor
  · intro h
    have hdot : '.' ∈ name.toList := by
      by_contra hno
      rw [extension_of_not_mem hno, hnone] at h
      simp at h
    obtain ⟨stem, letters, hname, hletters⟩ := Text.exists_last hdot
    rw [hname, extension_append hletters] at h
    split at h
    · rw [hnone] at h
      simp at h
    · next hne =>
      rw [Text.lower_dot] at h
      exact ⟨stem, letters, hname, (not_or.mp hne).1, hletters, by simpa using h⟩
  · intro h
    obtain ⟨stem, letters, hname, hstem, hletters, hlower⟩ := h
    have hne : letters ≠ [] := by
      rintro rfl
      rw [hnone] at hlower
      simp at hlower
    rw [hname, extension_append hletters, if_neg (by simp [hstem, hne]), Text.lower_dot]
    simpa using hlower

theorem isTwee_join {root : Path} {names : List String} {name : String} :
    (root.join (names ++ [name])).isTwee = isTweeName name := by
  rw [isTwee, join, ← List.append_assoc, List.getLast?_concat]

/-! ### A name alone -/

/-- No slash, no cut. -/
theorem partsOf_of_not_mem {cs : List Char} (hslash : '/' ∉ cs) : partsOf cs = consPart cs [] := by
  have hfold : cs.foldr (fun c (p : List Char × List String) =>
      if c = '/' then ([], consPart p.1 p.2) else (c :: p.1, p.2)) ([], []) = (cs, []) := by
    induction cs with
    | nil => rfl
    | cons c cs ih =>
      have hc : c ≠ '/' := fun h => hslash (h ▸ List.mem_cons_self)
      rw [List.foldr_cons, ih fun hmem => hslash (List.mem_cons_of_mem c hmem), if_neg hc]
  exact congrArg (fun p : List Char × List String => consPart p.1 p.2) hfold

/-- A text that is a name is a path to it. -/
theorem ofString_of_name {cs : List Char} (hslash : '/' ∉ cs)
    (hname : (cs.isEmpty || cs == ['.']) = false) :
    ofString (String.ofList cs) = ⟨"", [String.ofList cs]⟩ := by
  have hanchor : anchorOf cs = "" := by
    unfold anchorOf
    split
    · exact absurd List.mem_cons_self hslash
    · exact absurd List.mem_cons_self hslash
    · exact absurd List.mem_cons_self hslash
    · rfl
  rw [ofString, String.toList_ofList, hanchor, partsOf_of_not_mem hslash, consPart, hname,
    if_neg Bool.false_ne_true]

theorem toText_of_name (name : String) : (Path.mk "" [name]).toText = name := by
  simp [toText]

/-! ### Order -/

theorem lt_iff {p q : Path} : p < q ↔ p.anchor :: p.parts < q.anchor :: q.parts := Iff.rfl

theorem lt_irrefl (p : Path) : ¬ p < p :=
  List.lt_irrefl (p.anchor :: p.parts)

theorem before_iff {p q : Path} :
    p.before q = true ↔ p.anchor :: p.parts ≤ q.anchor :: q.parts := by
  rw [before, Bool.not_eq_true', decide_eq_false_iff_not, lt_iff]
  exact not_lt

theorem lt_of_before {p q : Path} (h : p.before q = true) (hne : p ≠ q) : p < q := by
  refine lt_of_le_of_ne (before_iff.mp h) fun heq => hne ?_
  obtain ⟨hanchor, hparts⟩ := List.cons.inj heq
  cases p
  cases q
  exact congrArg₂ Path.mk hanchor hparts

instance : @Std.Irrefl Path (· < ·) := ⟨lt_irrefl⟩

instance : @Std.Antisymm Path (· < ·) :=
  ⟨fun _ _ hpq hqp => absurd hqp (lt_asymm (lt_iff.mp hpq))⟩

/-- **Sorted paths without repetition are strictly increasing.** -/
theorem pairwise_lt_mergeSort {paths : List Path} (h : paths.Nodup) :
    (paths.mergeSort before).Pairwise (· < ·) := by
  have hsorted : (paths.mergeSort before).Pairwise fun p q => p.before q = true := by
    refine List.pairwise_mergeSort (fun p q r hpq hqr => ?_) (fun p q => ?_) paths
    · exact before_iff.mpr (le_trans (before_iff.mp hpq) (before_iff.mp hqr))
    · rw [Bool.or_eq_true, before_iff, before_iff]
      exact le_total _ _
  have hnodup : (paths.mergeSort before).Nodup := (List.mergeSort_perm paths before).nodup_iff.mpr h
  exact hsorted.imp₂ (fun _ _ hbefore hne => lt_of_before hbefore hne) hnodup

end Path

end TweeLint
