import TweeLint.Proofs.Balance.Layout
import TweeLint.Proofs.Checks

/-!
# What the balance check reports

The check reports the parentheses that are in no pair: the stray ones from front to back, then the
unclosed ones from front to back, each at the position of its index (`check_eq`). Whether a
parenthesis is in a pair is decided by the text around it alone, so the lists of indices
(`strayIndices`, `unclosedIndices`) are made without a scan.

The scan has the same lists (`map_offset_strays`, `map_offset_openers`): the layout of its
parentheses orders them and says which indices are among them, and that leaves one list.
-/

namespace TweeLint.Balance

/-! ### Lists of indices -/

section Indices

variable (text : List Char)

instance (j i : Nat) : Decidable (Pair text j i) :=
  decidable_of_iff
    (j < i ∧ text[j]? = some '(' ∧ text[i]? = some ')' ∧ Balanced (inside text j i))
    ⟨fun ⟨hlt, ho, hc, hb⟩ => ⟨hlt, ho, hc, hb⟩, fun ⟨hlt, ho, hc, hb⟩ => ⟨hlt, ho, hc, hb⟩⟩

instance : DecidablePred (StrayAt text) := fun i =>
  decidable_of_iff (text[i]? = some ')' ∧ ∀ j < i, ¬ Pair text j i)
    ⟨fun ⟨hc, hno⟩ => ⟨hc, fun j hpair => hno j hpair.lt hpair⟩,
      fun ⟨hc, hno⟩ => ⟨hc, fun j _ => hno j⟩⟩

instance : DecidablePred (UnclosedAt text) := fun i =>
  decidable_of_iff (text[i]? = some '(' ∧ ∀ k < text.length, ¬ Pair text i k)
    ⟨fun ⟨ho, hno⟩ => ⟨ho, fun k hpair =>
        hno k (List.getElem?_eq_some_iff.mp hpair.closing).1 hpair⟩,
      fun ⟨ho, hno⟩ => ⟨ho, fun k _ => hno k⟩⟩

/-- The indices of the stray parentheses, from front to back. -/
def strayIndices : List Nat :=
  (List.range text.length).filter (StrayAt text ·)

/-- The indices of the unclosed parentheses, from front to back. -/
def unclosedIndices : List Nat :=
  (List.range text.length).filter (UnclosedAt text ·)

variable {text} {i : Nat}

theorem mem_strayIndices : i ∈ strayIndices text ↔ StrayAt text i := by
  rw [strayIndices, List.mem_filter, decide_eq_true_iff, List.mem_range]
  exact ⟨And.right, fun h => ⟨(List.getElem?_eq_some_iff.mp h.closing).1, h⟩⟩

theorem mem_unclosedIndices : i ∈ unclosedIndices text ↔ UnclosedAt text i := by
  rw [unclosedIndices, List.mem_filter, decide_eq_true_iff, List.mem_range]
  exact ⟨And.right, fun h => ⟨(List.getElem?_eq_some_iff.mp h.opening).1, h⟩⟩

end Indices

/-- A decreasing list, read from its end, is the increasing one of the same numbers. -/
theorem reverse_eq_of_mem_iff {is js : List Nat} (his : is.Pairwise (· > ·))
    (hjs : js.Pairwise (· < ·)) (h : ∀ i, i ∈ is ↔ i ∈ js) : is.reverse = js :=
  (List.pairwise_reverse.mpr his).eq_of_mem_iff hjs fun i => by rw [List.mem_reverse, h]

/-- **A layout holds the stray parentheses**, and no other. -/
theorem Layout.reverse_strays {text : List Char} {strays openers : List Nat}
    (h : Layout text strays openers) : strays.reverse = strayIndices text := by
  refine reverse_eq_of_mem_iff (List.pairwise_append.mp h.pairwise).2.1
    (List.pairwise_lt_range.filter _) fun i => ?_
  rw [h.mem_strays_iff, mem_strayIndices]

theorem Layout.reverse_openers {text : List Char} {strays openers : List Nat}
    (h : Layout text strays openers) : openers.reverse = unclosedIndices text := by
  refine reverse_eq_of_mem_iff (List.pairwise_append.mp h.pairwise).1
    (List.pairwise_lt_range.filter _) fun i => ?_
  rw [h.mem_openers_iff, mem_unclosedIndices]

theorem map_offset_strays (start : Position) (text : List Char) :
    ((scan start text).strays.map Site.offset).reverse = strayIndices text :=
  (scan_laid start text).reverse_strays

theorem map_offset_openers (start : Position) (text : List Char) :
    ((scan start text).openers.map Site.offset).reverse = unclosedIndices text :=
  (scan_laid start text).reverse_openers

/-- Every stray parenthesis stands in front of every unclosed one. -/
theorem pairwise_indices (text : List Char) :
    (strayIndices text ++ unclosedIndices text).Pairwise (· < ·) := by
  rw [← map_offset_strays .start, ← map_offset_openers .start, ← List.reverse_append]
  exact List.pairwise_reverse.mpr (scan_laid .start text).pairwise

/-! ### The report -/

/-- **The check reports what is in no pair.** -/
theorem check_eq (passage : String) (start : Position) (content : String) :
    check passage start content =
      (strayIndices content.toList).map
          (fun i => .unmatched passage (start.locate content.toList i)) ++
        (unclosedIndices content.toList).map
          (fun i => .unclosed passage (start.locate content.toList i)) := by
  obtain ⟨hopeners, hstrays⟩ := scan_marked start content.toList
  rw [check, ← map_offset_strays start, ← map_offset_openers start, ← List.map_reverse,
    ← List.map_reverse, List.map_map, List.map_map]
  congr 1
  · refine List.map_congr_left fun site hsite => ?_
    rw [(hstrays site (List.mem_reverse.mp hsite)).position_eq]
    rfl
  · refine List.map_congr_left fun site hsite => ?_
    rw [(hopeners site (List.mem_reverse.mp hsite)).position_eq]
    rfl

/-- **The balance check reports exactly the parentheses without a counterpart**: those that close
nothing, from front to back, then those that nothing closes, from front to back. -/
theorem check_reports_unpaired (passage : String) {start : Position} (hline : 1 ≤ start.line)
    (hcolumn : 1 ≤ start.column) (content : String) :
    checkChecked passage start content = .ok
      ((strayIndices content.toList).map
          (fun i => .unmatched passage (start.locate content.toList i)) ++
        (unclosedIndices content.toList).map
          (fun i => .unclosed passage (start.locate content.toList i))) := by
  rw [checkChecked_eq_ok passage ⟨hline, hcolumn⟩, check_eq]

/-- A pair behind two strays, and an unclosed parenthesis around another pair. -/
theorem check_reports_unpaired_strays :
    (1 : Int) ≤ (Position.mk 4 3).line ∧ (1 : Int) ≤ (Position.mk 4 3).column ∧
      checkChecked "P" ⟨4, 3⟩ "a)(b))\n((c)" =
        .ok [.unmatched "P" ⟨4, 4⟩, .unmatched "P" ⟨4, 8⟩, .unclosed "P" ⟨5, 1⟩] := by
  refine ⟨by decide, by decide, ?_⟩
  rw [check_reports_unpaired "P" (by decide) (by decide)]
  exact congrArg Except.ok (by decide)

end TweeLint.Balance
