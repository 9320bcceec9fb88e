import Mathlib.Data.Finset.Card
import Mathlib.Order.Bounds.Defs
import TweeLint.Proofs.Balance.Unpaired

/-!
# The smallest repair

Deleting the parentheses that the balance check reports leaves a balanced text, and no smaller
deletion does (`check_least_repair`).

* **It is a repair.** Between the reported parentheses all is balanced, so without them the text is
  balanced stretch after stretch (`Layout.balanced_without`).
* **It is the smallest.** The stray parentheses are as many as closing ones outnumber opening ones
  in the worst prefix (`exists_prefix_excess`). A text that is left over balanced has no such
  prefix, so at least as many closing parentheses must go, and since it has as many opening ones as
  closing ones, at least as many opening ones as are unclosed (`tally_add_le_of_sublist`).
-/

namespace TweeLint.Balance

/-- The text without the characters at some indices. -/
def without (indices : Finset Nat) (text : List Char) : List Char :=
  (text.zipIdx.filter fun p => p.2 ∉ indices).map Prod.fst

/-- The indices of the characters of a text that diagnostics point at. -/
def reported (start : Position) (text : List Char) (ds : List Diagnostic) : Finset Nat :=
  (Finset.range text.length).filter fun i => ∃ d ∈ ds, d.position = start.locate text i

/-! ### Deletion -/

section Deletion

variable {indices : Finset Nat}

theorem without_sublist (indices : Finset Nat) (text : List Char) :
    (without indices text).Sublist text := by
  have h := (List.filter_sublist (p := fun p => p.2 ∉ indices) (l := text.zipIdx)).map Prod.fst
  rwa [List.zipIdx_map_fst] at h

/-- No more characters are gone than indices were given. -/
theorem length_le_length_without (indices : Finset Nat) (text : List Char) :
    text.length ≤ (without indices text).length + indices.card := by
  have hgone : ((text.zipIdx.filter fun p => p.2 ∈ indices).map Prod.snd).toFinset ⊆ indices := by
    intro i hi
    obtain ⟨p, hp, rfl⟩ := List.mem_map.mp (List.mem_toFinset.mp hi)
    simpa using (List.mem_filter.mp hp).2
  have hnodup : ((text.zipIdx.filter fun p => p.2 ∈ indices).map Prod.snd).Nodup := by
    have hrange : (text.zipIdx.map Prod.snd).Nodup := by
      rw [List.zipIdx_map_snd]
      exact List.nodup_range'
    exact hrange.sublist (List.filter_sublist.map Prod.snd)
  have hcard := Finset.card_le_card hgone
  rw [List.toFinset_card_of_nodup hnodup, List.length_map] at hcard
  have hsplit := List.length_eq_length_filter_add (l := text.zipIdx) fun p => decide (p.2 ∈ indices)
  rw [List.length_zipIdx] at hsplit
  simp only [without, List.length_map, decide_not]
  omega

theorem filter_zipIdx_eq_self {text : List Char} {k : Nat}
    (h : ∀ i, k ≤ i → i < k + text.length → i ∉ indices) :
    (text.zipIdx k).filter (fun p => p.2 ∉ indices) = text.zipIdx k := by
  refine List.filter_eq_self.mpr fun p hp => ?_
  exact decide_eq_true (h p.2 (List.le_snd_of_mem_zipIdx hp) (List.snd_lt_add_of_mem_zipIdx hp))

theorem without_eq_self {text : List Char} (h : ∀ i < text.length, i ∉ indices) :
    without indices text = text := by
  rw [without, filter_zipIdx_eq_self fun i _ hi => h i (by omega), List.zipIdx_map_fst]

/-- Of a text that loses a character and none behind it. -/
theorem without_around {cs ds : List Char} {p : Char} (hp : cs.length ∈ indices)
    (hds : ∀ i, cs.length < i → i < (cs ++ p :: ds).length → i ∉ indices) :
    without indices (cs ++ p :: ds) = without indices cs ++ ds := by
  have hbehind : (ds.zipIdx (cs.length + 1)).filter (fun p => p.2 ∉ indices) =
      ds.zipIdx (cs.length + 1) := by
    refine filter_zipIdx_eq_self fun i hi hi' => hds i (by omega) ?_
    rw [List.length_append, List.length_cons]
    omega
  rw [without, List.zipIdx_append, List.filter_append, List.map_append, Nat.zero_add,
    List.zipIdx_cons, List.filter_cons_of_neg (by simpa using hp), hbehind, List.zipIdx_map_fst,
    without]

/-- **Without the parentheses that are left, a text is balanced.** -/
theorem Layout.balanced_without {text : List Char} {strays openers : List Nat}
    (h : Layout text strays openers)
    (hindices : ∀ i < text.length, i ∈ indices ↔ i ∈ openers ++ strays) :
    Balanced (without indices text) := by
  induction h with
  | balanced hcs =>
    rw [without_eq_self fun i hi hmem => by simpa using (hindices i hi).mp hmem]
    exact hcs
  | @stray cs ds _ hlayout hds ih | @opening cs ds _ _ hlayout hds ih =>
    simp only [List.length_append, List.length_cons, List.nil_append, List.cons_append,
      List.mem_cons] at hindices ih
    rw [without_around ((hindices cs.length (by omega)).mpr (Or.inl rfl)) fun i hi hi' hmem => ?_]
    · refine (ih fun i hi => ?_).append hds
      rw [hindices i (by omega), or_iff_right (Nat.ne_of_lt hi)]
    · simp only [List.length_append, List.length_cons] at hi'
      rcases (hindices i hi').mp hmem with rfl | hmem
      · exact Nat.lt_irrefl _ hi
      · exact Nat.lt_asymm hi (hlayout.lt_length i hmem)

end Deletion

/-! ### What the tally counts -/

/-- But for what is left, there are as many opening parentheses as closing ones. -/
theorem count_add_tally (text : List Char) :
    text.count '(' + (tally text).1 = text.count ')' + (tally text).2 := by
  induction text using List.reverseRecOn with
  | nil => rfl
  | append_singleton text c ih =>
    rw [tally_concat, List.count_append, List.count_append]
    generalize tally text = t at ih ⊢
    obtain ⟨a, n⟩ := t
    dsimp only at ih
    by_cases ho : c = '('
    · subst ho
      have hopen : ['('].count '(' = 1 := by decide
      have hclose : ['('].count ')' = 0 := by decide
      rw [tallyStep_open, hopen, hclose]
      omega
    · by_cases hc : c = ')'
      · subst hc
        have hopen : [')'].count '(' = 0 := by decide
        have hclose : [')'].count ')' = 1 := by decide
        rw [hopen, hclose]
        cases n with
        | zero => rw [tallyStep_stray]; omega
        | succ n => rw [tallyStep_close]; omega
      · rw [tallyStep_other ho hc, List.count_singleton, List.count_singleton,
          if_neg (by simpa using ho), if_neg (by simpa using hc)]
        exact ih

/-- In no prefix do closing parentheses outnumber opening ones by more than there are strays. -/
theorem count_close_le {front text : List Char} (h : front <+: text) :
    front.count ')' ≤ front.count '(' + (tally text).1 := by
  obtain ⟨back, rfl⟩ := h
  have hcount := count_add_tally front
  have hle := le_foldl_tallyStep back (tally front)
  rw [tally, List.foldl_append, ← tally]
  omega

/-- Only a closing parenthesis adds a stray one, and only where none is open. -/
theorem tallyStep_fst {a n : Nat} {c : Char} (h : ¬ (c = ')' ∧ n = 0)) :
    (tallyStep (a, n) c).1 = a := by
  by_cases ho : c = '('
  · rw [ho, tallyStep_open]
  · by_cases hc : c = ')'
    · obtain ⟨m, rfl⟩ := Nat.exists_eq_succ_of_ne_zero fun hn => h ⟨hc, hn⟩
      rw [hc, tallyStep_close]
    · rw [tallyStep_other ho hc]

/-- In some prefix they do so by as many as there are. -/
theorem exists_prefix_excess (text : List Char) :
    ∃ front, front <+: text ∧ front.count ')' = front.count '(' + (tally text).1 := by
  induction text using List.reverseRecOn with
  | nil => exact ⟨[], List.prefix_rfl, rfl⟩
  | append_singleton text c ih =>
    obtain ⟨front, hfront, hcount⟩ := ih
    by_cases hstray : c = ')' ∧ (tally text).2 = 0
    · -- the excess is largest where the last stray parenthesis stands
      obtain ⟨rfl, hopen⟩ := hstray
      refine ⟨text ++ [')'], List.prefix_rfl, ?_⟩
      have htally := count_add_tally (text ++ [')'])
      rw [tally_append_stray hopen .nil] at htally ⊢
      omega
    · refine ⟨front, hfront.trans (List.prefix_append _ _), ?_⟩
      rw [hcount, tally_concat, tallyStep_fst hstray]

/-! ### The lower bound -/

/-- A text that is left over has lost all parentheses that it does not have. -/
theorem count_add_length_le {rest text : List Char} (h : rest.Sublist text) :
    text.count '(' + text.count ')' + rest.length ≤
      rest.count '(' + rest.count ')' + text.length := by
  induction h with
  | slnil => rfl
  | @cons rest text c _ ih =>
    have hone : [c].count '(' + [c].count ')' ≤ 1 := by
      by_cases ho : c = '('
      · subst ho
        decide
      · rw [List.count_singleton, if_neg (by simpa using ho), Nat.zero_add]
        exact List.count_le_length
    rw [List.count_cons, List.count_cons, List.length_cons]
    rw [List.count_singleton, List.count_singleton] at hone
    omega
  | cons_cons c _ ih =>
    simp only [List.count_cons, List.length_cons]
    omega

/-- **To leave a balanced text, as many characters must go** as there are parentheses left. -/
theorem tally_add_le_of_sublist {rest text : List Char} (h : rest.Sublist text)
    (hrest : Balanced rest) :
    (tally text).1 + (tally text).2 + rest.length ≤ text.length := by
  obtain ⟨front, ⟨back, rfl⟩, hexcess⟩ := exists_prefix_excess text
  obtain ⟨rest₁, rest₂, rfl, h₁, h₂⟩ := List.sublist_append_iff.mp h
  have htally := balanced_iff_tally.mp hrest
  have hprefix := count_close_le (List.prefix_append rest₁ rest₂)
  have hwhole := count_add_tally (rest₁ ++ rest₂)
  have hcount := count_add_tally (front ++ back)
  have hlength := count_add_length_le h
  have hopen := h₁.count_le '('
  have hclose := h₂.count_le ')'
  simp only [htally, List.count_append] at *
  omega

/-! ### The report as a repair -/

section Report

variable {passage : String} {start : Position} {content : String}

theorem countP_unmatched_check :
    (check passage start content).countP (·.kind = .unmatchedParenthesis) =
      (tally content.toList).1 := by
  rw [← scan_counts start]
  simp [check, State.counts, Diagnostic.unmatched, Diagnostic.unclosed, List.countP_map,
    Function.comp_def]

theorem countP_unclosed_check :
    (check passage start content).countP (·.kind = .unclosedMacro) =
      (tally content.toList).2 := by
  rw [← scan_counts start]
  simp [check, State.counts, Diagnostic.unmatched, Diagnostic.unclosed, List.countP_map,
    Function.comp_def]

theorem length_check :
    (check passage start content).length =
      (tally content.toList).1 + (tally content.toList).2 := by
  rw [← scan_counts start]
  simp [check, State.counts]

theorem positions_check (passage : String) (start : Position) (content : String) :
    (check passage start content).map Diagnostic.position =
      (strayIndices content.toList ++ unclosedIndices content.toList).map
        fun i : Nat => start.locate content.toList i := by
  rw [check_eq, List.map_append, List.map_append, List.map_map, List.map_map]
  rfl

/-- **What the diagnostics point at** is what is in no pair. -/
theorem reported_check :
    reported start content.toList (check passage start content) =
      (strayIndices content.toList ++ unclosedIndices content.toList).toFinset := by
  have hlt : ∀ j ∈ strayIndices content.toList ++ unclosedIndices content.toList,
      j < content.toList.length := by
    intro j hj
    rcases List.mem_append.mp hj with hj | hj <;>
      exact List.mem_range.mp (List.mem_filter.mp hj).1
  ext i
  rw [List.mem_toFinset, reported, Finset.mem_filter, Finset.mem_range]
  simp only [← List.mem_map, positions_check]
  constructor
  · rintro ⟨hi, hposition⟩
    obtain ⟨j, hj, hsame⟩ := List.mem_map.mp hposition
    rwa [← Position.locate_inj (Nat.le_of_lt (hlt j hj)) (Nat.le_of_lt hi) hsame]
  · intro hi
    exact ⟨hlt i hi, List.mem_map_of_mem hi⟩

/-- Each diagnostic has a character of its own. -/
theorem card_reported_check :
    (reported start content.toList (check passage start content)).card =
      (check passage start content).length := by
  have hnodup : (strayIndices content.toList ++ unclosedIndices content.toList).Nodup :=
    (pairwise_indices content.toList).imp Nat.ne_of_lt
  have hlength := congrArg List.length (positions_check passage start content)
  rw [reported_check, List.toFinset_card_of_nodup hnodup]
  simpa using hlength.symm

theorem balanced_without_reported :
    Balanced (without (reported start content.toList (check passage start content))
      content.toList) := by
  have hlaid := scan_laid start content.toList
  refine hlaid.balanced_without fun i _ => ?_
  rw [reported_check, List.mem_toFinset, List.mem_append, List.mem_append, mem_strayIndices,
    mem_unclosedIndices, hlaid.mem_openers_iff, hlaid.mem_strays_iff, or_comm]

end Report

/-- **The balance check reports a smallest repair.** Without the characters that it reports a text
is balanced, and no fewer characters can be taken away to that end. So there are as many stray
parentheses as closing ones outnumber opening ones at most in a prefix, the empty one among them,
and what is unclosed makes up for the rest. -/
theorem check_least_repair (passage : String) {start : Position} (hline : 1 ≤ start.line)
    (hcolumn : 1 ≤ start.column) (content : String) :
    ∃ ds, checkChecked passage start content = .ok ds ∧
      Balanced (without (reported start content.toList ds) content.toList) ∧
      (reported start content.toList ds).card = ds.length ∧
      (∀ indices : Finset Nat, Balanced (without indices content.toList) →
        ds.length ≤ indices.card) ∧
      IsGreatest {n : Int | ∃ front, front <+: content.toList ∧
          n = front.count ')' - front.count '('}
        (ds.countP (·.kind = .unmatchedParenthesis)) ∧
      (ds.countP (·.kind = .unclosedMacro) : Int) =
        ds.countP (·.kind = .unmatchedParenthesis) +
          content.toList.count '(' - content.toList.count ')' := by
  refine ⟨check passage start content, checkChecked_eq_ok passage ⟨hline, hcolumn⟩ content,
    balanced_without_reported, card_reported_check, fun indices hbalanced => ?_, ⟨?_, ?_⟩, ?_⟩
  · have htally := tally_add_le_of_sublist (without_sublist indices content.toList) hbalanced
    have hlength := length_le_length_without indices content.toList
    rw [length_check]
    omega
  · obtain ⟨front, hfront, hexcess⟩ := exists_prefix_excess content.toList
    rw [countP_unmatched_check]
    exact ⟨front, hfront, by omega⟩
  · rintro n ⟨front, hfront, rfl⟩
    have hexcess := count_close_le hfront
    rw [countP_unmatched_check]
    omega
  · have hcount := count_add_tally content.toList
    rw [countP_unmatched_check, countP_unclosed_check]
    omega

/-- Of five parentheses three must go. -/
theorem check_least_repair_three :
    (1 : Int) ≤ (Position.mk 4 3).line ∧ (1 : Int) ≤ (Position.mk 4 3).column ∧
      checkChecked "P" ⟨4, 3⟩ ")(a)\n)(" =
        .ok [.unmatched "P" ⟨4, 3⟩, .unmatched "P" ⟨5, 1⟩, .unclosed "P" ⟨5, 2⟩] ∧
      Balanced (without {0, 5, 6} ")(a)\n)(".toList) ∧
      (∀ indices : Finset Nat, Balanced (without indices ")(a)\n)(".toList) → 3 ≤ indices.card) ∧
      IsGreatest {n : Int | ∃ front, front <+: ")(a)\n)(".toList ∧
        n = front.count ')' - front.count '('} 2 := by
  obtain ⟨ds, hds, hbalanced, -, hleast, hgreatest, -⟩ :=
    @check_least_repair "P" ⟨4, 3⟩ (by decide) (by decide) ")(a)\n)("
  have hcheck : checkChecked "P" ⟨4, 3⟩ ")(a)\n)(" =
      .ok [.unmatched "P" ⟨4, 3⟩, .unmatched "P" ⟨5, 1⟩, .unclosed "P" ⟨5, 2⟩] := by decide
  obtain rfl := Except.ok.inj (hcheck.symm.trans hds)
  have hreported : reported ⟨4, 3⟩ ")(a)\n)(".toList
      [.unmatched "P" ⟨4, 3⟩, .unmatched "P" ⟨5, 1⟩, .unclosed "P" ⟨5, 2⟩] = {0, 5, 6} := by decide
  exact ⟨by decide, by decide, hcheck, hreported ▸ hbalanced, hleast, hgreatest⟩

end TweeLint.Balance
