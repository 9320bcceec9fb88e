import Mathlib.Data.List.Chain
import TweeLint.Proofs.Balance.Insertion

/-!
# The two records of the balance scan

The scan sets its depth and its stack by separate tests, and only the depth is ever reset. Behind
every text the two agree all the same, and the parentheses on the stack lie in the text as they
should (`State.InStep`): that the depth is the height of the stack is kept by each step
(`State.Coherent.step`), and so is the layout (`State.Laid.step`), which says the rest.

So a closing parenthesis is reported exactly where the stack is empty, and only there is the depth
reset (`State.Coherent.closing`). A parenthesis that is open stays on the stack until the one is
read that it is paired with (`mem_pending_or_pair`).
-/

namespace TweeLint.Balance

/-! ### Between the open parentheses -/

namespace Layout

variable {text : List Char} {strays openers : List Nat}

/-- Behind the last open parenthesis the text is balanced. -/
theorem balanced_behind {i : Nat} (h : Layout text strays (i :: openers)) :
    Balanced (text.drop (i + 1)) := by
  cases h with
  | @opening cs ds _ _ _ hds => simpa using hds

/-- **Between two neighbours the text is balanced**, whatever stands behind it all. -/
theorem isChain_append (h : Layout text strays openers) (rest : List Char) :
    openers.reverse.IsChain fun i j => Balanced (inside (text ++ rest) i j) := by
  induction h generalizing rest with
  | balanced => exact .nil
  | stray => exact .nil
  | @opening cs ds strays openers hlayout hds ih =>
    rw [List.append_assoc, List.cons_append, List.reverse_cons, List.isChain_append]
    refine ⟨ih _, List.isChain_singleton _, fun i hi j hj => ?_⟩
    obtain rfl : cs.length = j := by simpa using hj
    rw [List.getLast?_reverse] at hi
    cases openers with
    | nil => exact absurd hi (by simp)
    | cons o openers =>
      obtain rfl : o = i := by simpa using hi
      rw [inside, List.take_left]
      exact hlayout.balanced_behind

end Layout

/-! ### The records -/

namespace State

/-- The indices of the parentheses that are open, the first in the text first. -/
def pending (s : State) : List Nat :=
  (s.openers.map Site.offset).reverse

/-- The indices of the parentheses that were reported as stray, the first in the text first. -/
def strayed (s : State) : List Nat :=
  (s.strays.map Site.offset).reverse

theorem pending_eq_nil_iff {s : State} : s.pending = [] ↔ s.openers = [] := by
  simp [pending]

/-- The two records of a scan agree behind a text. -/
structure InStep (text : List Char) (s : State) : Prop where
  /-- The depth does not fall below zero. -/
  nonneg : 0 ≤ s.depth
  /-- The depth is the number of open parentheses. -/
  depth : s.depth = s.pending.length
  /-- The stack is in text order. -/
  increasing : s.pending.Pairwise (· < ·)
  /-- Each index on the stack is that of an opening parenthesis of the text. -/
  opening : ∀ i ∈ s.pending, text[i]? = some '('
  /-- Each index that was reported is that of a closing parenthesis of the text. -/
  closing : ∀ j ∈ s.strayed, text[j]? = some ')'
  /-- What is open stands behind all that was reported. -/
  behindStrays : ∀ i ∈ s.pending, ∀ j ∈ s.strayed, j < i
  /-- Between two neighbours on the stack the text is balanced. -/
  between : s.pending.IsChain fun i j => Balanced (inside text i j)
  /-- From the last one on to the end of the text, too. -/
  behindLast : ∀ i ∈ s.pending.getLast?, Balanced (text.drop (i + 1))

/-- **A state whose parentheses are laid out well is in step**, if the depth is the height of the
stack. -/
theorem Laid.inStep {text : List Char} {s : State} (hlaid : s.Laid text) (h : s.Coherent) :
    s.InStep text := by
  obtain ⟨hopeners, -, hbehind⟩ := List.pairwise_append.mp hlaid.pairwise
  refine ⟨?_, ?_, ?_, fun i hi => ?_, fun j hj => ?_, fun i hi j hj => ?_, ?_, fun i hi => ?_⟩
  · rw [h]
    exact Int.natCast_nonneg _
  · rw [h, pending, List.length_reverse, List.length_map]
  · exact List.pairwise_reverse.mpr hopeners
  · exact (hlaid.mem_openers_iff.mp (List.mem_reverse.mp hi)).opening
  · exact (hlaid.mem_strays_iff.mp (List.mem_reverse.mp hj)).closing
  · exact hbehind i (List.mem_reverse.mp hi) j (List.mem_reverse.mp hj)
  · have hchain := hlaid.isChain_append []
    rwa [List.append_nil] at hchain
  · rw [pending, List.getLast?_reverse] at hi
    obtain ⟨openers, hs⟩ := List.head?_eq_some_iff.mp (Option.mem_def.mp hi)
    unfold Laid at hlaid
    rw [hs] at hlaid
    exact hlaid.balanced_behind

/-- What it does to the records to read the closing parenthesis of index `k`, in a state `s`. -/
structure Closing (k : Nat) (s s' : State) : Prop where
  /-- It is reported if nothing is open, and only then. -/
  reported : s'.strayed = s.strayed ++ [k] ↔ s.pending = []
  /-- If something is open, nothing is reported. -/
  silent : s'.strayed = s.strayed ↔ s.pending ≠ []
  /-- The depth is reset where nothing is open, so nothing that is open is lost. -/
  reset : s.depth - 1 < 0 → s.pending = [] ∧ s'.pending = s.pending

/-- **A closing parenthesis is reported where nothing is open**, and the reset loses nothing. -/
theorem Coherent.closing {s : State} (h : s.Coherent) : Closing s.site.offset s (s.step ')') := by
  cases hs : s.openers with
  | nil =>
    have hpending : s.pending = [] := pending_eq_nil_iff.mpr hs
    rw [step_stray h hs]
    refine ⟨iff_of_true (by simp [strayed]) hpending,
      iff_of_false (by simp [strayed]) (not_not.mpr hpending), fun _ => ⟨hpending, ?_⟩⟩
    rw [hpending]
    rfl
  | cons o os =>
    have hpending : s.pending ≠ [] := by
      rw [ne_eq, pending_eq_nil_iff, hs]
      exact List.cons_ne_nil o os
    rw [step_close h hs]
    refine ⟨iff_of_false (by simp [strayed]) hpending, iff_of_true rfl hpending, fun hreset => ?_⟩
    rw [h, hs, List.length_cons] at hreset
    omega

end State

/-! ### Whole texts -/

theorem mem_pending_scan {start : Position} {text : List Char} {i : Nat} :
    i ∈ (scan start text).pending ↔ UnclosedAt text i := by
  rw [State.pending, List.mem_reverse]
  exact (scan_laid start text).mem_openers_iff

theorem mem_strayed_scan {start : Position} {text : List Char} {j : Nat} :
    j ∈ (scan start text).strayed ↔ StrayAt text j := by
  rw [State.strayed, List.mem_reverse]
  exact (scan_laid start text).mem_strays_iff

/-- **The records agree behind every text.** -/
theorem scan_inStep (start : Position) (text : List Char) : (scan start text).InStep text :=
  (scan_laid start text).inStep (scan_coherent start text)

section Prefixes

variable {start : Position} {text : List Char} {i j k n : Nat}

theorem scan_closing (hk : text[k]? = some ')') :
    State.Closing k (scan start (text.take k)) (scan start (text.take (k + 1))) := by
  obtain ⟨front, rest, rfl, rfl⟩ := exists_split hk
  have htake : (front ++ ')' :: rest).take (front.length + 1) = front ++ [')'] := by
    rw [List.append_cons]
    exact List.take_left' (List.length_append)
  have hclosing := (scan_coherent start front).closing
  rw [scan_site] at hclosing
  rwa [htake, List.take_left, scan_concat]

theorem pair_take (hj : j < n) : Pair (text.take n) i j ↔ Pair text i j := by
  by_cases hn : n ≤ text.length
  · have hlength : j < (text.take n).length := by rwa [List.length_take_of_le hn]
    have hpair := @pair_append_left (text.take n) j i (text.drop n) hlength
    rw [List.take_append_drop] at hpair
    exact hpair.symm
  · rw [List.take_of_length_le (by omega)]

/-- **What is open stays open** until the parenthesis is read that closes it. -/
theorem mem_pending_or_pair (hkn : k ≤ n) (hi : i ∈ (scan start (text.take k)).pending) :
    i ∈ (scan start (text.take n)).pending ∨ ∃ j, k ≤ j ∧ j < n ∧ Pair text i j := by
  rw [mem_pending_scan] at hi ⊢
  by_cases hopen : UnclosedAt (text.take n) i
  · exact .inl hopen
  · have hopening : (text.take n)[i]? = some '(' := by
      have hget := hi.opening
      rw [List.getElem?_take] at hget ⊢
      split at hget
      · next hik => rwa [if_pos (Nat.lt_of_lt_of_le hik hkn)]
      · exact absurd hget (by simp)
    obtain ⟨j, hpair⟩ : ∃ j, Pair (text.take n) i j := by
      by_contra hno
      exact hopen ⟨hopening, fun j hpair => hno ⟨j, hpair⟩⟩
    have hjn : j < n := by
      obtain ⟨hj, -⟩ := List.getElem?_eq_some_iff.mp hpair.closing
      exact Nat.lt_of_lt_of_le hj (List.length_take_le n text)
    have htext := (pair_take hjn).mp hpair
    -- a pair that ends in front of `k` would have closed it already
    refine .inr ⟨j, Nat.le_of_not_lt fun hjk => ?_, hjn, htext⟩
    exact hi.unpaired j ((pair_take hjk).mpr htext)

theorem strayAt_iff_pending (hk : text[k]? = some ')') :
    StrayAt text k ↔ (scan start (text.take k)).pending = [] := by
  obtain ⟨hlt, -⟩ := List.getElem?_eq_some_iff.mp hk
  have hlength : k < (text.take (k + 1)).length := by
    rw [List.length_take]
    omega
  have hfront := strayAt_append_left (text.drop (k + 1)) hlength
  rw [List.take_append_drop] at hfront
  have hclosing := @scan_closing start text k hk
  rw [hfront, ← @mem_strayed_scan start (text.take (k + 1))]
  by_cases hpending : (scan start (text.take k)).pending = []
  · rw [hclosing.reported.mpr hpending]
    exact iff_of_true (by simp) hpending
  · -- what was reported before stands in front of `k`
    rw [hclosing.silent.mpr hpending]
    refine iff_of_false (fun hmem => ?_) hpending
    obtain ⟨hshort, -⟩ := List.getElem?_eq_some_iff.mp (mem_strayed_scan.mp hmem).closing
    rw [List.length_take] at hshort
    omega

end Prefixes

/-- A closing parenthesis is among the diagnostics if it is stray, and only then. -/
theorem unmatched_mem_check_iff {passage : String} {start : Position} {content : String} {k : Nat}
    (hk : k < content.toList.length) :
    Diagnostic.unmatched passage (start.locate content.toList k) ∈ check passage start content ↔
      StrayAt content.toList k := by
  rw [check_eq, List.mem_append, List.mem_map, List.mem_map]
  constructor
  · rintro (⟨i, hi, heq⟩ | ⟨i, -, heq⟩)
    · have hstray := mem_strayIndices.mp hi
      obtain ⟨hlt, -⟩ := List.getElem?_eq_some_iff.mp hstray.closing
      have hsame := Position.locate_inj (Nat.le_of_lt hlt) (Nat.le_of_lt hk)
        (congrArg Diagnostic.position heq)
      rwa [← hsame]
    · exact absurd (congrArg Diagnostic.kind heq) (by simp [Diagnostic.unclosed, Diagnostic.unmatched])
  · intro hstray
    exact .inl ⟨k, mem_strayIndices.mpr hstray, rfl⟩

/-- **The two records of the scan never drift apart.** Behind every prefix of the content the depth
is the number of open parentheses, which stand in text order behind all that was reported, with
balanced text between any two neighbours and behind the last. So a closing parenthesis is reported
if and only if nothing is open where it stands, by the scan and by the check, and the reset of the
depth loses nothing: what is open stays open until the parenthesis is read that it is paired
with. -/
theorem scan_records (passage : String) (start : Position) (content : String) :
    (∀ k ≤ content.length,
      (scan start (content.toList.take k)).InStep (content.toList.take k)) ∧
    (∀ k, content.toList[k]? = some ')' →
      State.Closing k (scan start (content.toList.take k))
        (scan start (content.toList.take (k + 1)))) ∧
    (∀ k n, k ≤ n → n ≤ content.length → ∀ i ∈ (scan start (content.toList.take k)).pending,
      i ∈ (scan start (content.toList.take n)).pending ∨
        ∃ j, k ≤ j ∧ j < n ∧ Pair content.toList i j) ∧
    (1 ≤ start.line → 1 ≤ start.column → ∃ ds, checkChecked passage start content = .ok ds ∧
      ∀ k : Nat, content.toList[k]? = some ')' →
        (.unmatched passage (start.locate content.toList k) ∈ ds ↔
          (scan start (content.toList.take k)).pending = [])) := by
  refine ⟨fun k _ => scan_inStep start _, fun k hk => scan_closing hk,
    fun k n hkn _ i hi => mem_pending_or_pair hkn hi, fun hline hcolumn => ?_⟩
  refine ⟨_, checkChecked_eq_ok passage ⟨hline, hcolumn⟩ content, fun k hk => ?_⟩
  obtain ⟨hlt, -⟩ := List.getElem?_eq_some_iff.mp hk
  rw [unmatched_mem_check_iff hlt, strayAt_iff_pending hk]

/-- A stray parenthesis, then one that stays open, a pair, and another one that stays open. -/
theorem scan_records_strays :
    let content := "x)((b)(c"
    8 ≤ content.length ∧ content.toList[1]? = some ')' ∧ content.toList[5]? = some ')' ∧
      (1 : Int) ≤ (Position.mk 4 3).line ∧ (1 : Int) ≤ (Position.mk 4 3).column ∧
      (scan ⟨4, 3⟩ (content.toList.take 8)).pending = [2, 6] ∧
      (scan ⟨4, 3⟩ (content.toList.take 8)).depth = 2 ∧
      Balanced (inside (content.toList.take 8) 2 6) ∧
      (scan ⟨4, 3⟩ (content.toList.take 6)).strayed = [1] ∧
      (3 ∈ (scan ⟨4, 3⟩ (content.toList.take 4)).pending ∧
        ∃ j, 4 ≤ j ∧ j < 8 ∧ Pair content.toList 3 j) ∧
      checkChecked "P" ⟨4, 3⟩ content =
        .ok [.unmatched "P" ⟨4, 4⟩, .unclosed "P" ⟨4, 5⟩, .unclosed "P" ⟨4, 9⟩] ∧
      (scan ⟨4, 3⟩ (content.toList.take 1)).pending = [] := by
  intro content
  obtain ⟨hinStep, hclosing, hstays, hcheck⟩ := scan_records "P" ⟨4, 3⟩ content
  have hpending : (scan ⟨4, 3⟩ (content.toList.take 8)).pending = [2, 6] := by decide
  have hstep := hinStep 8 (by decide)
  have hbetween := hstep.between
  rw [hpending] at hbetween
  have hopen : 3 ∈ (scan ⟨4, 3⟩ (content.toList.take 4)).pending := by decide
  have hpair := hstays 4 8 (by decide) (by decide) 3 hopen
  rw [hpending] at hpair
  obtain ⟨ds, hds, hreported⟩ := hcheck (by decide) (by decide)
  have hreport : checkChecked "P" ⟨4, 3⟩ content =
      .ok [.unmatched "P" ⟨4, 4⟩, .unclosed "P" ⟨4, 5⟩, .unclosed "P" ⟨4, 9⟩] := by decide
  obtain rfl := Except.ok.inj (hreport.symm.trans hds)
  refine ⟨by decide, by decide, by decide, by decide, by decide, hpending,
    hstep.depth.trans (by rw [hpending]; rfl), (List.isChain_cons_cons.mp hbetween).1, ?_,
    ⟨hopen, hpair.resolve_left (by decide)⟩, hreport, ?_⟩
  · exact ((hclosing 5 (by decide)).silent.mpr (by decide)).trans (by decide)
  · exact (hreported 1 (by decide)).mp (by decide)

end TweeLint.Balance
