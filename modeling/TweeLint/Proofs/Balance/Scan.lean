import Mathlib.Data.List.Induction
import TweeLint.Balance
import TweeLint.Proofs.Balance.Grammar
import TweeLint.Proofs.Position

/-!
# What the balance scan keeps

The scan keeps a depth and a stack, and sets them by separate tests. Everything said about it here
rests on the depth being the height of the stack (`State.Coherent`): in such a state a step is one of
four plain moves (`State.step_open`, `step_stray`, `step_close`, `step_other`), and it leads to such
a state again.

* **The scan counts what the tally counts** (`scan_counts`), so it reports nothing of a balanced
  text and something of any other (`check_eq_nil_iff`).
* **What is reported is there**: each open or stray parenthesis stands in the text at the site that
  is kept of it (`scan_marked`), and so does each diagnostic (`exists_of_mem_check`).
* **Further down, the same is found** (`scan_down`).
-/

namespace TweeLint.Balance

namespace State

/-- The depth of a state is the height of its stack. -/
def Coherent (s : State) : Prop :=
  s.depth = s.openers.length

/-- How many parentheses of either kind are left. -/
def counts (s : State) : Nat × Nat :=
  (s.strays.length, s.openers.length)

/-- The state with all sites `k` lines further down. -/
def down (k : Nat) (s : State) : State :=
  ⟨s.site.down k, s.depth, s.openers.map (·.down k), s.strays.map (·.down k)⟩

/-- All parentheses that are kept stand in the text, each at its site. -/
def Marked (start : Position) (text : List Char) (s : State) : Prop :=
  (∀ site ∈ s.openers, site.Marks start text '(') ∧
    ∀ site ∈ s.strays, site.Marks start text ')'

/-! ### One step -/

theorem step_open (s : State) :
    s.step '(' =
      { s with site := s.site.advance '(', depth := s.depth + 1, openers := s.site :: s.openers } :=
  rfl

theorem step_stray {s : State} (h : s.Coherent) (hs : s.openers = []) :
    s.step ')' = ⟨s.site.advance ')', 0, [], s.site :: s.strays⟩ := by
  have hdepth : s.depth - 1 < 0 := by
    rw [h, hs]
    decide
  simp [step, hdepth, hs]

theorem step_close {s : State} (h : s.Coherent) {o : Site} {os : List Site}
    (hs : s.openers = o :: os) :
    s.step ')' = ⟨s.site.advance ')', s.depth - 1, os, s.strays⟩ := by
  have hdepth : ¬ s.depth - 1 < 0 := by
    rw [h, hs, List.length_cons]
    omega
  simp [step, hdepth, hs]

theorem step_other {c : Char} (ho : c ≠ '(') (hc : c ≠ ')') (s : State) :
    s.step c = { s with site := s.site.advance c } := by
  simp [step, ho, hc]

theorem step_site (s : State) (c : Char) : (s.step c).site = s.site.advance c := by
  simp only [step]
  split
  · rfl
  · split
    · split <;> rfl
    · rfl

/-! ### What a step keeps -/

theorem Coherent.step {s : State} (h : s.Coherent) (c : Char) : (s.step c).Coherent := by
  by_cases ho : c = '('
  · subst ho
    rw [step_open]
    simp only [Coherent, List.length_cons]
    rw [h]
    omega
  · by_cases hc : c = ')'
    · subst hc
      cases hs : s.openers with
      | nil =>
        rw [step_stray h hs]
        rfl
      | cons o os =>
        rw [step_close h hs]
        simp only [Coherent]
        rw [h, hs, List.length_cons]
        omega
    · rw [step_other ho hc]
      exact h

theorem counts_step {s : State} (h : s.Coherent) (c : Char) :
    (s.step c).counts = tallyStep s.counts c := by
  by_cases ho : c = '('
  · subst ho
    rfl
  · by_cases hc : c = ')'
    · subst hc
      cases hs : s.openers with
      | nil =>
        rw [step_stray h hs]
        simp [counts, hs]
      | cons o os =>
        rw [step_close h hs]
        simp [counts, hs]
    · rw [step_other ho hc, tallyStep_other ho hc]
      rfl

/-- A step keeps the parentheses that stand in the text, or adds the one that it reads. -/
theorem Marked.step {start : Position} {text : List Char} {s : State} (h : s.Coherent)
    (hm : s.Marked start text) (hsite : s.site = ⟨text.length, start.after text⟩) (c : Char) :
    (s.step c).Marked start (text ++ [c]) := by
  have hopen : ∀ site ∈ s.openers, site.Marks start (text ++ [c]) '(' :=
    fun site hmem => (hm.1 site hmem).append [c]
  have hstray : ∀ site ∈ s.strays, site.Marks start (text ++ [c]) ')' :=
    fun site hmem => (hm.2 site hmem).append [c]
  have hhere : s.site.Marks start (text ++ [c]) c := ⟨text, [], rfl, hsite⟩
  by_cases ho : c = '('
  · subst ho
    rw [step_open]
    exact ⟨List.forall_mem_cons.mpr ⟨hhere, hopen⟩, hstray⟩
  · by_cases hc : c = ')'
    · subst hc
      -- a closing parenthesis is kept only if no opening one is left for it
      cases hs : s.openers with
      | nil =>
        rw [step_stray h hs]
        exact ⟨by simp, List.forall_mem_cons.mpr ⟨hhere, hstray⟩⟩
      | cons o os =>
        rw [step_close h hs]
        rw [hs] at hopen
        exact ⟨(List.forall_mem_cons.mp hopen).2, hstray⟩
    · rw [step_other ho hc]
      exact ⟨hopen, hstray⟩

theorem step_down (k : Nat) (s : State) (c : Char) : (s.down k).step c = (s.step c).down k := by
  by_cases ho : c = '('
  · subst ho
    simp [step_open, down, Site.advance_down]
  · by_cases hc : c = ')'
    · subst hc
      by_cases hdepth : s.depth - 1 < 0 <;>
        simp [step, down, hdepth, Site.advance_down, List.map_tail]
    · simp [step_other ho hc, down, Site.advance_down]

end State

/-! ### Whole texts -/

theorem scan_concat (start : Position) (text : List Char) (c : Char) :
    scan start (text ++ [c]) = (scan start text).step c := by
  simp [scan, List.foldl_append]

theorem scan_site (start : Position) (text : List Char) :
    (scan start text).site = ⟨text.length, start.after text⟩ := by
  induction text using List.reverseRecOn with
  | nil => rfl
  | append_singleton text c ih =>
    rw [scan_concat, State.step_site, ih, Site.advance, List.length_append, Position.after_append]
    rfl

theorem scan_coherent (start : Position) (text : List Char) : (scan start text).Coherent := by
  induction text using List.reverseRecOn with
  | nil => rfl
  | append_singleton text c ih =>
    rw [scan_concat]
    exact ih.step c

/-- **The scan counts what the tally counts.** -/
theorem scan_counts (start : Position) (text : List Char) :
    (scan start text).counts = tally text := by
  induction text using List.reverseRecOn with
  | nil => rfl
  | append_singleton text c ih =>
    rw [scan_concat, State.counts_step (scan_coherent start text), ih, tally_concat]

/-- **What is reported is there.** -/
theorem scan_marked (start : Position) (text : List Char) :
    (scan start text).Marked start text := by
  induction text using List.reverseRecOn with
  | nil => exact ⟨by simp [scan, State.initial], by simp [scan, State.initial]⟩
  | append_singleton text c ih =>
    rw [scan_concat]
    exact ih.step (scan_coherent start text) (scan_site start text) c

/-- A diagnostic stands at a parenthesis of the text. -/
theorem exists_of_mem_check {passage : String} {start : Position} {content : String}
    {d : Diagnostic} (hd : d ∈ check passage start content) :
    ∃ pre rest,
      (content.toList = pre ++ ')' :: rest ∧ d = .unmatched passage (start.after pre)) ∨
        (content.toList = pre ++ '(' :: rest ∧ d = .unclosed passage (start.after pre)) := by
  obtain ⟨hopeners, hstrays⟩ := scan_marked start content.toList
  simp only [check, List.mem_append, List.mem_map, List.mem_reverse] at hd
  rcases hd with ⟨site, hsite, rfl⟩ | ⟨site, hsite, rfl⟩
  · obtain ⟨pre, rest, hcontent, rfl⟩ := hstrays site hsite
    exact ⟨pre, rest, .inl ⟨hcontent, rfl⟩⟩
  · obtain ⟨pre, rest, hcontent, rfl⟩ := hopeners site hsite
    exact ⟨pre, rest, .inr ⟨hcontent, rfl⟩⟩

theorem scan_down (k : Nat) (start : Position) (text : List Char) :
    scan (start.down k) text = (scan start text).down k := by
  induction text using List.reverseRecOn with
  | nil => rfl
  | append_singleton text c ih => rw [scan_concat, scan_concat, ih, State.step_down]

/-- **Nothing is reported of a balanced text, and something of any other.** -/
theorem check_eq_nil_iff {passage : String} {start : Position} {content : String} :
    check passage start content = [] ↔ Balanced content.toList := by
  have hcounts := scan_counts start content.toList
  rw [balanced_iff_tally, ← hcounts, State.counts, Prod.mk.injEq, List.length_eq_zero_iff,
    List.length_eq_zero_iff]
  simp [check]

end TweeLint.Balance
