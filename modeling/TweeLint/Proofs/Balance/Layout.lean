import Mathlib.Data.List.Sort
import TweeLint.Proofs.Balance.Scan

/-!
# How the parentheses that are left lie in a text

Two parentheses are a pair if what stands between them is balanced (`Pair`). One that is in no pair
has no counterpart: a closing one is stray (`StrayAt`), an opening one is unclosed (`UnclosedAt`).

The scan never looks for pairs. What ties it to them is how the parentheses that it keeps lie in the
text: the stray ones first, then the open ones, with balanced text between any two neighbours, in
front of the first and behind the last (`Layout`). Each step of the scan keeps that
(`State.Laid.step`), so it holds behind every text (`scan_laid`). The layout alone says that what is
kept is what is in no pair (`Layout.mem_strays_iff`, `Layout.mem_openers_iff`): every other
parenthesis lies in one of the balanced stretches, where the grammar pairs it (`Balanced.inPair`),
and by the tally no pair takes one that is kept.
-/

namespace TweeLint.Balance

/-- The text between two of its indices, both left out. -/
def inside (text : List Char) (j i : Nat) : List Char :=
  (text.take i).drop (j + 1)

/-- The parenthesis at `j` is closed by the one at `i`. -/
structure Pair (text : List Char) (j i : Nat) : Prop where
  lt : j < i
  opening : text[j]? = some '('
  closing : text[i]? = some ')'
  balanced : Balanced (inside text j i)

/-- At the index stands one of a pair. -/
def InPair (text : List Char) (i : Nat) : Prop :=
  ∃ j k, Pair text j k ∧ (i = j ∨ i = k)

/-- At the index a parenthesis is closed that is not opened. -/
structure StrayAt (text : List Char) (i : Nat) : Prop where
  closing : text[i]? = some ')'
  unpaired : ∀ j, ¬ Pair text j i

/-- At the index a parenthesis is opened that is not closed. -/
structure UnclosedAt (text : List Char) (i : Nat) : Prop where
  opening : text[i]? = some '('
  unpaired : ∀ k, ¬ Pair text i k

/-- A text with stray parentheses at `strays` and open ones at `openers`, the last of each first,
and balanced text everywhere between. -/
inductive Layout : List Char → List Nat → List Nat → Prop
  | balanced {cs : List Char} : Balanced cs → Layout cs [] []
  | stray {cs ds : List Char} {strays : List Nat} :
      Layout cs strays [] → Balanced ds → Layout (cs ++ ')' :: ds) (cs.length :: strays) []
  | opening {cs ds : List Char} {strays openers : List Nat} :
      Layout cs strays openers → Balanced ds →
        Layout (cs ++ '(' :: ds) strays (cs.length :: openers)

/-! ### Characters of a text -/

theorem exists_split {text : List Char} {i : Nat} {c : Char} (h : text[i]? = some c) :
    ∃ pre rest, text = pre ++ c :: rest ∧ i = pre.length := by
  obtain ⟨hi, rfl⟩ := List.getElem?_eq_some_iff.mp h
  refine ⟨text.take i, text.drop (i + 1), ?_, ?_⟩
  · rw [← List.drop_eq_getElem_cons hi, List.take_append_drop]
  · rw [List.length_take, Nat.min_eq_left (Nat.le_of_lt hi)]

/-- A character stands in front of a given one, is that one, or stands behind it. -/
theorem getElem?_around {cs ds : List Char} {p c : Char} {i : Nat}
    (h : (cs ++ p :: ds)[i]? = some c) :
    cs[i]? = some c ∨ (i = cs.length ∧ p = c) ∨
      ∃ k, i = (cs ++ [p]).length + k ∧ ds[k]? = some c := by
  rcases Nat.lt_trichotomy i cs.length with hlt | heq | hgt
  · rw [List.getElem?_append_left hlt] at h
    exact Or.inl h
  · subst heq
    rw [List.getElem?_append_right (Nat.le_refl _), Nat.sub_self] at h
    exact Or.inr (Or.inl ⟨rfl, Option.some.inj h⟩)
  · obtain ⟨k, rfl⟩ : ∃ k, i = cs.length + (k + 1) := ⟨i - cs.length - 1, by omega⟩
    rw [List.getElem?_append_right (Nat.le_add_right _ _), Nat.add_sub_cancel_left] at h
    refine Or.inr (Or.inr ⟨k, ?_, h⟩)
    rw [List.length_append, List.length_singleton]
    omega

theorem inside_append (pre mid rest : List Char) (p q : Char) :
    inside (pre ++ p :: (mid ++ q :: rest)) pre.length (pre.length + 1 + mid.length) = mid := by
  have hcut : pre ++ p :: (mid ++ q :: rest) = (pre ++ [p]) ++ mid ++ q :: rest := by simp
  have hlen : pre.length + 1 = (pre ++ [p]).length := by simp
  rw [inside, hcut, hlen, ← List.length_append, List.take_left, List.drop_left]

/-! ### Pairs -/

/-- **A pair cuts its text** into what is in front of it, inside it and behind it. -/
theorem pair_iff {text : List Char} {j i : Nat} :
    Pair text j i ↔ ∃ pre mid rest, text = pre ++ '(' :: (mid ++ ')' :: rest) ∧ Balanced mid ∧
      j = pre.length ∧ i = pre.length + 1 + mid.length := by
  constructor
  · intro h
    obtain ⟨hlt, hopening, hclosing, hbalanced⟩ := h
    obtain ⟨pre, tail, rfl, rfl⟩ := exists_split hopening
    -- the closing parenthesis is behind the opening one
    rcases getElem?_around hclosing with hfront | ⟨rfl, -⟩ | ⟨k, rfl, hk⟩
    · obtain ⟨hi, -⟩ := List.getElem?_eq_some_iff.mp hfront
      omega
    · omega
    · obtain ⟨mid, rest, rfl, rfl⟩ := exists_split hk
      have hlen : (pre ++ ['(']).length + mid.length = pre.length + 1 + mid.length := by simp
      rw [hlen, inside_append] at hbalanced
      exact ⟨pre, mid, rest, rfl, hbalanced, rfl, hlen⟩
  · rintro ⟨pre, mid, rest, rfl, hmid, rfl, rfl⟩
    refine ⟨by omega, by simp, ?_, by rwa [inside_append]⟩
    have hlen : pre.length + 1 + mid.length = (pre ++ '(' :: mid).length := by simp; omega
    have hcut : pre ++ '(' :: (mid ++ ')' :: rest) = (pre ++ '(' :: mid) ++ ')' :: rest := by simp
    rw [hlen, hcut, List.getElem?_append_right (Nat.le_refl _), Nat.sub_self]
    rfl

theorem InPair.append {cs : List Char} {i : Nat} (h : InPair cs i) (ds : List Char) :
    InPair (cs ++ ds) i := by
  obtain ⟨j, k, hpair, hi⟩ := h
  obtain ⟨pre, mid, rest, rfl, hmid, rfl, rfl⟩ := pair_iff.mp hpair
  exact ⟨_, _, pair_iff.mpr ⟨pre, mid, rest ++ ds, by simp, hmid, rfl, rfl⟩, hi⟩

theorem InPair.shift {ds : List Char} {i : Nat} (h : InPair ds i) (cs : List Char) :
    InPair (cs ++ ds) (cs.length + i) := by
  obtain ⟨j, k, hpair, hi⟩ := h
  obtain ⟨pre, mid, rest, rfl, hmid, rfl, rfl⟩ := pair_iff.mp hpair
  refine ⟨cs.length + pre.length, cs.length + (pre.length + 1 + mid.length), ?_, by omega⟩
  refine pair_iff.mpr ⟨cs ++ pre, mid, rest, by simp, hmid, by simp, ?_⟩
  rw [List.length_append]
  omega

theorem InPair.behind {ds : List Char} {k : Nat} (h : InPair ds k) (cs : List Char) (p : Char) :
    InPair (cs ++ p :: ds) ((cs ++ [p]).length + k) := by
  have hshift := h.shift (cs ++ [p])
  rwa [List.append_assoc] at hshift

/-- **Each parenthesis of a balanced text is one of a pair.** -/
theorem Balanced.inPair {text : List Char} (h : Balanced text) {i : Nat} {c : Char}
    (hi : text[i]? = some c) (hc : c = '(' ∨ c = ')') : InPair text i := by
  induction h generalizing i with
  | nil => exact absurd hi (by simp)
  | @cons d cs ho hcl _ ih =>
    rcases @getElem?_around [] _ _ _ _ hi with hfront | ⟨-, rfl⟩ | ⟨k, rfl, hk⟩
    · exact absurd hfront (by simp)
    · exact absurd hc (by simp [ho, hcl])
    · exact (ih hk).shift [d]
  | @nest cs ds hcs _ ihcs ihds =>
    have hpair : Pair ('(' :: (cs ++ ')' :: ds)) 0 (1 + cs.length) :=
      pair_iff.mpr ⟨[], cs, ds, rfl, hcs, rfl, by simp⟩
    rcases @getElem?_around [] _ _ _ _ hi with hfront | ⟨rfl, -⟩ | ⟨k, rfl, hk⟩
    · exact absurd hfront (by simp)
    · exact ⟨_, _, hpair, Or.inl rfl⟩
    · rcases getElem?_around hk with hcs' | ⟨rfl, -⟩ | ⟨m, rfl, hm⟩
      · exact ((ihcs hcs').append _).shift ['(']
      · exact ⟨_, _, hpair, Or.inr rfl⟩
      · exact ((ihds hm).behind cs ')').shift ['(']

/-! ### What a layout says -/

namespace Layout

variable {text : List Char} {strays openers : List Nat}

/-- Balanced text changes nothing. -/
theorem append_balanced (h : Layout text strays openers) {ds : List Char} (hds : Balanced ds) :
    Layout (text ++ ds) strays openers := by
  cases h with
  | balanced hcs => exact .balanced (hcs.append hds)
  | stray hlayout hcs =>
    rw [List.append_assoc, List.cons_append]
    exact .stray hlayout (hcs.append hds)
  | opening hlayout hcs =>
    rw [List.append_assoc, List.cons_append]
    exact .opening hlayout (hcs.append hds)

/-- A closing parenthesis takes the last open one, with what is between, into the balanced text. -/
theorem close {i : Nat} (h : Layout text strays (i :: openers)) :
    Layout (text ++ [')']) strays openers := by
  cases h with
  | @opening cs ds _ _ hlayout hds =>
    have hnest : Balanced ('(' :: (ds ++ [')'])) := .nest hds .nil
    simpa using hlayout.append_balanced hnest

theorem tally_eq (h : Layout text strays openers) :
    tally text = (strays.length, openers.length) := by
  induction h with
  | balanced hcs => exact balanced_iff_tally.mp hcs
  | stray _ hds ih =>
    rw [tally_append_stray (by rw [ih]; rfl) hds, ih]
    rfl
  | opening _ hds ih =>
    rw [tally_append_open _ hds, ih]
    rfl

theorem lt_length (h : Layout text strays openers) : ∀ i ∈ openers ++ strays, i < text.length := by
  induction h with
  | balanced => simp
  | stray _ _ ih | opening _ _ ih =>
    intro i hi
    simp only [List.nil_append, List.cons_append, List.mem_cons, List.length_append,
      List.length_cons] at hi ih ⊢
    rcases hi with rfl | hi
    · omega
    · have := ih i hi
      omega

/-- The parentheses are listed from back to front, the open ones behind the stray ones. -/
theorem pairwise (h : Layout text strays openers) : (openers ++ strays).Pairwise (· > ·) := by
  induction h with
  | balanced => exact .nil
  | stray hlayout _ ih | opening hlayout _ ih =>
    exact List.pairwise_cons.mpr ⟨hlayout.lt_length, ih⟩

/-- In front of a stray parenthesis none is open. -/
theorem exists_of_mem_strays (h : Layout text strays openers) {i : Nat} (hi : i ∈ strays) :
    ∃ cs rest, text = cs ++ ')' :: rest ∧ i = cs.length ∧ (tally cs).2 = 0 := by
  induction h with
  | balanced => exact absurd hi List.not_mem_nil
  | @stray cs ds strays hlayout hds ih =>
    rcases List.mem_cons.mp hi with rfl | hi
    · exact ⟨cs, ds, rfl, rfl, by rw [hlayout.tally_eq]; rfl⟩
    · obtain ⟨pre, rest, rfl, hlen, hpre⟩ := ih hi
      exact ⟨pre, rest ++ ')' :: ds, by simp, hlen, hpre⟩
  | @opening cs ds strays openers _ hds ih =>
    obtain ⟨pre, rest, rfl, hlen, hpre⟩ := ih hi
    exact ⟨pre, rest ++ '(' :: ds, by simp, hlen, hpre⟩

/-- Behind an open parenthesis none is stray. -/
theorem exists_of_mem_openers (h : Layout text strays openers) {i : Nat} (hi : i ∈ openers) :
    ∃ cs rest, text = cs ++ '(' :: rest ∧ i = cs.length ∧ (tally rest).1 = 0 := by
  induction h with
  | balanced => exact absurd hi List.not_mem_nil
  | stray => exact absurd hi List.not_mem_nil
  | @opening cs ds strays openers _ hds ih =>
    rcases List.mem_cons.mp hi with rfl | hi
    · exact ⟨cs, ds, rfl, rfl, by rw [balanced_iff_tally.mp hds]⟩
    · obtain ⟨pre, rest, rfl, hlen, hrest⟩ := ih hi
      refine ⟨pre, rest ++ '(' :: ds, by simp, hlen, ?_⟩
      rw [tally_append_open _ hds]
      exact hrest

theorem inPair_or_mem (h : Layout text strays openers) {i : Nat} {c : Char}
    (hi : text[i]? = some c) (hc : c = '(' ∨ c = ')') : InPair text i ∨ i ∈ openers ++ strays := by
  induction h generalizing i with
  | balanced hcs => exact Or.inl (hcs.inPair hi hc)
  | @stray cs ds strays _ hds ih | @opening cs ds strays openers _ hds ih =>
    rcases getElem?_around hi with hcs | ⟨rfl, -⟩ | ⟨k, rfl, hk⟩
    · exact (ih hcs).imp (·.append _) (List.mem_cons_of_mem _)
    · exact Or.inr List.mem_cons_self
    · exact Or.inl ((hds.inPair hk hc).behind cs _)

theorem strayAt (h : Layout text strays openers) {i : Nat} (hi : i ∈ strays) : StrayAt text i := by
  obtain ⟨cs, rest, rfl, rfl, hopen⟩ := h.exists_of_mem_strays hi
  refine ⟨by simp, fun j hpair => ?_⟩
  obtain ⟨pre, mid, rest', heq, hmid, -, hlen⟩ := pair_iff.mp hpair
  -- the parenthesis that a pair would take is open in front of the stray one
  have hcs : cs = pre ++ '(' :: mid := by
    have hcut : cs ++ ')' :: rest = (pre ++ '(' :: mid) ++ ')' :: rest' := by simpa using heq
    exact List.append_inj_left hcut (by simp; omega)
  rw [hcs, tally_append_open _ hmid] at hopen
  exact absurd hopen (Nat.succ_ne_zero _)

theorem unclosedAt (h : Layout text strays openers) {i : Nat} (hi : i ∈ openers) :
    UnclosedAt text i := by
  obtain ⟨cs, rest, rfl, rfl, hstray⟩ := h.exists_of_mem_openers hi
  refine ⟨by simp, fun k hpair => ?_⟩
  obtain ⟨pre, mid, rest', heq, hmid, hlen, -⟩ := pair_iff.mp hpair
  -- the parenthesis that a pair would take is stray in the text behind
  have hrest : rest = mid ++ ')' :: rest' :=
    (List.cons.inj (List.append_inj_right heq hlen)).2
  have hle := le_foldl_tallyStep rest' (1, 0)
  rw [hrest, tally, List.foldl_append, foldl_tallyStep_of_balanced hmid] at hstray
  simp only [List.foldl_cons, tallyStep_stray, Nat.zero_add] at hstray
  omega

/-- **What is kept as stray** is what closes a parenthesis and is in no pair. -/
theorem mem_strays_iff (h : Layout text strays openers) {i : Nat} :
    i ∈ strays ↔ StrayAt text i := by
  refine ⟨h.strayAt, fun hstray => ?_⟩
  rcases h.inPair_or_mem hstray.closing (Or.inr rfl) with ⟨j, k, hpair, rfl | rfl⟩ | hmem
  · have heq := hpair.opening.symm.trans hstray.closing
    exact absurd heq (by decide)
  · exact absurd hpair (hstray.unpaired j)
  · rcases List.mem_append.mp hmem with hopeners | hstrays
    · have heq := (h.unclosedAt hopeners).opening.symm.trans hstray.closing
      exact absurd heq (by decide)
    · exact hstrays

/-- **What is kept as open** is what opens a parenthesis and is in no pair. -/
theorem mem_openers_iff (h : Layout text strays openers) {i : Nat} :
    i ∈ openers ↔ UnclosedAt text i := by
  refine ⟨h.unclosedAt, fun hunclosed => ?_⟩
  rcases h.inPair_or_mem hunclosed.opening (Or.inl rfl) with ⟨j, k, hpair, rfl | rfl⟩ | hmem
  · exact absurd hpair (hunclosed.unpaired k)
  · have heq := hpair.closing.symm.trans hunclosed.opening
    exact absurd heq (by decide)
  · rcases List.mem_append.mp hmem with hopeners | hstrays
    · exact hopeners
    · have heq := (h.strayAt hstrays).closing.symm.trans hunclosed.opening
      exact absurd heq (by decide)

end Layout

/-! ### What the scan keeps of it -/

namespace State

/-- The parentheses that a state keeps lie in the text as they should. -/
def Laid (text : List Char) (s : State) : Prop :=
  Layout text (s.strays.map Site.offset) (s.openers.map Site.offset)

theorem Laid.step {text : List Char} {s : State} (hlaid : s.Laid text) (h : s.Coherent)
    (hsite : s.site.offset = text.length) (c : Char) : (s.step c).Laid (text ++ [c]) := by
  unfold Laid at hlaid
  by_cases ho : c = '('
  · subst ho
    rw [step_open, Laid, List.map_cons, hsite]
    exact .opening hlaid .nil
  · by_cases hc : c = ')'
    · subst hc
      cases hs : s.openers with
      | nil =>
        rw [step_stray h hs, Laid, List.map_cons, hsite]
        rw [hs] at hlaid
        exact .stray hlaid .nil
      | cons o os =>
        rw [step_close h hs]
        rw [hs, List.map_cons] at hlaid
        exact hlaid.close
    · rw [step_other ho hc]
      exact hlaid.append_balanced (.cons ho hc .nil)

end State

/-- **The scan keeps the layout.** -/
theorem scan_laid (start : Position) (text : List Char) : (scan start text).Laid text := by
  induction text using List.reverseRecOn with
  | nil => exact .balanced .nil
  | append_singleton text c ih =>
    rw [scan_concat]
    exact ih.step (scan_coherent start text) (by rw [scan_site]) c

end TweeLint.Balance
