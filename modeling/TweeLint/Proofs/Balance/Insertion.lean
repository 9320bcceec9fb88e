import TweeLint.Proofs.Balance.Repair

/-!
# What an insertion changes

What the balance check reports before and after something is put into a text.

* **One parenthesis more changes the count by one** (`check_insert_parenthesis`). Two scans, one of
  which has read a parenthesis more, never drift further apart: one of them has one more parenthesis
  that is open, or one fewer that is stray (`OpensOneMore`), and each step keeps that. A balanced
  text with one parenthesis more has one diagnostic. Whether a parenthesis is stray depends on the
  text in front of it, and whether it is unclosed on the text behind it, so neither can be due to an
  insertion on the other side.
* **Balanced text changes nothing** (`check_insert_balanced`). It becomes part of one of the
  balanced stretches between the parentheses that are left (`Layout.insert`), so the same ones are
  left, those behind it further on.
-/

namespace TweeLint.Balance

/-- A text with a word put in at an offset. -/
def inserted (text : String) (p : Nat) (word : String) : String :=
  String.ofList (text.toList.take p ++ (word.toList ++ text.toList.drop p))

/-- Where the character at an index is when `k` characters have been put in at `p`. -/
def shifted (p k i : Nat) : Nat :=
  if i < p then i else i + k

/-- Two diagnostics, the second of a text with `k` characters put in at `p`, differ in their
position only, and point at the same character. -/
def SameCharacter (start : Position) (text longer : List Char) (p k : Nat) (d d' : Diagnostic) :
    Prop :=
  ∃ i < text.length, longer[shifted p k i]? = text[i]? ∧ d.position = start.locate text i ∧
    d' = { d with position := start.locate longer (shifted p k i) }

theorem exists_cut {text : String} {p : Nat} (hp : p ≤ text.length) :
    ∃ front back, text.toList = front ++ back ∧ front.length = p ∧
      ∀ word, (inserted text p word).toList = front ++ (word.toList ++ back) := by
  refine ⟨text.toList.take p, text.toList.drop p, (List.take_append_drop _ _).symm, ?_,
    fun word => ?_⟩
  · rw [List.length_take, String.length_toList, Nat.min_eq_left hp]
  · rw [inserted, String.toList_ofList]

/-! ### One parenthesis more -/

/-- Of two tallies the second has one more parenthesis that is open, or one fewer that is stray. -/
def OpensOneMore (t u : Nat × Nat) : Prop :=
  u = (t.1, t.2 + 1) ∨ t = (u.1 + 1, u.2)

/-- **Reading on keeps two tallies one apart.** -/
theorem OpensOneMore.step {t u : Nat × Nat} (h : OpensOneMore t u) (c : Char) :
    OpensOneMore (tallyStep t c) (tallyStep u c) := by
  by_cases ho : c = '('
  · subst ho
    rcases h with rfl | rfl
    · exact Or.inl rfl
    · exact Or.inr rfl
  · by_cases hc : c = ')'
    · subst hc
      rcases h with rfl | rfl
      · -- the parenthesis that is open in the second only is closed, if no other is open
        obtain ⟨a, n⟩ := t
        cases n with
        | zero => exact Or.inr rfl
        | succ n => exact Or.inl rfl
      · obtain ⟨b, n⟩ := u
        cases n with
        | zero => exact Or.inr rfl
        | succ n => exact Or.inr rfl
    · rw [tallyStep_other ho hc, tallyStep_other ho hc]
      exact h

theorem OpensOneMore.foldl {t u : Nat × Nat} (h : OpensOneMore t u) (text : List Char) :
    OpensOneMore (text.foldl tallyStep t) (text.foldl tallyStep u) := by
  induction text generalizing t u with
  | nil => exact h
  | cons c text ih => exact ih (h.step c)

/-- One parenthesis is left in one of them that is not left in the other. -/
theorem OpensOneMore.total {t u : Nat × Nat} (h : OpensOneMore t u) :
    u.1 + u.2 = t.1 + t.2 + 1 ∨ t.1 + t.2 = u.1 + u.2 + 1 := by
  rcases h with rfl | rfl
  · exact Or.inl rfl
  · exact Or.inr (Nat.succ_add _ _)

theorem opensOneMore_insert_open (front back : List Char) :
    OpensOneMore (tally (front ++ back)) (tally (front ++ '(' :: back)) := by
  rw [tally, tally, List.foldl_append, List.foldl_append, List.foldl_cons]
  exact OpensOneMore.foldl (Or.inl rfl) back

theorem opensOneMore_insert_close (front back : List Char) :
    OpensOneMore (tally (front ++ ')' :: back)) (tally (front ++ back)) := by
  rw [tally, tally, List.foldl_append, List.foldl_append, List.foldl_cons]
  refine OpensOneMore.foldl ?_ back
  obtain ⟨a, n⟩ := front.foldl tallyStep (0, 0)
  cases n with
  | zero => exact Or.inr rfl
  | succ n => exact Or.inl rfl

/-! ### What the text on one side settles -/

section Sides

variable {front back : List Char} {i j k : Nat}

theorem pair_append_left (back : List Char) (hi : i < front.length) :
    Pair (front ++ back) j i ↔ Pair front j i := by
  have hget : ∀ m ≤ i, (front ++ back)[m]? = front[m]? :=
    fun m hm => List.getElem?_append_left (Nat.lt_of_le_of_lt hm hi)
  have hinside : inside (front ++ back) j i = inside front j i := by
    rw [inside, inside, List.take_append_of_le_length (Nat.le_of_lt hi)]
  constructor
  · intro hpair
    obtain ⟨hlt, ho, hc, hb⟩ := hpair
    rw [hget j (Nat.le_of_lt hlt)] at ho
    rw [hget i (Nat.le_refl i)] at hc
    rw [hinside] at hb
    exact ⟨hlt, ho, hc, hb⟩
  · intro hpair
    obtain ⟨hlt, ho, hc, hb⟩ := hpair
    rw [← hget j (Nat.le_of_lt hlt)] at ho
    rw [← hget i (Nat.le_refl i)] at hc
    rw [← hinside] at hb
    exact ⟨hlt, ho, hc, hb⟩

/-- **Whether a parenthesis is stray** depends on the text in front of it. -/
theorem strayAt_append_left (back : List Char) (hi : i < front.length) :
    StrayAt (front ++ back) i ↔ StrayAt front i := by
  have hget : (front ++ back)[i]? = front[i]? := List.getElem?_append_left hi
  constructor
  · intro hstray
    refine ⟨hget.symm.trans hstray.closing, fun j hpair => ?_⟩
    exact hstray.unpaired j ((pair_append_left back hi).mpr hpair)
  · intro hstray
    refine ⟨hget.trans hstray.closing, fun j hpair => ?_⟩
    exact hstray.unpaired j ((pair_append_left back hi).mp hpair)

theorem getElem?_append_add (front back : List Char) (i : Nat) :
    (front ++ back)[front.length + i]? = back[i]? := by
  rw [List.getElem?_append_right (Nat.le_add_right _ _), Nat.add_sub_cancel_left]

theorem pair_append_right :
    Pair (front ++ back) (front.length + j) (front.length + k) ↔ Pair back j k := by
  have hinside :
      inside (front ++ back) (front.length + j) (front.length + k) = inside back j k := by
    rw [inside, inside, List.take_length_add_append, Nat.add_assoc, List.drop_length_add_append]
  constructor
  · intro hpair
    obtain ⟨hlt, ho, hc, hb⟩ := hpair
    rw [getElem?_append_add] at ho hc
    rw [hinside] at hb
    exact ⟨Nat.lt_of_add_lt_add_left hlt, ho, hc, hb⟩
  · intro hpair
    obtain ⟨hlt, ho, hc, hb⟩ := hpair
    rw [← getElem?_append_add front] at ho hc
    rw [← hinside] at hb
    exact ⟨Nat.add_lt_add_left hlt _, ho, hc, hb⟩

/-- **Whether a parenthesis is unclosed** depends on the text behind it. -/
theorem unclosedAt_append_right :
    UnclosedAt (front ++ back) (front.length + i) ↔ UnclosedAt back i := by
  have hget := getElem?_append_add front back i
  constructor
  · intro hunclosed
    refine ⟨hget.symm.trans hunclosed.opening, fun k hpair => ?_⟩
    exact hunclosed.unpaired _ (pair_append_right.mpr hpair)
  · intro hunclosed
    refine ⟨hget.trans hunclosed.opening, fun k hpair => ?_⟩
    -- the pair would be closed behind `front`
    obtain ⟨m, rfl⟩ : ∃ m, k = front.length + m := by
      have hlt := hpair.lt
      exact ⟨k - front.length, by omega⟩
    exact hunclosed.unpaired m (pair_append_right.mp hpair)

end Sides

/-- A balanced text has no stray parenthesis. -/
theorem Balanced.not_strayAt {text : List Char} (h : Balanced text) (i : Nat) :
    ¬ StrayAt text i := by
  intro hstray
  have hmem := (Layout.balanced h).mem_strays_iff.mpr hstray
  exact absurd hmem List.not_mem_nil

/-- A balanced text has no unclosed parenthesis. -/
theorem Balanced.not_unclosedAt {text : List Char} (h : Balanced text) (i : Nat) :
    ¬ UnclosedAt text i := by
  intro hunclosed
  have hmem := (Layout.balanced h).mem_openers_iff.mpr hunclosed
  exact absurd hmem List.not_mem_nil

theorem length_strayIndices (text : List Char) : (strayIndices text).length = (tally text).1 := by
  rw [← map_offset_strays .start, List.length_reverse, List.length_map, ← scan_counts .start]
  rfl

theorem length_unclosedIndices (text : List Char) :
    (unclosedIndices text).length = (tally text).2 := by
  rw [← map_offset_openers .start, List.length_reverse, List.length_map, ← scan_counts .start]
  rfl

/-- A closing parenthesis more in a balanced text leaves one stray, not in front of it. -/
theorem exists_indices_insert_close {front back : List Char} (h : Balanced (front ++ back)) :
    ∃ i, front.length ≤ i ∧ strayIndices (front ++ ')' :: back) = [i] ∧
      unclosedIndices (front ++ ')' :: back) = [] := by
  have htally : tally (front ++ ')' :: back) = (1, 0) := by
    have hmore := opensOneMore_insert_close front back
    rw [balanced_iff_tally.mp h] at hmore
    rcases hmore with hopen | hstray
    · exact absurd (congrArg Prod.snd hopen) (Nat.succ_ne_zero _).symm
    · exact hstray
  have hone := length_strayIndices (front ++ ')' :: back)
  have hnone := length_unclosedIndices (front ++ ')' :: back)
  rw [htally] at hone hnone
  obtain ⟨i, hi⟩ := List.length_eq_one_iff.mp hone
  refine ⟨i, Nat.le_of_not_lt fun hlt => ?_, hi, List.eq_nil_of_length_eq_zero hnone⟩
  have hstray : StrayAt (front ++ ')' :: back) i := mem_strayIndices.mp (by rw [hi]; simp)
  rw [strayAt_append_left _ hlt, ← strayAt_append_left back hlt] at hstray
  exact h.not_strayAt i hstray

/-- An opening parenthesis more in a balanced text leaves one unclosed, not behind it. -/
theorem exists_indices_insert_open {front back : List Char} (h : Balanced (front ++ back)) :
    ∃ i, i ≤ front.length ∧ strayIndices (front ++ '(' :: back) = [] ∧
      unclosedIndices (front ++ '(' :: back) = [i] := by
  have htally : tally (front ++ '(' :: back) = (0, 1) := by
    have hmore := opensOneMore_insert_open front back
    rw [balanced_iff_tally.mp h] at hmore
    rcases hmore with hopen | hstray
    · exact hopen
    · exact absurd (congrArg Prod.fst hstray) (Nat.succ_ne_zero _).symm
  have hnone := length_strayIndices (front ++ '(' :: back)
  have hone := length_unclosedIndices (front ++ '(' :: back)
  rw [htally] at hone hnone
  obtain ⟨i, hi⟩ := List.length_eq_one_iff.mp hone
  refine ⟨i, Nat.le_of_not_lt fun hlt => ?_, List.eq_nil_of_length_eq_zero hnone, hi⟩
  have hunclosed : UnclosedAt (front ++ '(' :: back) i := mem_unclosedIndices.mp (by rw [hi]; simp)
  -- it would be unclosed in the text behind the insertion, and so in the text without it
  obtain ⟨k, rfl⟩ : ∃ k, i = (front ++ ['(']).length + k := by
    refine ⟨i - (front.length + 1), ?_⟩
    rw [List.length_append, List.length_singleton]
    omega
  rw [← List.singleton_append, ← List.append_assoc, unclosedAt_append_right] at hunclosed
  exact h.not_unclosedAt _ (unclosedAt_append_right.mpr hunclosed)

/-- **One parenthesis more changes the number of diagnostics by one.** In a balanced text a closing
parenthesis is reported as stray where it is put in or behind, and an opening one as unclosed where
it is put in or in front. -/
theorem check_insert_parenthesis (passage : String) {start : Position} (hline : 1 ≤ start.line)
    (hcolumn : 1 ≤ start.column) {content : String} {p : Nat} (hp : p ≤ content.length) :
    ∃ ds opened closed,
      checkChecked passage start content = .ok ds ∧
      checkChecked passage start (inserted content p "(") = .ok opened ∧
      checkChecked passage start (inserted content p ")") = .ok closed ∧
      (opened.length = ds.length + 1 ∨ ds.length = opened.length + 1) ∧
      (closed.length = ds.length + 1 ∨ ds.length = closed.length + 1) ∧
      (Balanced content.toList →
        (∃ i, p ≤ i ∧ (inserted content p ")").toList[i]? = some ')' ∧
          closed = [.unmatched passage (start.locate (inserted content p ")").toList i)]) ∧
        ∃ i, i ≤ p ∧ (inserted content p "(").toList[i]? = some '(' ∧
          opened = [.unclosed passage (start.locate (inserted content p "(").toList i)]) := by
  obtain ⟨front, back, hcontent, rfl, hinserted⟩ := exists_cut hp
  have hopen : (inserted content front.length "(").toList = front ++ '(' :: back := hinserted "("
  have hclose : (inserted content front.length ")").toList = front ++ ')' :: back := hinserted ")"
  refine ⟨_, _, _, checkChecked_eq_ok passage ⟨hline, hcolumn⟩ _,
    checkChecked_eq_ok passage ⟨hline, hcolumn⟩ _, checkChecked_eq_ok passage ⟨hline, hcolumn⟩ _,
    ?_, ?_, fun hbalanced => ⟨?_, ?_⟩⟩
  · rw [length_check, length_check, hopen, hcontent]
    exact (opensOneMore_insert_open front back).total
  · rw [length_check, length_check, hclose, hcontent]
    exact (opensOneMore_insert_close front back).total.symm
  · obtain ⟨i, hi, hstrays, hunclosed⟩ := exists_indices_insert_close (hcontent ▸ hbalanced)
    have hmem : i ∈ strayIndices (front ++ ')' :: back) := by simp [hstrays]
    rw [check_eq, hclose, hstrays, hunclosed]
    exact ⟨i, hi, (mem_strayIndices.mp hmem).closing, rfl⟩
  · obtain ⟨i, hi, hstrays, hunclosed⟩ := exists_indices_insert_open (hcontent ▸ hbalanced)
    have hmem : i ∈ unclosedIndices (front ++ '(' :: back) := by simp [hunclosed]
    rw [check_eq, hopen, hstrays, hunclosed]
    exact ⟨i, hi, (mem_unclosedIndices.mp hmem).opening, rfl⟩

/-- A parenthesis that is put in between two others: what is reported stands elsewhere. -/
theorem check_insert_parenthesis_inside :
    (1 : Int) ≤ (Position.mk 4 3).line ∧ (1 : Int) ≤ (Position.mk 4 3).column ∧
      2 ≤ "((\n))".length ∧ Balanced "((\n))".toList ∧
      checkChecked "P" ⟨4, 3⟩ (inserted "((\n))" 2 "(") = .ok [.unclosed "P" ⟨4, 3⟩] ∧
      checkChecked "P" ⟨4, 3⟩ (inserted "((\n))" 2 ")") = .ok [.unmatched "P" ⟨5, 2⟩] ∧
      ∃ i : Nat, 2 ≤ i ∧ (inserted "((\n))" 2 ")").toList[i]? = some ')' ∧
        (⟨5, 2⟩ : Position) = Position.locate ⟨4, 3⟩ (inserted "((\n))" 2 ")").toList i := by
  obtain ⟨ds, opened, closed, -, hopened, hclosed, -, -, hbalanced⟩ :=
    @check_insert_parenthesis "P" ⟨4, 3⟩ (by decide) (by decide) "((\n))" 2 (by decide)
  have hopen : checkChecked "P" ⟨4, 3⟩ (inserted "((\n))" 2 "(") =
      .ok [.unclosed "P" ⟨4, 3⟩] := by decide
  have hclose : checkChecked "P" ⟨4, 3⟩ (inserted "((\n))" 2 ")") =
      .ok [.unmatched "P" ⟨5, 2⟩] := by decide
  have hcontent : Balanced "((\n))".toList := by decide
  obtain ⟨⟨i, hi, hget, hat⟩, -⟩ := hbalanced hcontent
  rw [hclose] at hclosed
  obtain rfl := Except.ok.inj hclosed
  exact ⟨by decide, by decide, by decide, hcontent, hopen, hclose, i, hi, hget,
    congrArg Diagnostic.position (List.singleton_inj.mp hat)⟩

/-! ### Balanced text -/

theorem Balanced.insert {front back word : List Char} (h : Balanced (front ++ back))
    (hword : Balanced word) : Balanced (front ++ (word ++ back)) := by
  rw [balanced_iff_tally, tally, List.foldl_append] at h ⊢
  rw [List.foldl_append, foldl_tallyStep_of_balanced hword, h]

/-- A text with a parenthesis in it is cut in front of the parenthesis or behind it. -/
theorem cut_around {cs ds front back : List Char} {c : Char} (h : cs ++ c :: ds = front ++ back) :
    (∃ mid, cs = front ++ mid ∧ back = mid ++ c :: ds) ∨
      ∃ mid, front = cs ++ c :: mid ∧ ds = mid ++ back := by
  rcases List.append_eq_append_iff.mp h with ⟨mid, hfront, hrest⟩ | ⟨mid, hcs, hback⟩
  · cases mid with
    | nil =>
      rw [List.append_nil] at hfront
      exact Or.inl ⟨[], by rw [hfront, List.append_nil], by simpa using hrest.symm⟩
    | cons d mid =>
      obtain ⟨rfl, hds⟩ := List.cons.inj hrest
      exact Or.inr ⟨mid, hfront, hds⟩
  · exact Or.inl ⟨mid, hcs, hback⟩

theorem map_shifted_of_lt {p k : Nat} {is : List Nat} (h : ∀ i ∈ is, i < p) :
    is.map (shifted p k) = is :=
  (List.map_congr_left fun i hi => if_pos (h i hi)).trans (List.map_id is)

theorem shifted_length_append (front word mid : List Char) :
    shifted front.length word.length (front ++ mid).length = (front ++ (word ++ mid)).length := by
  rw [shifted, if_neg (by simp)]
  simp only [List.length_append]
  omega

theorem Layout.lt_length_append {cs : List Char} {strays openers : List Nat}
    (h : Layout cs strays openers) (rest : List Char) :
    ∀ i ∈ openers ++ strays, i < (cs ++ rest).length := by
  intro i hi
  rw [List.length_append]
  exact Nat.lt_add_right _ (h.lt_length i hi)

/-- **Balanced text is laid into a balanced stretch.** -/
theorem Layout.insert {text word : List Char} {strays openers : List Nat}
    (h : Layout text strays openers) (hword : Balanced word) {front back : List Char}
    (htext : text = front ++ back) :
    Layout (front ++ (word ++ back)) (strays.map (shifted front.length word.length))
      (openers.map (shifted front.length word.length)) := by
  induction h generalizing front back with
  | balanced hcs =>
    subst htext
    exact .balanced (hcs.insert hword)
  | @stray cs ds strays hlayout hds ih =>
    rcases cut_around htext with ⟨mid, rfl, rfl⟩ | ⟨mid, rfl, rfl⟩
    · have hstray := Layout.stray (ih rfl) hds
      rw [← shifted_length_append] at hstray
      simpa using hstray
    · -- the parentheses in front of the insertion stay where they are
      have hfront : ∀ i ∈ strays, i < (cs ++ ')' :: mid).length :=
        hlayout.lt_length_append (')' :: mid)
      rw [map_shifted_of_lt (List.forall_mem_cons.mpr ⟨by simp, hfront⟩)]
      simpa using Layout.stray hlayout (hds.insert hword)
  | @opening cs ds strays openers hlayout hds ih =>
    rcases cut_around htext with ⟨mid, rfl, rfl⟩ | ⟨mid, rfl, rfl⟩
    · have hopening := Layout.opening (ih rfl) hds
      rw [← shifted_length_append] at hopening
      simpa using hopening
    · have hfront := hlayout.lt_length_append ('(' :: mid)
      have hopeners := fun i hi => hfront i (List.mem_append_left strays hi)
      rw [map_shifted_of_lt fun i hi => hfront i (List.mem_append_right openers hi),
        map_shifted_of_lt (List.forall_mem_cons.mpr ⟨by simp, hopeners⟩)]
      simpa using Layout.opening hlayout (hds.insert hword)

theorem getElem?_shifted (front word back : List Char) (i : Nat) :
    (front ++ (word ++ back))[shifted front.length word.length i]? = (front ++ back)[i]? := by
  rw [shifted]
  split
  · next hlt => rw [List.getElem?_append_left hlt, List.getElem?_append_left hlt]
  · next hge =>
    obtain ⟨m, rfl⟩ : ∃ m, i = front.length + m := ⟨i - front.length, by omega⟩
    rw [getElem?_append_add, Nat.add_assoc, getElem?_append_add, Nat.add_comm m,
      getElem?_append_add]

/-- The same report at the same characters, one text with a word put in. -/
theorem forall₂_sameCharacter (report : Position → Diagnostic) (start : Position)
    (front word back : List Char) (hreport : ∀ q q', report q' = { report q with position := q' })
    {is : List Nat} (his : ∀ i ∈ is, i < (front ++ back).length) :
    List.Forall₂
      (SameCharacter start (front ++ back) (front ++ (word ++ back)) front.length word.length)
      (is.map fun i : Nat => report (start.locate (front ++ back) i))
      (is.map fun i : Nat => report
        (start.locate (front ++ (word ++ back)) (shifted front.length word.length i))) := by
  rw [List.forall₂_map_left_iff, List.forall₂_map_right_iff, List.forall₂_same]
  intro i hi
  refine ⟨i, his i hi, getElem?_shifted front word back i, ?_, hreport _ _⟩
  exact congrArg Diagnostic.position (hreport start _)

/-- **Balanced text is invisible to the balance check.** With a balanced word put in, the same
parentheses are reported in the same order. -/
theorem check_insert_balanced (passage : String) {start : Position} (hline : 1 ≤ start.line)
    (hcolumn : 1 ≤ start.column) {content word : String} {p : Nat} (hp : p ≤ content.length)
    (hword : Balanced word.toList) :
    ∃ ds ds', checkChecked passage start content = .ok ds ∧
      checkChecked passage start (inserted content p word) = .ok ds' ∧
      List.Forall₂
        (SameCharacter start content.toList (inserted content p word).toList p word.length)
        ds ds' := by
  obtain ⟨front, back, hcontent, rfl, hinserted⟩ := exists_cut hp
  refine ⟨_, _, checkChecked_eq_ok passage ⟨hline, hcolumn⟩ _,
    checkChecked_eq_ok passage ⟨hline, hcolumn⟩ _, ?_⟩
  -- what is left in the longer text is what was left before, shifted
  have hinsert := (scan_laid start (front ++ back)).insert hword rfl
  have hstrays := hinsert.reverse_strays
  have hunclosed := hinsert.reverse_openers
  rw [← List.map_reverse, map_offset_strays] at hstrays
  rw [← List.map_reverse, map_offset_openers] at hunclosed
  rw [check_eq, check_eq, hinserted, hcontent, ← hstrays, ← hunclosed, List.map_map, List.map_map,
    ← String.length_toList]
  refine List.rel_append
    (forall₂_sameCharacter (.unmatched passage) start front word.toList back (fun _ _ => rfl)
      fun i hi => ?_)
    (forall₂_sameCharacter (.unclosed passage) start front word.toList back (fun _ _ => rfl)
      fun i hi => ?_)
  · exact (List.getElem?_eq_some_iff.mp (mem_strayIndices.mp hi).closing).1
  · exact (List.getElem?_eq_some_iff.mp (mem_unclosedIndices.mp hi).opening).1

/-- Two lines put in between a stray parenthesis and two open ones, inside a pair. -/
theorem check_insert_balanced_lines :
    (1 : Int) ≤ (Position.mk 4 3).line ∧ (1 : Int) ≤ (Position.mk 4 3).column ∧
      4 ≤ ")((a)\n(".length ∧ Balanced "b(\n)".toList ∧
      checkChecked "P" ⟨4, 3⟩ ")((a)\n(" =
        .ok [.unmatched "P" ⟨4, 3⟩, .unclosed "P" ⟨4, 4⟩, .unclosed "P" ⟨5, 1⟩] ∧
      checkChecked "P" ⟨4, 3⟩ (inserted ")((a)\n(" 4 "b(\n)") =
        .ok [.unmatched "P" ⟨4, 3⟩, .unclosed "P" ⟨4, 4⟩, .unclosed "P" ⟨6, 1⟩] ∧
      List.Forall₂ (SameCharacter ⟨4, 3⟩ ")((a)\n(".toList ")((ab(\n))\n(".toList 4 4)
        [.unmatched "P" ⟨4, 3⟩, .unclosed "P" ⟨4, 4⟩, .unclosed "P" ⟨5, 1⟩]
        [.unmatched "P" ⟨4, 3⟩, .unclosed "P" ⟨4, 4⟩, .unclosed "P" ⟨6, 1⟩] := by
  have hbalanced : Balanced "b(\n)".toList := by decide
  obtain ⟨ds, ds', hds, hds', hsame⟩ := @check_insert_balanced "P" ⟨4, 3⟩ (by decide) (by decide)
    ")((a)\n(" "b(\n)" 4 (by decide) hbalanced
  have hcheck : checkChecked "P" ⟨4, 3⟩ ")((a)\n(" =
      .ok [.unmatched "P" ⟨4, 3⟩, .unclosed "P" ⟨4, 4⟩, .unclosed "P" ⟨5, 1⟩] := by decide
  have hcheck' : checkChecked "P" ⟨4, 3⟩ (inserted ")((a)\n(" 4 "b(\n)") =
      .ok [.unmatched "P" ⟨4, 3⟩, .unclosed "P" ⟨4, 4⟩, .unclosed "P" ⟨6, 1⟩] := by decide
  obtain rfl := Except.ok.inj (hcheck.symm.trans hds)
  obtain rfl := Except.ok.inj (hcheck'.symm.trans hds')
  exact ⟨by decide, by decide, by decide, hbalanced, hcheck, hcheck', hsame⟩

end TweeLint.Balance
