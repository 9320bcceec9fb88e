import TweeLint.LineIndex
import TweeLint.Proofs.Position
import TweeLint.Proofs.Text.Blank

/-!
# What a line index finds

A line index finds the position to which reading leads (`LineIndex.position_eq`), so what is known
of positions holds of it: positions count lines and columns, they are in the order of the indices,
and a slice that is indexed from its own position on has the positions of the whole text
(`LineIndex.position_slice`).

Halving keeps two bounds, with the numbers below `i` in front of the one and the others from the
other on, and where they meet the array is cut (`CutAt`). An array has one such cut, so any other
way of cutting it finds the same: here at the end of the text in front of the index.
-/

namespace TweeLint

namespace Text

theorem feedsFrom_append (i : Nat) (cs ds : List Char) :
    feedsFrom i (cs ++ ds) = feedsFrom i cs ++ feedsFrom (i + cs.length) ds := by
  induction cs generalizing i with
  | nil => rfl
  | cons c cs ih =>
    have hlength : i + (c :: cs).length = i + 1 + cs.length := by
      rw [List.length_cons]
      omega
    rw [List.cons_append, feedsFrom, feedsFrom, ih, hlength]
    split
    · rfl
    · rfl

theorem length_feedsFrom (i : Nat) (cs : List Char) :
    (feedsFrom i cs).length = cs.count '\n' := by
  induction cs generalizing i with
  | nil => rfl
  | cons c cs ih =>
    rw [feedsFrom]
    split
    · next hc => rw [List.length_cons, ih, hc, List.count_cons_self]
    · next hc => rw [ih, List.count_cons_of_ne hc]

theorem lt_of_mem_feedsFrom {i j : Nat} {cs : List Char} (h : j ∈ feedsFrom i cs) :
    j < i + cs.length := by
  induction cs generalizing i with
  | nil => exact absurd h List.not_mem_nil
  | cons c cs ih =>
    have hlater : j ∈ feedsFrom (i + 1) cs → j < i + (c :: cs).length := by
      intro hj
      have hlt := ih hj
      rw [List.length_cons]
      omega
    rw [feedsFrom] at h
    split at h
    · rcases List.mem_cons.mp h with rfl | h
      · simp
      · exact hlater h
    · exact hlater h

end Text

namespace LineIndex

/-! ### Cutting an increasing array -/

/-- The first `n` numbers of an array are below `i`, and the others are not. -/
structure CutAt (numbers : Array Nat) (i : Int) (n : Nat) : Prop where
  le_size : n ≤ numbers.size
  below : ∀ j (hj : j < numbers.size), j < n → (numbers[j] : Int) < i
  behind : ∀ j (hj : j < numbers.size), n ≤ j → i ≤ numbers[j]

variable {numbers : Array Nat} {i : Int}

/-- There is one cut. -/
theorem CutAt.unique {m n : Nat} (hm : CutAt numbers i m) (hn : CutAt numbers i n) : m = n := by
  have hle : ∀ {m n}, CutAt numbers i m → CutAt numbers i n → m ≤ n := by
    intro m n hm hn
    refine Nat.le_of_not_lt fun hlt => ?_
    have hsize : n < numbers.size := Nat.lt_of_lt_of_le hlt hm.le_size
    have hbelow := hm.below n hsize hlt
    have hbehind := hn.behind n hsize (Nat.le_refl n)
    omega
  exact Nat.le_antisymm (hle hm hn) (hle hn hm)

theorem getElem_le_of_le (h : numbers.toList.Pairwise (· < ·)) {j k : Nat} (hjk : j ≤ k)
    (hk : k < numbers.size) : numbers[j] ≤ numbers[k] := by
  rcases Nat.lt_or_eq_of_le hjk with hlt | rfl
  · exact Nat.le_of_lt (List.pairwise_iff_getElem.mp h j k (Nat.lt_trans hlt hk) hk hlt)
  · exact Nat.le_refl _

/-- **Halving cuts an increasing array.** The numbers in front of `lo` stay below `i`, and those from
`hi` on do not, until the two meet. -/
theorem cutAt_countBelow (h : numbers.toList.Pairwise (· < ·)) {lo hi : Nat}
    (hhi : hi ≤ numbers.size) (hlohi : lo ≤ hi)
    (hbelow : ∀ j (hj : j < numbers.size), j < lo → (numbers[j] : Int) < i)
    (hbehind : ∀ j (hj : j < numbers.size), hi ≤ j → i ≤ numbers[j]) :
    CutAt numbers i (countBelow numbers i lo hi hhi) := by
  fun_induction countBelow numbers i lo hi hhi with
  | case1 lo hi hhi hlt mid hmid hmidBelow ih =>
    refine ih hmid (fun j hj hjmid => ?_) hbehind
    have hle := getElem_le_of_le h (Nat.le_of_lt_succ hjmid) (Nat.lt_of_lt_of_le hmid hhi)
    omega
  | case2 lo hi hhi hlt mid hmid hnot ih =>
    refine ih (by omega) hbelow fun j hj hmidj => ?_
    have hle := getElem_le_of_le h hmidj hj
    omega
  | case3 lo hi hhi hlt =>
    obtain rfl : lo = hi := by omega
    exact ⟨hhi, hbelow, hbehind⟩

theorem cutAt_feedsBefore (x : LineIndex) (i : Int) : CutAt x.feeds i (x.feedsBefore i) :=
  cutAt_countBelow x.increasing _ (Nat.zero_le _) (fun _ _ hj => absurd hj (Nat.not_lt_zero _))
    fun _ hj hle => absurd hj (Nat.not_lt_of_le hle)

theorem cutAt_append {front back : List Nat} (hfront : ∀ j ∈ front, (j : Int) < i)
    (hback : ∀ j ∈ back, i ≤ j) : CutAt (front ++ back).toArray i front.length := by
  refine ⟨by simp, fun j hj hlt => ?_, fun j hj hle => ?_⟩
  · rw [List.getElem_toArray, List.getElem_append_left hlt]
    exact hfront _ (List.getElem_mem hlt)
  · rw [List.getElem_toArray, List.getElem_append_right hle]
    exact hback _ (List.getElem_mem _)

/-! ### Positions -/

/-- **The line feeds in front of an index** are those of the text in front of it. -/
theorem feedsBefore_ofText (start : Position) (text : List Char) (i : Int) :
    (ofText start text).feedsBefore i = (text.take i.toNat).count '\n' := by
  have hcut : CutAt (ofText start text).feeds i (Text.feedsFrom 0 (text.take i.toNat)).length := by
    have hfeeds := Text.feedsFrom_append 0 (text.take i.toNat) (text.drop i.toNat)
    rw [List.take_append_drop] at hfeeds
    rw [feeds_ofText, hfeeds]
    refine cutAt_append (fun j hj => ?_) fun j hj => ?_
    · have hlt := Text.lt_of_mem_feedsFrom hj
      rw [List.length_take] at hlt
      omega
    · have hle := Text.le_of_mem_feedsFrom hj
      have hlt := Text.lt_of_mem_feedsFrom hj
      rw [List.length_take] at hle
      rw [List.length_take, List.length_drop] at hlt
      omega
  rw [(cutAt_feedsBefore _ i).unique hcut, Text.length_feedsFrom]

theorem position_of_no_feed {x : LineIndex} (h : x.feedsBefore i = 0) :
    x.position i = ⟨x.start.line, x.start.column + i⟩ := by
  rw [position]
  split
  · rfl
  · next hfeeds => exact absurd (h.symm.trans hfeeds) (Nat.succ_ne_zero _).symm

theorem position_of_feed {x : LineIndex} {n m : Nat} (h : x.feedsBefore i = n + 1)
    (hlast : x.feeds[n]? = some m) : x.position i = ⟨x.start.line + (n + 1), i - m⟩ := by
  rw [position]
  split
  · next hfeeds => exact absurd (h.symm.trans hfeeds) (Nat.succ_ne_zero _)
  · next n' hfeeds =>
    obtain rfl : n = n' := Nat.succ.inj (h.symm.trans hfeeds)
    obtain ⟨hn, rfl⟩ := Array.getElem?_eq_some_iff.mp hlast
    simp only [Position.mk.injEq, true_and]
    omega

theorem line_position (x : LineIndex) (i : Int) : (x.position i).line = x.line i := by
  rw [position, line]
  split
  · next hfeeds => simp [hfeeds]
  · next n hfeeds => simp [hfeeds]

/-- **A line index finds where reading leads**, for every index. -/
theorem position_eq (start : Position) (text : List Char) (i : Int) :
    (ofText start text).position i = start.locate text i := by
  have hfeeds := feedsBefore_ofText start text i
  rw [Position.locate]
  by_cases hmem : '\n' ∈ text.take i.toNat
  · -- the text in front of the index is cut at its last line feed
    obtain ⟨front, back, hbefore, hback⟩ := Text.exists_last hmem
    have hcount : (text.take i.toNat).count '\n' = front.count '\n' + 1 := by
      rw [hbefore, List.count_append, List.count_cons_self, List.count_eq_zero_of_not_mem hback]
    have hlast : (ofText start text).feeds[front.count '\n']? = some front.length := by
      have hsplit := List.take_append_drop i.toNat text
      rw [hbefore, List.append_assoc, List.cons_append] at hsplit
      rw [feeds_ofText, ← hsplit, Text.feedsFrom_append, ← Text.length_feedsFrom 0 front]
      simp [Text.feedsFrom]
    have hlength := congrArg List.length hbefore
    rw [List.length_append, List.length_cons] at hlength
    rw [position_of_feed (hfeeds.trans hcount) hlast, Position.after_eq, hcount]
    have hcolumn := Position.column_after_feed start front hback
    rw [← hbefore, Position.after_eq] at hcolumn
    simp only [start_ofText, Position.mk.injEq] at hcolumn ⊢
    omega
  · rw [List.count_eq_zero_of_not_mem hmem] at hfeeds
    rw [position_of_no_feed hfeeds, Position.after_of_not_mem start hmem]
    simp only [start_ofText, Position.mk.injEq, true_and]
    omega

/-- **A slice has the positions of the whole text**, if it is indexed from its own position on. -/
theorem position_slice (start : Position) (text : List Char) {k m i : Nat} (hm : m ≤ text.length)
    (hi : k + i ≤ m) :
    (ofText ((ofText start text).position k) ((text.take m).drop k)).position i =
      (ofText start text).position (k + i) := by
  have hslice : ((text.take m).drop k).take i = (text.drop k).take i := by
    rw [List.drop_take, List.take_take, Nat.min_eq_left (by omega)]
  have hlength : i ≤ ((text.take m).drop k).length := by
    rw [List.length_drop, List.length_take]
    omega
  rw [← Int.natCast_add, position_eq, position_eq, position_eq,
    Position.locate_of_le start (by omega), Position.locate_of_le start (by omega),
    Position.locate_of_le _ hlength, hslice, List.take_add, Position.after_append]

/-- **What a line index says of a text**, wherever the text starts. Each index up to the end has the
position that counts its line feeds and the characters behind the last of them, and `line` finds the
same line. The positions are in the order of the indices. A slice of the text, indexed from the
position of its first character on, has the positions of the whole text. -/
theorem ofText_locates (start : Position) (text : List Char) :
    (∀ i ≤ text.length, start.CountsTo text i ((ofText start text).position i) ∧
      (ofText start text).line i = ((ofText start text).position i).line) ∧
    (∀ i ≤ text.length, ∀ j ≤ text.length,
      (ofText start text).position i < (ofText start text).position j ↔ i < j) ∧
    ∀ k m i : Nat, k ≤ m → m ≤ text.length → i ≤ m - k →
      (ofText ((ofText start text).position k) ((text.take m).drop k)).position i =
        (ofText start text).position (k + i) := by
  refine ⟨fun i hi => ⟨?_, (line_position _ _).symm⟩, fun i hi j hj => ?_, ?_⟩
  · rw [position_eq, Position.locate_of_le start hi]
    exact Position.countsTo_after start hi
  · rw [position_eq, position_eq]
    exact Position.locate_lt_locate_iff start hi hj
  · intro k m i hkm hm hi
    exact position_slice start text hm (by omega)

/-- Two line feeds behind one another, and the slice from the first of them on. -/
theorem ofText_locates_slice :
    let text := "a\n\n(b".toList
    1 ≤ 4 ∧ 4 ≤ text.length ∧ 3 ≤ 4 - 1 ∧
      (ofText ⟨4, 3⟩ text).position (1 : Nat) = ⟨4, 4⟩ ∧
      (ofText ⟨4, 4⟩ ((text.take 4).drop 1)).position (3 : Nat) = ⟨6, 2⟩ ∧
      (ofText ⟨4, 3⟩ text).line (2 : Nat) = 5 ∧
      (ofText ⟨4, 3⟩ text).position (2 : Nat) < (ofText ⟨4, 3⟩ text).position (3 : Nat) := by
  intro text
  obtain ⟨hcounts, horder, hslices⟩ := ofText_locates ⟨4, 3⟩ text
  have hfirst : (ofText ⟨4, 3⟩ text).position (1 : Nat) = ⟨4, 4⟩ := by
    rw [position_eq]
    decide
  have hslice := hslices 1 4 3 (by decide) (by decide) (by decide)
  rw [hfirst] at hslice
  refine ⟨by decide, by decide, by decide, hfirst, hslice.trans ?_, ?_,
    (horder 2 (by decide) 3 (by decide)).mpr (by decide)⟩
  · rw [position_eq]
    decide
  · exact (hcounts 2 (by decide)).2.trans ((hcounts 2 (by decide)).1.line.trans (by decide))

end LineIndex

end TweeLint
