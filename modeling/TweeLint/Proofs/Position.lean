import TweeLint.Position
import TweeLint.Proofs.Text.SplitLines

/-!
# Positions and lines

A position is where a text leads that stands in front of it. In terms of that text's lines its line
counts the line feeds and its column the characters behind the last of them (`after_eq`), so
positions are the indices of `Text.splitLines`, counted from 1.

A text further down in a document has the same columns and higher lines: moving the start moves
everything that is found (`after_down`). Reading on leads to later positions (`lt_after_cons`), and
to none below line 1 and column 1 from a start that is not (`InBounds.after`).
-/

namespace TweeLint

namespace Position

/-- The position `k` lines further down. -/
def down (k : Nat) (p : Position) : Position :=
  ⟨p.line + k, p.column⟩

/-- **Where a text leads**, in terms of its lines. -/
theorem after_eq (p : Position) (cs : List Char) :
    p.after cs = ⟨p.line + cs.count '\n',
      (if '\n' ∈ cs then 1 else p.column) + (Text.lastLine cs).length⟩ := by
  induction cs generalizing p with
  | nil => simp
  | cons c cs ih =>
    rw [after_cons, ih, advance]
    by_cases hc : c = '\n'
    · subst hc
      simp only [↓reduceIte, ite_self, List.count_cons_self, List.mem_cons, true_or,
        Text.lastLine_feed, Position.mk.injEq, and_true]
      omega
    · rw [if_neg hc, List.count_cons_of_ne hc]
      by_cases hmem : '\n' ∈ cs
      · simp [hmem, Text.lastLine_cons_of_mem hc hmem]
      · have hmem' : '\n' ∉ c :: cs := by simp [hmem, Ne.symm hc]
        rw [if_neg hmem, if_neg hmem', Text.lastLine_of_not_mem hmem,
          Text.lastLine_of_not_mem hmem', List.length_cons]
        simp only [Position.mk.injEq, true_and]
        omega

/-- Where a text leads that stands at the start of a document. -/
theorem start_after (cs : List Char) :
    start.after cs = ⟨cs.count '\n' + 1, (Text.lastLine cs).length + 1⟩ := by
  rw [after_eq]
  simp only [start, ite_self, Position.mk.injEq]
  omega

/-- Whole lines lead to the start of a line. -/
theorem start_after_feedLines {ls : List (List Char)} (h : ∀ l ∈ ls, '\n' ∉ l) :
    start.after (Text.feedLines ls) = ⟨ls.length + 1, 1⟩ := by
  have hlast : Text.lastLine (Text.feedLines ls) = [] := by
    simp [Text.lastLine, Text.splitLines_feedLines h]
  rw [start_after, Text.count_feedLines h, hlast]
  rfl

/-- Behind a text without line feeds the line is the same. -/
theorem after_of_not_mem (p : Position) {cs : List Char} (h : '\n' ∉ cs) :
    p.after cs = ⟨p.line, p.column + cs.length⟩ := by
  rw [after_eq, if_neg h, List.count_eq_zero_of_not_mem h, Text.lastLine_of_not_mem h]
  simp

/-- The last line feed is all that columns count from. -/
theorem column_after_feed (p : Position) (cs : List Char) {ds : List Char} (h : '\n' ∉ ds) :
    (p.after (cs ++ '\n' :: ds)).column = ds.length + 1 := by
  have hfeed : (p.after cs).advance '\n' = ⟨(p.after cs).line + 1, 1⟩ := if_pos rfl
  rw [after_append, after_cons, hfeed, after_of_not_mem _ h]
  exact Int.add_comm _ _

/-- A position counts to index `i` of a text that starts at `start`: its line counts the line feeds in
front of the index, and its column the characters from the last of them on, or from the start if there
is none. -/
structure CountsTo (start : Position) (text : List Char) (i : Nat) (p : Position) : Prop where
  line : p.line = start.line + (text.take i).count '\n'
  firstLine : '\n' ∉ text.take i → p.column = start.column + i
  laterLine : ∀ m < i, text[m]? = some '\n' → (∀ q, m < q → q < i → text[q]? ≠ some '\n') →
    p.column = i - m

/-- **An index is where the text in front of it leads**, counted out. -/
theorem countsTo_after (start : Position) {text : List Char} {i : Nat} (hi : i ≤ text.length) :
    start.CountsTo text i (start.after (text.take i)) := by
  have hlength : (text.take i).length = i := List.length_take_of_le hi
  refine ⟨by rw [after_eq], fun hfirst => ?_, fun m hm hfeed hlast => ?_⟩
  · rw [after_of_not_mem start hfirst, hlength]
  · -- the text in front of the index is cut at its last line feed
    have hcut : text.take i = text.take m ++ '\n' :: (text.take i).drop (m + 1) := by
      have hlt : m < (text.take i).length := by omega
      have hget : (text.take i)[m] = '\n' := by
        rw [List.getElem_take]
        exact (List.getElem?_eq_some_iff.mp hfeed).2
      have hsplit := List.take_append_drop m (text.take i)
      rw [List.drop_eq_getElem_cons hlt, hget, List.take_take,
        Nat.min_eq_left (Nat.le_of_lt hm)] at hsplit
      exact hsplit.symm
    have hrest : '\n' ∉ (text.take i).drop (m + 1) := by
      intro hmem
      obtain ⟨q, hq⟩ := List.mem_iff_getElem?.mp hmem
      rw [List.getElem?_drop, List.getElem?_take] at hq
      split at hq
      · next hlt => exact hlast (m + 1 + q) (by omega) hlt hq
      · exact absurd hq (by simp)
    rw [hcut, column_after_feed start _ hrest, List.length_drop, hlength]
    omega

theorem advance_down (k : Nat) (p : Position) (c : Char) :
    (p.down k).advance c = (p.advance c).down k := by
  unfold advance down
  split
  · simp only [Position.mk.injEq, and_true]
    omega
  · rfl

theorem after_down (k : Nat) (p : Position) (cs : List Char) :
    (p.down k).after cs = (p.after cs).down k := by
  induction cs generalizing p with
  | nil => rfl
  | cons c cs ih => rw [after_cons, after_cons, advance_down, ih]

/-! ### Order -/

theorem lt_iff {p q : Position} :
    p < q ↔ p.line < q.line ∨ (p.line = q.line ∧ p.column < q.column) := Iff.rfl

theorem lt_irrefl (p : Position) : ¬ p < p := by
  rw [lt_iff]
  omega

theorem ne_of_lt {p q : Position} (h : p < q) : p ≠ q := by
  rintro rfl
  exact lt_irrefl p h

theorem lt_trans {p q r : Position} (hpq : p < q) (hqr : q < r) : p < r := by
  rw [lt_iff] at *
  omega

theorem lt_advance_self (p : Position) (c : Char) : p < p.advance c := by
  rw [lt_iff, advance]
  split <;> dsimp only <;> omega

theorem lt_advance {p q : Position} (h : p < q) (c : Char) : p < q.advance c :=
  lt_trans h (lt_advance_self q c)

theorem lt_after {p q : Position} (h : p < q) (cs : List Char) : p < q.after cs := by
  induction cs generalizing q with
  | nil => exact h
  | cons c cs ih => exact ih (lt_advance h c)

theorem lt_after_cons (p : Position) (c : Char) (cs : List Char) : p < p.after (c :: cs) :=
  lt_after (lt_advance_self p c) cs

/-! ### Indices -/

/-- An index of a text is where the text in front of it leads. -/
theorem locate_of_le (p : Position) {text : List Char} {i : Nat} (h : i ≤ text.length) :
    p.locate text i = p.after (text.take i) := by
  simp [locate, Nat.min_eq_left h]

/-- **A higher index is at a later position.** -/
theorem locate_lt_locate (p : Position) {text : List Char} {i j : Nat} (hij : i < j)
    (hj : j ≤ text.length) : p.locate text i < p.locate text j := by
  obtain ⟨k, rfl⟩ : ∃ k, j = i + (k + 1) := ⟨j - i - 1, by omega⟩
  obtain ⟨c, rest, hrest⟩ : ∃ c rest, text.drop i = c :: rest :=
    List.exists_cons_of_length_pos (by rw [List.length_drop]; omega)
  rw [locate_of_le p (by omega), locate_of_le p hj, List.take_add, hrest, List.take_succ_cons,
    after_append]
  exact lt_after_cons _ c _

/-- Positions are in the order of the indices. -/
theorem locate_lt_locate_iff (p : Position) {text : List Char} {i j : Nat} (hi : i ≤ text.length)
    (hj : j ≤ text.length) : p.locate text i < p.locate text j ↔ i < j := by
  refine ⟨fun h => Nat.lt_of_not_le fun hle => ?_, fun hij => locate_lt_locate p hij hj⟩
  rcases Nat.lt_or_eq_of_le hle with hlt | rfl
  · exact lt_irrefl _ (lt_trans h (locate_lt_locate p hlt hi))
  · exact lt_irrefl _ h

/-- No two indices of a text are at the same position. -/
theorem locate_inj {p : Position} {text : List Char} {i j : Nat} (hi : i ≤ text.length)
    (hj : j ≤ text.length) (h : p.locate text i = p.locate text j) : i = j := by
  rcases Nat.lt_trichotomy i j with hlt | heq | hgt
  · exact absurd h (ne_of_lt (locate_lt_locate p hlt hj))
  · exact heq
  · exact absurd h.symm (ne_of_lt (locate_lt_locate p hgt hi))

/-! ### Bounds -/

/-- Lines and columns count from 1. -/
structure InBounds (p : Position) : Prop where
  line : 1 ≤ p.line
  column : 1 ≤ p.column

theorem InBounds.advance {p : Position} (h : p.InBounds) (c : Char) : (p.advance c).InBounds := by
  obtain ⟨hline, hcolumn⟩ := h
  rw [Position.advance]
  split
  · exact ⟨by dsimp only; omega, Int.le_refl 1⟩
  · exact ⟨hline, by dsimp only; omega⟩

/-- **Reading on leads to no position below line or column 1.** -/
theorem InBounds.after {p : Position} (h : p.InBounds) (cs : List Char) : (p.after cs).InBounds := by
  induction cs generalizing p with
  | nil => exact h
  | cons c cs ih => exact ih (h.advance c)

end Position

namespace Site

/-- The site `k` lines further down. -/
def down (k : Nat) (s : Site) : Site :=
  ⟨s.offset, s.position.down k⟩

theorem advance_down (k : Nat) (s : Site) (c : Char) :
    (s.down k).advance c = (s.advance c).down k := by
  simp [advance, down, Position.advance_down]

/-- The place of a character `c` in a text that starts at `start`. -/
def Marks (start : Position) (text : List Char) (c : Char) (s : Site) : Prop :=
  ∃ pre rest, text = pre ++ c :: rest ∧ s = ⟨pre.length, start.after pre⟩

/-- A place is at the position of its index. -/
theorem Marks.position_eq {start : Position} {text : List Char} {c : Char} {s : Site}
    (h : s.Marks start text c) : s.position = start.locate text s.offset := by
  obtain ⟨pre, rest, rfl, rfl⟩ := h
  rw [Position.locate_of_le start (by simp), List.take_left]

/-- A place in a text is a place in any longer one. -/
theorem Marks.append {start : Position} {text : List Char} {c : Char} {s : Site}
    (h : Marks start text c s) (more : List Char) : Marks start (text ++ more) c s := by
  obtain ⟨pre, rest, rfl, hs⟩ := h
  exact ⟨pre, rest ++ more, by simp, hs⟩

end Site

end TweeLint
