import TweeLint.Text.Lines

/-!
# Texts as lists of lines

`Text.lines` keeps the line feed of a line with the line. The usual picture of a document is another
one: its lines are the pieces between the line feeds, so that a text has one line more than it has
line feeds, and a character stands at an index of a line. `Text.splitLines` is that picture, and
this module carries facts between the two.

* **The two cuts agree.** With the line feeds put back, the pieces are the lines of the text, but
  for an empty piece behind the last line feed (`endLines_splitLines`); a line feed put behind the
  text makes a line of that one too (`lines_append_feed`).
* **A text is cut where a prefix of it ends.** The pieces of `xs ++ ys` are those of `xs` and those
  of `ys`, with the last of the one and the first of the other put together
  (`splitLines_append`). So a prefix says at which index of which line the rest begins
  (`textFrom_splitLines`).
-/

namespace TweeLint.Text

/-- The pieces of a text between its line feeds. -/
def splitLines (cs : List Char) : List (List Char) :=
  cs.splitOn '\n'

/-- Puts lines together, with a line feed between each two. -/
def joinLines (ls : List (List Char)) : List Char :=
  ['\n'].intercalate ls

/-- Lines with a line feed behind each but the last. -/
def endLines : List (List Char) → List (List Char)
  | [] => []
  | [l] => [l]
  | l :: m :: ls => (l ++ ['\n']) :: endLines (m :: ls)

/-- Lines with a line feed behind each, put together. -/
def feedLines (ls : List (List Char)) : List Char :=
  (ls.map (· ++ ['\n'])).flatten

/-- What a text has behind its last line feed. -/
def lastLine (cs : List Char) : List Char :=
  (splitLines cs).getLast?.getD []

/-- The text from index `j` of line `i` on; both count from 0. -/
def textFrom (ls : List (List Char)) (i j : Nat) : List Char :=
  (joinLines (ls.drop i)).drop j

/-- The character at index `j` of line `i`; both count from 0. -/
def charAt? (ls : List (List Char)) (i j : Nat) : Option Char :=
  ls[i]?.bind fun l => l[j]?

/-! ### Cutting a text -/

@[simp] theorem splitLines_nil : splitLines [] = [[]] := by
  simp [splitLines]

@[simp] theorem splitLines_feed (cs : List Char) :
    splitLines ('\n' :: cs) = [] :: splitLines cs := by
  simp [splitLines, List.splitOn_cons_eq_if_modifyHead]

theorem splitLines_cons {c : Char} (h : c ≠ '\n') (cs : List Char) :
    splitLines (c :: cs) = (splitLines cs).modifyHead (c :: ·) := by
  simp [splitLines, List.splitOn_cons_eq_if_modifyHead, h]

@[simp] theorem splitLines_ne_nil (cs : List Char) : splitLines cs ≠ [] :=
  List.splitOn_ne_nil _ _

@[simp] theorem joinLines_splitLines (cs : List Char) : joinLines (splitLines cs) = cs :=
  List.intercalate_splitOn _

theorem splitLines_of_not_mem {cs : List Char} (h : '\n' ∉ cs) : splitLines cs = [cs] :=
  List.splitOn_eq_singleton h

theorem splitLines_append_feed (xs ys : List Char) :
    splitLines (xs ++ '\n' :: ys) = splitLines xs ++ splitLines ys :=
  List.splitOn_append_cons_self _ _

theorem length_splitLines (cs : List Char) : (splitLines cs).length = cs.count '\n' + 1 := by
  induction cs with
  | nil => simp
  | cons c cs ih =>
    by_cases hc : c = '\n'
    · subst hc
      simp [ih]
    · simp [splitLines_cons hc, List.count_cons_of_ne hc, ih]

/-- No line of a text has a line feed in it. -/
theorem not_mem_of_mem_splitLines {cs l : List Char} (h : l ∈ splitLines cs) : '\n' ∉ l := by
  induction cs generalizing l with
  | nil =>
    obtain rfl : l = [] := by simpa using h
    simp
  | cons c cs ih =>
    by_cases hc : c = '\n'
    · subst hc
      rcases List.mem_cons.mp (splitLines_feed cs ▸ h) with rfl | h
      · simp
      · exact ih h
    · obtain ⟨m, ls, hls⟩ := List.exists_cons_of_ne_nil (splitLines_ne_nil cs)
      rw [splitLines_cons hc, hls, List.modifyHead_cons] at h
      rcases List.mem_cons.mp h with rfl | h
      · have hm : '\n' ∉ m := ih (by rw [hls]; exact List.mem_cons_self)
        simp [hm, Ne.symm hc]
      · exact ih (by rw [hls]; exact List.mem_cons_of_mem _ h)

theorem not_mem_of_mem_take_splitLines {cs l : List Char} {k : Nat}
    (h : l ∈ (splitLines cs).take k) : '\n' ∉ l :=
  not_mem_of_mem_splitLines (List.mem_of_mem_take h)

/-! ### Lines with their line feeds -/

@[simp] theorem joinLines_nil : joinLines [] = [] := rfl

@[simp] theorem joinLines_singleton (l : List Char) : joinLines [l] = l := by
  simp [joinLines]

theorem joinLines_cons (l : List Char) {ls : List (List Char)} (h : ls ≠ []) :
    joinLines (l :: ls) = l ++ '\n' :: joinLines ls := by
  simp [joinLines, List.intercalate_cons_of_ne_nil h]

@[simp] theorem feedLines_nil : feedLines [] = [] := rfl

@[simp] theorem feedLines_cons (l : List Char) (ls : List (List Char)) :
    feedLines (l :: ls) = l ++ '\n' :: feedLines ls := by
  simp [feedLines]

theorem feedLines_map {α : Type} (f : α → List Char) (xs : List α) :
    feedLines (xs.map f) = xs.flatMap fun x => f x ++ ['\n'] := by
  rw [feedLines, List.map_map, List.flatMap]
  rfl

/-- A line feed behind the last line too makes all the difference between the two ways of putting
lines together. -/
theorem feedLines_eq {ls : List (List Char)} (h : ls ≠ []) :
    feedLines ls = joinLines ls ++ ['\n'] := by
  induction ls with
  | nil => exact absurd rfl h
  | cons l ls ih =>
    by_cases hls : ls = []
    · subst hls
      simp
    · rw [feedLines_cons, ih hls, joinLines_cons l hls]
      simp

theorem endLines_cons (l : List Char) {ls : List (List Char)} (h : ls ≠ []) :
    endLines (l :: ls) = (l ++ ['\n']) :: endLines ls := by
  cases ls with
  | nil => exact absurd rfl h
  | cons m ls => rfl

@[simp] theorem length_endLines (ls : List (List Char)) : (endLines ls).length = ls.length := by
  induction ls with
  | nil => rfl
  | cons l ls ih =>
    by_cases hls : ls = []
    · subst hls
      rfl
    · simp [endLines_cons l hls, ih]

theorem flatten_endLines (ls : List (List Char)) : (endLines ls).flatten = joinLines ls := by
  induction ls with
  | nil => rfl
  | cons l ls ih =>
    by_cases hls : ls = []
    · subst hls
      simp [endLines]
    · simp [endLines_cons l hls, joinLines_cons l hls, ih]

theorem drop_endLines (ls : List (List Char)) (k : Nat) :
    (endLines ls).drop k = endLines (ls.drop k) := by
  induction ls generalizing k with
  | nil => simp [endLines]
  | cons l ls ih =>
    cases k with
    | zero => rfl
    | succ k =>
      by_cases hls : ls = []
      · subst hls
        simp [endLines]
      · rw [endLines_cons l hls, List.drop_succ_cons, List.drop_succ_cons, ih]

/-- A line with what ends it. -/
theorem getElem?_endLines {ls : List (List Char)} {k : Nat} {l : List Char} (h : ls[k]? = some l) :
    (endLines ls)[k]? = some (l ++ if k + 1 < ls.length then ['\n'] else []) := by
  induction ls generalizing k with
  | nil => simp at h
  | cons m ls ih =>
    by_cases hls : ls = []
    · subst hls
      obtain ⟨rfl, rfl⟩ : k = 0 ∧ m = l := by
        cases k with
        | zero => simpa using h
        | succ k => simp at h
      simp [endLines]
    · rw [endLines_cons m hls]
      cases k with
      | zero =>
        obtain rfl : m = l := by simpa using h
        simp [List.length_pos_iff.mpr hls]
      | succ k => simpa using ih (by simpa using h)

/-- The lines before the last all have their line feed. -/
theorem flatten_take_endLines {ls : List (List Char)} {k : Nat} (h : k < ls.length) :
    ((endLines ls).take k).flatten = feedLines (ls.take k) := by
  induction ls generalizing k with
  | nil => simp at h
  | cons l ls ih =>
    cases k with
    | zero => rfl
    | succ k =>
      have hk : k < ls.length := by simpa using h
      have hls : ls ≠ [] := List.ne_nil_of_length_pos (by omega)
      simp [endLines_cons l hls, ih hk]

/-- A text cut at the start of a line. -/
theorem joinLines_eq_append {ls : List (List Char)} {k : Nat} (h : k < ls.length) :
    joinLines ls = feedLines (ls.take k) ++ joinLines (ls.drop k) := by
  rw [← flatten_take_endLines h, ← flatten_endLines (ls.drop k), ← drop_endLines,
    ← List.flatten_append, List.take_append_drop, flatten_endLines]

theorem endLines_modifyHead (c : Char) (ls : List (List Char)) :
    endLines (ls.modifyHead (c :: ·)) = (endLines ls).modifyHead (c :: ·) := by
  cases ls with
  | nil => rfl
  | cons l ls =>
    by_cases hls : ls = []
    · subst hls
      rfl
    · simp [endLines_cons _ hls]

/-- **The two cuts agree**, but for an empty piece behind the last line feed. -/
theorem endLines_splitLines (cs : List Char) :
    endLines (splitLines cs) = lines cs ∨ endLines (splitLines cs) = lines cs ++ [[]] := by
  induction cs with
  | nil => exact Or.inr (by simp [endLines])
  | cons c cs ih =>
    by_cases hc : c = '\n'
    · subst hc
      rw [splitLines_feed, endLines_cons _ (splitLines_ne_nil cs), lines_cons]
      simpa [consLine] using ih
    · rw [splitLines_cons hc, endLines_modifyHead, lines_cons]
      rcases ih with ih | ih
      · -- the cuts can only be equal where the text has a line to put `c` in
        have hne : lines cs ≠ [] := by
          rw [← ih, ← List.length_pos_iff, length_endLines, List.length_pos_iff]
          exact splitLines_ne_nil cs
        obtain ⟨l, ls, hls⟩ := List.exists_cons_of_ne_nil hne
        exact Or.inl (by rw [ih, hls]; simp [consLine, hc])
      · cases hls : lines cs with
        | nil => exact Or.inl (by rw [ih, hls]; simp [consLine, hc])
        | cons l ls => exact Or.inr (by rw [ih, hls]; simp [consLine, hc])

/-- A text with a line feed behind it is made of whole lines. -/
theorem lines_append_feed (cs : List Char) :
    lines (cs ++ ['\n']) = (splitLines cs).map (· ++ ['\n']) := by
  induction cs with
  | nil => simp [consLine]
  | cons c cs ih =>
    rw [List.cons_append, lines_cons, ih]
    by_cases hc : c = '\n'
    · subst hc
      simp [consLine]
    · obtain ⟨l, ls, hls⟩ := List.exists_cons_of_ne_nil (splitLines_ne_nil cs)
      simp [consLine, hc, splitLines_cons hc, hls]

/-! ### Where a prefix ends -/

@[simp] theorem lastLine_nil : lastLine [] = [] := by
  simp [lastLine]

theorem lastLine_feed (cs : List Char) : lastLine ('\n' :: cs) = lastLine cs := by
  obtain ⟨m, ls, hls⟩ := List.exists_cons_of_ne_nil (splitLines_ne_nil cs)
  simp [lastLine, hls]

theorem lastLine_of_not_mem {cs : List Char} (h : '\n' ∉ cs) : lastLine cs = cs := by
  simp [lastLine, splitLines_of_not_mem h]

theorem lastLine_cons_of_mem {c : Char} (hc : c ≠ '\n') {cs : List Char} (h : '\n' ∈ cs) :
    lastLine (c :: cs) = lastLine cs := by
  obtain ⟨m, ls, hls⟩ := List.exists_cons_of_ne_nil (splitLines_ne_nil cs)
  have hlen := length_splitLines cs
  rw [hls, List.length_cons] at hlen
  have hne : ls ≠ [] := List.ne_nil_of_length_pos (by have := List.count_pos_iff.mpr h; omega)
  obtain ⟨l, ls, rfl⟩ := List.exists_cons_of_ne_nil hne
  simp [lastLine, splitLines_cons hc, hls]

/-- **The lines of two texts put together.** -/
theorem splitLines_append (xs ys : List Char) :
    splitLines (xs ++ ys) =
      (splitLines xs).dropLast ++ (splitLines ys).modifyHead (lastLine xs ++ ·) := by
  induction xs with
  | nil =>
    obtain ⟨m, ls, hls⟩ := List.exists_cons_of_ne_nil (splitLines_ne_nil ys)
    simp [hls]
  | cons c xs ih =>
    obtain ⟨m, ls, hls⟩ := List.exists_cons_of_ne_nil (splitLines_ne_nil xs)
    obtain ⟨n, ms, hms⟩ := List.exists_cons_of_ne_nil (splitLines_ne_nil ys)
    by_cases hc : c = '\n'
    · subst hc
      rw [List.cons_append, splitLines_feed, splitLines_feed, ih, lastLine_feed, hls]
      rfl
    · rw [List.cons_append, splitLines_cons hc, splitLines_cons hc, ih]
      -- `c` goes to the last line of `xs` if that is its only one
      cases ls with
      | nil => simp [lastLine, splitLines_cons hc, hls, hms]
      | cons l ls => simp [lastLine, splitLines_cons hc, hls, hms]

theorem splitLines_concat {c : Char} (hc : c ≠ '\n') (cs : List Char) :
    splitLines (cs ++ [c]) = (splitLines cs).dropLast ++ [lastLine cs ++ [c]] := by
  rw [splitLines_append, splitLines_cons hc, splitLines_nil]
  rfl

/-- A line feed leaves the line at which a text ends behind. -/
theorem lastLine_concat_feed (cs : List Char) : lastLine (cs ++ ['\n']) = [] := by
  simp [lastLine, splitLines_append_feed]

theorem lastLine_concat {c : Char} (hc : c ≠ '\n') (cs : List Char) :
    lastLine (cs ++ [c]) = lastLine cs ++ [c] := by
  simp [lastLine, splitLines_concat hc]

/-- The lines above, and the line at which a text ends. -/
theorem splitLines_eq (cs : List Char) :
    splitLines cs = (splitLines cs).dropLast ++ [lastLine cs] := by
  rw [lastLine, List.getLast?_eq_some_getLast (splitLines_ne_nil cs), Option.getD_some,
    List.dropLast_concat_getLast]

/-- The line at which a prefix ends, if a character of that line is behind it. -/
theorem getElem?_splitLines_append (xs ys : List Char) {c : Char} (hc : c ≠ '\n') :
    ∃ l, (splitLines (xs ++ c :: ys))[xs.count '\n']? = some (lastLine xs ++ c :: l) := by
  obtain ⟨m, ls, hls⟩ := List.exists_cons_of_ne_nil (splitLines_ne_nil ys)
  refine ⟨m, ?_⟩
  rw [splitLines_append, List.getElem?_append_right (by simp [length_splitLines])]
  simp [length_splitLines, splitLines_cons hc, hls]

theorem charAt?_splitLines (xs ys : List Char) {c : Char} (hc : c ≠ '\n') :
    charAt? (splitLines (xs ++ c :: ys)) (xs.count '\n') (lastLine xs).length = some c := by
  obtain ⟨l, hl⟩ := getElem?_splitLines_append xs ys hc
  simp [charAt?, hl]

/-- **Behind a prefix stands the rest of the text.** -/
theorem textFrom_splitLines (xs ys : List Char) :
    textFrom (splitLines (xs ++ ys)) (xs.count '\n') (lastLine xs).length = ys := by
  obtain ⟨m, ls, hls⟩ := List.exists_cons_of_ne_nil (splitLines_ne_nil ys)
  have hdrop : (splitLines (xs ++ ys)).drop (xs.count '\n') = (lastLine xs ++ m) :: ls := by
    rw [splitLines_append, hls]
    exact List.drop_left' (by simp [length_splitLines])
  have hys : joinLines (m :: ls) = ys := by rw [← hls, joinLines_splitLines]
  rw [textFrom, hdrop, ← hys]
  by_cases h : ls = []
  · subst h
    simp
  · simp [joinLines_cons _ h]

/-- The lines around a stretch of text without line feeds, whatever it is. -/
theorem splitLines_around (xs ys : List Char) :
    ∃ l below, ∀ cs, '\n' ∉ cs →
      splitLines (xs ++ (cs ++ ys)) =
        (splitLines xs).dropLast ++ (lastLine xs ++ (cs ++ l)) :: below := by
  obtain ⟨l, below, hls⟩ := List.exists_cons_of_ne_nil (splitLines_ne_nil ys)
  refine ⟨l, below, fun cs hcs => ?_⟩
  rw [splitLines_append, splitLines_append cs, splitLines_of_not_mem hcs, lastLine_of_not_mem hcs,
    hls]
  rfl

/-- A stretch of a line replaced: the other lines stay. -/
theorem exists_splitLines_set (xs ys : List Char) {cs ds : List Char} (hcs : '\n' ∉ cs)
    (hds : '\n' ∉ ds) :
    ∃ l, (splitLines (xs ++ (cs ++ ys)))[xs.count '\n']? = some (lastLine xs ++ (cs ++ l)) ∧
      splitLines (xs ++ (ds ++ ys)) =
        (splitLines (xs ++ (cs ++ ys))).set (xs.count '\n') (lastLine xs ++ (ds ++ l)) := by
  obtain ⟨l, below, hsplit⟩ := splitLines_around xs ys
  have hlen : (splitLines xs).dropLast.length = xs.count '\n' := by simp [length_splitLines]
  refine ⟨l, ?_, ?_⟩
  · rw [hsplit cs hcs, List.getElem?_append_right (by omega), hlen, Nat.sub_self]
    rfl
  · rw [hsplit cs hcs, hsplit ds hds, List.set_append_right _ _ (by omega), hlen, Nat.sub_self]
    rfl

/-- Whole lines in front of a text are lines of their own. -/
theorem splitLines_feedLines_append {ls : List (List Char)} (h : ∀ l ∈ ls, '\n' ∉ l)
    (cs : List Char) : splitLines (feedLines ls ++ cs) = ls ++ splitLines cs := by
  induction ls with
  | nil => rfl
  | cons l ls ih =>
    have hl : '\n' ∉ l := h l List.mem_cons_self
    have hls : ∀ m ∈ ls, '\n' ∉ m := fun m hm => h m (List.mem_cons_of_mem _ hm)
    rw [feedLines_cons, List.append_assoc, List.cons_append, splitLines_append_feed,
      splitLines_of_not_mem hl, ih hls]
    rfl

/-- Whole lines are cut again, with an empty piece behind the last. -/
theorem splitLines_feedLines {ls : List (List Char)} (h : ∀ l ∈ ls, '\n' ∉ l) :
    splitLines (feedLines ls) = ls ++ [[]] := by
  have hcut := splitLines_feedLines_append h []
  rwa [List.append_nil, splitLines_nil] at hcut

/-- Line feeds are counted by lines. -/
theorem count_feedLines {ls : List (List Char)} (h : ∀ l ∈ ls, '\n' ∉ l) :
    (feedLines ls).count '\n' = ls.length := by
  have hlen := congrArg List.length (splitLines_feedLines h)
  simpa [length_splitLines] using hlen

theorem count_joinLines {ls : List (List Char)} (h : ∀ l ∈ ls, '\n' ∉ l) (hne : ls ≠ []) :
    (joinLines ls).count '\n' + 1 = ls.length := by
  have hcount := count_feedLines h
  rw [feedLines_eq hne, List.count_append] at hcount
  simpa using hcount

end TweeLint.Text
