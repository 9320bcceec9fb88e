import Mathlib.Data.List.Infix
import TweeLint.EditDistance

/-!
# The rows of the edit distance

The distance of two texts by recursion on their last characters: the last character of one of them
is taken away or added, or the two are matched (`backwards`, on texts that are read from their
ends). The rows are the values of that recursion on the prefixes of one text (`row_eq`), so each row
has an entry for each prefix, every entry that the computation reads is there, and the last one is
the distance (`entryRead`, `distance_eq`).
-/

namespace TweeLint.EditDistance

/-- The distance of two texts that are read from their ends. -/
def backwards : List Char → List Char → Nat
  | [], b => b.length
  | a, [] => a.length
  | c :: a, x :: b =>
    min (min (backwards a (x :: b) + 1) (backwards (c :: a) b + 1))
      (backwards a b + if c = x then 0 else 1)
termination_by a b => a.length + b.length

theorem backwards_nil_left (b : List Char) : backwards [] b = b.length := by
  simp [backwards]

theorem backwards_nil_right (a : List Char) : backwards a [] = a.length := by
  cases a <;> simp [backwards]

theorem backwards_cons_cons (c x : Char) (a b : List Char) :
    backwards (c :: a) (x :: b) =
      min (min (backwards a (x :: b) + 1) (backwards (c :: a) b + 1))
        (backwards a b + if c = x then 0 else 1) := by
  rw [backwards]

theorem backwards_comm (a b : List Char) : backwards a b = backwards b a := by
  fun_induction backwards a b with
  | case1 b => rw [backwards_nil_right]
  | case2 a _ => rw [backwards_nil_left]
  | case3 c a x b ih₁ ih₂ ih₃ =>
    rw [backwards_cons_cons, ih₁, ih₂, ih₃, Nat.min_comm (_ + 1) (_ + 1)]
    simp only [eq_comm]

/-- What is found for two texts, from front to back. -/
def entry (a b : List Char) : Nat :=
  backwards a.reverse b.reverse

theorem entry_nil (b : List Char) : entry [] b = b.length := by
  simp [entry, backwards_nil_left]

theorem entry_concat_nil (a : List Char) (c : Char) : entry (a ++ [c]) [] = entry a [] + 1 := by
  simp [entry, backwards_nil_right]

theorem entry_concat_concat (a b : List Char) (c x : Char) :
    entry (a ++ [c]) (b ++ [x]) =
      min (min (entry a (b ++ [x]) + 1) (entry (a ++ [c]) b + 1))
        (entry a b + if c = x then 0 else 1) := by
  simp only [entry, List.reverse_append, List.reverse_cons, List.reverse_nil, List.nil_append,
    List.cons_append, backwards_cons_cons]

/-! ### Rows -/

theorem inits_ne_nil (b : List Char) : b.inits = [] :: b.inits.tail := by
  cases b <;> simp

/-- The rest of a row, behind the entry of the part `done` of the text. -/
theorem fill_eq (a : List Char) (c : Char) (done rest : List Char) :
    fill c (entry (a ++ [c]) done) (entry a done) rest
        (rest.inits.tail.map fun q => entry a (done ++ q)) =
      rest.inits.tail.map fun q => entry (a ++ [c]) (done ++ q) := by
  induction rest generalizing done with
  | nil => rfl
  | cons x rest ih =>
    have ih := ih (done ++ [x])
    simp only [List.append_assoc, List.singleton_append] at ih
    rw [List.inits_cons, List.tail_cons, List.map_map, List.map_map, inits_ne_nil rest,
      List.map_cons, List.map_cons, fill]
    simp only [Function.comp_apply]
    rw [← entry_concat_concat]
    exact congrArg (List.cons _) ih

theorem nextRow_eq (a b : List Char) (c : Char) :
    nextRow b (b.inits.map (entry a)) c = b.inits.map (entry (a ++ [c])) := by
  have hfill := fill_eq a c [] b
  simp only [List.nil_append] at hfill
  rw [inits_ne_nil, List.map_cons, List.map_cons, nextRow, entry_concat_nil]
  rw [← entry_concat_nil]
  exact congrArg (List.cons _) hfill

/-- The row of the empty text counts the characters of each prefix. -/
theorem range_eq_inits (b : List Char) : List.range (b.length + 1) = b.inits.map (entry []) := by
  refine List.ext_getElem (by simp) fun j hj hj' => ?_
  rw [List.getElem_range, List.getElem_map, List.getElem_inits, entry_nil, List.length_take,
    Nat.min_eq_left (by simpa [Nat.lt_succ_iff] using hj)]

theorem row_concat (a b : List Char) (c : Char) : row (a ++ [c]) b = nextRow b (row a b) c := by
  rw [row, List.foldl_append]
  rfl

/-- **A row has an entry for each prefix** of the text that it runs along. -/
theorem row_eq (a b : List Char) : row a b = b.inits.map (entry a) := by
  induction a using List.reverseRecOn with
  | nil => exact range_eq_inits b
  | append_singleton a c ih => rw [row_concat, ih, nextRow_eq]

theorem getElem?_row (a : List Char) {b : List Char} {j : Nat} (hj : j ≤ b.length) :
    (row a b)[j]? = some (entry a (b.take j)) := by
  rw [row_eq, List.getElem?_map, List.getElem?_eq_getElem (by simpa using Nat.lt_succ_of_le hj),
    List.getElem_inits]
  rfl

theorem getLast?_row (a b : List Char) : (row a b).getLast? = some (entry a b) := by
  have hlength : (row a b).length - 1 = b.length := by simp [row_eq]
  rw [List.getLast?_eq_getElem?, hlength, getElem?_row a (Nat.le_refl _), List.take_length]

theorem distance_eq (a b : List Char) : distance a b = entry a b := by
  have hcomm : entry b a = entry a b := backwards_comm _ _
  simp only [distance, List.getLastD_eq_getLast?, getLast?_row, Option.getD_some, hcomm, ite_self]

/-! ### What is read -/

/-- Entry `j + 1` of the row behind the character `c`, along the text `b`, is found from three
entries that are there: the two above it, in the row of the text `a` in front of `c`, and the one
found last. -/
def EntryRead (a : List Char) (c : Char) (b : List Char) (j : Nat) : Prop :=
  ∃ x up left diagonal, b[j]? = some x ∧ (row a b)[j + 1]? = some up ∧
    (row (a ++ [c]) b)[j]? = some left ∧ (row a b)[j]? = some diagonal ∧
    (row (a ++ [c]) b)[j + 1]? =
      some (min (min (up + 1) (left + 1)) (diagonal + if c = x then 0 else 1))

theorem entryRead (a : List Char) (c : Char) {b : List Char} {j : Nat} (hj : j < b.length) :
    EntryRead a c b j := by
  have htake : b.take (j + 1) = b.take j ++ [b[j]] := by simp
  refine ⟨b[j], entry a (b.take (j + 1)), entry (a ++ [c]) (b.take j), entry a (b.take j),
    List.getElem?_eq_getElem hj, getElem?_row a hj, getElem?_row _ (Nat.le_of_lt hj),
    getElem?_row a (Nat.le_of_lt hj), ?_⟩
  rw [getElem?_row _ hj, htake, entry_concat_concat]

end TweeLint.EditDistance
