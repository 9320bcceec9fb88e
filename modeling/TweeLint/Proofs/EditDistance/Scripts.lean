import Mathlib.Order.Bounds.Defs
import TweeLint.Proofs.EditDistance.Rows

/-!
# Edit scripts

The edit distance is the least number of edits that turn one text into another, whatever the edits
are and wherever they are made (`distance_least_script`).

* **That many are enough** (`script_distance`): the recursion behind the rows takes one edit for
  each one that it counts.
* **Fewer are not** (`Script.distance_le`): an edit changes the distance to any third text by one at
  most (`Edit.backwards_le`). An edit is made behind some text that it leaves alone, and that text
  does not matter (`backwards_append_le`), so only edits of the first character are looked at.
-/

namespace TweeLint.EditDistance

/-- One edit: a character is put in, taken out or replaced by another. -/
inductive Edit : List Char → List Char → Prop
  | insert (pre post : List Char) (c : Char) : Edit (pre ++ post) (pre ++ c :: post)
  | delete (pre post : List Char) (c : Char) : Edit (pre ++ c :: post) (pre ++ post)
  | substitute (pre post : List Char) (c d : Char) : Edit (pre ++ c :: post) (pre ++ d :: post)

/-- A number of edits, one after the other, that turn a text into another. -/
inductive Script : Nat → List Char → List Char → Prop
  | done (a : List Char) : Script 0 a a
  | edit {k : Nat} {a b c : List Char} : Edit a b → Script k b c → Script (k + 1) a c

/-! ### Edits and scripts -/

theorem Edit.cons {a b : List Char} (h : Edit a b) (c : Char) : Edit (c :: a) (c :: b) := by
  cases h with
  | insert pre post d => exact .insert (c :: pre) post d
  | delete pre post d => exact .delete (c :: pre) post d
  | substitute pre post d e => exact .substitute (c :: pre) post d e

theorem Edit.reverse {a b : List Char} (h : Edit a b) : Edit a.reverse b.reverse := by
  cases h with
  | insert pre post c => simpa using Edit.insert post.reverse pre.reverse c
  | delete pre post c => simpa using Edit.delete post.reverse pre.reverse c
  | substitute pre post c d => simpa using Edit.substitute post.reverse pre.reverse c d

namespace Script

theorem cons {k : Nat} {a b : List Char} (h : Script k a b) (c : Char) :
    Script k (c :: a) (c :: b) := by
  induction h with
  | done a => exact .done (c :: a)
  | edit hedit _ ih => exact .edit (hedit.cons c) ih

theorem reverse {k : Nat} {a b : List Char} (h : Script k a b) :
    Script k a.reverse b.reverse := by
  induction h with
  | done a => exact .done a.reverse
  | edit hedit _ ih => exact .edit hedit.reverse ih

/-- One more edit at the end. -/
theorem concat {k : Nat} {a b c : List Char} (h : Script k a b) (hedit : Edit b c) :
    Script (k + 1) a c := by
  induction h with
  | done a => exact .edit hedit (.done c)
  | edit hfirst _ ih => exact .edit hfirst (ih hedit)

/-- The one of two scripts that has fewer edits. -/
theorem min {k l : Nat} {a b : List Char} (hk : Script k a b) (hl : Script l a b) :
    Script (min k l) a b := by
  rcases Nat.le_total k l with h | h
  · rwa [Nat.min_eq_left h]
  · rwa [Nat.min_eq_right h]

theorem insertAll (b : List Char) : Script b.length [] b := by
  induction b with
  | nil => exact .done []
  | cons c b ih => exact ih.concat (.insert [] b c)

theorem deleteAll (a : List Char) : Script a.length a [] := by
  induction a with
  | nil => exact .done []
  | cons c a ih => exact .edit (.delete [] a c) ih

end Script

/-! ### As many edits as are counted -/

theorem script_backwards (a b : List Char) : Script (backwards a b) a b := by
  fun_induction backwards a b with
  | case1 b => exact .insertAll b
  | case2 a => exact .deleteAll a
  | case3 c a x b hdelete hinsert hmatch =>
    refine .min (.min ?_ ?_) ?_
    · exact .edit (.delete [] a c) hdelete
    · exact hinsert.concat (.insert [] b x)
    · by_cases hc : c = x
      · subst hc
        rw [if_pos rfl]
        exact hmatch.cons c
      · rw [if_neg hc]
        exact .edit (.substitute [] a c x) (hmatch.cons x)

/-- **The distance is the number of edits of a script.** -/
theorem script_distance (a b : List Char) : Script (distance a b) a b := by
  rw [distance_eq, entry]
  simpa using (script_backwards a.reverse b.reverse).reverse

/-! ### No fewer edits -/

theorem backwards_self (a : List Char) : backwards a a = 0 := by
  induction a with
  | nil => exact backwards_nil_left []
  | cons c a ih => rw [backwards_cons_cons, ih, if_pos rfl, Nat.min_zero]

theorem backwards_cons_le (c : Char) (a b : List Char) :
    backwards (c :: a) b ≤ backwards a b + 1 := by
  cases b with
  | nil => rw [backwards_nil_right, backwards_nil_right, List.length_cons]
  | cons x b =>
    rw [backwards_cons_cons]
    omega

theorem backwards_le_cons (c : Char) (a b : List Char) :
    backwards a b ≤ backwards (c :: a) b + 1 := by
  induction b with
  | nil =>
    rw [backwards_nil_right, backwards_nil_right, List.length_cons]
    omega
  | cons x b ih =>
    -- a character more in the other text makes a difference of one at most
    have hmore := backwards_cons_le x b a
    rw [backwards_comm, backwards_comm b] at hmore
    rw [backwards_cons_cons]
    omega

theorem backwards_substitute_le (c d : Char) (a b : List Char) :
    backwards (c :: a) b ≤ backwards (d :: a) b + 1 := by
  induction b with
  | nil =>
    rw [backwards_nil_right, backwards_nil_right, List.length_cons, List.length_cons]
    omega
  | cons x b ih =>
    rw [backwards_cons_cons, backwards_cons_cons]
    split <;> split <;> omega

/-- What stands in front of an edit does not matter. -/
theorem backwards_append_le {a a' : List Char}
    (h : ∀ b, backwards a b ≤ backwards a' b + 1) (pre b : List Char) :
    backwards (pre ++ a) b ≤ backwards (pre ++ a') b + 1 := by
  induction pre generalizing b with
  | nil => exact h b
  | cons c pre ihpre =>
    rw [List.cons_append, List.cons_append]
    induction b with
    | nil =>
      have hnil := ihpre []
      rw [backwards_nil_right, backwards_nil_right] at hnil
      rw [backwards_nil_right, backwards_nil_right, List.length_cons, List.length_cons]
      omega
    | cons x b ih =>
      have hdelete := ihpre (x :: b)
      have hmatch := ihpre b
      rw [backwards_cons_cons, backwards_cons_cons]
      omega

/-- **An edit changes the distance to any text by one at most.** -/
theorem Edit.backwards_le {a a' : List Char} (h : Edit a a') (b : List Char) :
    backwards a b ≤ backwards a' b + 1 := by
  cases h with
  | insert pre post c => exact backwards_append_le (backwards_le_cons c post) pre b
  | delete pre post c => exact backwards_append_le (backwards_cons_le c post) pre b
  | substitute pre post c d => exact backwards_append_le (backwards_substitute_le c d post) pre b

theorem Script.backwards_le {k : Nat} {a b : List Char} (h : Script k a b) :
    backwards a b ≤ k := by
  induction h with
  | done a => rw [backwards_self]
  | edit hedit _ ih => exact Nat.le_trans (hedit.backwards_le _) (Nat.succ_le_succ ih)

/-- **No script has fewer edits** than the distance says. -/
theorem Script.distance_le {k : Nat} {a b : List Char} (h : Script k a b) : distance a b ≤ k := by
  rw [distance_eq, entry]
  exact h.reverse.backwards_le

theorem distance_eq_zero_iff {a b : List Char} : distance a b = 0 ↔ a = b := by
  constructor
  · intro h
    have hscript := script_distance a b
    rw [h] at hscript
    cases hscript
    rfl
  · rintro rfl
    exact Nat.le_zero.mp (Script.done a).distance_le

/-- **The edit distance is the least number of edits** that turn one text into another. The rows run
along the shorter text, for the characters of the longer one; every entry that is read on the way is
there, and so is the last one, which is the distance. -/
theorem distance_least_script (a b : List Char) :
    IsLeast {k | Script k a b} (distance a b) ∧
      ∃ long short,
        ((b.length ≤ a.length ∧ long = a ∧ short = b) ∨
          (a.length < b.length ∧ long = b ∧ short = a)) ∧
        (∀ front c, front ++ [c] <+: long → ∀ j < short.length, EntryRead front c short j) ∧
        (row long short).getLast? = some (distance a b) := by
  refine ⟨⟨script_distance a b, fun k h => h.distance_le⟩, ?_⟩
  by_cases hlt : a.length < b.length
  · refine ⟨b, a, Or.inr ⟨hlt, rfl, rfl⟩, fun front c _ j hj => entryRead front c hj, ?_⟩
    rw [getLast?_row, distance_eq]
    exact congrArg some (backwards_comm _ _)
  · refine ⟨a, b, Or.inl ⟨Nat.le_of_not_lt hlt, rfl, rfl⟩,
      fun front c _ j hj => entryRead front c hj, ?_⟩
    rw [getLast?_row, distance_eq]

example : distance "kitten".toList "sitting".toList = 3 := by decide

end TweeLint.EditDistance
