import TweeLint.Proofs.EditDistance.Scripts

/-!
# The edit distance is a metric

Texts are apart by zero exactly if they are the same, as far in one direction as in the other, and
no further than over any third text; and the distance lies between the difference of their lengths
and the longer of the two (`distance_metric`).

All of it is read off scripts, of which the distance is the least length. A script can be undone
(`Script.symm`), another one can follow it (`Script.append`), each edit makes a text longer by one
character at most (`Script.length_le`), and one text can be written over another
(`Script.overwrite`). The rows are not opened: they run along the shorter text, and three distances
between three texts come from rows along different ones.
-/

namespace TweeLint.EditDistance

variable {a b c : List Char}

/-! ### Scripts undone and continued -/

/-- Every edit can be undone by an edit. -/
theorem Edit.symm (h : Edit a b) : Edit b a := by
  cases h with
  | insert pre post c => exact .delete pre post c
  | delete pre post c => exact .insert pre post c
  | substitute pre post c d => exact .substitute pre post d c

namespace Script

variable {k l : Nat}

/-- **A script read backwards** undoes its edits, the last one first. -/
theorem symm (h : Script k a b) : Script k b a := by
  induction h with
  | done a => exact .done a
  | edit hedit _ ih => exact ih.concat hedit.symm

/-- A script behind a script. -/
theorem append (h : Script k a b) (h' : Script l b c) : Script (k + l) a c := by
  induction h with
  | done a =>
    rw [Nat.zero_add]
    exact h'
  | @edit k _ _ _ hedit _ ih =>
    rw [Nat.add_right_comm]
    exact .edit hedit (ih h')

end Script

/-! ### Lengths -/

/-- An edit adds one character at most. -/
theorem Edit.length_le (h : Edit a b) : b.length ≤ a.length + 1 := by
  cases h <;> simp only [List.length_append, List.length_cons] <;> omega

theorem Script.length_le {k : Nat} (h : Script k a b) : b.length ≤ a.length + k := by
  induction h with
  | done a => exact Nat.le_refl _
  | edit hedit _ ih =>
    have hfirst := hedit.length_le
    omega

/-- One text written over another: a substitution for each character that both have, and an edit for
each one that only the longer has. -/
theorem Script.overwrite (a b : List Char) : Script (max a.length b.length) a b := by
  induction a generalizing b with
  | nil =>
    rw [List.length_nil, Nat.zero_max]
    exact .insertAll b
  | cons c a ih =>
    cases b with
    | nil =>
      rw [List.length_nil, Nat.max_zero]
      exact .deleteAll (c :: a)
    | cons x b =>
      rw [List.length_cons, List.length_cons, Nat.succ_max_succ]
      exact .edit (.substitute [] a c x) ((ih b).cons x)

/-! ### Distances -/

theorem distance_comm (a b : List Char) : distance a b = distance b a :=
  Nat.le_antisymm (script_distance b a).symm.distance_le (script_distance a b).symm.distance_le

/-- **No detour over a third text is shorter.** -/
theorem distance_le_add (a b c : List Char) : distance a c ≤ distance a b + distance b c :=
  ((script_distance a b).append (script_distance b c)).distance_le

theorem length_le_add_distance (a b : List Char) : b.length ≤ a.length + distance a b :=
  (script_distance a b).length_le

/-- **The edit distance is a metric** on texts, bounded by their lengths from both sides. -/
theorem distance_metric (a b c : List Char) :
    (distance a b = 0 ↔ a = b) ∧
      distance a b = distance b a ∧
      distance a c ≤ distance a b + distance b c ∧
      ((a.length : Int) - b.length).natAbs ≤ distance a b ∧
      distance a b ≤ max a.length b.length := by
  have hlengths : ((a.length : Int) - b.length).natAbs ≤ distance a b := by
    have hforth := length_le_add_distance a b
    have hback := length_le_add_distance b a
    rw [distance_comm b a] at hback
    omega
  exact ⟨distance_eq_zero_iff, distance_comm a b, distance_le_add a b c, hlengths,
    (Script.overwrite a b).distance_le⟩

end TweeLint.EditDistance
