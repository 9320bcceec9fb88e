/-!
# Finite sets of names

A set of names is kept as its strictly increasing list in code point order. That list is the
canonical form of the set, so two sets are equal exactly when their lists are, whatever order and
repetitions they were built from, and anything that takes the first fitting name gets the same one.

`NameSet.ofList` builds a set, `mem_ofList` says that it keeps exactly the names it was given.
-/

namespace TweeLint

/-- A finite set of names. -/
@[ext] structure NameSet where
  names : List String
  sorted : names.Pairwise (· < ·)
deriving DecidableEq

namespace NameSet

/-- The set without names. -/
def empty : NameSet := ⟨[], .nil⟩

instance : Inhabited NameSet := ⟨empty⟩

instance : Membership String NameSet :=
  ⟨fun s name => name ∈ s.names⟩

instance (s : NameSet) (name : String) : Decidable (name ∈ s) :=
  inferInstanceAs (Decidable (name ∈ s.names))

/-- The number of names. -/
def size (s : NameSet) : Nat := s.names.length

/-! ### Insertion -/

/-- Puts a name into its place in an increasing list; a name that is there already stays. -/
def insertSorted (name : String) : List String → List String
  | [] => [name]
  | x :: xs =>
    if name < x then name :: x :: xs
    else if name = x then x :: xs
    else x :: insertSorted name xs

theorem mem_insertSorted {name y : String} {xs : List String} :
    y ∈ insertSorted name xs ↔ y = name ∨ y ∈ xs := by
  induction xs with
  | nil => simp [insertSorted]
  | cons x xs ih =>
    unfold insertSorted
    split
    · simp
    · split
      · next h => subst h; simp
      · simp only [List.mem_cons, ih]
        exact or_left_comm

theorem pairwise_insertSorted {name : String} {xs : List String} (h : xs.Pairwise (· < ·)) :
    (insertSorted name xs).Pairwise (· < ·) := by
  induction xs with
  | nil => simp [insertSorted]
  | cons x xs ih =>
    obtain ⟨hx, hxs⟩ := List.pairwise_cons.mp h
    unfold insertSorted
    split
    · next hlt =>
      refine List.pairwise_cons.mpr ⟨fun y hy => ?_, h⟩
      rcases List.mem_cons.mp hy with rfl | hy
      · exact hlt
      · exact String.lt_trans hlt (hx y hy)
    · next hge =>
      split
      · exact h
      · next hne =>
        refine List.pairwise_cons.mpr ⟨fun y hy => ?_, ih hxs⟩
        rcases mem_insertSorted.mp hy with rfl | hy
        · exact Std.lt_of_le_of_ne hge (Ne.symm hne)
        · exact hx y hy

/-- The set with one more name. -/
def insert (name : String) (s : NameSet) : NameSet :=
  ⟨insertSorted name s.names, pairwise_insertSorted s.sorted⟩

theorem mem_insert {name y : String} {s : NameSet} : y ∈ s.insert name ↔ y = name ∨ y ∈ s :=
  mem_insertSorted

/-- The set of the names in a list. -/
def ofList (names : List String) : NameSet :=
  names.foldr insert empty

theorem mem_ofList {names : List String} {y : String} : y ∈ ofList names ↔ y ∈ names := by
  induction names with
  | nil => exact Iff.rfl
  | cons x xs ih =>
    rw [List.mem_cons, ← ih]
    exact mem_insert

end NameSet

end TweeLint
