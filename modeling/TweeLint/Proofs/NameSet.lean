import Mathlib.Data.List.Sort
import Mathlib.Data.String.Basic
import TweeLint.NameSet

/-!
# Sets of names

A set of names is known by its names (`NameSet.ext_of_mem_iff`), so two lists make the same set
exactly if they have the same names, in whatever order and however often (`NameSet.ofList_eq_iff`),
and building a set again from its own list gives it back (`NameSet.ofList_names`).

The order of the names is that of their code points (`NameSet.lt_iff_codePoints`).
-/

namespace TweeLint.NameSet

/-- The code points of a name. Lists of numbers are compared like words in a dictionary. -/
def codePoints (name : String) : List Nat :=
  name.toList.map Char.toNat

theorem codePoints_lt {a b : String} (h : a < b) : codePoints a < codePoints b :=
  List.map_lt (fun _ _ hlt => hlt) (String.lt_iff_toList_lt.mp h)

/-- **Names are in code point order.** -/
theorem lt_iff_codePoints {a b : String} : a < b ↔ codePoints a < codePoints b := by
  refine ⟨codePoints_lt, fun h => ?_⟩
  rcases lt_trichotomy a b with hlt | rfl | hgt
  · exact hlt
  · exact absurd h (lt_irrefl _)
  · exact absurd h (lt_asymm (codePoints_lt hgt))

theorem pairwise_codePoints (s : NameSet) :
    s.names.Pairwise fun a b => codePoints a < codePoints b :=
  s.sorted.imp codePoints_lt

/-- Sets of names are equal if they have the same names. -/
theorem ext_of_mem_iff {s t : NameSet} (h : ∀ name, name ∈ s ↔ name ∈ t) : s = t :=
  NameSet.ext (s.sorted.eq_of_mem_iff t.sorted h)

theorem ofList_names (s : NameSet) : ofList s.names = s :=
  ext_of_mem_iff fun _ => mem_ofList

/-- **Lists make the same set** if they have the same names, and only then. -/
theorem ofList_eq_iff {xs ys : List String} :
    ofList xs = ofList ys ↔ ∀ name, name ∈ xs ↔ name ∈ ys := by
  constructor
  · intro h name
    rw [← mem_ofList, h, mem_ofList]
  · intro h
    refine ext_of_mem_iff fun name => ?_
    rw [mem_ofList, mem_ofList, h]

theorem names_inj {s t : NameSet} : s.names = t.names ↔ s = t :=
  ⟨NameSet.ext, congrArg names⟩

end TweeLint.NameSet
