/-!
# Ranges of code points

A character property is written as the list of the ranges of code points that have it.
-/

namespace TweeLint.Text

/-- The code points from `first` to `last`, both included. -/
structure CodeRange where
  first : Nat
  last : Nat

namespace CodeRange

/-- Whether a character lies in one of several ranges, which stand in increasing order: those behind
the first that begins above the character are not looked at. -/
def anyHas (c : Char) : List CodeRange → Bool
  | [] => false
  | r :: rest => r.first ≤ c.toNat && (c.toNat ≤ r.last || anyHas c rest)

end CodeRange

end TweeLint.Text
