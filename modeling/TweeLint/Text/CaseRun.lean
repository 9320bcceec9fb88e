/-!
# Runs of case pairs

Letters and their other case mostly come in runs at a constant distance, either one after the other
or alternating. A case mapping is a list of such runs.
-/

namespace TweeLint.Text

/-- The code points `first`, `first + stride`, … up to `last`; the first one goes to `image` and the
others keep the distance. -/
structure CaseRun where
  first : Nat
  last : Nat
  stride : Nat
  image : Nat

namespace CaseRun

/-- Whether a code point belongs to a run. -/
def has (r : CaseRun) (n : Nat) : Bool :=
  r.first ≤ n && n ≤ r.last && (n - r.first) % r.stride == 0

/-- What a list of runs sends a character to, if it is in one of them. -/
def image? (rs : List CaseRun) (c : Char) : Option Char :=
  (rs.find? (·.has c.toNat)).map fun r => Char.ofNat (r.image + (c.toNat - r.first))

end CaseRun

end TweeLint.Text
