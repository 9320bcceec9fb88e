import TweeLint.EditDistance
import TweeLint.Text.Lowercase
import TweeLint.Vocabulary

/-!
# Suggestions

The name of a vocabulary that is closest to a given one. A name that differs in letter case alone
wins at once. Otherwise it is the name at the smallest edit distance, letter case apart, as long as
that distance is small; of several such names the first in code point order is taken.
-/

namespace TweeLint

/-- The largest distance at which a name is still suggested. -/
def maxSuggestionDistance : Nat := 2

/-- The distance of two names, letter case apart. -/
def nameDistance (a b : String) : Nat :=
  EditDistance.distance (Text.lower a.toList) (Text.lower b.toList)

/-- Whether two names differ in letter case at most. -/
def sameLetters (a b : String) : Bool :=
  Text.lower a.toList == Text.lower b.toList

namespace Vocabulary

/-- The nearest name so far, with its distance, after one more candidate: only a smaller distance
replaces it. -/
def nearer (name : String) (best : Option String × Nat) (candidate : String) :
    Option String × Nat :=
  let d := nameDistance name candidate
  if d < best.2 then (some candidate, d) else best

/-- The first of the nearest names within the largest distance. -/
def nearest? (v : Vocabulary) (name : String) : Option String :=
  (v.names.foldl (nearer name) (none, maxSuggestionDistance + 1)).1

/-- The name to suggest in place of `name`. -/
def suggest? (v : Vocabulary) (name : String) : Option String :=
  match v.names.find? (fun candidate => sameLetters candidate name) with
  | some candidate => some candidate
  | none => v.nearest? name

end Vocabulary

end TweeLint
