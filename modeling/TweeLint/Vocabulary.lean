import TweeLint.NameSet

/-!
# Vocabularies

The vocabulary of a run is the set of names that its calls may have. Names are compared exactly,
letter case included.
-/

namespace TweeLint

/-- The names that calls may have. -/
abbrev Vocabulary := NameSet

namespace Vocabulary

/-- A vocabulary in one line. -/
def describe (v : Vocabulary) : String :=
  s!"Vocabulary({v.size} names)"

end Vocabulary

end TweeLint
