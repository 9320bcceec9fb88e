/-!
# Version
-/

namespace TweeLint

/-- The version of the program. -/
def version : String := "1.0.0"

end TweeLint
