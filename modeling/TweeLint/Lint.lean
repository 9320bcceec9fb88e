import TweeLint.Balance
import TweeLint.Placement
import TweeLint.Suggestion

/-!
# Linting

A passage is linted in two ways: its calls are held against the vocabulary, and its parentheses are
checked for balance. A document is linted passage by passage.

`Report.lint` computes the report of a document. `Report.lintChecked` does the same work with every
value checked as it is made (`Placement`), the way in which values from outside are checked; for
the values that are made here no check fails.
-/

namespace TweeLint

/-! ### Names -/

/-- The diagnostic for a call whose name the vocabulary does not have. -/
def Vocabulary.verdict? (v : Vocabulary) (passage : String) (call : MacroCall) :
    Option Diagnostic :=
  if call.name ∈ v then none
  else some (.unknownCall passage call (v.suggest? call.name))

/-- The diagnostics for the calls of a passage, in their order. -/
def Vocabulary.verdicts (v : Vocabulary) (passage : String) (calls : List MacroCall) :
    List Diagnostic :=
  calls.filterMap (v.verdict? passage)

/-! ### Passages -/

namespace Passage

/-- The calls in the content of a passage. -/
def calls (p : Passage) : List MacroCall :=
  MacroCall.find p.contentStart p.content

/-- The diagnostics of a passage: those for names, then those for parentheses. -/
def lint (v : Vocabulary) (p : Passage) : List Diagnostic :=
  v.verdicts p.name p.calls ++ Balance.check p.name p.contentStart p.content

end Passage

/-! ### Documents -/

/-- The label of a document that is given as text. -/
def defaultSource : String := "<string>"

namespace Report

/-- The report of a document. -/
def lint (v : Vocabulary) (source document : String) : Report :=
  let ps := passages document
  ⟨source, ps.length, ps.flatMap (·.lint v)⟩

end Report

/-! ### Linting with every value checked -/

/-- What a check can find wrong in a run. -/
inductive LintError where
  /-- A value is out of bounds. -/
  | invalid (issues : List Issue)
  /-- The diagnostics do not fit the passages. -/
  | mismatch (e : GroupMismatch)
deriving DecidableEq

/-- The values of a list, each checked; the first that fails ends the run. -/
def checkEach {α : Type} (check : α → Checked α) (values : List α) :
    Except (List Issue) (List α) :=
  values.mapM fun a => (check a).toExcept

/-- The calls of a text that starts at `start`, each checked. -/
def MacroCall.findChecked (start : Position) (content : String) :
    Except (List Issue) (List MacroCall) :=
  checkEach MacroCall.check (MacroCall.find start content)

/-- The balance diagnostics of a text that starts at `start`, each checked. -/
def Balance.checkChecked (passage : String) (start : Position) (content : String) :
    Except (List Issue) (List Diagnostic) :=
  checkEach Diagnostic.check (Balance.check passage start content)

/-- The diagnostics of a passage, with every value checked. -/
def Passage.lintChecked (v : Vocabulary) (p : Passage) :
    Except (List Issue) (List Diagnostic) := do
  let calls ← MacroCall.findChecked p.contentStart p.content
  let names ← checkEach Diagnostic.check (v.verdicts p.name calls)
  let parentheses ← Balance.checkChecked p.name p.contentStart p.content
  return names ++ parentheses

/-- The passages of a document, each checked. -/
def passagesChecked (document : String) : Except (List Issue) (List Passage) :=
  checkEach Passage.check (passages document)

/-- The passages of a document with the diagnostics of each, every value checked. -/
def diagnosticsChecked (v : Vocabulary) (document : String) :
    Except (List Issue) (List Passage × List (List Diagnostic)) := do
  let ps ← passagesChecked document
  let groups ← ps.mapM (·.lintChecked v)
  return (ps, groups)

/-- The report of a document, with every value checked. -/
def Report.lintChecked (v : Vocabulary) (source document : String) : Except LintError Report := do
  let (ps, groups) ← (diagnosticsChecked v document).mapError LintError.invalid
  (Report.assemble source ps groups).mapError LintError.mismatch

end TweeLint
