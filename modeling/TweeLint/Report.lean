import TweeLint.Diagnostic
import TweeLint.Passage

/-!
# Reports

The outcome of linting one document: where the text came from, how many passages it has, and the
diagnostics of its passages, in passage order and for each passage in the order in which they were
found.
-/

namespace TweeLint

/-- The outcome of linting one document. -/
structure Report where
  source : String
  passageCount : Nat
  diagnostics : List Diagnostic
deriving DecidableEq, Inhabited

/-- Why diagnostics cannot be put together to a report: there is not one group for each passage. -/
structure GroupMismatch where
  groups : Nat
  passages : Nat
deriving DecidableEq

namespace GroupMismatch

/-- The text of the error. -/
def message (e : GroupMismatch) : String :=
  s!"Got diagnostics for {e.groups} passages, expected {e.passages}"

end GroupMismatch

namespace Report

/-- A document is valid if nothing was found. -/
def isValid (r : Report) : Bool :=
  r.diagnostics.isEmpty

/-- The diagnostics of one kind, in report order. -/
def ofKind (r : Report) (kind : DiagnosticKind) : List Diagnostic :=
  r.diagnostics.filter fun d => d.kind = kind

/-- Puts the diagnostics of the passages, one group for each, together to a report. -/
def assemble (source : String) (passages : List Passage) (groups : List (List Diagnostic)) :
    Except GroupMismatch Report :=
  if passages.length = groups.length then .ok ⟨source, passages.length, groups.flatten⟩
  else .error ⟨groups.length, passages.length⟩

/-! ### The report as text -/

/-- The lines for one diagnostic: what and where, and below it the suggestion unless it is
empty. -/
def diagnosticLines (d : Diagnostic) : List String :=
  let place := s!"  {d.passage} (line {d.position.line}, col {d.position.column}): {d.message}"
  match d.suggestion with
  | none => [place]
  | some name => if name.isEmpty then [place] else [place, s!"    Did you mean: {name}?"]

/-- The lines of a report. -/
def textLines (r : Report) : List String :=
  ["", s!"Linting: {r.source}", s!"Passages checked: {r.passageCount}", ""] ++
    if r.isValid then ["✓ No errors found!"]
    else s!"Errors ({r.diagnostics.length}):" :: r.diagnostics.flatMap diagnosticLines

/-- The report for a reader, each line with its line feed. -/
def text (r : Report) : String :=
  String.ofList (r.textLines.flatMap fun line => line.toList ++ ['\n'])

end Report

end TweeLint
