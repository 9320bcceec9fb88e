import TweeLint.Checked
import TweeLint.Passage
import TweeLint.Report

/-!
# Checking places

Lines and columns count from 1. These checks hold the values that carry a position to that:
passages, calls and diagnostics. A check gives the value back unchanged, or says which of its
numbers is too small, under the name that the number has in reports.
-/

namespace TweeLint

/-- Checks that a line or a column is at least 1. -/
def checkCount (name : String) (n : Int) : Checked Int :=
  (Checked.atLeast 1 n).under (.field name)

namespace Position

/-- Checks a position whose line and column have the given names. -/
def check (lineName columnName : String) (p : Position) : Checked Position :=
  Position.mk <$> checkCount lineName p.line <*> checkCount columnName p.column

end Position

namespace MacroCall

/-- Checks the position of a call. -/
def check (c : MacroCall) : Checked MacroCall :=
  (fun position => { c with position }) <$> c.position.check "line" "column"

end MacroCall

namespace Diagnostic

/-- Checks the position of a diagnostic. -/
def check (d : Diagnostic) : Checked Diagnostic :=
  (fun position => { d with position }) <$> d.position.check "line" "column"

end Diagnostic

namespace Passage

/-- Checks the header line and the place of the content of a passage. -/
def check (p : Passage) : Checked Passage :=
  (fun headerLine contentStart => { p with headerLine, contentStart }) <$>
    checkCount "start_line" p.headerLine <*>
    p.contentStart.check "content_line" "content_column"

end Passage

end TweeLint
