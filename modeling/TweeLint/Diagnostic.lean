import TweeLint.MacroCall

/-!
# Diagnostics

What a check reports about a passage: the kind of problem, the passage, where it is, a message, and
a correction if there is one.
-/

namespace TweeLint

/-- The problems that are looked for. -/
inductive DiagnosticKind where
  /-- A call whose name the vocabulary does not have. -/
  | invalidMacro
  /-- An opening parenthesis that nothing closes. -/
  | unclosedMacro
  /-- A closing parenthesis that closes nothing. -/
  | unmatchedParenthesis
deriving DecidableEq, Inhabited

namespace DiagnosticKind

/-- The name of a kind in reports. -/
def label : DiagnosticKind → String
  | invalidMacro => "invalid-macro"
  | unclosedMacro => "unclosed-macro"
  | unmatchedParenthesis => "unmatched-parenthesis"

/-- All kinds, in the order in which they are listed. -/
def all : List DiagnosticKind := [invalidMacro, unclosedMacro, unmatchedParenthesis]

/-- The kind with a given name. -/
def ofLabel? (s : String) : Option DiagnosticKind :=
  all.find? fun k => k.label = s

end DiagnosticKind

/-- One problem in a passage. -/
structure Diagnostic where
  kind : DiagnosticKind
  passage : String
  position : Position
  message : String
  suggestion : Option String
deriving DecidableEq, Inhabited

namespace Diagnostic

/-- The report on a call whose name is unknown. -/
def unknownCall (passage : String) (call : MacroCall) (suggestion : Option String) :
    Diagnostic where
  kind := .invalidMacro
  passage
  position := call.position
  message := s!"Unknown macro name: '{call.name}'"
  suggestion

/-- The report on an opening parenthesis that stays open. -/
def unclosed (passage : String) (position : Position) : Diagnostic where
  kind := .unclosedMacro
  passage
  position
  message := "Unclosed macro or parenthesis"
  suggestion := none

/-- The report on a closing parenthesis without an opening one. -/
def unmatched (passage : String) (position : Position) : Diagnostic where
  kind := .unmatchedParenthesis
  passage
  position
  message := "Unexpected closing parenthesis"
  suggestion := none

end Diagnostic

end TweeLint
