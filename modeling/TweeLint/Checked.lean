/-!
# Checked values

Data that comes from outside is taken only if it has the right form. A check either gives a value or
the list of everything that is wrong (`Checked`), and a check of several fields reports the issues
of all of them, in the order of the fields. An issue says where it is and what the fault is.
-/

namespace TweeLint

/-- One part of the way to a part of a value: the name of a field or an index, from 0. -/
inductive Key where
  | field (name : String)
  | index (i : Nat)
deriving DecidableEq

/-- A part of the way as text. -/
def Key.text : Key → String
  | field name => name
  | index i => toString i

/-- What can be wrong with a part of a value. -/
inductive Fault where
  /-- A field that must be there is not. -/
  | missing
  | notText
  | notInteger
  /-- A text that does not have the form of an integer. -/
  | unreadableInteger
  /-- A text that has the form of an integer with too many digits. -/
  | oversizedInteger
  /-- A number below its least value. -/
  | below (least : Int)
  /-- A text shorter than its least length, which is not zero. -/
  | tooShort (least : Nat)
  /-- A text that is not the name of a kind of diagnostic. -/
  | notKind
  /-- Something other than an array where a set should be. -/
  | notSet
  /-- Something other than an array where a list should be. -/
  | notList
  /-- Something other than an object where a diagnostic should be. -/
  | notDiagnostic
  /-- Something other than an object where a request should be. -/
  | notObject
  /-- A text that is not JSON. -/
  | notJson
  /-- A change to a value that does not change. -/
  | frozen
deriving DecidableEq

namespace Fault

/-- The name of a fault. -/
def label : Fault → String
  | missing => "missing"
  | notText => "string_type"
  | notInteger => "int_type"
  | unreadableInteger => "int_parsing"
  | oversizedInteger => "int_parsing_size"
  | below _ => "greater_than_equal"
  | tooShort _ => "string_too_short"
  | notKind => "enum"
  | notSet => "frozen_set_type"
  | notList => "tuple_type"
  | notDiagnostic => "model_type"
  | notObject => "model_attributes_type"
  | notJson => "json_invalid"
  | frozen => "frozen_instance"

/-- The text of a fault. -/
def message : Fault → String
  | missing => "Field required"
  | notText => "Input should be a valid string"
  | notInteger => "Input should be a valid integer"
  | unreadableInteger => "Input should be a valid integer, unable to parse string as an integer"
  | oversizedInteger => "Unable to parse input string as an integer, exceeded maximum size"
  | below least => s!"Input should be greater than or equal to {least}"
  | tooShort least =>
    s!"String should have at least {least} character" ++ if least = 1 then "" else "s"
  | notKind => "Input should be 'invalid-macro', 'unclosed-macro' or 'unmatched-parenthesis'"
  | notSet => "Input should be a valid frozenset"
  | notList => "Input should be a valid tuple"
  | notDiagnostic => "Input should be a valid dictionary or instance of Diagnostic"
  | notObject => "Input should be a valid dictionary or object to extract fields from"
  | notJson => "JSON decode error"
  | frozen => "Instance is frozen"

end Fault

/-- A fault with the way to the part that has it. -/
structure Issue where
  path : List Key
  fault : Fault
deriving DecidableEq

namespace Issue

/-- The issue seen from one level further out. -/
def under (key : Key) (issue : Issue) : Issue :=
  { issue with path := key :: issue.path }

/-- An issue as text. -/
def text (issue : Issue) : String :=
  let place := ".".intercalate (issue.path.map Key.text)
  s!"{place}: {issue.fault.message}"

end Issue

/-- A value, or all that is wrong with it. -/
inductive Checked (α : Type) where
  | valid (a : α)
  | invalid (issues : List Issue)

namespace Checked

variable {α β : Type}

/-- A part that has a fault. -/
def fail (fault : Fault) : Checked α := .invalid [⟨[], fault⟩]

/-- Checks two parts and puts their values together; the issues of the first part come first. -/
def combine (f : Checked (α → β)) (a : Checked α) : Checked β :=
  match f, a with
  | .valid g, .valid x => .valid (g x)
  | .valid _, .invalid later => .invalid later
  | .invalid earlier, .valid _ => .invalid earlier
  | .invalid earlier, .invalid later => .invalid (earlier ++ later)

instance : Applicative Checked where
  pure := .valid
  seq f a := combine f (a ())

/-- A check of a part, seen from one level further out. -/
def under (key : Key) : Checked α → Checked α
  | .valid a => .valid a
  | .invalid issues => .invalid (issues.map (·.under key))

/-- Goes on with a value that has no issues. -/
def andThen (a : Checked α) (f : α → Checked β) : Checked β :=
  match a with
  | .valid x => f x
  | .invalid issues => .invalid issues

/-- Puts a checked item in front of the checked items behind it. -/
def consItem (a : Checked α) (rest : Checked (List α)) : Checked (List α) :=
  combine (combine (.valid List.cons) a) rest

/-- Checks every item of a list, each under its index. -/
def list (check : β → Checked α) (items : List β) : Checked (List α) :=
  items.zipIdx.foldr (fun (b, i) rest => consItem ((check b).under (.index i)) rest) (.valid [])

/-- The value, or else the issues as an error. -/
def toExcept : Checked α → Except (List Issue) α
  | .valid a => .ok a
  | .invalid issues => .error issues

/-- An integer that is not below its least value. -/
def atLeast (least : Int) (n : Int) : Checked Int :=
  if n < least then fail (.below least) else .valid n

end Checked

end TweeLint
