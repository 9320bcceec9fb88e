import TweeLint.Checked
import TweeLint.Json
import TweeLint.Numeral
import TweeLint.Placement

/-!
# Passages, calls, diagnostics and reports as JSON

The JSON form of each value, in both directions. Writing gives an object with the members in a fixed
order. Reading takes an object, passes over members it does not know, fills in what may be left out,
and reports every member that is missing or unfit. Where an integer is asked for, a truth value
counts as 1 or 0, and a text that holds an integer counts as that integer.
-/

namespace TweeLint

/-! ### Members of a record -/

namespace Record

/-- A member that must be there. -/
def required {α : Type} (name : String) (read : Json → Checked α) (record : Json) : Checked α :=
  match record.get? name with
  | none => (Checked.fail .missing).under (.field name)
  | some j => (read j).under (.field name)

/-- A member that may be left out, with the value that it then has. -/
def optional {α : Type} (name : String) (default : α) (read : Json → Checked α) (record : Json) :
    Checked α :=
  match record.get? name with
  | none => .valid default
  | some j => (read j).under (.field name)

/-- A text. -/
def text : Json → Checked String
  | .string s => .valid s
  | _ => .fail .notText

/-- A text or null. -/
def textOrNull : Json → Checked (Option String)
  | .null => .valid none
  | j => some <$> text j

/-- The integer that a text holds. -/
def integerText (s : String) : Checked Int :=
  match Numeral.ofSetting s with
  | .ok n => .valid n
  | .error .unreadable => .fail .unreadableInteger
  | .error .tooLong => .fail .oversizedInteger

/-- An integer. -/
def integer : Json → Checked Int
  | .int n => .valid n
  | .bool b => .valid (if b then 1 else 0)
  | .string s => integerText s
  | _ => .fail .notInteger

/-- An integer that is not below its least value. -/
def integerFrom (least : Int) (j : Json) : Checked Int :=
  (integer j).andThen (Checked.atLeast least)

/-- A set of texts. -/
def textSet : Json → Checked NameSet
  | .array items => NameSet.ofList <$> Checked.list text items
  | _ => .fail .notSet

end Record

/-! ### Issues -/

/-- A part of the way to an issue. -/
def Key.toJson : Key → Json
  | .field name => .string name
  | .index i => .int i

/-- An issue as JSON. -/
def Issue.toJson (issue : Issue) : Json :=
  .object [("loc", .array (issue.path.map Key.toJson)), ("type", .string issue.fault.label),
    ("msg", .string issue.fault.message)]

open Record

/-! ### Calls -/

namespace MacroCall

/-- A call as JSON. -/
def toJson (c : MacroCall) : Json :=
  .object [("name", .string c.name), ("line", .int c.position.line),
    ("column", .int c.position.column), ("offset", .int c.offset)]

/-- The call that a record holds. -/
def ofJson (record : Json) : Checked MacroCall :=
  (fun name line column offset => ⟨name, ⟨line, column⟩, offset.toNat⟩) <$>
    required "name" text record <*> required "line" (integerFrom 1) record <*>
    required "column" (integerFrom 1) record <*> required "offset" (integerFrom 0) record

end MacroCall

/-! ### Passages -/

namespace Passage

/-- A passage as JSON. -/
def toJson (p : Passage) : Json :=
  .object [("name", .string p.name), ("tags", .array (p.tags.names.map .string)),
    ("content", .string p.content), ("start_line", .int p.headerLine),
    ("content_line", .int p.contentStart.line), ("content_column", .int p.contentStart.column)]

/-- The passage that a record holds. -/
def ofJson (record : Json) : Checked Passage :=
  (fun name tags content headerLine line column =>
      ⟨name, tags, content, headerLine, ⟨line, column⟩⟩) <$>
    required "name" text record <*> optional "tags" .empty textSet record <*>
    optional "content" "" text record <*> required "start_line" (integerFrom 1) record <*>
    required "content_line" (integerFrom 1) record <*>
    optional "content_column" 1 (integerFrom 1) record

end Passage

/-! ### Diagnostics -/

namespace DiagnosticKind

/-- The kind that is named. -/
def ofJson : Json → Checked DiagnosticKind
  | .string s =>
    match ofLabel? s with
    | some kind => .valid kind
    | none => .fail .notKind
  | _ => .fail .notKind

end DiagnosticKind

namespace Diagnostic

/-- A diagnostic as JSON. -/
def toJson (d : Diagnostic) : Json :=
  .object [("kind", .string d.kind.label), ("passage", .string d.passage),
    ("line", .int d.position.line), ("column", .int d.position.column),
    ("message", .string d.message), ("suggestion", .ofOption d.suggestion)]

/-- The diagnostic that a record holds. -/
def ofJson (record : Json) : Checked Diagnostic :=
  (fun kind passage line column message suggestion =>
      ⟨kind, passage, ⟨line, column⟩, message, suggestion⟩) <$>
    required "kind" DiagnosticKind.ofJson record <*> required "passage" text record <*>
    required "line" (integerFrom 1) record <*> required "column" (integerFrom 1) record <*>
    required "message" text record <*> optional "suggestion" none textOrNull record

/-- The diagnostic that an item of a list holds. -/
def ofItem (item : Json) : Checked Diagnostic :=
  match item with
  | .object _ => ofJson item
  | _ => .fail .notDiagnostic

end Diagnostic

/-! ### Reports -/

namespace Report

/-- A report as JSON. -/
def toJson (r : Report) : Json :=
  .object [("source", .string r.source), ("passage_count", .int r.passageCount),
    ("diagnostics", .array (r.diagnostics.map Diagnostic.toJson)), ("is_valid", .bool r.isValid)]

/-- A report as one line of JSON. -/
def toJsonLine (r : Report) : String :=
  r.toJson.toText

/-- A list of diagnostics. -/
def diagnosticList : Json → Checked (List Diagnostic)
  | .array items => Checked.list Diagnostic.ofItem items
  | _ => .fail .notList

/-- The report that a record holds. -/
def ofJson (record : Json) : Checked Report :=
  (fun source count diagnostics => ⟨source, count.toNat, diagnostics⟩) <$>
    required "source" Record.text record <*> required "passage_count" (integerFrom 0) record <*>
    optional "diagnostics" [] diagnosticList record

end Report

end TweeLint
