/-!
# JSON values

The values that a JSON text can hold, with the members of an object in the order in which they are
written. Integers are exact; a number with a fraction or an exponent keeps the text it was written
with, since nothing here computes with it.
-/

namespace TweeLint

/-- A JSON value. -/
inductive Json where
  | null
  | bool (b : Bool)
  | int (n : Int)
  /-- A number that is not written as an integer. -/
  | real (text : String)
  | string (s : String)
  | array (items : List Json)
  | object (members : List (String × Json))

namespace Json

instance : Inhabited Json := ⟨null⟩

/-- A string if there is one, and null otherwise. -/
def ofOption : Option String → Json
  | none => null
  | some s => string s

/-- The value of a member of an object. Of several members of one name the last one counts. -/
def get? (name : String) : Json → Option Json
  | object members => members.reverse.lookup name
  | _ => none

/-! ### Writing -/

/-- A character inside a written string. Quotes, backslashes and the control characters below the
space are escaped, and nothing else. -/
def writeChar (c : Char) : List Char :=
  if c = '"' then ['\\', '"']
  else if c = '\\' then ['\\', '\\']
  else if c = '\x08' then ['\\', 'b']
  else if c = '\x0C' then ['\\', 'f']
  else if c = '\n' then ['\\', 'n']
  else if c = '\r' then ['\\', 'r']
  else if c = '\t' then ['\\', 't']
  else if c.toNat < 0x20 then
    ['\\', 'u', '0', '0', Nat.digitChar (c.toNat / 16), Nat.digitChar (c.toNat % 16)]
  else [c]

/-- A written string. -/
def writeString (s : String) : List Char :=
  '"' :: s.toList.flatMap writeChar ++ ['"']

/-- The parts of a list with commas between them. -/
def commaSeparated (parts : List (List Char)) : List Char :=
  [','].intercalate parts

/-- A value as a JSON text without blanks. -/
def write : Json → List Char
  | null => "null".toList
  | bool b => (toString b).toList
  | int n => (toString n).toList
  | real text => text.toList
  | string s => writeString s
  | array items => '[' :: commaSeparated (items.map write) ++ [']']
  | object members =>
    '\x7b' :: commaSeparated (members.map fun m => writeString m.1 ++ ':' :: m.2.write) ++ ['\x7d']
decreasing_by
  · rename_i h
    have := List.sizeOf_lt_of_mem h
    simp only [array.sizeOf_spec]
    omega
  · rename_i h
    have := List.sizeOf_lt_of_mem h
    cases m
    simp only [object.sizeOf_spec, Prod.mk.sizeOf_spec] at *
    omega

/-- A value as a JSON text without blanks. -/
def toText (j : Json) : String :=
  String.ofList j.write

end Json

end TweeLint
