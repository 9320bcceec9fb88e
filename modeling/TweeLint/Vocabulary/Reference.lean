import TweeLint.MacroCall
import TweeLint.Vocabulary

/-!
# Reading a vocabulary out of a reference manual

The manual is a markdown text. One section of it lists every name; it begins at the first
occurrence of its heading (`sectionStart`) and ends at the first occurrence of the next heading
(`sectionEnd`). Text outside that section has no influence.

In the section a name stands in one of two places: in a bulleted entry `* [(name: …)](…)`, or, for
an alias, alone in parentheses on an indented line, `(name:)`. A line is indented if blanks stand
between its start and the parenthesis; since a line feed is itself a blank, the start may be that of
an earlier line from which only blanks follow.

Letters are matched without regard to case, and a few letters outside ASCII have an ASCII letter as
their other case (`isFoldedNameChar`); so these too can stand in a listed name.
-/

namespace TweeLint.Vocabulary.Reference

/-- The heading at which the list of names begins. -/
def sectionStart : List Char := "##### List of macros".toList

/-- The heading at which the list of names ends. -/
def sectionEnd : List Char := "##### Special keywords".toList

/-- The index of the first occurrence of a pattern in a text whose first character has index `i`. -/
def findFrom (pattern : List Char) (i : Nat) : List Char → Option Nat
  | [] => if pattern.isEmpty then some i else none
  | c :: rest =>
    if pattern.isPrefixOf (c :: rest) then some i else findFrom pattern (i + 1) rest

/-- The index of the first occurrence of a pattern in a text. -/
def find? (pattern text : List Char) : Option Nat :=
  findFrom pattern 0 text

/-- The section that lists the names. There is none if a heading is missing or if the one that ends
it comes first. -/
def section? (text : List Char) : Option (List Char) :=
  match find? sectionStart text, find? sectionEnd text with
  | some first, some last => if last < first then none else some ((text.take last).drop first)
  | _, _ => none

/-- The letters outside ASCII whose other case is an ASCII letter: the dotted capital and the
dotless small i, the long s and the kelvin sign. -/
def isFoldedNameChar (c : Char) : Bool :=
  c == '\u0130' || c == '\u0131' || c == '\u017F' || c == '\u212A'

/-- Whether a character can stand in a listed name. -/
def isNameChar (c : Char) : Bool :=
  MacroCall.isNameChar c || isFoldedNameChar c

/-- A name at the front of a text, with what follows it. -/
def leadingName? (text : List Char) : Option (List Char × List Char) :=
  let name := text.takeWhile isNameChar
  if name.isEmpty then none else some (name, text.dropWhile isNameChar)

/-- The name of a bulleted entry, from the text behind its bullet. -/
def entryBehind? (text : List Char) : Option (List Char) :=
  match text with
  | [] => none
  | c :: _ =>
    if Text.isBlank c then
      match text.dropWhile Text.isBlank with
      | '[' :: '(' :: rest =>
        match leadingName? rest with
        | some (name, ':' :: _) => some name
        | _ => none
      | _ => none
    else none

/-- The name of an alias, from the text behind its opening parenthesis. -/
def aliasBehind? (text : List Char) : Option (List Char) :=
  match leadingName? text with
  | some (name, ':' :: ')' :: _) => some name
  | _ => none

/-- What stands before a character on its line. -/
inductive Lead where
  /-- Nothing: the character begins a line. -/
  | lineStart
  /-- Only blanks since the start of this line or of an earlier one. -/
  | indented
  /-- Something other than blanks on this line. -/
  | text
deriving DecidableEq, Inhabited

/-- What stands before the next character. -/
def Lead.next (lead : Lead) (c : Char) : Lead :=
  if lead = .text then if c = '\n' then .lineStart else .text
  else if Text.isBlank c then .indented
  else .text

/-- The name that is listed at a character, which stands behind `lead` and before `rest`. -/
def nameAt? (lead : Lead) (c : Char) (rest : List Char) : Option (List Char) :=
  if c = '*' then entryBehind? rest
  else if c = '(' && lead = .indented then aliasBehind? rest
  else none

/-- The names listed in a text, in front of those found before it; the latest comes first. -/
def collect (lead : Lead) (found : List (List Char)) : List Char → List (List Char)
  | [] => found
  | c :: rest => collect (lead.next c) ((nameAt? lead c rest).toList ++ found) rest

/-- The names listed in a section. -/
def listedNames (text : List Char) : List (List Char) :=
  collect .lineStart [] text

/-- The vocabulary of a reference manual, if it has the section that lists the names. -/
def vocabulary? (markdown : String) : Option Vocabulary :=
  (section? markdown.toList).map fun text =>
    NameSet.ofList ((listedNames text).map String.ofList)

end TweeLint.Vocabulary.Reference
