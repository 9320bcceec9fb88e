import TweeLint.Position
import TweeLint.Text.Blank

/-!
# Calls in a passage

A call is an opening parenthesis, a name of ASCII letters, digits and hyphens, any blanks, line
feeds included, and a colon. Nothing behind the colon is read, and quotes mean nothing, so a call
shape inside a string literal counts as a call too.

Whether a call starts at a parenthesis depends only on the text behind it
(`MacroCall.nameBehind?`), and a call contains no second parenthesis, so the calls of a text are
found by asking at each of its parentheses.
-/

namespace TweeLint

/-- A call: its name, the position of its parenthesis in the document, and how many characters of
the passage content come before it. -/
structure MacroCall where
  name : String
  position : Position
  offset : Nat
deriving DecidableEq, Inhabited

namespace MacroCall

/-- Whether a character can stand in the name of a call. -/
def isNameChar (c : Char) : Bool :=
  c.isAlphanum || c == '-'

/-- The name of the call whose parenthesis stands directly before a text. -/
def nameBehind? (text : List Char) : Option (List Char) :=
  let name := text.takeWhile isNameChar
  match (text.dropWhile isNameChar).dropWhile Text.isBlank with
  | ':' :: _ => if name.isEmpty then none else some name
  | _ => none

/-- The call that starts with the character `c` at `site`, before the text `rest`. -/
def startingAt? (site : Site) (c : Char) (rest : List Char) : Option MacroCall :=
  if c = '(' then
    (nameBehind? rest).map fun name => ⟨String.ofList name, site.position, site.offset⟩
  else none

/-- The calls of a text whose first character stands at `site`, behind those already found, of
which the latest comes first. -/
def collect (site : Site) (found : List MacroCall) : List Char → List MacroCall
  | [] => found.reverse
  | c :: rest => collect (site.advance c) ((startingAt? site c rest).toList ++ found) rest

/-- The calls of a text that starts at `start`, from left to right. -/
def find (start : Position) (content : String) : List MacroCall :=
  collect (.first start) [] content.toList

end MacroCall

end TweeLint
