import TweeLint.NameSet
import TweeLint.Position
import TweeLint.Text.Blank
import TweeLint.Text.Lines

/-!
# Passages

A document in Twee is a sequence of passages. Each line that begins with two colons is a header and
opens a passage; the text up to the next header is its body. Text before the first header belongs
to no passage.

The work is done in two steps, along the data in between: the lines of a document are gathered into
*sections* (`Section.ofLines`), a header line with the raw body behind it, and each section is read
as a passage (`Section.passage`). A section keeps every character of its body, so the place of the
trimmed content is where the header and the blanks behind it lead.

A header reads `:: Name [tag tag] …`. The name stops at the first bracket or brace, and a tag list
counts only if it follows the name at once and is closed on the same line; whatever comes after is
ignored.
-/

namespace TweeLint

/-- One passage of a document. `headerLine` is the line of its header, and `contentStart` is where
the first character of the trimmed content stands in the document. -/
structure Passage where
  name : String
  tags : NameSet
  content : String
  headerLine : Int
  contentStart : Position
deriving DecidableEq, Inhabited

/-- A header line with the text behind it up to the next header. `line` counts from 1; the header
keeps its line feed. -/
structure Section where
  line : Nat
  header : List Char
  body : List Char
deriving DecidableEq, Inhabited

namespace Section

/-- Whether a line is a header. -/
def isHeader : List Char → Bool
  | ':' :: ':' :: _ => true
  | _ => false

/-- Takes one numbered line in front of what follows it: the body lines down to the next header,
and the sections from there on. -/
def gather (numbered : List Char × Nat) (later : List (List Char) × List Section) :
    List (List Char) × List Section :=
  if isHeader numbered.1 then ([], ⟨numbered.2, numbered.1, later.1.flatten⟩ :: later.2)
  else (numbered.1 :: later.1, later.2)

/-- The sections of a document that is given by its lines. -/
def ofLines (ls : List (List Char)) : List Section :=
  ((ls.zipIdx 1).foldr gather ([], [])).2

/-- Whether a character can stand in a passage name. -/
def isNameChar (c : Char) : Bool :=
  c != '[' && c != '\x7b' && c != '\n'

/-- Whether a character can stand in a tag list. -/
def isTagChar (c : Char) : Bool :=
  c != ']' && c != '\n'

/-- The passage name in a header. -/
def name (s : Section) : List Char :=
  Text.trim ((s.header.drop 2).takeWhile isNameChar)

/-- The tags in a header, as often as they are written. -/
def tags (s : Section) : List (List Char) :=
  match (s.header.drop 2).dropWhile isNameChar with
  | '[' :: rest =>
    match rest.dropWhile isTagChar with
    | ']' :: _ => Text.words (rest.takeWhile isTagChar)
    | _ => []
  | _ => []

/-- The position of the first character of the content; of the end of the body if it is blank. -/
def contentStart (s : Section) : Position :=
  (Position.mk s.line 1).after (s.header ++ s.body.takeWhile Text.isBlank)

/-- The passage that a section stands for. -/
def passage (s : Section) : Passage where
  name := String.ofList s.name
  tags := NameSet.ofList (s.tags.map String.ofList)
  content := String.ofList (Text.trim s.body)
  headerLine := s.line
  contentStart := s.contentStart

end Section

/-- The sections of a document, of which one leading byte-order mark is no part. -/
def sections (document : String) : List Section :=
  Section.ofLines (Text.lines (Text.dropMark document.toList))

/-- The passages of a document, in document order. -/
def passages (document : String) : List Passage :=
  (sections document).map Section.passage

end TweeLint
