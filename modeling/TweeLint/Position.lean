/-!
# Positions in a document

A position is a line and a column. Lines end at a line feed and nowhere else; columns count
characters from the line's start. `Position.advance` moves over one character and `Position.after`
over a text, so the position of a character is where the text before it leads
(`Position.locate`). Since only the first line depends on the starting column, a position inside a
slice of a document is found from the slice and the slice's own position alone.

Lines and columns are integers, because a caller may start anywhere; the positions of a document
start at line 1, column 1 and never fall below that.
-/

namespace TweeLint

/-- A line and a column. -/
structure Position where
  line : Int
  column : Int
deriving DecidableEq

namespace Position

/-- Where a document starts. -/
def start : Position := ⟨1, 1⟩

instance : Inhabited Position := ⟨start⟩

/-- The position behind a character that stands at `p`. -/
def advance (p : Position) (c : Char) : Position :=
  if c = '\n' then ⟨p.line + 1, 1⟩ else ⟨p.line, p.column + 1⟩

/-- The position behind a text that starts at `p`. -/
def after (p : Position) (text : List Char) : Position :=
  text.foldl advance p

/-- The position of index `i` of a text that starts at `p`. An index beyond either end counts
columns on from that end. -/
def locate (p : Position) (text : List Char) (i : Int) : Position :=
  let before := text.take i.toNat
  let q := p.after before
  ⟨q.line, q.column + (i - before.length)⟩

/-- Document order: by line, then by column. -/
instance : LT Position :=
  ⟨fun p q => p.line < q.line ∨ (p.line = q.line ∧ p.column < q.column)⟩

instance (p q : Position) : Decidable (p < q) :=
  inferInstanceAs (Decidable (_ ∨ _))

@[simp] theorem after_nil (p : Position) : p.after [] = p := rfl

@[simp] theorem after_cons (p : Position) (c : Char) (cs : List Char) :
    p.after (c :: cs) = (p.advance c).after cs := rfl

theorem after_append (p : Position) (cs ds : List Char) :
    p.after (cs ++ ds) = (p.after cs).after ds :=
  List.foldl_append

end Position

/-- A character's place in a text: how many characters come before it, and its position in the
document that the text is part of. -/
structure Site where
  offset : Nat
  position : Position
deriving DecidableEq, Inhabited

namespace Site

/-- The site of the first character of a text that starts at `p`. -/
def first (p : Position) : Site := ⟨0, p⟩

/-- The site behind a character that stands at `s`. -/
def advance (s : Site) (c : Char) : Site :=
  ⟨s.offset + 1, s.position.advance c⟩

end Site

end TweeLint
