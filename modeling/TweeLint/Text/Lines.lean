/-!
# Lines of a text

A line runs up to and including its line feed; only the last line of a text may lack one. So no
line is empty, the lines of a text concatenate to the text (`flatten_lines`), and a text that ends
in a line feed has no empty line behind it.

Texts that come from files are first brought into this form: `dropMark` removes a leading
byte-order mark, and `unifyLineEnds` turns the two other line ends in use, a carriage return with
or without a line feed behind it, into a line feed.
-/

namespace TweeLint.Text

/-- The byte-order mark, which some editors put in front of a text. -/
def mark : Char := '\uFEFF'

/-- The text without one leading byte-order mark. -/
def dropMark : List Char → List Char
  | [] => []
  | c :: cs => if c = mark then cs else c :: cs

/-- The text with every line end written as a line feed. Read from the right; the flag says
whether the character just read was a line feed, which then belongs to a carriage return in front
of it. -/
def unifyLineEnds (cs : List Char) : List Char :=
  (cs.foldr
    (fun c (feed, out) =>
      if c = '\r' then (false, if feed then out else '\n' :: out) else (c == '\n', c :: out))
    (false, [])).2

/-- Puts a character in front of the lines of the text behind it. -/
def consLine (c : Char) (ls : List (List Char)) : List (List Char) :=
  if c = '\n' then ['\n'] :: ls
  else
    match ls with
    | [] => [[c]]
    | l :: rest => (c :: l) :: rest

/-- The lines of a text, each with its line feed. -/
def lines (cs : List Char) : List (List Char) :=
  cs.foldr consLine []

@[simp] theorem lines_nil : lines [] = [] := rfl

@[simp] theorem lines_cons (c : Char) (cs : List Char) : lines (c :: cs) = consLine c (lines cs) :=
  rfl

theorem flatten_consLine (c : Char) (ls : List (List Char)) :
    (consLine c ls).flatten = c :: ls.flatten := by
  unfold consLine
  split
  · next h => subst h; simp
  · cases ls <;> simp

/-- Nothing is lost between the lines. -/
theorem flatten_lines (cs : List Char) : (lines cs).flatten = cs := by
  induction cs with
  | nil => rfl
  | cons c cs ih => rw [lines_cons, flatten_consLine, ih]

end TweeLint.Text
