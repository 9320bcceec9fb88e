/-!
# Blanks

Which characters separate words, and the two operations that only look at that: dropping the blanks
around a text (`trim`) and cutting a text into its words (`words`).

A blank is a character of the Unicode bidirectional classes WS, B and S or of the category Zs: the
ASCII blanks with the four information separators, the next-line control, the no-break spaces and
the typographic spaces. A zero-width space or a byte-order mark is not one.
-/

namespace TweeLint.Text

/-- The blank characters, as a test on code points. -/
def isBlank (c : Char) : Bool :=
  let n := c.toNat
  if n ≤ 0x20 then (0x09 ≤ n && n ≤ 0x0D) || 0x1C ≤ n
  else
    n == 0x85 || n == 0xA0 || n == 0x1680 || (0x2000 ≤ n && n ≤ 0x200A) || n == 0x2028 ||
      n == 0x2029 || n == 0x202F || n == 0x205F || n == 0x3000

/-- The text without its leading blanks. -/
def trimLeft (cs : List Char) : List Char :=
  cs.dropWhile isBlank

/-- The text without its trailing blanks. -/
def trimRight (cs : List Char) : List Char :=
  (cs.reverse.dropWhile isBlank).reverse

/-- The text without the blanks on either side. -/
def trim (cs : List Char) : List Char :=
  trimRight (trimLeft cs)

/-- Puts a finished word in front of the words after it; an empty one is no word. -/
def consWord (word : List Char) (rest : List (List Char)) : List (List Char) :=
  if word.isEmpty then rest else word :: rest

/-- The maximal runs of characters that are not blank, in order. -/
def words (cs : List Char) : List (List Char) :=
  let last := cs.foldr
    (fun c (word, rest) => if isBlank c then ([], consWord word rest) else (c :: word, rest))
    (([] : List Char), ([] : List (List Char)))
  consWord last.1 last.2

end TweeLint.Text
