/-!
# Edit distance

The number of single-character insertions, deletions and substitutions that turn one text into
another, computed row by row. The row of a text `a` against `b` holds, for each number `j`, the
distance from `a` to the first `j` characters of `b`; `nextRow` leads from the row of `a` to the row
of `a` with one more character.
-/

namespace TweeLint.EditDistance

/-- The rest of a row, left to right. `left` is the entry just found, `diagonal` the one above it;
the lists hold the remaining characters of `b` and the remaining entries of the row above. -/
def fill (c : Char) (left diagonal : Nat) : List Char → List Nat → List Nat
  | x :: xs, up :: ups =>
    let entry := min (min (up + 1) (left + 1)) (diagonal + if c = x then 0 else 1)
    entry :: fill c entry up xs ups
  | _, _ => []

/-- The row of a text with `c` added at its end, from the row of the text. -/
def nextRow (b : List Char) (row : List Nat) (c : Char) : List Nat :=
  match row with
  | [] => []
  | first :: rest => (first + 1) :: fill c (first + 1) first b rest

/-- The row of `a` against `b`. -/
def row (a b : List Char) : List Nat :=
  a.foldl (nextRow b) (List.range (b.length + 1))

/-- The edit distance. The rows run along the shorter text. -/
def distance (a b : List Char) : Nat :=
  if a.length < b.length then (row b a).getLastD 0 else (row a b).getLastD 0

end TweeLint.EditDistance
