import TweeLint.Position

/-!
# Indices of lines

To find one position, `Position.locate` reads the text up to there. A line index is made once for a
text and keeps the indices of its line feeds. How many of them stand in front of an index is then
found by halving, because the indices are increasing (`LineIndex.feedsBefore`), and the line feeds
in front of an index decide its position: their number gives the line, and the last of them is what
the column counts from (`LineIndex.position`).
-/

namespace TweeLint

namespace Text

/-- The indices of the line feeds of a text whose first character has index `i`. -/
def feedsFrom (i : Nat) : List Char → List Nat
  | [] => []
  | c :: cs => if c = '\n' then i :: feedsFrom (i + 1) cs else feedsFrom (i + 1) cs

theorem le_of_mem_feedsFrom {i j : Nat} {cs : List Char} (h : j ∈ feedsFrom i cs) : i ≤ j := by
  induction cs generalizing i with
  | nil => exact absurd h List.not_mem_nil
  | cons c cs ih =>
    rw [feedsFrom] at h
    split at h
    · rcases List.mem_cons.mp h with rfl | h
      · exact Nat.le_refl j
      · exact Nat.le_of_succ_le (ih h)
    · exact Nat.le_of_succ_le (ih h)

theorem pairwise_feedsFrom (i : Nat) (cs : List Char) : (feedsFrom i cs).Pairwise (· < ·) := by
  induction cs generalizing i with
  | nil => exact .nil
  | cons c cs ih =>
    rw [feedsFrom]
    split
    · exact .cons (fun j hj => le_of_mem_feedsFrom hj) (ih (i + 1))
    · exact ih (i + 1)

end Text

/-- The line feeds of a text, by their indices, and the position at which the text starts. -/
structure LineIndex where
  start : Position
  feeds : Array Nat
  increasing : feeds.toList.Pairwise (· < ·)

namespace LineIndex

/-- The line index of a text that starts at `start`. -/
def ofText (start : Position) (text : List Char) : LineIndex :=
  ⟨start, (Text.feedsFrom 0 text).toArray, Text.pairwise_feedsFrom 0 text⟩

@[simp] theorem start_ofText (start : Position) (text : List Char) :
    (ofText start text).start = start := rfl

@[simp] theorem feeds_ofText (start : Position) (text : List Char) :
    (ofText start text).feeds = (Text.feedsFrom 0 text).toArray := rfl

/-- How many numbers of an increasing array are below `i`, if it is known that the first `lo` of them
are and that those from `hi` on are not. The range in doubt is halved until nothing is left of it. -/
def countBelow (numbers : Array Nat) (i : Int) (lo hi : Nat) (hhi : hi ≤ numbers.size) : Nat :=
  if hlt : lo < hi then
    let mid := (lo + hi) / 2
    have hmid : mid < hi := by omega
    if (numbers[mid] : Int) < i then countBelow numbers i (mid + 1) hi hhi
    else countBelow numbers i lo mid (by omega)
  else lo
termination_by hi - lo

theorem countBelow_le (numbers : Array Nat) (i : Int) {lo hi : Nat} (hhi : hi ≤ numbers.size)
    (hlohi : lo ≤ hi) : countBelow numbers i lo hi hhi ≤ hi := by
  fun_induction countBelow numbers i lo hi hhi with
  | case1 lo hi hhi hlt mid hmid hbelow ih => exact ih hmid
  | case2 lo hi hhi hlt mid hmid hnot ih =>
    exact Nat.le_trans (ih (by omega)) (Nat.le_of_lt hmid)
  | case3 lo hi hhi hlt => exact hlohi

/-- How many line feeds stand in front of an index, which may lie beyond either end of the text. -/
def feedsBefore (x : LineIndex) (i : Int) : Nat :=
  countBelow x.feeds i 0 x.feeds.size (Nat.le_refl _)

theorem feedsBefore_le (x : LineIndex) (i : Int) : x.feedsBefore i ≤ x.feeds.size :=
  countBelow_le x.feeds i _ (Nat.zero_le _)

/-- The line of an index. -/
def line (x : LineIndex) (i : Int) : Int :=
  x.start.line + x.feedsBefore i

/-- The position of an index. -/
def position (x : LineIndex) (i : Int) : Position :=
  match hfeeds : x.feedsBefore i with
  | 0 => ⟨x.start.line, x.start.column + i⟩
  | n + 1 =>
    have hn : n < x.feeds.size := Nat.lt_of_succ_le (hfeeds ▸ x.feedsBefore_le i)
    let lineStart : Int := x.feeds[n] + 1
    ⟨x.start.line + (n + 1), i - lineStart + 1⟩

end LineIndex

end TweeLint
