import TweeLint.Diagnostic

/-!
# Balance of parentheses

Every parenthesis of a passage counts, inside string literals too. A closing parenthesis closes the
latest one that is still open; if none is, it is *stray*, and it does not cancel a later opening
one. What is still open at the end is *unclosed*.

The scan keeps both the nesting depth and the stack of open parentheses. The depth decides whether a
closing parenthesis is stray, the stack says which opening parentheses are left.
-/

namespace TweeLint.Balance

/-- What the scan knows behind a text: where it is, how deep, which parentheses are open, the
innermost first, and which were stray, the latest first. -/
structure State where
  site : Site
  depth : Int
  openers : List Site
  strays : List Site
deriving DecidableEq, Inhabited

namespace State

/-- The state before the first character of a text that starts at `start`. -/
def initial (start : Position) : State :=
  ⟨.first start, 0, [], []⟩

/-- The state behind one more character. -/
def step (s : State) (c : Char) : State :=
  let site := s.site.advance c
  if c = '(' then { s with site, depth := s.depth + 1, openers := s.site :: s.openers }
  else if c = ')' then
    if s.depth - 1 < 0 then
      { site, depth := 0, openers := s.openers.tail, strays := s.site :: s.strays }
    else { s with site, depth := s.depth - 1, openers := s.openers.tail }
  else { s with site }

end State

/-- The state behind a text that starts at `start`. -/
def scan (start : Position) (text : List Char) : State :=
  text.foldl State.step (State.initial start)

/-- The diagnostics of a passage whose content starts at `start`: the stray parentheses, then the
unclosed ones, each in text order. -/
def check (passage : String) (start : Position) (content : String) : List Diagnostic :=
  let s := scan start content.toList
  s.strays.reverse.map (fun site => .unmatched passage site.position) ++
    s.openers.reverse.map (fun site => .unclosed passage site.position)

end TweeLint.Balance
