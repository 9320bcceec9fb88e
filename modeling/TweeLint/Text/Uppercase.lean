import TweeLint.Text.Uppercase.Table

/-!
# Upper case

The full upper-case form of a text, character by character; some letters become several.
-/

namespace TweeLint.Text

/-- The upper-case form of a character. -/
def upperChar (c : Char) : List Char :=
  if c.toNat < 0x80 then [c.toUpper]
  else
    match uppercaseExpansions.lookup c.toNat with
    | some form => form.map Char.ofNat
    | none => [(CaseRun.image? uppercaseRuns c).getD c]

/-- The upper-case form of a text. -/
def upper (cs : List Char) : List Char :=
  cs.flatMap upperChar

end TweeLint.Text
