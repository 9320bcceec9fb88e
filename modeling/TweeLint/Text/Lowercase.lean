import TweeLint.Text.Cased
import TweeLint.Text.Lowercase.Table

/-!
# Lower case

The full lower-case form of a text. Every character has a form of its own, one or two characters
long, except the capital sigma, which depends on its neighbours: at the end of a word it becomes the
final sigma. It is at the end of a word if the nearest character before it that is not
case-ignorable is cased, and the nearest such character behind it, if there is one, is not.
-/

namespace TweeLint.Text

/-- The lower-case form of a character on its own. -/
def lowerChar (c : Char) : List Char :=
  if c.toNat < 0x80 then [c.toLower]
  else if c = 'İ' then ['i', '\u0307']
  else [(CaseRun.image? lowercaseRuns c).getD c]

/-- Whether a word goes on in a text: its first character that is not case-ignorable is cased. -/
def startsCased (cs : List Char) : Bool :=
  ((cs.find? fun c => !isCaseIgnorable c).map isCased).getD false

/-- The lower-case form of the rest of a text, behind what is done already in reverse order.
`inWord` says whether the nearest character before the rest that is not case-ignorable is cased. -/
def lowerFrom (inWord : Bool) (done : List Char) : List Char → List Char
  | [] => done.reverse
  | c :: cs =>
    let form :=
      if c = 'Σ' then [if inWord && !startsCased cs then 'ς' else 'σ'] else lowerChar c
    lowerFrom (if isCaseIgnorable c then inWord else isCased c) (form.reverse ++ done) cs

/-- The lower-case form of a text. -/
def lower (cs : List Char) : List Char :=
  lowerFrom false [] cs

end TweeLint.Text
