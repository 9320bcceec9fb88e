import TweeLint.Text.Lowercase

/-!
# Paths

A path is a sequence of names, from the working directory or from the root. Slashes separate names;
empty names and single dots mean nothing and are dropped, while two dots are kept, since what they
lead to depends on the files. A path of no names is the working directory and is written as a dot.
-/

namespace TweeLint

/-- A path. `anchor` is empty for a path from the working directory, and one or two slashes for a
path from the root. -/
structure Path where
  anchor : String
  parts : List String
deriving DecidableEq, Inhabited

namespace Path

/-- Puts a name in front of the names behind it, unless it means nothing. -/
def consPart (name : List Char) (rest : List String) : List String :=
  if name.isEmpty || name == ['.'] then rest else String.ofList name :: rest

/-- The names in a text. -/
def partsOf (cs : List Char) : List String :=
  let (name, rest) := cs.foldr
    (fun c (name, rest) => if c = '/' then ([], consPart name rest) else (c :: name, rest))
    (([] : List Char), ([] : List String))
  consPart name rest

/-- The anchor of a text: exactly two leading slashes differ from one or from more. -/
def anchorOf : List Char → String
  | '/' :: '/' :: '/' :: _ => "/"
  | '/' :: '/' :: _ => "//"
  | '/' :: _ => "/"
  | _ => ""

/-- The path that a text stands for. -/
def ofString (s : String) : Path :=
  ⟨anchorOf s.toList, partsOf s.toList⟩

/-- A path as text. -/
def toText (p : Path) : String :=
  let names := "/".intercalate p.parts
  if p.anchor.isEmpty && p.parts.isEmpty then "." else p.anchor ++ names

instance : ToString Path := ⟨toText⟩

/-- Whether there is a zero character in a path. No file can be asked for by such a path. -/
def hasZero (p : Path) : Bool :=
  p.toText.toList.contains '\x00'

/-- The path that leads on from a directory. -/
def join (p : Path) (parts : List String) : Path :=
  { p with parts := p.parts ++ parts }

/-- The extension of a name: its last dot and what follows. A name has none if nothing stands
before that dot, or nothing behind it. -/
def extension (name : List Char) : List Char :=
  let reversed := name.reverse
  match reversed.dropWhile (· != '.') with
  | _ :: _ :: _ =>
    let letters := (reversed.takeWhile (· != '.')).reverse
    if letters.isEmpty then [] else '.' :: letters
  | _ => []

/-- The extensions of Twee files. -/
def tweeExtensions : List String := [".twee", ".tw"]

/-- Whether a name is that of a Twee file, letter case in the extension apart. -/
def isTweeName (name : String) : Bool :=
  tweeExtensions.any fun e => Text.lower (extension name.toList) == e.toList

/-- Whether a path leads to a name of a Twee file. -/
def isTwee (p : Path) : Bool :=
  match p.parts.getLast? with
  | some name => isTweeName name
  | none => false

/-- Order by anchor and names, the first difference deciding, names by code points. -/
instance : LT Path :=
  ⟨fun p q => p.anchor :: p.parts < q.anchor :: q.parts⟩

instance (p q : Path) : Decidable (p < q) :=
  inferInstanceAs (Decidable (p.anchor :: p.parts < q.anchor :: q.parts))

/-- Whether a path comes before another or is the same. -/
def before (p q : Path) : Bool :=
  !decide (q < p)

end Path

end TweeLint
