import TweeLint.Http.Percent

/-!
# Form fields in a query

A query holds fields `name=value` with an ampersand between them. A plus sign stands for a space,
and anything else may be a percent escape. A field without an equals sign has an empty value, and an
empty field means nothing. A byte above ASCII stands for the character of that number.
-/

namespace TweeLint.Http.Query

/-- The parts of a text between separators. -/
def splitAt (separator : Char) (cs : List Char) : List (List Char) :=
  let (front, rest) := cs.foldr
    (fun c (part, parts) => if c = separator then ([], part :: parts) else (c :: part, parts))
    (([] : List Char), ([] : List (List Char)))
  front :: rest

/-- A name or a value as it is meant. -/
def decodePart (cs : List Char) : List Char :=
  Percent.decode (cs.map fun c => if c = '+' then ' ' else c)

/-- The name and the value of a field. -/
def field (cs : List Char) : List Char × List Char :=
  (decodePart (cs.takeWhile (· != '=')), decodePart ((cs.dropWhile (· != '=')).drop 1))

/-- The fields of a query. -/
def fields (query : List UInt8) : List (List Char × List Char) :=
  ((splitAt '&' (query.map fun b => Char.ofNat b.toNat)).filter (!·.isEmpty)).map field

/-- The value of the last field of a name. -/
def get? (query : List UInt8) (name : String) : Option String :=
  ((fields query).reverse.lookup name.toList).map String.ofList

end TweeLint.Http.Query
