import TweeLint.Text.Blank
import TweeLint.Text.DecimalDigit

/-!
# Integers as text

Two ways to read an integer, and one to write it.

* `Numeral.ofLiteral?` reads an integer as a person types it: blanks around it, a sign, decimal
  digits of any script, and single underscores between digits.
* `Numeral.ofSetting` reads an integer as a configuration file holds it: ASCII digits only, but
  leading zeros and a fraction of zeros are passed over.
* `Numeral.grouped` writes an integer with a comma before every third digit from the right.

Both readers refuse numbers of more than `maxDigits` digits. Blanks around a number are those that
are white space in Unicode; the information separators are not among them.
-/

namespace TweeLint.Numeral

/-- The most digits that a number may have. -/
def maxDigits : Nat := 4300

/-- The blanks that may stand around a number. -/
def isSpace (c : Char) : Bool :=
  Text.isBlank c && !(0x1C ≤ c.toNat && c.toNat ≤ 0x1F)

/-- A text without the spaces on either side. -/
def trim (cs : List Char) : List Char :=
  ((cs.dropWhile isSpace).reverse.dropWhile isSpace).reverse

/-- The number that decimal digits make up. -/
def ofDigits (digits : List Nat) : Nat :=
  digits.foldl (fun n d => 10 * n + d) 0

/-! ### Integers as a person types them -/

/-- One more character of a number: whether the last one was a digit, and the digits so far, the
latest first. An underscore must stand between two digits. -/
def readDigit (state : Option (Bool × List Nat)) (c : Char) : Option (Bool × List Nat) :=
  state.bind fun (afterDigit, digits) =>
    if c = '_' then if afterDigit then some (false, digits) else none
    else (Text.decimalDigit? c).map fun d => (true, d :: digits)

/-- The digits of a number without sign. -/
def digits? (cs : List Char) : Option (List Nat) :=
  match cs.foldl readDigit (some (false, [])) with
  | some (true, digits) => some digits.reverse
  | _ => none

/-- The number without sign that a text holds. -/
def magnitude? (cs : List Char) : Option Nat :=
  (digits? cs).bind fun digits =>
    if digits.length ≤ maxDigits then some (ofDigits digits) else none

/-- The integer that a text holds. -/
def ofLiteral? (s : String) : Option Int :=
  match trim s.toList with
  | '-' :: cs => (magnitude? cs).map fun n => -(n : Int)
  | '+' :: cs => (magnitude? cs).map fun n => (n : Int)
  | cs => (magnitude? cs).map fun n => (n : Int)

/-! ### Integers in a configuration -/

/-- Why a text is not taken as an integer. -/
inductive Failure where
  /-- It does not have the form of one. -/
  | unreadable
  /-- It has too many digits. -/
  | tooLong
deriving DecidableEq

/-- What a text is without its leading zeros, from behind the first zero; `last` is the character
before it. Underscores count as zeros here. A zero stays if nothing but a fraction follows. -/
def dropZeros (last : Char) : List Char → Option (List Char)
  | [] => some [last]
  | c :: cs =>
    if c = '0' || c = '_' then dropZeros c cs
    else if c = '.' then some (last :: c :: cs)
    else if c.isDigit then some (c :: cs)
    else none

/-- A number without its leading zeros. A number with a minus sign keeps them. -/
def significant? : List Char → Option (List Char)
  | [] => none
  | c :: cs =>
    if c = '0' then dropZeros c cs
    else if c.isDigit || c = '-' then some (c :: cs)
    else none

/-- A number without a fraction of zeros. -/
def dropZeroFraction (cs : List Char) : List Char :=
  match cs.dropWhile (· != '.') with
  | '.' :: fraction => if fraction.all (· == '0') then cs.takeWhile (· != '.') else cs
  | _ => cs

/-- Whether an underscore directly follows another. -/
def hasDoubleUnderscore : List Char → Bool
  | '_' :: '_' :: _ => true
  | _ :: cs => hasDoubleUnderscore cs
  | [] => false

/-- A number without its underscores, unless one stands at an end or behind another. -/
def dropUnderscores (cs : List Char) : List Char :=
  if cs.head? == some '_' || cs.getLast? == some '_' || hasDoubleUnderscore cs then cs
  else cs.filter (· != '_')

/-- The number that ASCII digits without leading zeros make up. -/
def plain (cs : List Char) : Except Failure Nat :=
  if cs.isEmpty || !cs.all Char.isDigit || (cs.head? == some '0' && 1 < cs.length) then
    .error .unreadable
  else if maxDigits < cs.length then .error .tooLong
  else .ok (ofDigits (cs.map fun c => c.toNat - '0'.toNat))

/-- A number without one leading plus sign, unless a minus sign follows. -/
def dropPlus : List Char → List Char
  | '+' :: '-' :: cs => '+' :: '-' :: cs
  | '+' :: cs => cs
  | cs => cs

/-- The integer that a setting holds. -/
def ofSetting (s : String) : Except Failure Int :=
  match significant? (dropPlus (trim s.toList)) with
  | none => .error .unreadable
  | some cs =>
    match dropUnderscores (dropZeroFraction cs) with
    | '-' :: digits => (plain digits).map fun n => -(n : Int)
    | digits => (plain digits).map fun n => (n : Int)

/-! ### Writing -/

/-- Puts a digit in front of a number that has `n` digits already, with a comma between groups of
three. -/
def consGrouped (c : Char) (written : List Char × Nat) : List Char × Nat :=
  let (cs, n) := written
  (if n != 0 && n % 3 == 0 then c :: ',' :: cs else c :: cs, n + 1)

/-- A number with a comma before every third digit from the right. -/
def grouped (n : Int) : String :=
  let digits := ((toString n.natAbs).toList.foldr consGrouped ([], 0)).1
  String.ofList (if n < 0 then '-' :: digits else digits)

end TweeLint.Numeral
