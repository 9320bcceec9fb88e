/-!
# Surrogates

In units of two bytes a character above the first 65536 takes two units, the halves of a surrogate
pair: a high one and then a low one. A half alone is no character; where a text holds one, the
replacement character stands in its place.
-/

namespace TweeLint.Text

/-- The character that stands for what is no character. -/
def replacement : Char := '\uFFFD'

/-- Whether a unit is the first half of a pair. -/
def isHighHalf (n : Nat) : Bool := 0xD800 ≤ n && n ≤ 0xDBFF

/-- Whether a unit is the second half of a pair. -/
def isLowHalf (n : Nat) : Bool := 0xDC00 ≤ n && n ≤ 0xDFFF

/-- The character that the two halves of a pair make up. -/
def joinHalves (high low : Nat) : Char :=
  Char.ofNat (0x10000 + (high - 0xD800) * 0x400 + (low - 0xDC00))

/-- The character of a unit on its own. -/
def ofUnit (n : Nat) : Char :=
  if isHighHalf n || isLowHalf n then replacement else Char.ofNat n

end TweeLint.Text
