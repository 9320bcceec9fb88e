import TweeLint.Text.Utf8

/-!
# The text of a body

A JSON body is UTF-8, UTF-16 or UTF-32. A byte-order mark tells which; without one the zero bytes
among the first four tell, since a JSON text begins with an ASCII character. Half of a surrogate
pair that is written out is taken for the replacement character; nothing else that is not well
formed is taken.
-/

namespace TweeLint.Http.BodyText

/-- The encodings of a JSON text. `big` says whether the high byte of a unit comes first. -/
inductive Encoding where
  | utf8
  | utf16 (big : Bool)
  | utf32 (big : Bool)
deriving DecidableEq

/-- The encoding of a text without a byte-order mark. -/
def guess : List UInt8 → Encoding
  | a :: b :: c :: d :: _ =>
    if a = 0 then if b = 0 then .utf32 true else .utf16 true
    else if b = 0 then if c = 0 && d = 0 then .utf32 false else .utf16 false
    else .utf8
  | [a, b] => if a = 0 then .utf16 true else if b = 0 then .utf16 false else .utf8
  | _ => .utf8

/-- The encoding of a text, and the bytes behind its byte-order mark. -/
def detect (bytes : List UInt8) : Encoding × List UInt8 :=
  match bytes with
  | 0x00 :: 0x00 :: 0xFE :: 0xFF :: rest => (.utf32 true, rest)
  | 0xFF :: 0xFE :: 0x00 :: 0x00 :: rest => (.utf32 false, rest)
  | 0xFE :: 0xFF :: rest => (.utf16 true, rest)
  | 0xFF :: 0xFE :: rest => (.utf16 false, rest)
  | 0xEF :: 0xBB :: 0xBF :: rest => (.utf8, rest)
  | _ => (guess bytes, bytes)

/-- A number made of two halves in the order in which they are written. -/
def joined (big : Bool) (size first second : Nat) : Nat :=
  if big then first * size + second else second * size + first

/-- The units of two bytes. -/
def units16 (big : Bool) (done : List Nat) : List UInt8 → Option (List Nat)
  | [] => some done.reverse
  | [_] => none
  | a :: b :: rest => units16 big (joined big 0x100 a.toNat b.toNat :: done) rest

/-- The numbers that pairs of units of two bytes make up. -/
def pairs (big : Bool) (done : List Nat) : List Nat → Option (List Nat)
  | [] => some done.reverse
  | [_] => none
  | a :: b :: rest => pairs big (joined big 0x10000 a b :: done) rest

/-- The characters of units of two bytes, behind those already decoded, the latest first. -/
def decode16 (done : List Char) : List Nat → List Char
  | high :: low :: rest =>
    if Text.isHighHalf high && Text.isLowHalf low then
      decode16 (Text.joinHalves high low :: done) rest
    else decode16 (Text.ofUnit high :: done) (low :: rest)
  | [n] => (Text.ofUnit n :: done).reverse
  | [] => done.reverse

/-- The character of a number of four bytes. -/
def scalar? (n : Nat) : Option Char :=
  if n ≤ 0x10FFFF then some (Text.ofUnit n) else none

/-- UTF-8 with the halves of surrogate pairs replaced, behind what is done already, the latest byte
first. Their first byte, 0xED, never stands inside another character. -/
def replaceHalves (done : List UInt8) : List UInt8 → List UInt8
  | a :: b :: c :: rest =>
    if a = 0xED && 0xA0 ≤ b && b ≤ 0xBF && 0x80 ≤ c && c ≤ 0xBF then
      replaceHalves (0xBD :: 0xBF :: 0xEF :: done) rest
    else replaceHalves (a :: done) (b :: c :: rest)
  | rest => done.reverse ++ rest

/-- The text of a body, unless its bytes are not well formed. -/
def ofBytes (bytes : List UInt8) : Option (List Char) :=
  match detect bytes with
  | (.utf8, rest) => (Text.Utf8.decode (replaceHalves [] rest)).toOption
  | (.utf16 big, rest) => (units16 big [] rest).map (decode16 [])
  | (.utf32 big, rest) => ((units16 big [] rest).bind (pairs big [])).bind (·.mapM scalar?)

end TweeLint.Http.BodyText
