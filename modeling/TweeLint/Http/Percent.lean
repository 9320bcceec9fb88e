import TweeLint.Json.Reader
import TweeLint.Text.Utf8

/-!
# Percent escapes

Bytes that cannot stand in an address are written as a percent sign and two hexadecimal digits.
-/

namespace TweeLint.Http.Percent

/-! ### Decoding -/

/-- The byte that two hexadecimal digits make up. -/
def byte? (a b : Char) : Option UInt8 := do
  return UInt8.ofNat ((← Json.Reader.hexDigit? a) * 16 + (← Json.Reader.hexDigit? b))

/-- Puts a run of bytes, the latest first, in front of what is decoded already, the latest character
first. -/
def flush (run : List UInt8) (done : List Char) : List Char :=
  (Text.Utf8.decodeLossy run.reverse).reverse ++ done

/-- Decodes the rest of a text. `run` holds the bytes of the ASCII characters and escapes directly
before it. -/
def decodeFrom (run : List UInt8) (done : List Char) : List Char → List Char
  | [] => (flush run done).reverse
  | '%' :: a :: b :: rest =>
    match byte? a b with
    | some x => decodeFrom (x :: run) done rest
    | none => decodeFrom ('%'.toUInt8 :: run) done (a :: b :: rest)
  | c :: rest =>
    if c.toNat < 0x80 then decodeFrom (c.toUInt8 :: run) done rest
    else decodeFrom [] (c :: flush run done) rest

/-- A text with its escapes replaced. The bytes of neighbouring escapes and ASCII characters are
decoded together as UTF-8, with a replacement character for what is not well formed; an escape
without two digits stays as it is. -/
def decode (cs : List Char) : List Char :=
  decodeFrom [] [] cs

/-! ### Encoding -/

/-- The characters that stand for themselves in an address, letters and digits apart. -/
def safeMarks : List Char :=
  ['_', '.', '-', '~', ':', '/', '%', '#', '?', '=', '@', '[', ']', '!', '$', '&', '\'', '(', ')',
    '*', '+', ',', ';']

/-- A byte as it stands in an address. -/
def encodeByte (b : UInt8) : List Char :=
  let c := Char.ofNat b.toNat
  if c.isAlphanum || safeMarks.contains c then [c]
  else
    ['%', (Nat.digitChar (b.toNat / 16)).toUpper, (Nat.digitChar (b.toNat % 16)).toUpper]

/-- Bytes as they stand in an address. -/
def encode (bytes : List UInt8) : List Char :=
  bytes.flatMap encodeByte

end TweeLint.Http.Percent
