import TweeLint.Text.Surrogate

/-!
# UTF-8

Texts and bytes. `Utf8.decode` is strict: it stops at the first byte that no well-formed sequence
can have there, and reports where the sequence began, how many of its bytes were good, and why it
ended. `Utf8.decodeLossy` puts a replacement character in the place of each such sequence and goes
on.

Both run one machine over the bytes. Between characters it reads a first byte (`Utf8.first`); inside
a sequence it holds what it has so far and which bytes may come next (`Utf8.Pending`).
-/

namespace TweeLint.Text.Utf8

/-- A sequence that is not complete: how many bytes it still needs, the least and the greatest value
of the next one, the number that its bytes make up so far, and how many those are. -/
structure Pending where
  owed : Nat
  low : UInt8
  high : UInt8
  value : Nat
  seen : Nat
deriving DecidableEq

/-- What a byte leads to: a character, a sequence to go on with, or neither. -/
inductive Step where
  | char (c : Char)
  | more (p : Pending)
  | bad
deriving DecidableEq

/-- The first byte of a character. -/
def first (b : UInt8) : Step :=
  if b < 0x80 then .char (Char.ofNat b.toNat)
  else if b < 0xC2 then .bad
  else if b < 0xE0 then .more ⟨1, 0x80, 0xBF, b.toNat - 0xC0, 1⟩
  else if b = 0xE0 then .more ⟨2, 0xA0, 0xBF, 0, 1⟩
  else if b = 0xED then .more ⟨2, 0x80, 0x9F, 0xD, 1⟩
  else if b < 0xF0 then .more ⟨2, 0x80, 0xBF, b.toNat - 0xE0, 1⟩
  else if b = 0xF0 then .more ⟨3, 0x90, 0xBF, 0, 1⟩
  else if b < 0xF4 then .more ⟨3, 0x80, 0xBF, b.toNat - 0xF0, 1⟩
  else if b = 0xF4 then .more ⟨3, 0x80, 0x8F, 4, 1⟩
  else .bad

/-- A further byte of a sequence. -/
def Pending.next (p : Pending) (b : UInt8) : Step :=
  if p.low ≤ b ∧ b ≤ p.high then
    let value := p.value * 64 + (b.toNat - 0x80)
    if p.owed ≤ 1 then .char (Char.ofNat value)
    else .more ⟨p.owed - 1, 0x80, 0xBF, value, p.seen + 1⟩
  else .bad

/-! ### Strict decoding -/

/-- Why a sequence is not well formed. -/
inductive Reason where
  /-- No character begins with this byte. -/
  | invalidStart
  /-- The sequence is followed by a byte that cannot continue it. -/
  | invalidContinuation
  /-- The bytes end within the sequence. -/
  | unexpectedEnd
deriving DecidableEq

/-- The text of a reason. -/
def Reason.text : Reason → String
  | invalidStart => "invalid start byte"
  | invalidContinuation => "invalid continuation byte"
  | unexpectedEnd => "unexpected end of data"

/-- A sequence that is not well formed: where it starts, how many bytes of it were read as part of
it (at least one), its first byte, and the reason. -/
structure Fault where
  start : Nat
  length : Nat
  byte : UInt8
  reason : Reason
deriving DecidableEq

/-- A byte as two hexadecimal digits, in lower case. -/
def hexByte (b : UInt8) : String :=
  String.ofList [Nat.digitChar (b.toNat / 16), Nat.digitChar (b.toNat % 16)]

/-- The text of a fault. -/
def Fault.message (f : Fault) : String :=
  if f.length = 1 then
    s!"'utf-8' codec can't decode byte 0x{hexByte f.byte} in position {f.start}: {f.reason.text}"
  else
    let last := f.start + f.length - 1
    s!"'utf-8' codec can't decode bytes in position {f.start}-{last}: {f.reason.text}"

/-- Decodes the rest of the bytes. `i` is the index of the next byte, `lead` the first byte of the
sequence that is open, and `done` holds the characters so far, the latest first. -/
def decodeFrom (i : Nat) (open? : Option (UInt8 × Pending)) (done : List Char) :
    List UInt8 → Except Fault (List Char)
  | [] =>
    match open? with
    | none => .ok done.reverse
    | some (lead, p) => .error ⟨i - p.seen, p.seen, lead, .unexpectedEnd⟩
  | b :: rest =>
    match open? with
    | none =>
      match first b with
      | .char c => decodeFrom (i + 1) none (c :: done) rest
      | .more p => decodeFrom (i + 1) (some (b, p)) done rest
      | .bad => .error ⟨i, 1, b, .invalidStart⟩
    | some (lead, p) =>
      match p.next b with
      | .char c => decodeFrom (i + 1) none (c :: done) rest
      | .more q => decodeFrom (i + 1) (some (lead, q)) done rest
      | .bad => .error ⟨i - p.seen, p.seen, lead, .invalidContinuation⟩

/-- The text that the bytes encode, or the first fault in them. -/
def decode (bytes : List UInt8) : Except Fault (List Char) :=
  decodeFrom 0 none [] bytes

/-! ### Lossy decoding -/

/-- Decodes the rest of the bytes, behind what is done already, the latest first. -/
def decodeLossyFrom (pending? : Option Pending) (done : List Char) : List UInt8 → List Char
  | [] => (if pending?.isSome then replacement :: done else done).reverse
  | b :: rest =>
    let fresh (done : List Char) : Option Pending × List Char :=
      match first b with
      | .char c => (none, c :: done)
      | .more p => (some p, done)
      | .bad => (none, replacement :: done)
    let after :=
      match pending? with
      | none => fresh done
      | some p =>
        match p.next b with
        | .char c => (none, c :: done)
        | .more q => (some q, done)
        | .bad => fresh (replacement :: done)
    decodeLossyFrom after.1 after.2 rest

/-- The text that the bytes encode, with a replacement character for each sequence that is not well
formed. -/
def decodeLossy (bytes : List UInt8) : List Char :=
  decodeLossyFrom none [] bytes

/-! ### Encoding -/

/-- The bytes of a text. -/
def encode (cs : List Char) : List UInt8 :=
  cs.flatMap String.utf8EncodeChar

/-- The three bytes that encode the byte-order mark. -/
def markBytes : List UInt8 := [0xEF, 0xBB, 0xBF]

end TweeLint.Text.Utf8
