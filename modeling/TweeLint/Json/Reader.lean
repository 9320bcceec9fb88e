import TweeLint.Json
import TweeLint.Text.Surrogate

/-!
# Reading JSON texts

`Json.read` reads a whole text as one value. When the text is not JSON it tells the index of the
character at which reading stopped: where a value, a name, a colon or a comma should have been,
where a string began that has no end, the offending control character or escape inside a string, or
what is left behind the value. Arrays and objects may be nested up to a given depth, and integers
may have up to a given number of digits.

While reading, a place is given by the number of characters from there to the end of the text, so
that no counter has to be carried along; `Json.read` turns it into an index.
-/

namespace TweeLint.Json

/-- Why a text is not read. -/
inductive ReadError where
  /-- The text is not JSON; reading stopped at this index. -/
  | malformed (index : Nat)
  /-- Arrays and objects are nested too deeply. -/
  | tooDeep
  /-- An integer has too many digits. -/
  | tooLong
deriving DecidableEq

/-- What bounds the texts that are read. -/
structure ReadLimits where
  /-- How deep arrays and objects may be nested. -/
  depth : Nat
  /-- How many digits an integer may have. -/
  digits : Nat

namespace Reader

/-- Why reading stops; a place is the number of characters from it to the end of the text. -/
inductive Stop where
  | at (left : Nat)
  | tooDeep
  | tooLong

/-- Stops at the front of a text. -/
def stop {α : Type} (text : List Char) : Except Stop α :=
  .error (.at text.length)

/-- The blanks of JSON. -/
def isBlank (c : Char) : Bool :=
  c == ' ' || c == '\t' || c == '\n' || c == '\r'

/-- The text behind its leading blanks. -/
def skip (text : List Char) : List Char :=
  text.dropWhile isBlank

/-! ### Strings -/

/-- The value of a hexadecimal digit. -/
def hexDigit? (c : Char) : Option Nat :=
  if c.isDigit then some (c.toNat - '0'.toNat)
  else if 'a' ≤ c && c ≤ 'f' then some (c.toNat - 'a'.toNat + 10)
  else if 'A' ≤ c && c ≤ 'F' then some (c.toNat - 'A'.toNat + 10)
  else none

/-- The number of four hexadecimal digits at the front of a text that goes on behind them, with the
text behind them. -/
def unit? : List Char → Option (Nat × List Char)
  | a :: b :: c :: d :: next :: rest => do
    let n := ((← hexDigit? a) * 16 + (← hexDigit? b)) * 16 + (← hexDigit? c)
    return (n * 16 + (← hexDigit? d), next :: rest)
  | _ => none

theorem length_of_unit? {text rest : List Char} {n : Nat} (h : unit? text = some (n, rest)) :
    rest.length < text.length := by
  unfold unit? at h
  split at h
  · simp only [Option.bind_eq_bind, Option.bind_eq_some_iff] at h
    obtain ⟨_, _, _, _, _, _, _, _, h⟩ := h
    simp only [Option.pure_def, Option.some.injEq, Prod.mk.injEq] at h
    rw [← h.2]
    simp
  · cases h

/-- What an escape of one letter stands for. -/
def escaped? (c : Char) : Option Char :=
  if c = '"' || c = '\\' || c = '/' then some c
  else if c = 'b' then some '\x08'
  else if c = 'f' then some '\x0C'
  else if c = 'n' then some '\n'
  else if c = 'r' then some '\r'
  else if c = 't' then some '\t'
  else none

/-- The second half of a surrogate pair at the front of a text, written as an escape. An escape that
is not one of four hexadecimal digits stops the reading at its letter. -/
def lowHalf? (text : List Char) : Except Stop (Option (Nat × List Char)) :=
  match text with
  | '\\' :: 'u' :: rest =>
    if (rest.drop 4).isEmpty then .ok none
    else
      match unit? rest with
      | none => stop ('u' :: rest)
      | some (n, behind) => .ok (if Text.isLowHalf n then some (n, behind) else none)
  | _ => .ok none

theorem length_of_lowHalf? {text rest : List Char} {n : Nat}
    (h : lowHalf? text = .ok (some (n, rest))) : rest.length < text.length := by
  unfold lowHalf? at h
  split at h
  · next tail =>
    split at h
    · cases h
    · split at h
      · cases h
      · next m behind hu =>
        have hlt := length_of_unit? hu
        split at h
        · injection h with h
          injection h with h
          injection h with _ h
          subst h
          simp only [List.length_cons]
          omega
        · cases h
  · cases h

/-- The characters of a string, from the text behind its opening quote, which is at the front of
`opened`. `done` holds those already read, the latest first. -/
def chars (opened done text : List Char) : Except Stop (List Char × List Char) :=
  match text with
  | [] => stop opened
  | '"' :: rest => .ok (done.reverse, rest)
  | ['\\'] => stop opened
  | '\\' :: 'u' :: rest =>
    match hu : unit? rest with
    | none => stop ('u' :: rest)
    | some (n, behind) =>
      have := length_of_unit? hu
      if Text.isHighHalf n then
        match hl : lowHalf? behind with
        | .error e => .error e
        | .ok none => chars opened (Text.ofUnit n :: done) behind
        | .ok (some (m, beyond)) =>
          have := length_of_lowHalf? hl
          chars opened (Text.joinHalves n m :: done) beyond
      else chars opened (Text.ofUnit n :: done) behind
  | '\\' :: c :: rest =>
    match escaped? c with
    | some d => chars opened (d :: done) rest
    | none => stop ('\\' :: c :: rest)
  | c :: rest =>
    if c.toNat ≤ 0x1F then stop (c :: rest) else chars opened (c :: done) rest
termination_by text.length

/-! ### Numbers and words -/

/-- The digits at the front of a text, with the text behind them. -/
def digits (text : List Char) : List Char × List Char :=
  (text.takeWhile Char.isDigit, text.dropWhile Char.isDigit)

/-- The integer part at the front of a text: a zero, or digits that do not begin with one. -/
def integerPart? (text : List Char) : Option (List Char × List Char) :=
  match text with
  | [] => none
  | c :: rest =>
    if c = '0' then some (['0'], rest)
    else if c.isDigit then some (digits text)
    else none

/-- The fraction at the front of a text: a point and digits; nothing if no digit follows. -/
def fraction (text : List Char) : List Char × List Char :=
  match text with
  | '.' :: rest =>
    let (ds, behind) := digits rest
    if ds.isEmpty then ([], text) else ('.' :: ds, behind)
  | _ => ([], text)

/-- The sign at the front of a text. -/
def sign : List Char → List Char × List Char
  | '+' :: rest => (['+'], rest)
  | '-' :: rest => (['-'], rest)
  | rest => ([], rest)

/-- The exponent at the front of a text: its letter, a sign or none, and digits; nothing if no digit
follows. -/
def exponent (text : List Char) : List Char × List Char :=
  match text with
  | [] => ([], text)
  | c :: rest =>
    if c = 'e' || c = 'E' then
      let (s, behind) := sign rest
      let (ds, beyond) := digits behind
      if ds.isEmpty then ([], text) else (c :: s ++ ds, beyond)
    else ([], text)

/-- The integer of a sign and digits. -/
def integer (negative : Bool) (ds : List Char) : Int :=
  let n := ds.foldl (fun n c => 10 * n + (c.toNat - '0'.toNat)) 0
  if negative then -(n : Int) else n

/-- The number at the front of a text. -/
def number (maxDigits : Nat) (text : List Char) : Except Stop (Json × List Char) :=
  let (negative, unsigned) :=
    match text with
    | '-' :: rest => (true, rest)
    | _ => (false, text)
  match integerPart? unsigned with
  | none => stop text
  | some (whole, afterWhole) =>
    let (part, afterPart) := fraction afterWhole
    let (power, behind) := exponent afterPart
    if part.isEmpty && power.isEmpty then
      if maxDigits < whole.length then .error .tooLong
      else .ok (.int (integer negative whole), behind)
    else
      let written := whole ++ part ++ power
      .ok (.real (String.ofList (if negative then '-' :: written else written)), behind)

/-- The words that are values, with their values. -/
def words : List (List Char × Json) :=
  [("null".toList, .null), ("true".toList, .bool true), ("false".toList, .bool false),
    ("NaN".toList, .real "NaN"), ("Infinity".toList, .real "Infinity"),
    ("-Infinity".toList, .real "-Infinity")]

/-- The value without parts at the front of a text. -/
def scalar (maxDigits : Nat) (text : List Char) : Except Stop (Json × List Char) :=
  match text with
  | '"' :: rest =>
    (chars text [] rest).map fun (cs, behind) => (.string (String.ofList cs), behind)
  | _ =>
    match words.find? (fun w => w.1.isPrefixOf text) with
    | some (w, value) => .ok (value, text.drop w.length)
    | none => number maxDigits text

/-! ### Arrays and objects -/

/-- The items of an array up to its closing bracket, behind those already read. `fuel` bounds the
number of items that follow. -/
def items (item : List Char → Except Stop (Json × List Char)) (done : List Json) :
    Nat → List Char → Except Stop (Json × List Char)
  | 0, text => stop text
  | fuel + 1, text => do
    let (value, behind) ← item text
    match skip behind with
    | ']' :: rest => .ok (.array (value :: done).reverse, rest)
    | ',' :: rest => items item (value :: done) fuel (skip rest)
    | rest => stop rest

/-- A member's name at the front of a text, with the text behind its colon. -/
def memberName (text : List Char) : Except Stop (String × List Char) :=
  match text with
  | '"' :: rest => do
    let (cs, behind) ← chars text [] rest
    match skip behind with
    | ':' :: value => .ok (String.ofList cs, skip value)
    | other => stop other
  | _ => stop text

/-- The members of an object up to its closing brace, behind those already read. `fuel` bounds the
number of members that follow. -/
def members (item : List Char → Except Stop (Json × List Char)) (done : List (String × Json)) :
    Nat → List Char → Except Stop (Json × List Char)
  | 0, text => stop text
  | fuel + 1, text => do
    let (name, front) ← memberName text
    let (value, behind) ← item front
    match skip behind with
    | '\x7d' :: rest => .ok (.object ((name, value) :: done).reverse, rest)
    | ',' :: rest => members item ((name, value) :: done) fuel (skip rest)
    | rest => stop rest

/-- The value at the front of a text. `size` bounds the length of the text, and the last number is
how deep arrays and objects may still be nested. -/
def value (maxDigits size : Nat) : Nat → List Char → Except Stop (Json × List Char)
  | 0, text =>
    match text with
    | '[' :: _ => .error .tooDeep
    | '\x7b' :: _ => .error .tooDeep
    | _ => scalar maxDigits text
  | depth + 1, text =>
    match text with
    | '[' :: rest =>
      match skip rest with
      | ']' :: behind => .ok (.array [], behind)
      | front => items (value maxDigits size depth) [] size front
    | '\x7b' :: rest =>
      match skip rest with
      | '\x7d' :: behind => .ok (.object [], behind)
      | front => members (value maxDigits size depth) [] size front
    | _ => scalar maxDigits text

end Reader

/-- The value that a text holds. -/
def read (limits : ReadLimits) (text : List Char) : Except ReadError Json :=
  let size := text.length
  match Reader.value limits.digits size limits.depth (Reader.skip text) with
  | .error (.at left) => .error (.malformed (size - left))
  | .error .tooDeep => .error .tooDeep
  | .error .tooLong => .error .tooLong
  | .ok (j, rest) =>
    match Reader.skip rest with
    | [] => .ok j
    | front => .error (.malformed (size - front.length))

end TweeLint.Json
