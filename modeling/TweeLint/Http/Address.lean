import TweeLint.Http.Query

/-!
# Addresses

What an address consists of is read off its text: the scheme up to the first colon, the host behind
two slashes, then the path, up to a question mark or a number sign. Nothing in the text says which
of the parts a character was meant for, so a host with a slash or a question mark in it moves the
borders (`Address.path?`).

A text is no address if its host cannot be one: if brackets do not pair or do not hold an address of
eight groups (or of a later kind), or if a character of it is written out as one of the marks that
are borders.
-/

namespace TweeLint.Http.Address

open Query (splitAt)

/-- The text in front of the first of a character, and the text behind it. -/
def cutAt (mark : Char) (cs : List Char) : List Char × List Char :=
  (cs.takeWhile (· != mark), (cs.dropWhile (· != mark)).drop 1)

/-! ### Numbers in brackets -/

def isHexDigit (c : Char) : Bool :=
  (Json.Reader.hexDigit? c).isSome

/-- One of the eight groups. -/
def isGroup (cs : List Char) : Bool :=
  !cs.isEmpty && cs.length ≤ 4 && cs.all isHexDigit

/-- One of the four numbers of the shorter kind, without leading zeros. -/
def isOctet (cs : List Char) : Bool :=
  !cs.isEmpty && cs.length ≤ 3 && cs.all Char.isDigit && (cs.head? != some '0' || cs.length == 1) &&
    cs.foldl (fun n c => 10 * n + (c.toNat - '0'.toNat)) 0 ≤ 255

/-- Four numbers with points between them. They take the place of two groups. -/
def isQuad (cs : List Char) : Bool :=
  let parts := splitAt '.' cs
  parts.length == 4 && parts.all isOctet

/-- How many groups a text with colons between them has. The last may be four numbers if `ends`. -/
def groups? (ends : Bool) (cs : List Char) : Option Nat :=
  if cs.isEmpty then some 0
  else
    let parts := splitAt ':' cs
    if parts.all isGroup then some parts.length
    else if ends && parts.dropLast.all isGroup && (parts.getLast?.map isQuad).getD false then
      some (parts.length + 1)
    else none

/-- The text in front of the first two colons in a row, and the text behind them. -/
def cutAtGap : List Char → Option (List Char × List Char)
  | ':' :: ':' :: rest => some ([], rest)
  | c :: rest => (cutAtGap rest).map fun (front, back) => (c :: front, back)
  | [] => none

/-- Whether groups make an address: eight of them, or fewer with a gap. -/
def areGroups (cs : List Char) : Bool :=
  match cutAtGap cs with
  | none => groups? true cs == some 8
  | some (front, back) =>
    match groups? false front, groups? true back with
    | some m, some n => m + n ≤ 7
    | _, _ => false

/-- An address of groups, which may have a zone behind it. -/
def isGrouped (cs : List Char) : Bool :=
  let (groups, zone) := cutAt '%' cs
  areGroups groups && (!cs.contains '%' || (!zone.isEmpty && !zone.contains '%'))

/-- An address of a later kind: its version, a point and the rest. -/
def isLater (cs : List Char) : Bool :=
  let (version, rest) := cutAt '.' cs
  !version.isEmpty && version.all isHexDigit && !rest.isEmpty

/-- What may stand in brackets. -/
def isBracketed : List Char → Bool
  | 'v' :: rest => isLater rest
  | cs => isGrouped cs

/-! ### Hosts -/

/-- The characters that are written out with a border mark in them, such as `a/c` for one sign. -/
def disguises : List Char :=
  ['\u2047', '\u2048', '\u2049', '\u2100', '\u2101', '\u2105', '\u2106', '\u2A74', '\uFE13',
    '\uFE16', '\uFE55', '\uFE56', '\uFE5F', '\uFE6B', '\uFF03', '\uFF0F', '\uFF1A', '\uFF1F',
    '\uFF20']

/-- Whether the brackets of a host pair, and hold what they may. -/
def bracketsFit (host : List Char) : Bool :=
  if host.contains '[' then
    host.contains ']' && isBracketed (cutAt ']' (cutAt '[' host).2).1
  else !host.contains ']'

/-- Whether a text can be the host of an address. -/
def isHost (host : List Char) : Bool :=
  bracketsFit host && host.all fun c => !disguises.contains c

/-! ### Parts -/

/-- Tabs and line ends do not get into an address. -/
def isKept (c : Char) : Bool :=
  c != '\t' && c != '\n' && c != '\r'

/-- The text as it is read: without blanks and control characters in front, and without tabs and
line ends anywhere. -/
def cleaned (cs : List Char) : List Char :=
  (cs.dropWhile fun c => c.toNat ≤ 0x20).filter isKept

def isSchemeChar (c : Char) : Bool :=
  c.isAlphanum || c == '+' || c == '-' || c == '.'

/-- The text behind the scheme, if there is one. -/
def behindScheme (cs : List Char) : List Char :=
  let (scheme, rest) := cutAt ':' cs
  if cs.contains ':' && (cs.head?.map Char.isAlpha).getD false && scheme.all isSchemeChar then rest
  else cs

def isHostChar (c : Char) : Bool :=
  c != '/' && c != '?' && c != '#'

def isPathChar (c : Char) : Bool :=
  c != '?' && c != '#'

/-- The host and what follows it. -/
def host : List Char → List Char × List Char
  | '/' :: '/' :: rest => (rest.takeWhile isHostChar, rest.dropWhile isHostChar)
  | cs => ([], cs)

/-- The path of an address, if the text is one. -/
def path? (text : List Char) : Option (List Char) :=
  let (host, rest) := host (behindScheme (cleaned text))
  if isHost host then some (rest.takeWhile isPathChar) else none

end TweeLint.Http.Address
