import TweeLint.Text.Blank

/-!
# Files of variables

A file of variables holds one assignment `NAME=value` a line, as a shell script would. Blanks around
the sign do not count, `export` may stand in front, and a number sign behind a blank begins a
comment. A value may stand between quotes; it can then hold such characters and run over several
lines, and a backslash escapes the quote in it. A line that does not have this form is passed over
(`EnvFile.assignments`).

A value can refer to a variable as `$` with the name in braces, and give a default behind `:-`.
It is replaced by what the variable is worth at that place: an earlier assignment of the file
counts, else the environment, else the default (`EnvFile.resolve`).
-/

namespace TweeLint.EnvFile

/-- A variable and what it is assigned; a name alone assigns nothing. -/
abbrev Assignment := List Char × Option (List Char)

/-- Whether a character is a blank within a line. -/
def isInlineBlank (c : Char) : Bool :=
  Text.isBlank c && c != '\n'

/-- The text behind the blanks at its front that are within the line. -/
def skipInline (cs : List Char) : List Char :=
  cs.dropWhile isInlineBlank

/-- The text behind the end of its first line. -/
def nextLine (cs : List Char) : List Char :=
  (cs.dropWhile (· != '\n')).drop 1

/-- The text behind the word `export` and the blanks that must follow it. -/
def skipExport (cs : List Char) : List Char :=
  match cs with
  | 'e' :: 'x' :: 'p' :: 'o' :: 'r' :: 't' :: c :: rest =>
    if isInlineBlank c then skipInline rest else cs
  | _ => cs

/-! ### Quoted values -/

/-- The index of the quote that closes a quoted value: the first one that no backslash precedes, and
if there is none, the last one. `i` is the index of the next character, `escaped` says whether a
backslash precedes it, and `last` is the index of the last quote so far. -/
def closingFrom (quote : Char) (i : Nat) (escaped : Bool) (last : Option Nat) :
    List Char → Option Nat
  | [] => last
  | c :: rest =>
    if c = quote then
      if escaped then closingFrom quote (i + 1) false (some i) rest else some i
    else closingFrom quote (i + 1) (c == '\\') last rest

/-- A quoted value, from the text behind its opening quote, with the text behind the closing one. -/
def quoted? (quote : Char) (cs : List Char) : Option (List Char × List Char) :=
  (closingFrom quote 0 false none cs).map fun i => (cs.take i, cs.drop (i + 1))

/-- What an escape stands for between single quotes. -/
def singleEscape? (c : Char) : Option Char :=
  if c = '\\' || c = '\'' then some c else none

/-- What an escape stands for between double quotes. -/
def doubleEscape? (c : Char) : Option Char :=
  if c = '\\' || c = '\'' || c = '"' then some c
  else if c = 'a' then some '\x07'
  else if c = 'b' then some '\x08'
  else if c = 'f' then some '\x0C'
  else if c = 'n' then some '\n'
  else if c = 'r' then some '\r'
  else if c = 't' then some '\t'
  else if c = 'v' then some '\x0B'
  else none

/-- Replaces the escapes of a quoted value; other backslashes stay. -/
def unescape (escape? : Char → Option Char) : List Char → List Char
  | '\\' :: c :: rest =>
    match escape? c with
    | some d => d :: unescape escape? rest
    | none => '\\' :: unescape escape? (c :: rest)
  | c :: rest => c :: unescape escape? rest
  | [] => []

/-! ### Values without quotes -/

/-- The part of a line before a comment and the blanks in front of it. `kept` is what is kept so far
and `blanks` are the blanks behind it, both with the latest character first. -/
def uncommented (kept blanks : List Char) : List Char → List Char
  | [] => kept.reverse
  | c :: rest =>
    if Text.isBlank c then uncommented kept (c :: blanks) rest
    else if c = '#' && !blanks.isEmpty then kept.reverse
    else uncommented (c :: (blanks ++ kept)) [] rest

/-! ### Assignments -/

/-- What is read at the front of a text, with the text behind it; or where the text does not have
the form. -/
abbrev Read (α : Type) := Except (List Char) (α × List Char)

/-- Whether a character can stand in a name without quotes. -/
def isNameChar (c : Char) : Bool :=
  c != '=' && c != '#' && !Text.isBlank c

/-- The name at the front of a text; none in front of a comment. -/
def name? (cs : List Char) : Read (Option (List Char)) :=
  match cs with
  | '#' :: _ => .ok (none, cs)
  | '\'' :: rest =>
    let name := rest.takeWhile (· != '\'')
    match rest.dropWhile (· != '\'') with
    | _ :: behind => if name.isEmpty then .error cs else .ok (some name, behind)
    | [] => .error cs
  | _ =>
    let name := cs.takeWhile isNameChar
    if name.isEmpty then .error cs else .ok (some name, cs.dropWhile isNameChar)

/-- The value at the front of a text. -/
def value (cs : List Char) : Read (List Char) :=
  match cs with
  | '\'' :: rest =>
    match quoted? '\'' rest with
    | some (raw, behind) => .ok (unescape singleEscape? raw, behind)
    | none => .error cs
  | '"' :: rest =>
    match quoted? '"' rest with
    | some (raw, behind) => .ok (unescape doubleEscape? raw, behind)
    | none => .error cs
  | _ => .ok (uncommented [] [] (cs.takeWhile (· != '\n')), cs.dropWhile (· != '\n'))

/-- What follows a name: its value behind the sign, or nothing. -/
def valueBehindName (cs : List Char) : Read (Option (List Char)) :=
  match skipInline cs with
  | '=' :: rest => (value (skipInline rest)).map fun (v, behind) => (some v, behind)
  | behind => .ok (none, behind)

/-- The text behind the end of a line that holds nothing more than a comment. -/
def lineEnd (cs : List Char) : Except (List Char) (List Char) :=
  match skipInline cs with
  | [] => .ok []
  | '\n' :: rest => .ok rest
  | '#' :: rest => .ok (nextLine rest)
  | rest => .error rest

/-- The assignment at the front of a text, whose first character is not a blank. -/
def assignment? (cs : List Char) : Read (Option Assignment) :=
  match name? (skipExport cs) with
  | .error rest => .error rest
  | .ok (name, afterName) =>
    match valueBehindName afterName with
    | .error rest => .error rest
    | .ok (v, afterValue) => (lineEnd afterValue).map fun rest => (name.map (·, v), rest)

/-- The assignments of a text, behind those already found, of which the latest comes first. A line
without the form of one is passed over. `fuel` bounds the number of lines. -/
def collect (found : List Assignment) : Nat → List Char → List Assignment
  | 0, _ => found.reverse
  | fuel + 1, cs =>
    match cs.dropWhile Text.isBlank with
    | [] => found.reverse
    | front =>
      match assignment? front with
      | .ok (a, rest) => collect (a.toList ++ found) fuel rest
      | .error rest => collect found fuel (nextLine rest)

/-- The assignments of a text, in their order. -/
def assignments (text : List Char) : List Assignment :=
  collect [] (text.length + 1) text

/-! ### References to variables -/

/-- A piece of a value: a character, or a reference to a variable with a default. -/
inductive Piece where
  | char (c : Char)
  | reference (name default : List Char)

/-- A reference, from the text behind its opening brace, with the text behind the closing one. -/
def reference? (cs : List Char) : Option (Piece × List Char) :=
  let name := cs.takeWhile fun c => c != '\x7d' && c != ':'
  match cs.drop name.length with
  | '\x7d' :: rest => some (.reference name [], rest)
  | ':' :: '-' :: rest =>
    let default := rest.takeWhile (· != '\x7d')
    match rest.drop default.length with
    | '\x7d' :: behind => some (.reference name default, behind)
    | _ => none
  | _ => none

/-- The piece at the front of a text, with the text behind it. -/
def piece (c : Char) (rest : List Char) : Piece × List Char :=
  match c, rest with
  | '$', '\x7b' :: inner => (reference? inner).getD (.char c, rest)
  | _, _ => (.char c, rest)

/-- A value with its references replaced. `fuel` bounds its length. -/
def expand (lookup : List Char → Option (List Char)) : Nat → List Char → List Char
  | 0, _ => []
  | _, [] => []
  | fuel + 1, c :: rest =>
    match piece c rest with
    | (.char d, behind) => d :: expand lookup fuel behind
    | (.reference name default, behind) =>
      (lookup name).getD default ++ expand lookup fuel behind

/-- Variables with their values, each name once, in the order in which the names first came up. -/
abbrev Variables := List Assignment

/-- Assigns a value to a variable; its place stays. -/
def assign (name : List Char) (v : Option (List Char)) : Variables → Variables
  | [] => [(name, v)]
  | a :: rest => if a.1 = name then (name, v) :: rest else a :: assign name v rest

/-- What a name refers to: an earlier variable of the file, which may have no value and then stands
for nothing, or a variable of the environment. -/
def lookupIn (environment : List (List Char × List Char)) (earlier : Variables)
    (name : List Char) : Option (List Char) :=
  match earlier.lookup name with
  | some v => some (v.getD [])
  | none => environment.lookup name

/-- The variables that assignments make, with references replaced as they are met. -/
def resolve (environment : List (List Char × List Char)) (as : List Assignment) : Variables :=
  as.foldl (fun earlier (name, v) =>
    assign name (v.map fun cs => expand (lookupIn environment earlier) cs.length cs) earlier) []

end TweeLint.EnvFile
