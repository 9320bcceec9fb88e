import TweeLint.Numeral
import TweeLint.Path
import TweeLint.Text.Quoted

/-!
# Options of the command line

Arguments are read from left to right. An argument that begins with a dash is an option, unless it
is a lone dash, has the form of a negative number, or is no option and has a blank in it; behind two
dashes alone nothing is an option. A long option may be shortened as long as it stays unambiguous,
and its value follows as the next argument or behind an equals sign. The first argument that is
neither an option nor the value of one is the path; any other is left over.

The help and the version end the reading as soon as they are met. Faults are reported one at a time:
ambiguous options first, then the others from left to right, then what is left over.
-/

namespace TweeLint.CommandLine

/-- The options. -/
inductive Opt where
  | help
  | version
  | vocabulary
  | format
  | jobs
deriving DecidableEq

/-- How reports are written. -/
inductive Format where
  | text
  | json
deriving DecidableEq

namespace Opt

/-- The ways to write the options, in the order in which they are compared. -/
def flags : List (String × Opt) :=
  [("-h", help), ("--help", help), ("-v", version), ("--version", version),
    ("--vocabulary", vocabulary), ("--format", format), ("--jobs", jobs)]

/-- An option in messages. -/
def label : Opt → String
  | help => "-h/--help"
  | version => "-v/--version"
  | vocabulary => "--vocabulary"
  | format => "--format"
  | jobs => "--jobs"

end Opt

/-- What is wrong with the arguments. -/
inductive UsageError where
  /-- A shortened option fits several options. -/
  | ambiguous (argument : String) (flags : List String)
  /-- A value is given to an option that has none. -/
  | ignoredValue (opt : Opt) (value : String)
  /-- An option lacks its value. -/
  | valueExpected (opt : Opt)
  /-- The format is not known. -/
  | unknownFormat (value : String)
  /-- The number of jobs is not an integer. -/
  | jobsNotInteger (value : String)
  /-- Arguments are left over. -/
  | leftOver (arguments : List String)
deriving DecidableEq

namespace UsageError

/-- The text of a fault. -/
def message : UsageError → String
  | ambiguous argument flags =>
    let fits := ", ".intercalate flags
    s!"ambiguous option: {argument} could match {fits}"
  | ignoredValue opt value =>
    s!"argument {opt.label}: ignored explicit argument {Text.quoted value}"
  | valueExpected opt => s!"argument {opt.label}: expected one argument"
  | unknownFormat value =>
    s!"argument {Opt.format.label}: invalid choice: {Text.quoted value} " ++
      "(choose from 'text', 'json')"
  | jobsNotInteger value =>
    s!"argument {Opt.jobs.label}: invalid int value: {Text.quoted value}"
  | leftOver arguments =>
    let rest := " ".intercalate arguments
    s!"unrecognized arguments: {rest}"

end UsageError

/-! ### Kinds of arguments -/

/-- A value in the same argument as its option. `apart` says whether an equals sign separates the
two. -/
structure Attached where
  apart : Bool
  value : List Char
deriving DecidableEq

/-- An argument, by its kind. -/
inductive Argument where
  /-- A path or the value of an option. -/
  | plain (s : String)
  /-- The two dashes behind which nothing is an option. -/
  | dashes
  /-- An option, written with one dash or two. -/
  | opt (o : Opt) (long : Bool) (attached : Option Attached)
  /-- What looks like an option and is none. -/
  | unknown (s : String)
deriving DecidableEq

/-- The text before the first equals sign, and the text behind it if there is one. -/
def cutAtEquals (cs : List Char) : List Char × Option (List Char) :=
  match cs.dropWhile (· != '=') with
  | _ :: value => (cs.takeWhile (· != '='), some value)
  | [] => (cs, none)

/-- An option that an argument can be read as, with the way to write it in full. -/
abbrev Reading := String × Opt × Option Attached

/-- Whether a flag begins with two dashes. -/
def isLong (flag : String) : Bool :=
  ['-', '-'].isPrefixOf flag.toList

/-- The options that an argument with two dashes in front is short for. -/
def longReadings (cs : List Char) : List Reading :=
  let (front, value) := cutAtEquals cs
  (Opt.flags.filter fun (flag, _) => front.isPrefixOf flag.toList).map fun (flag, o) =>
    (flag, o, value.map fun v => ⟨true, v⟩)

/-- The option that an argument with one dash in front can be: that of its first letter, with the
rest attached. -/
def shortReadings (cs : List Char) : List Reading :=
  (Opt.flags.filter fun (flag, _) => flag.toList == cs.take 2).map fun (flag, o) =>
    (flag, o, some ⟨false, cs.drop 2⟩)

/-- The options that an argument can be read as. -/
def readings (cs : List Char) : List Reading :=
  if cs.take 2 = ['-', '-'] then longReadings cs else shortReadings cs

/-- Whether every character is a decimal digit. -/
def allDigits (cs : List Char) : Bool :=
  cs.all fun c => (Text.decimalDigit? c).isSome

/-- A text without one line feed at its end. -/
def dropFinalFeed (cs : List Char) : List Char :=
  if cs.getLast? == some '\n' then cs.dropLast else cs

/-- Whether a text behind a dash is a number: digits, or digits behind a point, with or without
digits in front of it. -/
def isNumber (cs : List Char) : Bool :=
  let body := dropFinalFeed cs
  let whole := body.takeWhile (· != '.')
  match body.dropWhile (· != '.') with
  | [] => !whole.isEmpty && allDigits whole
  | _ :: part => allDigits whole && !part.isEmpty && allDigits part

/-- The kind of an argument that begins with a dash and is not a flag in full. -/
def classifyDashed (s : String) (cs : List Char) : Except UsageError Argument :=
  match readings cs with
  | [(flag, o, attached)] => .ok (.opt o (isLong flag) attached)
  | [] =>
    if isNumber (cs.drop 1) || cs.contains ' ' then .ok (.plain s) else .ok (.unknown s)
  | several => .error (.ambiguous s (several.map (·.1)))

/-- The kind of an argument. -/
def classify (s : String) : Except UsageError Argument :=
  let cs := s.toList
  match cs with
  | '-' :: _ :: _ =>
    match Opt.flags.lookup s with
    | some o => .ok (.opt o (isLong s) none)
    | none =>
      match cutAtEquals cs with
      | (front, some value) =>
        match Opt.flags.lookup (String.ofList front) with
        | some o => .ok (.opt o (isLong s) (some ⟨true, value⟩))
        | none => classifyDashed s cs
      | (_, none) => classifyDashed s cs
  | _ => .ok (.plain s)

/-- The kinds of the arguments. -/
def classifyAll : List String → Except UsageError (List Argument)
  | [] => .ok []
  | s :: rest =>
    if s = "--" then .ok (.dashes :: rest.map .plain)
    else do
      let argument ← classify s
      return argument :: (← classifyAll rest)

/-! ### Reading the arguments -/

/-- What the options of a run say. -/
structure Options where
  path : Option String
  vocabulary : Option Path
  format : Format
  jobs : Option Int
deriving DecidableEq

/-- What the arguments ask for. -/
inductive Demand where
  | help
  | version
  | lint (options : Options)
deriving DecidableEq

/-- What is known behind some arguments: the options, whether the last argument was taken as the
path, and the arguments that are left over, the latest first. -/
structure Progress where
  options : Options
  justTookPath : Bool
  left : List String

namespace Progress

/-- Nothing is known yet. -/
def initial : Progress := ⟨⟨none, none, .text, none⟩, false, []⟩

/-- Takes an argument as the path, or leaves it over if there is a path already. -/
def takePlain (p : Progress) (s : String) : Progress :=
  match p.options.path with
  | none => { p with options := { p.options with path := some s }, justTookPath := true }
  | some _ => { p with justTookPath := false, left := s :: p.left }

/-- Two dashes mean nothing before the path or directly behind it, and are left over elsewhere. -/
def takeDashes (p : Progress) : Progress :=
  if p.options.path.isNone || p.justTookPath then { p with justTookPath := false }
  else { p with left := "--" :: p.left }

/-- Leaves an argument over. -/
def leave (p : Progress) (s : String) : Progress :=
  { p with justTookPath := false, left := s :: p.left }

end Progress

/-- What is wrong with the text attached to a short option that has no value: it may only hold
further such options. `o` is the option in front of the text. -/
def clusterError? (o : Opt) (apart : Bool) : List Char → Option UsageError
  | [] => some (.ignoredValue o "")
  | c :: rest =>
    if apart || c = '-' then some (.ignoredValue o (String.ofList (c :: rest)))
    else
      match Opt.flags.lookup (String.ofList ['-', c]) with
      | none => none
      | some next =>
        match rest with
        | [] => none
        | '=' :: value =>
          some (.ignoredValue next (String.ofList value))
        | _ => clusterError? next false rest

/-- The demand of an option that has no value; what is attached to it is at fault, unless it is
a row of short options. -/
def demandOf (o : Opt) (demand : Demand) (long : Bool) (attached : Option Attached) :
    Except UsageError Demand :=
  match attached with
  | none => .ok demand
  | some a =>
    if long then .error (.ignoredValue o (String.ofList a.value))
    else
      match clusterError? o a.apart a.value with
      | some e => .error e
      | none => .ok demand

/-- The options with the value of one of them added. -/
def setValue (options : Options) (o : Opt) (value : String) : Except UsageError Options :=
  match o with
  | .vocabulary => .ok { options with vocabulary := some (Path.ofString value) }
  | .format =>
    if value = "text" then .ok { options with format := .text }
    else if value = "json" then .ok { options with format := .json }
    else .error (.unknownFormat value)
  | .jobs =>
    match Numeral.ofLiteral? value with
    | some n => .ok { options with jobs := some n }
    | none => .error (.jobsNotInteger value)
  | _ => .ok options

/-- Reads the arguments that follow, until the help or the version is asked for. -/
def readFrom (p : Progress) : List Argument → Except UsageError Demand
  | [] => if p.left.isEmpty then .ok (.lint p.options) else .error (.leftOver p.left.reverse)
  | .plain s :: rest => readFrom (p.takePlain s) rest
  | .dashes :: rest => readFrom p.takeDashes rest
  | .unknown s :: rest => readFrom (p.leave s) rest
  | .opt .help long attached :: _ => demandOf .help .help long attached
  | .opt .version long attached :: _ => demandOf .version .version long attached
  | .opt o _ (some a) :: rest => do
    let options ← setValue p.options o (String.ofList a.value)
    readFrom { p with options, justTookPath := false } rest
  | .opt o _ none :: .plain value :: rest => do
    let options ← setValue p.options o value
    readFrom { p with options, justTookPath := false } rest
  | .opt o _ none :: _ => .error (.valueExpected o)

/-- What the arguments ask for. -/
def Demand.ofArguments (arguments : List String) : Except UsageError Demand := do
  readFrom .initial (← classifyAll arguments)

end TweeLint.CommandLine
