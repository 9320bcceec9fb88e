import TweeLint.Document
import TweeLint.Interchange
import TweeLint.Settings.EnvFile
import TweeLint.Text.Uppercase

/-!
# Settings

What a run can be told from outside, by environment variables and by a file of variables in the
working directory. Letter case does not count in the names of variables, and the environment goes
before the file.
-/

namespace TweeLint

/-- The settings of a run. -/
structure Settings where
  logLevel : String
  /-- The reference manual to read the vocabulary from; the bundled one if there is none. -/
  vocabularyPath : Option Path
  lintWorkers : Int
  maxDocumentSize : Int
  serverHost : String
  serverPort : Int
deriving DecidableEq

/-- Why there are no settings. -/
inductive SettingsError where
  /-- Some variables do not have the right form. -/
  | invalid (issues : List Issue)
  /-- The file of variables cannot be looked at or opened. -/
  | unreadable (error : FileError)
  /-- The file of variables is not UTF-8. -/
  | undecodable (fault : Text.Utf8.Fault)
deriving DecidableEq

/-- Environment variables with their values. -/
abbrev Environment := List (String × String)

namespace Settings

/-- The file of variables. -/
def fileName : String := ".env"

/-- Variables under their names in lower case. -/
abbrev Source := List (List Char × Option (List Char))

/-- The variables of the environment. -/
def ofEnvironment (environment : Environment) : Source :=
  environment.map fun (name, v) => (Text.lower name.toList, some v.toList)

/-- The variables that a file assigns. -/
def ofFile (environment : Environment) (text : List Char) : Source :=
  (EnvFile.resolve (environment.map fun (name, v) => (name.toList, v.toList))
    (EnvFile.assignments text)).map fun (name, v) => (Text.lower name, v)

/-- The value of a variable. Of several variables whose names differ in letter case the last one
counts. -/
def Source.get? (source : Source) (name : String) : Option String :=
  match source.reverse.lookup name.toList with
  | some (some v) => some (String.ofList v)
  | _ => none

/-- The value of a variable in the first of several sources that has one. -/
def find? (sources : List Source) (name : String) : Option String :=
  sources.findSome? (·.get? name)

/-- The text of a variable. -/
def text (sources : List Source) (name default : String) : Checked String :=
  .valid ((find? sources name).getD default)

/-- The integer that a variable holds. -/
def integer (sources : List Source) (name : String) (default : Int) : Checked Int :=
  match find? sources name with
  | none => .valid default
  | some v => (Record.integerText v).under (.field name)

/-- The settings that variables make. -/
def ofSources (sources : List Source) : Checked Settings :=
  Settings.mk <$> text sources "log_level" "INFO" <*>
    .valid ((find? sources "vocabulary_path").map Path.ofString) <*>
    integer sources "lint_workers" 4 <*>
    integer sources "max_document_size" Document.defaultLimit <*>
    text sources "api_server_host" "localhost" <*> integer sources "api_server_port" 8000

/-- The text of the file of variables; empty if there is no such file. -/
def fileText (files : Files) : Except SettingsError (List Char) :=
  let path := Path.ofString fileName
  match files.look path with
  | .error e => .error (.unreadable e)
  | .ok (some (.locked cause)) => .error (.unreadable ⟨cause, path⟩)
  | .ok (some (.file bytes)) =>
    match Text.Utf8.decode bytes with
    | .ok cs => .ok (Text.unifyLineEnds cs)
    | .error fault => .error (.undecodable fault)
  | _ => .ok []

/-- The settings for an environment and the files of the working directory. -/
def load (files : Files) (environment : Environment) : Except SettingsError Settings := do
  let file := ofFile environment (← fileText files)
  (ofSources [ofEnvironment environment, file]).toExcept.mapError .invalid

/-! ### Log levels -/

/-- The names of the log levels. -/
def logLevels : List String :=
  ["CRITICAL", "FATAL", "ERROR", "WARN", "WARNING", "INFO", "DEBUG", "NOTSET"]

/-- A log level that is not known, in upper case. -/
structure UnknownLevel where
  level : String
deriving DecidableEq

/-- The text of the error. -/
def UnknownLevel.message (e : UnknownLevel) : String :=
  s!"Unknown level: {Text.quoted e.level}"

/-- The log level in upper case, if it is known. -/
def checkedLevel (s : Settings) : Except UnknownLevel String :=
  let level := String.ofList (Text.upper s.logLevel.toList)
  if level ∈ logLevels then .ok level else .error ⟨level⟩

end Settings

end TweeLint
