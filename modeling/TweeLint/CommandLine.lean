import TweeLint.CommandLine.Help
import TweeLint.CommandLine.Options
import TweeLint.Service
import TweeLint.Settings
import TweeLint.Vocabulary.Load

/-!
# The command line

A run lints one file or all Twee files below a directory. Reports go to the output, and what goes
wrong goes to the error output. The exit code is 0 if nothing was found, 1 if a document has errors
or cannot be linted, and 2 if the arguments are wrong or there is no vocabulary.

`CommandLine.run` is the whole run as a function of the arguments, the environment and the files.
-/

namespace TweeLint.CommandLine

/-- What a run leaves behind. The lines of the log, which go to the error output as well if the log
level lets them pass, are left out of `errors`. -/
structure Outcome where
  exit : Nat
  output : String
  errors : String
deriving DecidableEq

/-- Why a run breaks off without an outcome: the settings are unfit, the look-up of a path is
refused, or the path of the manual cannot be one. -/
inductive RunError where
  | settings (error : SettingsError)
  | level (error : Settings.UnknownLevel)
  | refused (error : FileError)
  | noPath (path : Path)
deriving DecidableEq

/-- The text of the error. -/
def RunError.message : RunError → String
  | .settings (.invalid issues) => String.join (issues.map fun issue => issue.text ++ "\n")
  | .settings (.unreadable error) => s!"{error.message}\n"
  | .settings (.undecodable fault) => s!"{Settings.fileName}: {fault.message}\n"
  | .level error => s!"{error.message}\n"
  | .refused error => s!"{error.message}\n"
  | .noPath path => s!"{(VocabularyError.noPath path).message}\n"

/-- A run that ends with a text on the output. -/
def done (output : String) : Outcome := ⟨0, output, ""⟩

/-- A run that ends with a message. -/
def failed (exit : Nat) (message : String) : Outcome := ⟨exit, "", s!"Error: {message}\n"⟩

/-- A run whose arguments are wrong. -/
def misused (e : UsageError) : Outcome :=
  ⟨2, "", usage ++ s!"{programName}: error: {e.message}\n"⟩

/-- The documents that a path stands for: the Twee files below a directory, or the file itself. -/
def documents (files : Files) (target : Path) : Except LoadError (List Path) :=
  match files.look target with
  | .error e => .error (.refused e)
  | .ok none => .error (.document (.notFound target))
  | .ok (some (.directory entries)) => .ok (Document.tweeFilesBelow target (.directory entries))
  | .ok (some _) =>
    if target.isTwee then .ok [target] else .error (.document (.unsupported target))

/-- A report as it is printed. -/
def printed (format : Format) (r : Report) : String :=
  match format with
  | .text => r.text ++ "\n"
  | .json => r.toJsonLine ++ "\n"

/-- A failure as it is printed. -/
def printedFailure (failure : Path × DocumentError) : String :=
  s!"Error processing {failure.1}: {failure.2.message}\n"

/-- A batch as it is printed. -/
def printedBatch (format : Format) (b : Batch) : Outcome where
  exit := if b.ok then 0 else 1
  output := String.join (b.reports.map (printed format))
  errors := String.join (b.failures.map printedFailure)

/-- Lints the documents that a path stands for. `choices` settles in which order they are done. -/
def lintTarget (settings : Settings) (files : Files) (choices : Nat → Nat) (options : Options)
    (target : Path) : Except RunError Outcome :=
  match documents files target with
  | .error (.refused e) => .error (.refused e)
  | .error (.document e) => .ok (failed 1 e.message)
  | .ok [] => .ok (done s!"No .twee files found in {target}\n")
  | .ok paths =>
    match Vocabulary.load files (options.vocabulary.or settings.vocabularyPath) with
    | .error (.noPath path) => .error (.noPath path)
    | .error e => .ok (failed 2 e.message)
    | .ok vocabulary =>
      let service : Service :=
        ⟨vocabulary, settings.maxDocumentSize, options.jobs.getD settings.lintWorkers⟩
      ((service.lintFiles files choices paths).map (printedBatch options.format)).mapError .refused

/-- Runs with the given options. Without a path there is only the help, and nothing else is looked
at. -/
def lint (files : Files) (environment : Environment) (choices : Nat → Nat) (options : Options) :
    Except RunError Outcome :=
  match options.path with
  | none => .ok (done help)
  | some path => do
    let settings ← (Settings.load files environment).mapError .settings
    let _ ← settings.checkedLevel.mapError .level
    lintTarget settings files choices options (Path.ofString path)

/-- Runs with the given arguments. -/
def run (files : Files) (environment : Environment) (choices : Nat → Nat)
    (arguments : List String) : Except RunError Outcome :=
  match Demand.ofArguments arguments with
  | .error e => .ok (misused e)
  | .ok .help => .ok (done help)
  | .ok .version => .ok (done versionLine)
  | .ok (.lint options) => lint files environment choices options

end TweeLint.CommandLine
