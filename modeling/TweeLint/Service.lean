import TweeLint.Document
import TweeLint.Lint
import TweeLint.Pool

/-!
# The lint service

A service lints texts and files against one vocabulary. Documents share nothing else, so several are
linted at a time, and one that cannot be read does not stop the others. A look-up that is refused
does: there are no reports then, not even those of the other documents.
-/

namespace TweeLint

/-- A vocabulary, the limit on the size of a document, and how many documents are linted at a
time. -/
structure Service where
  vocabulary : Vocabulary
  limit : Int
  workers : Int

/-- The outcome of linting several documents: the reports and the failures, both in the order in
which the documents were named. -/
structure Batch where
  reports : List Report
  failures : List (Path × DocumentError)

namespace Batch

/-- Whether every document could be read and is valid. -/
def ok (b : Batch) : Bool :=
  b.failures.isEmpty && b.reports.all Report.isValid

/-- Sorts the outcomes of named documents into reports and failures. -/
def ofOutcomes (outcomes : List (Path × Except DocumentError Report)) : Batch where
  reports := outcomes.filterMap fun (_, outcome) => outcome.toOption
  failures := outcomes.filterMap fun (path, outcome) =>
    match outcome with
    | .ok _ => none
    | .error e => some (path, e)

/-- Takes stock of attempts. The first one that was refused takes the place of all others. -/
def ofAttempts (attempts : List (Except FileError (Path × Except DocumentError Report))) :
    Except FileError Batch :=
  (attempts.mapM id).map ofOutcomes

end Batch

/-- What is known about a name: whether the vocabulary has it and, if not, what to write instead. -/
structure Lookup where
  name : String
  valid : Bool
  suggestion : Option String
deriving DecidableEq

namespace Service

/-- Lints a text; the source only labels the report. -/
def lintText (s : Service) (source document : String) : Report :=
  Report.lint s.vocabulary source document

/-- Lints a file. -/
def lintFile (s : Service) (files : Files) (path : Path) : Except LoadError Report := do
  return s.lintText path.toText (← Document.load s.limit files path)

/-- Lints a file among others: what is wrong with the document is noted down with its path, but
nothing is made of a refusal. -/
def attempt (s : Service) (files : Files) (path : Path) :
    Except FileError (Path × Except DocumentError Report) :=
  match s.lintFile files path with
  | .ok report => .ok (path, .ok report)
  | .error (.document e) => .ok (path, .error e)
  | .error (.refused e) => .error e

/-- How many workers lint a number of documents: at least one, and no more than there are
documents. -/
def poolSize (s : Service) (documents : Nat) : Nat :=
  min (max 1 s.workers.toNat) documents

/-- Lints several files at a time. `choices` settles in which order they are done. That tasks which
still wait when a refusal is met need not be done any more is left out, since no answer shows it. -/
def lintFiles (s : Service) (files : Files) (choices : Nat → Nat) (paths : List Path) :
    Except FileError Batch :=
  Batch.ofAttempts (Pool.run (s.poolSize paths.length) choices (s.attempt files) paths)

/-- Looks a name up. -/
def lookup (s : Service) (name : String) : Lookup where
  name
  valid := name ∈ s.vocabulary
  suggestion := if name ∈ s.vocabulary then none else s.vocabulary.suggest? name

end Service

end TweeLint
