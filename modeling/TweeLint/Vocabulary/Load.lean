import TweeLint.Document
import TweeLint.Vocabulary.Bundled
import TweeLint.Vocabulary.Reference

/-!
# Loading a vocabulary

Without a vocabulary nothing can be linted, so the errors here end a whole run. All but one of them
are told apart from other errors by those who ask for a vocabulary; a path that cannot be one
(`VocabularyError.noPath`) is not.
-/

namespace TweeLint

/-- Why there is no vocabulary. -/
inductive VocabularyError where
  /-- The manual has no section that lists the names. -/
  | noMacroList
  /-- The manual cannot be read. -/
  | unreadable (error : FileError)
  /-- The manual is not UTF-8. -/
  | undecodable (path : Path) (fault : Text.Utf8.Fault)
  /-- There is a zero character in the path of the manual. -/
  | noPath (path : Path)
deriving DecidableEq

namespace VocabularyError

/-- What a manual that cannot be used is reported as. -/
def cannotRead (path : Path) (reason : String) : String :=
  s!"Cannot read macro documentation '{path}': {reason}"

/-- The text of the error. -/
def message : VocabularyError → String
  | noMacroList => "Could not find macro list section in documentation"
  | unreadable error => cannotRead error.path error.message
  | undecodable path fault => cannotRead path fault.message
  | noPath _ => "embedded null byte"

end VocabularyError

namespace Vocabulary

/-- The vocabulary of a reference manual. -/
def ofReference (markdown : String) : Except VocabularyError Vocabulary :=
  match Reference.vocabulary? markdown with
  | some v => .ok v
  | none => .error .noMacroList

/-- The vocabulary of the reference manual in a file. -/
def loadFile (files : Files) (path : Path) : Except VocabularyError Vocabulary :=
  if path.hasZero then .error (.noPath path)
  else
    match files.find path with
    | .error cause => .error (.unreadable ⟨cause, path⟩)
    | .ok (.directory _) => .error (.unreadable ⟨.isDirectory, path⟩)
    | .ok (.locked cause) => .error (.unreadable ⟨cause, path⟩)
    | .ok (.file bytes) =>
      match Text.ofBytes bytes with
      | .error fault => .error (.undecodable path fault)
      | .ok text => ofReference (String.ofList text)

/-- The vocabulary of the reference manual in a file, or the bundled one if no file is named. -/
def load (files : Files) : Option Path → Except VocabularyError Vocabulary
  | none => .ok bundled
  | some path => loadFile files path

end Vocabulary

end TweeLint
