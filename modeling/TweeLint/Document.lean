import TweeLint.FileTree
import TweeLint.Numeral
import TweeLint.Text.Lines
import TweeLint.Text.Utf8

/-!
# Documents in files

A file holds a document as UTF-8. One byte-order mark in front is dropped, every line end becomes a
line feed, and the text must not be longer than a limit. A directory is searched for all Twee files
in it, at any depth.

Two kinds of failure are kept apart (`LoadError`): what is wrong with a document, which concerns this
document alone, and a look-up that is refused, of which no one on the way takes notice.
-/

namespace TweeLint

namespace Text

/-- The text that the bytes of a file hold. A file of nothing but the beginning of a byte-order mark
holds none. -/
def ofBytes (bytes : List UInt8) : Except Utf8.Fault (List Char) :=
  if bytes.isPrefixOf Utf8.markBytes then .ok []
  else
    let content := if Utf8.markBytes.isPrefixOf bytes then bytes.drop 3 else bytes
    (Utf8.decode content).map unifyLineEnds

end Text

/-- Why a document cannot be linted. -/
inductive DocumentError where
  | notFound (path : Path)
  | unreadable (path : Path) (cause : FileCause)
  | undecodable (path : Path) (fault : Text.Utf8.Fault)
  | tooLarge (path : Path) (size : Nat) (limit : Int)
  | unsupported (path : Path)
deriving DecidableEq

namespace DocumentError

/-- The text of the error. -/
def message : DocumentError → String
  | notFound path => s!"File or directory not found: {path}"
  | unreadable path cause => s!"Cannot read {path}: {cause.text}"
  | undecodable path fault => s!"Cannot decode {path} as UTF-8: {fault.message}"
  | tooLarge path size limit =>
    s!"Document {path} exceeds maximum size " ++
      s!"({Numeral.grouped size} chars > {Numeral.grouped limit} limit)"
  | unsupported path =>
    let extensions := " or ".intercalate Path.tweeExtensions
    s!"File must have {extensions} extension: {path}"

end DocumentError

/-- Why no document is loaded: something is wrong with it, or the look-up is refused. -/
inductive LoadError where
  | document (error : DocumentError)
  | refused (error : FileError)
deriving DecidableEq

namespace Document

/-- The most characters that a document may have unless another limit is set. -/
def defaultLimit : Int := 5000000

/-- The text of at most `limit` characters that the bytes at a path hold. -/
def decode (limit : Int) (path : Path) (bytes : List UInt8) : Except DocumentError String :=
  match Text.ofBytes bytes with
  | .error fault => .error (.undecodable path fault)
  | .ok text =>
    if limit < text.length then .error (.tooLarge path text.length limit)
    else .ok (String.ofList text)

/-- The text of a document of at most `limit` characters. -/
def load (limit : Int) (files : Files) (path : Path) : Except LoadError String :=
  match files.look path with
  | .error e => .error (.refused e)
  | .ok none => .error (.document (.notFound path))
  | .ok (some (.directory _)) => .error (.document (.unreadable path .isDirectory))
  | .ok (some (.locked cause)) => .error (.document (.unreadable path cause))
  | .ok (some (.file bytes)) => (decode limit path bytes).mapError .document

/-- The Twee files below a node that `root` leads to, in the order of their paths. -/
def tweeFilesBelow (root : Path) (node : FileTree) : List Path :=
  ((node.filesBelow.map root.join).filter Path.isTwee).mergeSort Path.before

/-- The Twee files below a directory, in the order of their paths. -/
def discover (files : Files) (root : Path) : Except LoadError (List Path) :=
  match files.look root with
  | .error e => .error (.refused e)
  | .ok none => .error (.document (.notFound root))
  | .ok (some node) => .ok (tweeFilesBelow root node)

end Document

end TweeLint
