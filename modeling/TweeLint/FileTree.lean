import TweeLint.Path
import TweeLint.Text.Quoted

/-!
# File trees

Files are bytes, directories are named entries. A tree is looked up by following a path through it
(`FileTree.walk`), changed by writing and removing (`FileTree.write`, `makeDirectory`, `remove`),
and searched for all files in it (`FileTree.files`).

The rest of the library does not hold a tree; it sees files through a look-up (`Files`), which says
for each path what is there or why nothing can be seen there. Some of these causes mean that nothing
is there (`FileCause.leadsNowhere`). With any other the look-up is refused, and whether something is
there stays open (`Files.look`).
-/

namespace TweeLint

/-- Why an operation on files fails, by the number and the text that the system has for it. -/
structure FileCause where
  code : Nat
  text : String
deriving DecidableEq

namespace FileCause

def missing : FileCause := ⟨2, "No such file or directory"⟩

def denied : FileCause := ⟨13, "Permission denied"⟩

def alreadyThere : FileCause := ⟨17, "File exists"⟩

def notDirectory : FileCause := ⟨20, "Not a directory"⟩

def isDirectory : FileCause := ⟨21, "Is a directory"⟩

def nameTooLong : FileCause := ⟨36, "File name too long"⟩

/-- The causes that have a name here. -/
def named : List FileCause :=
  [missing, denied, alreadyThere, notDirectory, isDirectory, nameTooLong]

/-- The cause of a number. The text is that of the system, unless the cause has a name here. -/
def ofCode (code : Nat) (text : String) : FileCause :=
  (named.find? fun c => c.code == code).getD ⟨code, text⟩

/-- The numbers of the causes for which nothing is at a path: no such entry, a bad descriptor, a
file in place of a directory, and links that lead to each other. -/
def nowhereCodes : List Nat := [2, 9, 20, 40]

/-- Whether a look-up that fails for this cause means that nothing is there. -/
def leadsNowhere (c : FileCause) : Bool :=
  nowhereCodes.contains c.code

/-- The most bytes that a name can have. -/
def maxNameBytes : Nat := 255

/-- Why a directory has no entry of a name. -/
def noEntry (name : String) : FileCause :=
  if maxNameBytes < name.utf8ByteSize then nameTooLong else missing

end FileCause

/-- A failed operation, with the path it was tried on. -/
structure FileError where
  cause : FileCause
  path : Path
deriving DecidableEq

namespace FileError

/-- The text of the error. -/
def message (e : FileError) : String :=
  s!"[Errno {e.cause.code}] {e.cause.text}: {Text.quoted e.path.toText}"

end FileError

/-- What is at a place: a file, a file that cannot be opened, or a directory. -/
inductive FileTree where
  | file (bytes : List UInt8)
  | locked (cause : FileCause)
  | directory (entries : List (String × FileTree))

namespace FileTree

instance : Inhabited FileTree := ⟨directory []⟩

/-- A directory without entries. It also stands for what lies outside the tree, of which nothing is
known. -/
def empty : FileTree := directory []

/-- Whether a node is a file, which need not be one that can be opened. -/
def isFile : FileTree → Bool
  | file _ | locked _ => true
  | directory _ => false

/-! ### Looking up -/

/-- Follows names from a node whose directories above are given, the nearest first. -/
def walk (above : List FileTree) (node : FileTree) : List String → Except FileCause FileTree
  | [] => .ok node
  | name :: rest =>
    match node with
    | file _ | locked _ => .error .notDirectory
    | directory entries =>
      if name = ".." then
        match above with
        | [] => walk [] empty rest
        | parent :: higher => walk higher parent rest
      else
        match entries.lookup name with
        | none => .error (.noEntry name)
        | some child => walk (node :: above) child rest

/-- What a path leads to in the tree of the working directory. -/
def find (root : FileTree) (p : Path) : Except FileCause FileTree :=
  if p.anchor.isEmpty then walk [] root p.parts else walk [] empty p.parts

/-! ### Changing -/

/-- Names without two dots, each of which takes back the name before it. -/
def direct (names : List String) : List String :=
  names.foldl (fun done name => if name = ".." then done.dropLast else done ++ [name]) []

/-- Puts an entry into a directory, in place of one of the same name. -/
def putEntry (name : String) (child : FileTree) :
    List (String × FileTree) → List (String × FileTree)
  | [] => [(name, child)]
  | e :: rest => if e.1 = name then (name, child) :: rest else e :: putEntry name child rest

/-- Makes a directory, and the directories above it that are not there yet. `passed` holds the names
on the way to this node. -/
def makeDirectoryAt (passed : List String) (node : FileTree) :
    List String → Except FileError FileTree
  | [] =>
    match node with
    | file _ | locked _ => .error ⟨.alreadyThere, ⟨"", passed⟩⟩
    | directory _ => .ok node
  | name :: rest =>
    match node with
    | file _ | locked _ => .error ⟨.notDirectory, ⟨"", passed ++ name :: rest⟩⟩
    | directory entries =>
      if FileCause.maxNameBytes < name.utf8ByteSize then
        .error ⟨.nameTooLong, ⟨"", passed ++ name :: rest⟩⟩
      else do
        let child ← makeDirectoryAt (passed ++ [name]) ((entries.lookup name).getD empty) rest
        return directory (putEntry name child entries)

/-- Writes a file into a directory that is there. -/
def writeAt (passed : List String) (bytes : List UInt8) (node : FileTree) :
    List String → Except FileError FileTree
  | [] =>
    match node with
    | file _ => .ok (file bytes)
    | locked cause => .error ⟨cause, ⟨"", passed⟩⟩
    | directory _ => .error ⟨.isDirectory, ⟨"", passed⟩⟩
  | name :: rest =>
    match node with
    | file _ | locked _ => .error ⟨.notDirectory, ⟨"", passed ++ name :: rest⟩⟩
    | directory entries =>
      if FileCause.maxNameBytes < name.utf8ByteSize then
        .error ⟨.nameTooLong, ⟨"", passed ++ name :: rest⟩⟩
      else do
        let old := (entries.lookup name).getD (if rest.isEmpty then file [] else empty)
        let child ← writeAt (passed ++ [name]) bytes old rest
        return directory (putEntry name child entries)

/-- Makes a directory, and those above it. -/
def makeDirectory (p : Path) (root : FileTree) : Except FileError FileTree :=
  makeDirectoryAt [] root (direct p.parts)

/-- Writes a file, and makes the directories above it. -/
def write (p : Path) (bytes : List UInt8) (root : FileTree) : Except FileError FileTree := do
  let names := direct p.parts
  writeAt [] bytes (← makeDirectoryAt [] root names.dropLast) names

/-- Removes a file, or a directory with all that is in it. -/
def removeAt (p : Path) (node : FileTree) : List String → Except FileError FileTree
  | [] => .ok empty
  | name :: rest =>
    match node with
    | file _ | locked _ => .error ⟨.notDirectory, p⟩
    | directory entries =>
      match entries.lookup name with
      | none => .error ⟨.noEntry name, p⟩
      | some child =>
        if rest.isEmpty then .ok (directory (entries.filter fun e => e.1 != name))
        else do
          return directory (putEntry name (← removeAt p child rest) entries)

/-- Removes what a path leads to. -/
def remove (p : Path) (root : FileTree) : Except FileError FileTree :=
  removeAt p root (direct p.parts)

/-! ### Searching -/

/-- The ways to all files of a tree, each as the names that lead to it. -/
def files : FileTree → List (List String)
  | file _ | locked _ => [[]]
  | directory entries => entries.flatMap fun e => e.2.files.map (e.1 :: ·)
decreasing_by
  rename_i h
  have := List.sizeOf_lt_of_mem h
  cases e
  simp only [directory.sizeOf_spec, Prod.mk.sizeOf_spec] at *
  omega

/-- The ways to all files below a node; a file has nothing below it. -/
def filesBelow : FileTree → List (List String)
  | file _ | locked _ => []
  | directory entries => (directory entries).files

end FileTree

/-- What can be seen of the files: for each path what is there, or why nothing can be seen there. -/
structure Files where
  find : Path → Except FileCause FileTree

namespace Files

/-- The files of a tree. -/
def ofTree (root : FileTree) : Files := ⟨root.find⟩

/-- The most bytes that a path can have. -/
def maxPathBytes : Nat := 4095

/-- The files as a system shows them, which looks at no path with a zero character in it and refuses
one of too many bytes. -/
def bounded (files : Files) : Files where
  find p :=
    if p.hasZero then .error .missing
    else if maxPathBytes < p.toText.utf8ByteSize then .error .nameTooLong
    else files.find p

/-- Looks at a path: what is there, if anything is. The look-up is refused if it fails for a cause
that says nothing about this. -/
def look (files : Files) (p : Path) : Except FileError (Option FileTree) :=
  match files.find p with
  | .ok node => .ok (some node)
  | .error cause => if cause.leadsNowhere then .ok none else .error ⟨cause, p⟩

theorem look_of_find {files : Files} {p : Path} {node : FileTree} (h : files.find p = .ok node) :
    files.look p = .ok (some node) := by
  rw [look, h]

theorem find_of_look {files : Files} {p : Path} {node : FileTree}
    (h : files.look p = .ok (some node)) : files.find p = .ok node := by
  unfold look at h
  split at h
  · next hfind => rwa [Option.some.inj (Except.ok.inj h)] at hfind
  · split at h
    · cases h
    · cases h

theorem look_of_refusal {files : Files} {p : Path} {cause : FileCause}
    (h : files.find p = .error cause) (hcause : cause.leadsNowhere = false) :
    files.look p = .error ⟨cause, p⟩ := by
  simp only [look, h, hcause, Bool.false_eq_true, if_false]

theorem look_bounded {files : Files} {p : Path} (hclear : p.hasZero = false)
    (hshort : p.toText.utf8ByteSize ≤ maxPathBytes) : files.bounded.look p = files.look p := by
  simp only [look, bounded, hclear, Bool.false_eq_true, if_false, Nat.not_lt.mpr hshort]

end Files

end TweeLint
