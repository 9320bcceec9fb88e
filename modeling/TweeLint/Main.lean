import TweeLint.CommandLine

/-!
# The program

What a run can see is collected first: the arguments, the environment, the file of variables, the
reference manual and the files to lint. `CommandLine.run` then computes the outcome, which is
written out. What the system says of a path is passed on as it is; nothing is decided here.
-/

namespace TweeLint.Program

/-- What is on disk: the nodes at the paths that are looked at on their own, and the tree at the
path that is linted. -/
structure Snapshot where
  nodes : List (Path × Except FileCause FileTree)
  target : Path
  tree : Except FileCause FileTree

/-- The files of a snapshot. -/
def Snapshot.files (s : Snapshot) : Files where
  find p :=
    if p = s.target then s.tree
    else
      match s.nodes.lookup p with
      | some node => node
      | none =>
        if p.anchor = s.target.anchor && s.target.parts.isPrefixOf p.parts then
          s.tree.bind fun tree => tree.walk [] (p.parts.drop s.target.parts.length)
        else .error .missing

/-- The cause of an error of the system. Some numbers come as what is missing to the next power of
two. -/
def causeOf : IO.Error → FileCause
  | .alreadyExists _ n text | .otherError n text | .resourceBusy n text | .resourceVanished n text
  | .unsupportedOperation n text | .hardwareFault n text | .unsatisfiedConstraints n text
  | .illegalOperation n text | .protocolError n text | .timeExpired n text | .interrupted _ n text
  | .noFileOrDirectory _ n text | .invalidArgument _ n text | .permissionDenied _ n text
  | .resourceExhausted _ n text | .inappropriateType _ n text | .noSuchThing _ n text =>
    .ofCode (if n.toNat < 0x80000000 then n.toNat else 0x100000000 - n.toNat) text
  | .unexpectedEof => ⟨0, "Unexpected end of file"⟩
  | .userError text => ⟨0, text⟩

/-- The node at a path, without what is in a directory. -/
def nodeAt (p : Path) : IO (Except FileCause FileTree) := do
  let place := (← IO.currentDir) / p.toText
  try
    if (← place.metadata).type == .dir then return .ok .empty
  catch e => return .error (causeOf e)
  try return .ok (.file (← IO.FS.readBinFile place).toList)
  catch e => return .ok (.locked (causeOf e))

/-- The tree at a path. Of the files in a directory only the Twee files are read. A directory that
may not be read has no entries; any other refusal below the path ends the program. -/
partial def treeAt (p : Path) : IO (Except FileCause FileTree) := do
  let place := (← IO.currentDir) / p.toText
  if !(← place.isDir) then return ← nodeAt p
  let found ←
    try place.readDir
    catch e => if causeOf e = .denied then pure #[] else throw e
  let mut entries := []
  for entry in found do
    let below := p.join [entry.fileName]
    if (← (place / entry.fileName).isDir) || Path.isTweeName entry.fileName then
      match ← treeAt below with
      | .ok child => entries := (entry.fileName, child) :: entries
      | .error cause =>
        if !cause.leadsNowhere then throw (.userError (FileError.mk cause below).message)
  return .ok (.directory entries)

/-- What a run with the given arguments can see. -/
def snapshot (environment : Environment) (arguments : List String) : IO Snapshot := do
  let file := Path.ofString Settings.fileName
  let node ← nodeAt file
  match CommandLine.Demand.ofArguments arguments with
  | .ok (.lint options) =>
    let settings := Settings.load ⟨fun _ => node⟩ environment
    let manual := options.vocabulary.or (settings.toOption.bind Settings.vocabularyPath)
    let manuals ← manual.toList.mapM fun p => return (p, ← nodeAt p)
    let target := Path.ofString (options.path.getD "")
    return ⟨(file, node) :: manuals, target, ← treeAt target⟩
  | _ => return ⟨[(file, node)], file, node⟩

/-- The variable that a text `NAME=value` sets. -/
def variableOf (s : String) : String × String :=
  let cs := s.toList
  (String.ofList (cs.takeWhile (· != '=')), String.ofList ((cs.dropWhile (· != '=')).drop 1))

/-- The environment, where the system shows it as a file of texts with zero bytes behind them. -/
def environment : IO Environment := do
  try
    let bytes ← IO.FS.readBinFile "/proc/self/environ"
    let text := String.ofList (Text.Utf8.decodeLossy bytes.toList)
    return (text.splitOn "\x00").map variableOf
  catch _ => return []

end TweeLint.Program

/-- Runs the command line. -/
def main (arguments : List String) : IO UInt32 := do
  let environment ← TweeLint.Program.environment
  let files := (← TweeLint.Program.snapshot environment arguments).files
  match TweeLint.CommandLine.run files environment (fun _ => 0) arguments with
  | .ok outcome =>
    IO.print outcome.output
    IO.eprint outcome.errors
    return outcome.exit.toUInt32
  | .error e =>
    IO.eprint e.message
    return 1
