import VocabPhp.CommandLine.Run

/-!
# The command

Reads a vocabulary from a file and writes PHP interfaces, traits and models into a directory. The
steps are those of `execute`, on the disk of the machine in place of a `FileSystem`. This program
has no client for the network.
-/

namespace VocabPhp

/-- The network of this program. -/
def network : Network := Network.unreachable

/-- A step of the command, which may end it. -/
abbrev Step := ExceptT Failure IO

/-- Runs an action on the disk and puts a failure in place of the one of the system. -/
def onDisk {α : Type} (failure : Failure) (action : IO α) : Step α := do
  match ← action.toBaseIO with
  | .ok a => return a
  | .error _ => throw failure

/-- Removes directory entries, the contents of a directory before the directory itself. -/
partial def removeEntries (entries : Array IO.FS.DirEntry) : IO Unit := do
  for e in entries do
    if (← e.path.symlinkMetadata).type == .dir then
      removeEntries (← e.path.readDir)
      IO.FS.removeDir e.path
    else
      IO.FS.removeFile e.path

/-- Empties a directory, or makes it if there is none. -/
def prepareOnDisk (dir : String) : IO Unit := do
  let found ← (IO.FS.realPath dir).toBaseIO
  if let .ok path := found then
    if ← path.isDir then
      removeEntries (← path.readDir)
  if dir ≠ "" then
    IO.FS.createDirAll dir

/-- Writes a text file, with the directories that lead to it. -/
def writeOnDisk (refused : SaveError → Failure) (path : Path) (content : String) : Step Unit := do
  if let some parent := path.parent? then
    if parent.chars ≠ [] then
      onDisk (refused (.directory parent)) (IO.FS.createDirAll parent.text)
  onDisk (refused (.file path)) (IO.FS.writeFile path.text content)

/-- Writes a file of a run. -/
def saveOnDisk (dir : Path) (a : Artifact) : Step Unit :=
  writeOnDisk (fun e => .generation (.save a.name e)) (dir.join a.name) a.content

/-- The text behind a URL. -/
def fetchOnline (failure : FetchError → Failure) (url : String) : Step String :=
  match fetchText url network with
  | .ok text => return text
  | .error e => throw (failure e)

/-- The text of a source. -/
def loadOnDisk (source : String) : Step String := do
  if isRemote source then
    fetchOnline (fun e => .source (.fetch e)) source
  else
    let bytes ← onDisk (.source (.unreadable source)) (IO.FS.readBinFile source)
    match textOfBytes source bytes with
    | .ok text => return text
    | .error e => throw (.source e)

/-- Runs the command with given arguments. -/
def executeOnDisk (a : Arguments) : Step Unit := do
  let s := a.settings (a.releaseLabel network)
  let dir := Path.ofText a.outputDir
  let text ← loadOnDisk a.source
  match vocabularyOfText s text with
  | .error e => throw e
  | .ok v =>
    onDisk (.prepare (.creation dir)) (prepareOnDisk a.outputDir)
    if a.fetchTree then
      let tree ← fetchOnline (fun e => .tree (.fetch e)) treeUrl
      writeOnDisk (fun e => .tree (.write e)) (treePath dir) tree
    match Plan.ofVocabulary s v with
    | .error c => throw (.generation (.cycle c))
    | .ok plan => plan.artifacts.forM (saveOnDisk dir)

/-- How the command is called. -/
def usage : String :=
  "Usage: vocabphp [SOURCE] [OUTPUT_DIR] [-s|--skip-superseded] [-c|--craft-version 3|4] " ++
    "[--release LABEL] [--fetch-tree] [-h|--help]"

end VocabPhp

def main (args : List String) : IO UInt32 := do
  match VocabPhp.Arguments.parse args with
  | .error .help =>
    IO.println VocabPhp.usage
    return 0
  | .error .usage =>
    IO.eprintln VocabPhp.usage
    return 2
  | .ok a =>
    match ← (VocabPhp.executeOnDisk a).run with
    | .ok () => return 0
    | .error e =>
      IO.eprintln e.line
      return 1
