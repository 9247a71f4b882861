import VocabPhp.Artifact.Generate
import VocabPhp.Disk.FileSystem

/-!
# Saving files into a directory

* `createDirectories`: makes a directory with those that lead to it. Directories that were made
  before a failure stay.
* `writeFile`: writes a text file, with the directories that lead to it.
* `directorySink`: a sink that writes every file below one directory.
-/

namespace VocabPhp

/-- Makes a directory if there is none yet, and before it the directories that lead to it if it is
for want of them that it cannot be made. -/
def createDirectories (p : Path) (fs : FileSystem) : Except DiskError Unit × FileSystem :=
  if p.chars = [] then (.ok (), fs)
  else
    match fs.makeDirectory p with
    | .ok fs => (.ok (), fs)
    | .error .missing =>
      match h : p.parent? with
      | none => (.error .missing, fs)
      | some parent =>
        have := Path.rank_parent_lt h
        match createDirectories parent fs with
        | (.error e, fs) => (.error e, fs)
        | (.ok (), fs) =>
          match fs.makeDirectory p with
          | .ok fs => (.ok (), fs)
          | .error e => (if fs.isDirectoryAt p then .ok () else .error e, fs)
    | .error e => (if fs.isDirectoryAt p then .ok () else .error e, fs)
termination_by p.rank

/-- Why a file could not be saved. -/
inductive SaveError
  | directory (path : Path)
  | file (path : Path)
  deriving DecidableEq, Repr

/-- The text for an error. -/
def SaveError.message : SaveError → String
  | directory p => "Failed to create directory: " ++ p.text
  | file p => "Failed to write file: " ++ p.text

/-- Makes the directories that lead to a path. -/
def createParent (p : Path) (fs : FileSystem) : Except SaveError Unit × FileSystem :=
  match p.parent? with
  | none => (.ok (), fs)
  | some parent =>
    match createDirectories parent fs with
    | (.error _, fs) => (.error (.directory parent), fs)
    | (.ok (), fs) => (.ok (), fs)

/-- Writes a text file, with the directories that lead to it. -/
def writeFile (p : Path) (content : String) (fs : FileSystem) :
    Except SaveError Unit × FileSystem :=
  match createParent p fs with
  | (.error e, fs) => (.error e, fs)
  | (.ok (), fs) =>
    match fs.writeBytes p content.toUTF8 with
    | .ok fs => (.ok (), fs)
    | .error _ => (.error (.file p), fs)

/-- Writes files below a directory. -/
def directorySink (root : Path) : Sink FileSystem SaveError := fun a fs =>
  writeFile (root.join a.name) a.content fs

end VocabPhp
