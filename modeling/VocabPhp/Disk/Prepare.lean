import VocabPhp.Disk.Save

/-!
# Preparing the output directory

The output directory is emptied, and made if there is none. What it holds is removed entry by entry,
the contents of a directory before the directory itself.

* `removeAll`: removes entries in order, up to the first that cannot be removed.
* `prepareDirectory`: empties or makes the directory.
-/

namespace VocabPhp

/-- Why the output directory could not be prepared. -/
inductive PrepareError
  | removal (location : Location) (wasDirectory : Bool)
  | creation (path : Path)
  deriving DecidableEq, Repr

/-- The text for an error. -/
def PrepareError.message : PrepareError → String
  | removal l true => "Failed to remove directory: " ++ "/".intercalate l
  | removal l false => "Failed to remove file: " ++ "/".intercalate l
  | creation p => "Failed to create output directory: " ++ p.text

/-- Removes entries in order, up to the first that cannot be removed. -/
def removeAll : List (Location × Entry) → FileSystem → Except PrepareError Unit × FileSystem
  | [], fs => (.ok (), fs)
  | (l, e) :: rest, fs =>
    match fs.removeEntry l with
    | .error _ => (.error (.removal l (e = .directory)), fs)
    | .ok fs => removeAll rest fs

/-- Empties what a path leads to, if it is a directory. -/
def emptyDirectory (p : Path) (fs : FileSystem) : Except PrepareError Unit × FileSystem :=
  match fs.locate p with
  | .error _ => (.ok (), fs)
  | .ok l => removeAll (fs.below l) fs

/-- Empties a directory, or makes it if there is none. -/
def prepareDirectory (p : Path) (fs : FileSystem) : Except PrepareError Unit × FileSystem :=
  match emptyDirectory p fs with
  | (.error e, fs) => (.error e, fs)
  | (.ok (), fs) =>
    match createDirectories p fs with
    | (.error _, fs) => (.error (.creation p), fs)
    | (.ok (), fs) => (.ok (), fs)

end VocabPhp
