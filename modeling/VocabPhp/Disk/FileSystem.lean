import VocabPhp.Disk.Path
import VocabPhp.Table

/-!
# File systems

A file system is a finite tree of directories and files, without links, and a working directory that
relative paths start from. It is held as a flat list: each entry has a `Location`, the names on the
way from the root to it.

* `FileSystem.find?`: what is at a location.
* `FileSystem.find?_put`, `FileSystem.find?_remove`: changing one location leaves all others alone.
* `FileSystem.walk`: follows names, through directories only.
* `makeDirectory`, `writeBytes`, `readBytes`, `removeEntry`: the operations on a path or a location.
  Each changes at most one location, and none if it fails.
-/

namespace VocabPhp

/-- The names on the way from the root to a place. -/
abbrev Location := List String

/-- What is at a place. -/
inductive Entry
  | directory
  | file (bytes : ByteArray)

instance : DecidableEq Entry
  | .directory, .directory => isTrue rfl
  | .directory, .file _ => isFalse nofun
  | .file _, .directory => isFalse nofun
  | .file a, .file b =>
    if h : a.data = b.data then isTrue (congrArg Entry.file (ByteArray.ext h))
    else isFalse fun e => h (congrArg ByteArray.data (Entry.file.inj e))

/-- Why an operation fails. -/
inductive DiskError
  | missing
  | notDirectory
  | isDirectory
  | exists
  | nameTooLong
  | invalidName
  | notEmpty
  deriving DecidableEq, Repr

/-- A tree of directories and files, and the directory that relative paths start from. -/
structure FileSystem where
  entries : List (Location × Entry)
  workDir : Location

namespace FileSystem

/-- What is at a location. The root is a directory. -/
def find? (fs : FileSystem) (l : Location) : Option Entry :=
  if l = [] then some .directory else fs.entries.lookup l

/-- Tells whether there is a directory at a location. -/
def isDirectory (fs : FileSystem) (l : Location) : Bool := fs.find? l = some .directory

/-- The file system with nothing at a location. -/
def remove (fs : FileSystem) (l : Location) : FileSystem :=
  { fs with entries := fs.entries.filter fun e => e.1 ≠ l }

/-- The file system with an entry at a location, in place of what was there. -/
def put (fs : FileSystem) (l : Location) (e : Entry) : FileSystem :=
  { fs with entries := (l, e) :: (fs.remove l).entries }

theorem lookup_filter_ne (l k : Location) (es : List (Location × Entry)) :
    (es.filter fun e => e.1 ≠ l).lookup k = if k = l then none else es.lookup k := by
  induction es with
  | nil => simp
  | cons e es ih =>
    obtain ⟨k', v⟩ := e
    by_cases hl : k' = l
    · subst hl
      by_cases hk : k = k'
      · simpa [hk] using ih
      · have : (k == k') = false := by simpa using hk
        simpa [hk, List.lookup_cons, this] using ih
    · by_cases hk : k = k'
      · subst hk; simp [hl]
      · have : (k == k') = false := by simpa using hk
        simpa [hl, List.lookup_cons, this] using ih

/-- Removing a location empties it and leaves all others alone. -/
theorem find?_remove (fs : FileSystem) {l : Location} (hl : l ≠ []) (k : Location) :
    (fs.remove l).find? k = if k = l then none else fs.find? k := by
  unfold find? remove
  by_cases hk : k = []
  · subst hk; simp [Ne.symm hl]
  · simp only [hk, if_false]
    exact lookup_filter_ne l k fs.entries

/-- Putting an entry at a location leaves all others alone. -/
theorem find?_put (fs : FileSystem) {l : Location} (hl : l ≠ []) (e : Entry) (k : Location) :
    (fs.put l e).find? k = if k = l then some e else fs.find? k := by
  unfold put find?
  by_cases hk : k = []
  · subst hk; simp [Ne.symm hl]
  · simp only [hk, if_false, List.lookup_cons]
    by_cases hkl : k = l
    · subst hkl; simp
    · have : (k == l) = false := by simpa using hkl
      simp only [this, hkl, if_false]
      rw [remove, lookup_filter_ne, if_neg hkl]

/-! ## Following paths -/

/-- The greatest length of a name, in bytes. -/
def maxName : Nat := 255

/-- The length of a path, in bytes, from which on it is too long. -/
def maxPath : Nat := 4096

/-- Follows names from a location. A dot stays, two dots lead to the parent directory. -/
def walk (fs : FileSystem) (l : Location) : List String → Except DiskError Location
  | [] => .ok l
  | name :: names =>
    if !fs.isDirectory l then .error .notDirectory
    else if name = "." then walk fs l names
    else if name = ".." then walk fs l.dropLast names
    else if maxName < name.utf8ByteSize then .error .nameTooLong
    else if (fs.find? (l ++ [name])).isNone then .error .missing
    else walk fs (l ++ [name]) names

/-- Where a path starts. -/
def start (fs : FileSystem) (p : Path) : Location := if p.lead = .root then [] else fs.workDir

/-- Refuses paths that no file system takes. -/
def checkPath (p : Path) : Except DiskError Unit :=
  if p.chars = [] then .error .missing
  else if '\x00' ∈ p.chars then .error .invalidName
  else if maxPath ≤ p.text.utf8ByteSize then .error .nameTooLong
  else .ok ()

/-- The location that a path leads to, if there is something. A path that ends in a slash leads to a
directory. -/
def locate (fs : FileSystem) (p : Path) : Except DiskError Location :=
  match checkPath p with
  | .error e => .error e
  | .ok () => fs.walk (fs.start p) (p.names ++ if p.endsInSlash then ["."] else [])

/-- Tells whether a path leads to a directory. -/
def isDirectoryAt (fs : FileSystem) (p : Path) : Bool :=
  match fs.locate p with
  | .ok l => fs.isDirectory l
  | .error _ => false

/-- The directory that the last name of a path is looked for in, and that name. There is none if the
path ends in a dot, in two dots, or at the root. -/
def locateParent (fs : FileSystem) (p : Path) : Except DiskError (Location × Option String) :=
  match checkPath p with
  | .error e => .error e
  | .ok () =>
    match fs.walk (fs.start p) p.names.dropLast with
    | .error e => .error e
    | .ok l =>
      if !fs.isDirectory l then .error .notDirectory
      else
        let name := p.names.getLast?.filter fun n => n ≠ "." ∧ n ≠ ".."
        if name.any fun n => maxName < n.utf8ByteSize then .error .nameTooLong
        else .ok (l, name)

/-! ## Operations -/

/-- Makes a directory. -/
def makeDirectory (fs : FileSystem) (p : Path) : Except DiskError FileSystem :=
  match fs.locateParent p with
  | .error e => .error e
  | .ok (_, none) => .error .exists
  | .ok (l, some name) =>
    if (fs.find? (l ++ [name])).isSome then .error .exists
    else .ok (fs.put (l ++ [name]) .directory)

/-- Writes a file, in place of what it held before. -/
def writeBytes (fs : FileSystem) (p : Path) (bytes : ByteArray) : Except DiskError FileSystem :=
  match fs.locateParent p with
  | .error e => .error e
  | .ok (_, none) => .error .isDirectory
  | .ok (l, some name) =>
    if p.endsInSlash ∨ fs.isDirectory (l ++ [name]) then .error .isDirectory
    else .ok (fs.put (l ++ [name]) (.file bytes))

/-- Reads a file. -/
def readBytes (fs : FileSystem) (p : Path) : Except DiskError ByteArray :=
  match fs.locate p with
  | .error e => .error e
  | .ok l =>
    match fs.find? l with
    | some (.file bytes) => .ok bytes
    | _ => .error .isDirectory

/-- The entries below a location, those deeper down first. -/
def below (fs : FileSystem) (l : Location) : List (Location × Entry) :=
  (fs.entries.filter fun e => l.isPrefixOf e.1 && e.1 ≠ l).mergeSort fun a b =>
    b.1.length ≤ a.1.length

/-- What is below a location, by the paths that lead there from it. -/
def contents (fs : FileSystem) (l : Location) : Table Entry :=
  .ofList ((fs.below l).map fun e => ("/".intercalate (e.1.drop l.length), e.2))

/-- Removes a file, or a directory that holds nothing. -/
def removeEntry (fs : FileSystem) (l : Location) : Except DiskError FileSystem :=
  match fs.find? l with
  | none => .error .missing
  | some (.file _) => .ok (fs.remove l)
  | some .directory => if (fs.below l).isEmpty then .ok (fs.remove l) else .error .notEmpty

end FileSystem

end VocabPhp
