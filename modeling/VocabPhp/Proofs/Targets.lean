import Mathlib.Data.List.Basic
import VocabPhp.Disk.Save

/-!
# Where paths lead

Whether a path can be followed depends on the file system, but where it leads does not: the names of
the path alone say it. So what an operation on a path may change is known before it runs. Making a
directory with those that lead to it changes locations on the way of the path only, and for a normal
path these are the location that it leads to and those above.

* `FileSystem.target`, `FileSystem.Passes`: where a path leads, and the locations on its way.
* `FileSystem.makeDirectory_eq_ok`, `FileSystem.eq_put_of_writeBytes`: operations work on the
  target.
* `MakesWay`, `createDirectories_makesWay`: what is made to reach a directory.
* `locate_of_createDirectories`: a directory that was made is where its path leads.
* `WritesFile`, `writeFile_writesFile`: what is written, and made to reach it.
* `Path.IsNormal`, `Path.IsNormal.prefix_of_passes`: paths whose way leads down.
* `IsEntryName`: names of entries.
-/

namespace VocabPhp

namespace FileSystem

variable {fs fs' : FileSystem} {p q : Path} {l m k : Location} {name : String}
  {names rest : List String}

/-- Where a name leads from a location. -/
def next (l : Location) (name : String) : Location :=
  if name = "." then l else if name = ".." then l.dropLast else l ++ [name]

/-- Where names lead from a location. -/
def follow (l : Location) (names : List String) : Location := names.foldl next l

/-- Where a path leads. -/
def target (fs : FileSystem) (p : Path) : Location := follow (fs.start p) p.names

/-- A path passes the locations that its beginnings lead to, as far as these end in a name other
than a dot or two dots. -/
def Passes (fs : FileSystem) (p : Path) (k : Location) : Prop :=
  ∃ names name, names ++ [name] <+: p.names ∧ name ≠ "." ∧ name ≠ ".." ∧
    k = follow (fs.start p) names ++ [name]

theorem Passes.ne_root (h : fs.Passes p k) : k ≠ [] := by
  obtain ⟨names, name, -, -, -, rfl⟩ := h
  simp

theorem next_of_ne (hdot : name ≠ ".") (hdots : name ≠ "..") : next l name = l ++ [name] := by
  rw [next, if_neg hdot, if_neg hdots]

theorem follow_append : follow l (names ++ rest) = follow (follow l names) rest :=
  List.foldl_append

theorem follow_concat : follow l (names ++ [name]) = next (follow l names) name :=
  List.foldl_concat ..

/-- Without two dots names only lead down. -/
theorem prefix_follow (h : ".." ∉ names) : l <+: follow l names := by
  induction names generalizing l with
  | nil => exact List.prefix_rfl
  | cons name names ih =>
    obtain ⟨hdots, hnames⟩ := not_or.1 (mt List.mem_cons.2 h)
    refine List.IsPrefix.trans ?_ (ih hnames)
    by_cases hdot : name = "."
    · have hnext : next l name = l := if_pos hdot
      exact ⟨[], by rw [hnext, List.append_nil]⟩
    · rw [next_of_ne hdot (Ne.symm hdots)]
      exact List.prefix_append l [name]

theorem walk_append : fs.walk l (names ++ rest) = match fs.walk l names with
    | .error e => .error e
    | .ok m => fs.walk m rest := by
  induction names generalizing l with
  | nil => rfl
  | cons name names ih =>
    rw [List.cons_append, walk, walk]
    split
    · rfl
    · split
      · exact ih
      · split
        · exact ih
        · split
          · rfl
          · split
            · rfl
            · exact ih

/-- A name can be followed out of a directory only, and other names than dots only to what there
is. -/
theorem walk_cons_eq_ok_iff : fs.walk l (name :: names) = .ok m ↔ fs.isDirectory l = true ∧
    (name ≠ "." → name ≠ ".." →
      ¬ maxName < name.utf8ByteSize ∧ (fs.find? (l ++ [name])).isSome) ∧
    fs.walk (next l name) names = .ok m := by
  rw [walk, next]
  by_cases hdirectory : fs.isDirectory l = true
  · by_cases hdot : name = "."
    · simp [hdirectory, hdot]
    by_cases hdots : name = ".."
    · simp [hdirectory, hdots]
    by_cases hshort : maxName < name.utf8ByteSize
    · simp [hdirectory, hdot, hdots, hshort]
    rcases fs.find? (l ++ [name]) with _ | e
    · simp [hdirectory, hdot, hdots, hshort]
    · simp [hdirectory, hdot, hdots, hshort]
  · simp [hdirectory]

theorem eq_follow_of_walk (h : fs.walk l names = .ok m) : m = follow l names := by
  induction names generalizing l with
  | nil =>
    cases h
    rfl
  | cons name names ih => exact ih (walk_cons_eq_ok_iff.1 h).2.2

/-- A path that leads somewhere leads to its target. -/
theorem eq_target_of_locate (h : fs.locate p = .ok l) : l = fs.target p := by
  unfold locate at h
  split at h
  · cases h
  · rw [eq_follow_of_walk h, follow_append]
    split
    · rfl
    · rfl

/-- The parts of a path whose last name is looked for in a directory. -/
structure LooksIn (fs : FileSystem) (p : Path) (l : Location) (name : String) : Prop where
  check : checkPath p = .ok ()
  names : ∃ names, p.names = names ++ [name] ∧ fs.walk (fs.start p) names = .ok l
  directory : fs.isDirectory l = true
  ne_dot : name ≠ "."
  ne_dots : name ≠ ".."
  short : ¬ maxName < name.utf8ByteSize

theorem looksIn_of_locateParent (h : fs.locateParent p = .ok (l, some name)) :
    fs.LooksIn p l name := by
  unfold locateParent at h
  split at h
  · cases h
  · next hcheck =>
    split at h
    · cases h
    · next m hwalk =>
      split at h
      · cases h
      · next hdirectory =>
        dsimp only at h
        split at h
        · cases h
        · next hshort =>
          obtain ⟨rfl, hname⟩ := Prod.mk.inj (Except.ok.inj h)
          rw [hname] at hshort
          obtain ⟨hlast, hproper⟩ := Option.filter_eq_some_iff.1 hname
          obtain ⟨names, hnames⟩ := List.getLast?_eq_some_iff.1 hlast
          rw [hnames, List.dropLast_concat] at hwalk
          simp only [decide_eq_true_eq] at hproper
          exact ⟨hcheck, ⟨names, hnames, hwalk⟩, by simpa using hdirectory, hproper.1, hproper.2,
            by simpa using hshort⟩

theorem LooksIn.target_eq (h : fs.LooksIn p l name) : fs.target p = l ++ [name] := by
  obtain ⟨names, hnames, hwalk⟩ := h.names
  rw [target, hnames, follow_concat, ← eq_follow_of_walk hwalk, next_of_ne h.ne_dot h.ne_dots]

theorem LooksIn.passes (h : fs.LooksIn p l name) : fs.Passes p (fs.target p) := by
  obtain ⟨names, hnames, hwalk⟩ := h.names
  refine ⟨names, name, hnames ▸ List.prefix_rfl, h.ne_dot, h.ne_dots, ?_⟩
  rw [h.target_eq, eq_follow_of_walk hwalk]

/-! ## Operations on a path -/

/-- A directory is made at the target of its path, where nothing was. -/
theorem makeDirectory_eq_ok (h : fs.makeDirectory p = .ok fs') :
    (∃ l name, fs.LooksIn p l name) ∧ fs.find? (fs.target p) = none ∧
      fs' = fs.put (fs.target p) .directory := by
  unfold makeDirectory at h
  split at h
  · cases h
  · cases h
  · next l name hparent =>
    have hlooks := looksIn_of_locateParent hparent
    split at h
    · cases h
    · next hfree =>
      cases h
      rw [hlooks.target_eq]
      exact ⟨⟨l, name, hlooks⟩, by simpa using hfree, rfl⟩

/-- A file is written at the target of its path. -/
theorem eq_put_of_writeBytes {bytes : ByteArray} (h : fs.writeBytes p bytes = .ok fs') :
    fs' = fs.put (fs.target p) (.file bytes) := by
  unfold writeBytes at h
  split at h
  · cases h
  · cases h
  · next hparent =>
    split at h
    · cases h
    · cases h
      rw [(looksIn_of_locateParent hparent).target_eq]

/-- Writing a file changes what is at the target of its path, and nothing else. -/
theorem find?_writeBytes {bytes : ByteArray} (h : fs.writeBytes p bytes = .ok fs') (k : Location) :
    fs'.find? k = if k = fs.target p then some (.file bytes) else fs.find? k := by
  unfold writeBytes at h
  split at h
  · cases h
  · cases h
  · next hparent =>
    have hlooks := looksIn_of_locateParent hparent
    split at h
    · cases h
    · cases h
      rw [← hlooks.target_eq]
      exact find?_put fs hlooks.passes.ne_root _ k

/-- What is on the way of a path that leads somewhere is there. -/
theorem isSome_of_passes (h : fs.locate p = .ok l) (hk : fs.Passes p k) :
    (fs.find? k).isSome := by
  obtain ⟨names, name, ⟨rest, hnames⟩, hdot, hdots, rfl⟩ := hk
  unfold locate at h
  split at h
  · cases h
  · rw [← hnames, List.append_assoc, List.append_assoc, walk_append] at h
    split at h
    · cases h
    · next m hwalk =>
      obtain rfl := eq_follow_of_walk hwalk
      exact ((walk_cons_eq_ok_iff.1 h).2.1 hdot hdots).2

/-- A file that can be read is at the target of its path. -/
theorem find?_of_readBytes {bytes : ByteArray} (h : fs.readBytes p = .ok bytes) :
    fs.locate p = .ok (fs.target p) ∧ fs.find? (fs.target p) = some (.file bytes) := by
  unfold readBytes at h
  split at h
  · cases h
  · next l hlocate =>
    obtain rfl := eq_target_of_locate hlocate
    split at h
    · next hfile =>
      cases h
      exact ⟨hlocate, hfile⟩
    · cases h

/-! ## File systems with more in them -/

/-- What is in a file system is in another one, too, and its directories are directories there. -/
structure Extends (fs fs' : FileSystem) : Prop where
  workDir : fs'.workDir = fs.workDir
  directory : ∀ k, fs.find? k = some .directory → fs'.find? k = some .directory
  there : ∀ k, (fs.find? k).isSome → (fs'.find? k).isSome

theorem start_eq_of_workDir (h : fs'.workDir = fs.workDir) (p : Path) :
    fs'.start p = fs.start p := by
  rw [start, start, h]

theorem target_eq_of_workDir (h : fs'.workDir = fs.workDir) (p : Path) :
    fs'.target p = fs.target p := by
  rw [target, target, start_eq_of_workDir h]

namespace Extends

theorem isDirectory (h : Extends fs fs') (hl : fs.isDirectory l = true) :
    fs'.isDirectory l = true := by
  unfold FileSystem.isDirectory at hl ⊢
  exact decide_eq_true (h.directory l (of_decide_eq_true hl))

theorem walk (h : Extends fs fs') (hl : fs.walk l names = .ok m) : fs'.walk l names = .ok m := by
  induction names generalizing l with
  | nil => exact hl
  | cons name names ih =>
    obtain ⟨hdirectory, hname, hrest⟩ := walk_cons_eq_ok_iff.1 hl
    exact walk_cons_eq_ok_iff.2 ⟨h.isDirectory hdirectory, fun hdot hdots =>
      (hname hdot hdots).imp_right (h.there _), ih hrest⟩

/-- A path still leads where it led. -/
theorem locate (h : Extends fs fs') (hl : fs.locate p = .ok l) : fs'.locate p = .ok l := by
  unfold FileSystem.locate at hl ⊢
  split at hl
  · cases hl
  · rw [start_eq_of_workDir h.workDir]
    exact h.walk hl

end Extends

end FileSystem

open FileSystem

/-! ## Making directories -/

section Making

variable {fs fs' fs₁ : FileSystem} {p q : Path} {l k : Location} {name : String}

theorem Path.start_parent? (h : p.parent? = some q) : fs.start q = fs.start p := by
  unfold Path.parent? at h
  split at h
  · split at h
    · next hhere =>
      cases h
      rw [start, start, if_neg (by simp), if_neg (by simp [hhere])]
    · cases h
  · cases h
    rfl

theorem Path.dropTrivial_prefix (pieces : List (List Char)) :
    Path.dropTrivial pieces <+: pieces := by
  rw [dropTrivial, ← List.reverse_suffix, List.reverse_reverse]
  exact List.dropWhile_suffix _

theorem Path.names_parent?_prefix (h : p.parent? = some q) : q.names <+: p.names := by
  have hnames {d : List (List Char)} (hd : d <+: p.body) : Path.names ⟨q.lead, d⟩ <+: p.names :=
    (hd.filter _).map _
  unfold Path.parent? at h
  split at h
  · split at h
    · cases h
      exact List.nil_prefix
    · cases h
  · next hbody =>
    cases h
    refine hnames (List.IsPrefix.trans (Path.dropTrivial_prefix _) ?_)
    exact (List.dropLast_prefix _).trans (hbody ▸ Path.dropTrivial_prefix _)

/-- What the parent of a path passes, the path passes. -/
theorem FileSystem.Passes.of_parent (hq : p.parent? = some q) (h : fs.Passes q k) :
    fs.Passes p k := by
  obtain ⟨names, name, hnames, hdot, hdots, rfl⟩ := h
  rw [Path.start_parent? hq]
  exact ⟨names, name, hnames.trans (Path.names_parent?_prefix hq), hdot, hdots, rfl⟩

theorem FileSystem.passes_iff_of_workDir (h : fs'.workDir = fs.workDir) :
    fs'.Passes p k ↔ fs.Passes p k := by
  unfold Passes
  rw [start_eq_of_workDir h]

/-- Nothing has changed but that directories were made on the way of a path, where nothing was. -/
structure MakesWay (p : Path) (fs fs' : FileSystem) : Prop where
  workDir : fs'.workDir = fs.workDir
  find? : ∀ k, fs'.find? k = fs.find? k ∨
    fs.find? k = none ∧ fs'.find? k = some .directory ∧ fs.Passes p k

namespace MakesWay

theorem refl (p : Path) (fs : FileSystem) : MakesWay p fs fs := ⟨rfl, fun _ => .inl rfl⟩

theorem trans (h : MakesWay p fs fs₁) (h' : MakesWay p fs₁ fs') : MakesWay p fs fs' := by
  refine ⟨h'.workDir.trans h.workDir, fun k => ?_⟩
  obtain hk | ⟨hk, hk', hpasses⟩ := h.find? k
  · rw [← hk, ← passes_iff_of_workDir h.workDir]
    exact h'.find? k
  · obtain hk₁ | ⟨hk₁, -⟩ := h'.find? k
    · exact .inr ⟨hk, hk₁.trans hk', hpasses⟩
    · rw [hk'] at hk₁
      cases hk₁

theorem of_parent (hq : p.parent? = some q) (h : MakesWay q fs fs') : MakesWay p fs fs' :=
  ⟨h.workDir, fun k => (h.find? k).imp_right fun ⟨hk, hk', hpasses⟩ =>
    ⟨hk, hk', hpasses.of_parent hq⟩⟩

theorem toExtends (h : MakesWay p fs fs') : Extends fs fs' := by
  refine ⟨h.workDir, fun k hk => ?_, fun k hk => ?_⟩
  · obtain hsame | ⟨-, hmade, -⟩ := h.find? k
    · exact hsame.trans hk
    · exact hmade
  · obtain hsame | ⟨-, hmade, -⟩ := h.find? k
    · rw [hsame]
      exact hk
    · rw [hmade]
      rfl

end MakesWay

theorem makeDirectory_makesWay (h : fs.makeDirectory p = .ok fs') : MakesWay p fs fs' := by
  obtain ⟨⟨l, name, hlooks⟩, hfree, rfl⟩ := makeDirectory_eq_ok h
  refine ⟨rfl, fun k => ?_⟩
  rw [find?_put fs hlooks.passes.ne_root]
  split
  · next hk =>
    subst hk
    exact .inr ⟨hfree, rfl, hlooks.passes⟩
  · exact .inl rfl

/-- Making directories changes nothing but what is missing on the way, even if it fails halfway. -/
theorem createDirectories_makesWay (p : Path) (fs : FileSystem) :
    MakesWay p fs (createDirectories p fs).2 := by
  -- The induction follows the parents of the path, as the function does.
  fun_induction createDirectories p fs with
  | case1 => exact .refl _ _
  | case2 p _ fs' hmake => exact makeDirectory_makesWay hmake
  | case3 => exact .refl _ _
  | case4 p _ _ parent hparent _ e fs' hmade ih =>
    rw [hmade] at ih
    exact ih.of_parent hparent
  | case5 p _ _ parent hparent _ fs₁ hmade fs' hmake ih =>
    rw [hmade] at ih
    exact (ih.of_parent hparent).trans (makeDirectory_makesWay hmake)
  | case6 p _ _ parent hparent _ fs₁ hmade e _ ih =>
    rw [hmade] at ih
    exact ih.of_parent hparent
  | case7 => exact .refl _ _

/-! ### What has been made -/

theorem locate_of_makeDirectory (h : fs.makeDirectory p = .ok fs') :
    fs'.locate p = .ok (fs.target p) ∧ fs'.find? (fs.target p) = some .directory := by
  have hextends := (makeDirectory_makesWay h).toExtends
  obtain ⟨⟨l, name, hlooks⟩, -, rfl⟩ := makeDirectory_eq_ok h
  obtain ⟨names, hnames, hwalk⟩ := hlooks.names
  have hfound : (fs.put (fs.target p) .directory).find? (fs.target p) = some .directory := by
    rw [find?_put fs hlooks.passes.ne_root, if_pos rfl]
  refine ⟨?_, hfound⟩
  have hdirectory := hextends.isDirectory hlooks.directory
  unfold locate
  rw [hlooks.check, hnames, List.append_assoc, walk_append]
  simp only [start_eq_of_workDir hextends.workDir, hextends.walk hwalk]
  rw [hlooks.target_eq] at hfound hdirectory ⊢
  rw [List.singleton_append, walk_cons_eq_ok_iff, next_of_ne hlooks.ne_dot hlooks.ne_dots]
  refine ⟨hdirectory, fun _ _ => ⟨hlooks.short, by rw [hfound]; rfl⟩, ?_⟩
  split
  · simp [walk, isDirectory, hfound]
  · rfl

theorem locate_of_isDirectoryAt (h : fs.isDirectoryAt p = true) :
    fs.locate p = .ok (fs.target p) ∧ fs.find? (fs.target p) = some .directory := by
  unfold isDirectoryAt at h
  split at h
  · next l hlocate =>
    obtain rfl := eq_target_of_locate hlocate
    exact ⟨hlocate, of_decide_eq_true h⟩
  · cases h

/-- A directory that has been made is there, and its path leads to it. -/
theorem locate_of_createDirectories (hp : p.chars ≠ [])
    (h : createDirectories p fs = (.ok (), fs')) :
    fs'.locate p = .ok (fs.target p) ∧ fs'.find? (fs.target p) = some .directory := by
  unfold createDirectories at h
  rw [if_neg hp] at h
  split at h
  · next hmake =>
    cases h
    exact locate_of_makeDirectory hmake
  · split at h
    · cases h
    · next parent hparent =>
      have hway := createDirectories_makesWay parent fs
      split at h
      · cases h
      · next fs₁ hmade =>
        rw [hmade] at hway
        rw [← target_eq_of_workDir hway.workDir]
        split at h
        · next hmake =>
          cases h
          exact locate_of_makeDirectory hmake
        · obtain ⟨hok, rfl⟩ := Prod.mk.inj h
          split at hok
          · next hat => exact locate_of_isDirectoryAt hat
          · cases hok
  · obtain ⟨hok, rfl⟩ := Prod.mk.inj h
    split at hok
    · next hat => exact locate_of_isDirectoryAt hat
    · cases hok

/-! ### Writing a file -/

theorem createParent_makesWay (p : Path) (fs : FileSystem) :
    MakesWay p fs (createParent p fs).2 := by
  unfold createParent
  split
  · exact .refl p fs
  · next parent hparent =>
    have hway := (createDirectories_makesWay parent fs).of_parent hparent
    split
    · next hmade =>
      rw [hmade] at hway
      exact hway
    · next hmade =>
      rw [hmade] at hway
      exact hway

/-- Nothing has changed but that a file was written at the target of a path, and directories were
made on its way, where nothing was. -/
structure WritesFile (p : Path) (bytes : ByteArray) (fs fs' : FileSystem) : Prop where
  file : fs'.find? (fs.target p) = some (.file bytes)
  find? : ∀ k, k ≠ fs.target p → fs'.find? k = fs.find? k ∨
    fs.find? k = none ∧ fs'.find? k = some .directory ∧ fs.Passes p k

theorem writeFile_writesFile {content : String} (h : writeFile p content fs = (.ok (), fs')) :
    WritesFile p content.toUTF8 fs fs' := by
  unfold writeFile at h
  split at h
  · cases h
  · next fs₁ hparent =>
    have hway := createParent_makesWay p fs
    rw [hparent] at hway
    split at h
    · next hwrite =>
      cases h
      have hfind := find?_writeBytes hwrite
      rw [target_eq_of_workDir hway.workDir] at hfind
      refine ⟨by rw [hfind, if_pos rfl], fun k hk => ?_⟩
      rw [hfind, if_neg hk]
      exact hway.find? k
    · cases h

/-- Where there was a file already, nothing else has changed. -/
theorem WritesFile.find?_of_readBytes {bytes before : ByteArray} (h : WritesFile p bytes fs fs')
    (hread : fs.readBytes p = .ok before) (hk : k ≠ fs.target p) : fs'.find? k = fs.find? k := by
  obtain hsame | ⟨hfree, -, hpasses⟩ := h.find? k hk
  · exact hsame
  · have hthere := isSome_of_passes (FileSystem.find?_of_readBytes hread).1 hpasses
    rw [hfree] at hthere
    cases hthere

end Making

/-! ## Normal paths -/

/-- A name that something in a directory can have. -/
structure IsEntryName (name : String) : Prop where
  ne_empty : name ≠ ""
  ne_dot : name ≠ "."
  ne_dots : name ≠ ".."
  slash_not_mem : '/' ∉ name.toList
  nul_not_mem : '\x00' ∉ name.toList

namespace Path

/-- A path is relative and written without detours: no piece is empty or a dot, and two dots stand
only before all other names. -/
structure IsNormal (p : Path) : Prop where
  relative : p.lead = .relative
  nonempty : p.body ≠ []
  plain : ∀ piece ∈ p.body, isTrivial piece = false
  upFirst : ".." ∉ p.names.dropWhile (· = "..")

/-- What a path passes is where it leads, or above, if two dots stand only before all other
names. -/
theorem prefix_of_passes {fs : FileSystem} {p : Path} {k : Location}
    (hup : ".." ∉ p.names.dropWhile (· = "..")) (h : fs.Passes p k) : k <+: fs.target p := by
  obtain ⟨names, name, ⟨rest, hrest⟩, hdot, hdots, rfl⟩ := h
  rw [← hrest, List.append_assoc, List.singleton_append, List.dropWhile_append] at hup
  -- The names after one that leads down are no two dots, so they only lead further down.
  have hdown : ".." ∉ rest := by
    intro hmem
    split at hup
    · rw [List.dropWhile_cons_of_neg (by simpa using hdots)] at hup
      exact hup (List.mem_cons_of_mem _ hmem)
    · exact hup (List.mem_append_right _ (List.mem_cons_of_mem _ hmem))
  rw [target, ← hrest, follow_append, follow_concat, next_of_ne hdot hdots]
  exact prefix_follow hdown

namespace IsNormal

variable {fs : FileSystem} {p : Path} {k : Location} {name text : String}

/-- What a normal path passes is where it leads, or above. -/
theorem prefix_of_passes (hp : p.IsNormal) (h : fs.Passes p k) : k <+: fs.target p :=
  Path.prefix_of_passes hp.upFirst h

end IsNormal

end Path

end VocabPhp
