import VocabPhp.Proofs.Clearing

/-!
# Saving into a directory is shelving

Files that are saved into a directory, one after the other, are there afterwards as they would be on
a shelf: under each name the content that was saved last, and nothing else. The directory may hold
nothing before, or be missing without a file on its way. Then it is made by the first file.

* `directorySink_of_free`: what saving one file does.
* `Shelves`: a directory holds the files of a shelf, and the rest is as before.
* `Shelves.save`, `Shelves.saveAll`: files that are saved are put on the shelf.
* `directorySink_shelves`: when files can be saved, and what they leave.
-/

namespace VocabPhp

open FileSystem

variable {fs fs' fs₁ : FileSystem} {p : Path} {l k : Location} {root name content : String}
  {shelf : Shelf} {a : Artifact} {files : List Artifact}

/-! ## Saving one file -/

/-- Where no file is on the way, the way is made and the file is written at its end. -/
theorem directorySink_of_free (hp : (Path.ofText root).IsReduced) (htree : fs.IsTree)
    (hstart : fs.find? (fs.start (Path.ofText root)) = some .directory)
    (hfree : ¬ fs.Blocked (fs.target (Path.ofText root))) (ha : IsEntryName a.name)
    (htakes : Takes ((Path.ofText root).join a.name))
    (hfile : fs.find? (fs.target (Path.ofText root) ++ [a.name]) ≠ some .directory) :
    ∃ fs₁, OpensWay (fs.target (Path.ofText root)) fs fs₁ ∧
      directorySink (Path.ofText root) a fs =
        (.ok (), fs₁.put (fs.target (Path.ofText root) ++ [a.name]) (.file a.content.toUTF8)) := by
  have hnames := hp.names_join ha
  obtain ⟨fs₁, hcreate, hway⟩ := createDirectories_of_free hp htree hstart hfree
    (htakes.of_prefix (hp.chars_prefix_join ha) fun n hn => hnames ▸ List.mem_append_left _ hn)
  have hparent : createParent ((Path.ofText root).join a.name) fs = (.ok (), fs₁) := by
    simp only [createParent, hp.parent?_join ha, hcreate]
  have hthere : fs₁.find? (fs₁.target (Path.ofText root)) = some .directory := by
    rw [target_eq_of_workDir hway.workDir, hway.find?, if_pos List.prefix_rfl]
  have hlocate := locateParent_of_directories htakes hnames fun front hfront => by
    rw [hp.start_join ha]
    exact hp.directories (hway.isTree htree) (hway.directory_start hstart) hthere front hfront
  have htarget : follow (fs₁.start ((Path.ofText root).join a.name)) (Path.ofText root).names =
      fs.target (Path.ofText root) := by
    rw [hp.start_join ha, start_eq_of_workDir hway.workDir, target]
  rw [htarget, if_neg (not_or.2 ⟨ha.ne_dot, ha.ne_dots⟩)] at hlocate
  have hnot : fs₁.isDirectory (fs.target (Path.ofText root) ++ [a.name]) = false := by
    refine decide_eq_false ?_
    rw [hway.find?, if_neg (not_prefix_of_ne_nil (by simp))]
    exact hfile
  refine ⟨fs₁, hway, ?_⟩
  simp only [directorySink, writeFile, hparent, writeBytes, hlocate, hp.endsInSlash_join ha, hnot]
  simp

/-- A path that a file is written to is taken. -/
theorem takes_of_writeBytes {bytes : ByteArray} (h : fs.writeBytes p bytes = .ok fs') :
    Takes p := by
  unfold writeBytes at h
  split at h
  · cases h
  · cases h
  · next hparent =>
    have hlooks := looksIn_of_locateParent hparent
    obtain ⟨names, hnames, hwalk⟩ := hlooks.names
    refine ⟨hlooks.check, fun n hn => ?_⟩
    rw [hnames] at hn
    obtain hn | hn := List.mem_append.1 hn
    · exact short_of_walk hwalk hn
    · exact List.mem_singleton.1 hn ▸ hlooks.short

theorem takes_of_directorySink (h : directorySink p a fs = (.ok (), fs')) :
    Takes (p.join a.name) := by
  unfold directorySink writeFile at h
  split at h
  · cases h
  · split at h
    · next hwrite => exact takes_of_writeBytes hwrite
    · cases h

/-- All paths that files are saved to are taken. -/
theorem takes_of_saveAll (h : saveAll (directorySink p) files fs = (.ok (), fs')) :
    ∀ a ∈ files, Takes (p.join a.name) := by
  induction files generalizing fs with
  | nil => exact fun a ha => absurd ha List.not_mem_nil
  | cons b files ih =>
    rw [saveAll] at h
    split at h
    · cases h
    · next hsave =>
      intro a ha
      obtain rfl | ha := List.mem_cons.1 ha
      · exact takes_of_directorySink hsave
      · exact ih h a ha

/-! ## Saving file after file -/

/-- A directory holds the files of a shelf and nothing else. Everything on the way to it is a
directory, and the rest is as before. -/
structure Shelves (l : Location) (shelf : Shelf) (before after : FileSystem) : Prop where
  workDir : after.workDir = before.workDir
  way : ∀ k, k <+: l → after.find? k = some .directory
  files : ∀ name, after.find? (l ++ [name]) =
    (shelf.find? name).map fun content => .file content.toUTF8
  deeper : ∀ name rest, rest ≠ [] → after.find? (l ++ name :: rest) = none
  outside : ∀ k, ¬ k <+: l → ¬ l <+: k → after.find? k = before.find? k

namespace Shelves

/-- A directory that held nothing is an empty shelf. -/
theorem of_opensWay (hempty : ∀ k, Below l k → fs.find? k = none) (h : OpensWay l fs fs') :
    Shelves l ∅ fs fs' := by
  have hbelow {rest : Location} (hrest : rest ≠ []) : fs'.find? (l ++ rest) = none := by
    rw [h.find?, if_neg (not_prefix_of_ne_nil hrest)]
    exact hempty _ ⟨List.prefix_append l rest, by simpa using hrest⟩
  refine ⟨h.workDir, fun k hk => ?_, fun name => hbelow (by simp),
    fun name rest _ => hbelow (by simp), fun k hk _ => ?_⟩
  · rw [h.find?, if_pos hk]
  · rw [h.find?, if_neg hk]

/-- The way to the shelf stays as it is when it is made again. -/
theorem opensWay (h : Shelves l shelf fs fs₁) (hway : OpensWay l fs₁ fs') :
    Shelves l shelf fs fs' := by
  refine ⟨hway.workDir.trans h.workDir, fun k hk => ?_, fun name => ?_, fun name rest hrest => ?_,
    fun k hk hlk => ?_⟩
  · rw [hway.find?, if_pos hk]
  · rw [hway.find?, if_neg (not_prefix_of_ne_nil (by simp)), h.files]
  · rw [hway.find?, if_neg (not_prefix_of_ne_nil (by simp)), h.deeper name rest hrest]
  · rw [hway.find?, if_neg hk, h.outside k hk hlk]

/-- A file that is written is put on the shelf. -/
theorem put (h : Shelves l shelf fs fs₁) (name content : String) :
    Shelves l (shelf.insert name content) fs (fs₁.put (l ++ [name]) (.file content.toUTF8)) := by
  have hfind := find?_put fs₁ (l := l ++ [name]) (by simp) (.file content.toUTF8)
  refine ⟨h.workDir, fun k hk => ?_, fun name' => ?_, fun name' rest hrest => ?_,
    fun k hk hlk => ?_⟩
  · rw [hfind, if_neg, h.way k hk]
    rintro rfl
    exact not_prefix_of_ne_nil (by simp) hk
  · rw [hfind, Table.find?_insert, h.files]
    by_cases heq : name = name'
    · simp [heq]
    · simp [heq, Ne.symm heq]
  · rw [hfind, if_neg (by simp [hrest]), h.deeper name' rest hrest]
  · rw [hfind, if_neg, h.outside k hk hlk]
    rintro rfl
    exact hlk (List.prefix_append l [name])

theorem isTree (h : Shelves l shelf fs fs₁) (htree : fs.IsTree) : fs₁.IsTree := by
  intro k name hk
  by_cases hkl : k <+: l
  · exact h.way k hkl
  by_cases hlk : l <+: k
  · -- Below the directory there are only files, which hold nothing.
    obtain ⟨rest, rfl⟩ := hlk
    cases rest with
    | nil => exact absurd (by simp) hkl
    | cons name' rest =>
      rw [List.append_assoc, List.cons_append, h.deeper name' _ (by simp)] at hk
      cases hk
  · have hkl' : ¬ k ++ [name] <+: l := fun hname => hkl ((List.prefix_append k [name]).trans hname)
    have hlk' : ¬ l <+: k ++ [name] := by
      intro hname
      obtain rfl | hname := List.prefix_concat_iff.1 hname
      · exact hkl (List.prefix_append k [name])
      · exact hlk hname
    rw [h.outside _ hkl' hlk'] at hk
    rw [h.outside k hkl hlk]
    exact htree k name hk

theorem not_blocked (h : Shelves l shelf fs fs₁) : ¬ fs₁.Blocked l := by
  rintro ⟨k, bytes, hk, hfile⟩
  rw [h.way k hk] at hfile
  cases hfile

theorem directory_start (h : Shelves l shelf fs fs₁) (hempty : ∀ k, Below l k → fs.find? k = none)
    (hstart : fs.find? (fs.start p) = some .directory) :
    fs₁.find? (fs₁.start p) = some .directory := by
  rw [start_eq_of_workDir h.workDir]
  by_cases hkl : fs.start p <+: l
  · exact h.way _ hkl
  by_cases hlk : l <+: fs.start p
  · have hbelow : Below l (fs.start p) := ⟨hlk, fun heq => hkl (heq ▸ List.prefix_rfl)⟩
    rw [hempty _ hbelow] at hstart
    cases hstart
  · rw [h.outside _ hkl hlk]
    exact hstart

end Shelves

section Save

variable (htree : fs.IsTree) (hwork : fs.find? fs.workDir = some .directory)
  (hp : (Path.ofText root).IsReduced)
  (hempty : ∀ k, Below (fs.target (Path.ofText root)) k → fs.find? k = none)

include htree hwork hp hempty

/-- The first file makes the way to the directory and is put on the empty shelf. -/
theorem shelves_of_save (hfree : ¬ fs.Blocked (fs.target (Path.ofText root)))
    (ha : IsEntryName a.name) (htakes : Takes ((Path.ofText root).join a.name)) :
    ∃ fs', directorySink (Path.ofText root) a fs = (.ok (), fs') ∧
      Shelves (fs.target (Path.ofText root)) (Table.insert ∅ a.name a.content) fs fs' := by
  have hnot : fs.find? (fs.target (Path.ofText root) ++ [a.name]) ≠ some .directory := by
    rw [hempty _ ⟨List.prefix_append _ _, by simp⟩]
    simp
  obtain ⟨fs₁, hway, hsave⟩ :=
    directorySink_of_free hp htree (directory_start_of_workDir hwork) hfree ha htakes hnot
  exact ⟨_, hsave, (Shelves.of_opensWay hempty hway).put a.name a.content⟩

/-- Every later file is put on the shelf, too. -/
theorem Shelves.save (h : Shelves (fs.target (Path.ofText root)) shelf fs fs₁)
    (ha : IsEntryName a.name) (htakes : Takes ((Path.ofText root).join a.name)) :
    ∃ fs', directorySink (Path.ofText root) a fs₁ = (.ok (), fs') ∧
      Shelves (fs.target (Path.ofText root)) (shelf.insert a.name a.content) fs fs' := by
  have htarget := target_eq_of_workDir h.workDir (Path.ofText root)
  have hstart := h.directory_start hempty (directory_start_of_workDir (p := Path.ofText root) hwork)
  have hnot : fs₁.find? (fs.target (Path.ofText root) ++ [a.name]) ≠ some .directory := by
    rw [h.files]
    cases shelf.find? a.name <;> simp
  rw [← htarget] at hnot
  obtain ⟨fs₂, hway, hsave⟩ :=
    directorySink_of_free hp (h.isTree htree) hstart (htarget ▸ h.not_blocked) ha htakes hnot
  rw [htarget] at hway hsave
  exact ⟨_, hsave, (h.opensWay hway).put a.name a.content⟩

/-- Files that are saved are put on the shelf, one after the other. -/
theorem Shelves.saveAll (h : Shelves (fs.target (Path.ofText root)) shelf fs fs₁)
    (hnames : ∀ a ∈ files, IsEntryName a.name)
    (htakes : ∀ a ∈ files, Takes ((Path.ofText root).join a.name)) :
    ∃ fs', saveAll (directorySink (Path.ofText root)) files fs₁ = (.ok (), fs') ∧
      Shelves (fs.target (Path.ofText root))
        (files.foldl (fun t a => t.insert a.name a.content) shelf) fs fs' := by
  induction files generalizing fs₁ shelf with
  | nil => exact ⟨fs₁, rfl, h⟩
  | cons a files ih =>
    obtain ⟨hname, hnames⟩ := List.forall_mem_cons.1 hnames
    obtain ⟨htake, htakes⟩ := List.forall_mem_cons.1 htakes
    obtain ⟨fs₂, hsave, hshelves⟩ := h.save htree hwork hp hempty hname htake
    obtain ⟨fs', hrest, hdone⟩ := ih hshelves hnames htakes
    refine ⟨fs', ?_, hdone⟩
    rw [VocabPhp.saveAll, hsave]
    exact hrest

end Save

/-- Files can be saved into a directory that holds nothing, or that is missing without a file on the
way, exactly if the file system takes all their paths. Then the directory holds what the same files
are on a shelf: under each name the last content, and nothing else. Nothing has changed outside but
that missing directories were made on the way, and nothing at all if there are no files. -/
theorem directorySink_shelves (htree : fs.IsTree)
    (hwork : fs.find? fs.workDir = some .directory) (hp : (Path.ofText root).IsReduced)
    (hfree : ¬ fs.Blocked (fs.target (Path.ofText root)))
    (hempty : ∀ k, Below (fs.target (Path.ofText root)) k → fs.find? k = none)
    (hnames : ∀ a ∈ files, IsEntryName a.name) :
    ((∃ fs', saveAll (directorySink (Path.ofText root)) files fs = (.ok (), fs')) ↔
      ∀ a ∈ files, Takes ((Path.ofText root).join a.name)) ∧
    ∀ fs', saveAll (directorySink (Path.ofText root)) files fs = (.ok (), fs') →
      ∃ shelf, saveAll (ε := Empty) Shelf.sink files ∅ = (.ok (), shelf) ∧
        (files = [] → fs' = fs) ∧
        (files ≠ [] → Shelves (fs.target (Path.ofText root)) shelf fs fs') := by
  have hrun (htakes : ∀ a ∈ files, Takes ((Path.ofText root).join a.name)) :
      ∃ fs', saveAll (directorySink (Path.ofText root)) files fs = (.ok (), fs') ∧
        (files = [] → fs' = fs) ∧ (files ≠ [] → Shelves (fs.target (Path.ofText root))
          (files.foldl (fun t a => t.insert a.name a.content) ∅) fs fs') := by
    cases files with
    | nil => exact ⟨fs, rfl, fun _ => rfl, fun hne => absurd rfl hne⟩
    | cons a files =>
      obtain ⟨hname, hnames⟩ := List.forall_mem_cons.1 hnames
      obtain ⟨htake, htakes⟩ := List.forall_mem_cons.1 htakes
      obtain ⟨fs₁, hsave, hshelves⟩ :=
        shelves_of_save htree hwork hp hempty hfree hname htake
      obtain ⟨fs', hrest, hdone⟩ :=
        hshelves.saveAll htree hwork hp hempty hnames htakes
      refine ⟨fs', ?_, by simp, fun _ => hdone⟩
      rw [saveAll, hsave]
      exact hrest
  refine ⟨⟨?_, fun htakes => ?_⟩, fun fs' h => ?_⟩
  · rintro ⟨fs', h⟩
    exact takes_of_saveAll h
  · obtain ⟨fs', h, -⟩ := hrun htakes
    exact ⟨fs', h⟩
  · obtain ⟨fs₁, h₁, hnone, hsome⟩ := hrun (takes_of_saveAll h)
    obtain rfl : fs₁ = fs' := congrArg Prod.snd (h₁.symm.trans h)
    exact ⟨_, saveAll_shelf files ∅, hnone, hsome⟩

/-- Three files for two names. -/
def repeatedFiles : List Artifact :=
  [⟨"Thing.php", "first and longer"⟩, ⟨"Person.php", ""⟩, ⟨"Thing.php", "last"⟩]

theorem directorySink_shelves_repeated : ∃ fs' shelf,
    saveAll (directorySink (Path.ofText "new/out")) repeatedFiles clutteredDisk = (.ok (), fs') ∧
      saveAll (ε := Empty) Shelf.sink repeatedFiles ∅ = (.ok (), shelf) ∧
      Shelves ["home", "new", "out"] shelf clutteredDisk fs' := by
  have hproper := isProper_clutteredDisk
  have hreduced : (Path.ofText "new/out").IsReduced := by decide
  have hhome : clutteredDisk.find? ["home"] = some .directory := by decide +kernel
  have hnone : clutteredDisk.find? (["home"] ++ ["new"]) = none := by decide +kernel
  have hfree : ¬ clutteredDisk.Blocked (clutteredDisk.target (Path.ofText "new/out")) :=
    hproper.tree.not_blocked hhome hnone (by decide +kernel)
  have hempty (k : Location) (hk : Below (clutteredDisk.target (Path.ofText "new/out")) k) :
      clutteredDisk.find? k = none := by
    refine hproper.tree.none_of_prefix hnone (List.IsPrefix.trans ?_ hk.1)
    decide +kernel
  have hnames : ∀ a ∈ repeatedFiles, IsEntryName a.name := by decide +kernel
  obtain ⟨hok, hshelves⟩ :=
    directorySink_shelves hproper.tree hproper.workDir hreduced hfree hempty hnames
  obtain ⟨fs', h⟩ := hok.2 (by decide +kernel)
  obtain ⟨shelf, hshelf, -, hsome⟩ := hshelves fs' h
  exact ⟨fs', shelf, h, hshelf, hsome (by decide)⟩

/-- Nothing can be saved into a directory with a name that is too long, although nothing is on the
way. -/
theorem not_directorySink_longName : emptyDisk.IsProper ∧ (Path.ofText longName).IsReduced ∧
    emptyDisk.find? (emptyDisk.target (Path.ofText longName)) = none ∧
    ¬ emptyDisk.Blocked (emptyDisk.target (Path.ofText longName)) ∧ IsEntryName "A" ∧
    ¬ ∃ fs', directorySink (Path.ofText longName) ⟨"A", "x"⟩ emptyDisk = (.ok (), fs') := by
  have hname := isEntryName_longName
  have hA : IsEntryName "A" := by decide
  refine ⟨isProper_emptyDisk, Path.isReduced_name hname, ?_, not_blocked_emptyDisk, hA, ?_⟩
  · rw [target_longName, find?_emptyDisk, if_neg (List.cons_ne_nil _ _)]
  · rintro ⟨fs', h⟩
    refine not_takes_of_longName ?_ (takes_of_directorySink h)
    rw [(Path.isReduced_name hname).names_join hA, Path.names_ofText_name hname]
    exact List.mem_append_left _ (List.mem_singleton_self _)

end VocabPhp
