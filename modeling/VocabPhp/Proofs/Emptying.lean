import VocabPhp.Disk.Prepare
import VocabPhp.Proofs.Targets

/-!
# Emptying a directory

What the preparation of a directory does to the rest of the file system: everything below the
directory is removed, and directories are made where nothing was. Nothing else changes.

* `Below`, `FileSystem.Holds`: what lies below a location, and below the one that a path leads to.
* `FileSystem.find?_removeAll`: a removal of entries empties their locations and no others.
* `createDirectories_makesDirectories`: making directories changes nothing that was there.
* `find?_prepareDirectory`, `find?_file_iff_of_emptied`: both together, and which files are left.
* `prepareDirectory_of_empty`: when nothing is lost.
-/

namespace VocabPhp

/-- A location lies below another one. -/
def Below (l k : Location) : Prop := l <+: k ∧ k ≠ l

section Below

variable {l k m : Location}

instance : Decidable (Below l k) := inferInstanceAs (Decidable (_ ∧ _))

theorem Below.ne_root (h : Below l k) : k ≠ [] := by
  rintro rfl
  exact h.2 (List.prefix_nil.1 h.1).symm

theorem Below.not_prefix (h : Below l k) : ¬ k <+: l := fun hk =>
  h.2 (hk.eq_of_length_le h.1.length_le)

theorem Below.trans (h : Below l k) (hm : Below k m) : Below l m := by
  refine ⟨h.1.trans hm.1, ?_⟩
  rintro rfl
  exact h.not_prefix hm.1

end Below

namespace FileSystem

variable {fs fs' : FileSystem} {p : Path} {l k : Location}

/-- What a path leads to holds a location: it lies below. -/
def Holds (fs : FileSystem) (p : Path) (k : Location) : Prop :=
  ∃ l, fs.locate p = .ok l ∧ Below l k

/-! ## Removing -/

theorem mem_below_iff {e : Location × Entry} : e ∈ fs.below l ↔ e ∈ fs.entries ∧ Below l e.1 := by
  unfold below Below
  simp

theorem mem_entries_of_find? {e : Entry} (hk : k ≠ []) (h : fs.find? k = some e) :
    (k, e) ∈ fs.entries := by
  unfold find? at h
  rw [if_neg hk] at h
  obtain ⟨before, after, hentries, -⟩ := List.lookup_eq_some_iff.1 h
  rw [hentries]
  exact List.mem_append_right _ List.mem_cons_self

theorem find?_isSome_of_mem {e : Entry} (hk : k ≠ []) (h : (k, e) ∈ fs.entries) :
    (fs.find? k).isSome := by
  rw [find?, if_neg hk, List.lookup_isSome_iff]
  exact ⟨(k, e), h, by simp⟩

theorem below_eq_nil (h : ∀ k, Below l k → fs.find? k = none) : fs.below l = [] := by
  rw [List.eq_nil_iff_forall_not_mem]
  rintro ⟨k, e⟩ hk
  obtain ⟨hmem, hbelow⟩ := mem_below_iff.1 hk
  have hthere := find?_isSome_of_mem hbelow.ne_root hmem
  rw [h k hbelow] at hthere
  cases hthere

theorem eq_remove_of_removeEntry (h : fs.removeEntry l = .ok fs') : fs' = fs.remove l := by
  unfold removeEntry at h
  split at h
  · cases h
  · cases h
    rfl
  · split at h
    · cases h
      rfl
    · cases h

/-- A removal of entries empties their locations and leaves all others alone. -/
theorem find?_removeAll {es : List (Location × Entry)} (hroot : ∀ e ∈ es, e.1 ≠ [])
    (h : removeAll es fs = (.ok (), fs')) (k : Location) :
    fs'.find? k = if k ∈ es.map Prod.fst then none else fs.find? k := by
  induction es generalizing fs with
  | nil =>
    cases h
    simp
  | cons e es ih =>
    obtain ⟨l, e⟩ := e
    rw [removeAll] at h
    split at h
    · cases h
    · next fs₁ hremove =>
      obtain rfl := eq_remove_of_removeEntry hremove
      rw [ih (fun e he => hroot e (List.mem_cons_of_mem _ he)) h,
        find?_remove fs (hroot _ List.mem_cons_self)]
      by_cases hk : k = l
      · simp [hk]
      · simp only [List.map_cons, List.mem_cons, hk, false_or, if_false]

theorem workDir_removeAll {es : List (Location × Entry)} {result : Except PrepareError Unit}
    (h : removeAll es fs = (result, fs')) : fs'.workDir = fs.workDir := by
  induction es generalizing fs with
  | nil =>
    cases h
    rfl
  | cons e es ih =>
    obtain ⟨l, e⟩ := e
    rw [removeAll] at h
    split at h
    · cases h
      rfl
    · next fs₁ hremove =>
      obtain rfl := eq_remove_of_removeEntry hremove
      rw [ih h]
      rfl

theorem workDir_emptyDirectory {result : Except PrepareError Unit}
    (h : emptyDirectory p fs = (result, fs')) : fs'.workDir = fs.workDir := by
  unfold emptyDirectory at h
  split at h
  · cases h
    rfl
  · exact workDir_removeAll h

/-- Emptying a directory removes all that lies below, and nothing else. -/
theorem find?_emptyDirectory (h : emptyDirectory p fs = (.ok (), fs')) (k : Location) :
    (fs.Holds p k → fs'.find? k = none) ∧ (¬ fs.Holds p k → fs'.find? k = fs.find? k) := by
  unfold emptyDirectory at h
  split at h
  · next hlocate =>
    cases h
    simp [Holds, hlocate]
  · next l hlocate =>
    have hholds : fs.Holds p k ↔ Below l k := by simp [Holds, hlocate]
    have hroot : ∀ e ∈ fs.below l, e.1 ≠ [] := fun e he => (mem_below_iff.1 he).2.ne_root
    rw [find?_removeAll hroot h, hholds]
    constructor
    · intro hbelow
      split
      · rfl
      · next hnot =>
        cases hfind : fs.find? k with
        | none => rfl
        | some e =>
          have hmem := mem_entries_of_find? hbelow.ne_root hfind
          exact absurd (List.mem_map_of_mem (mem_below_iff.2 ⟨hmem, hbelow⟩)) hnot
    · intro hnot
      rw [if_neg]
      intro hk
      obtain ⟨e, he, rfl⟩ := List.mem_map.1 hk
      exact hnot (mem_below_iff.1 he).2

/-! ## Making directories -/

/-- Nothing has changed but that directories were made where nothing was. -/
def MakesDirectories (fs fs' : FileSystem) : Prop :=
  ∀ k, fs'.find? k = fs.find? k ∨ fs.find? k = none ∧ fs'.find? k = some .directory

end FileSystem

open FileSystem

/-- Making directories changes nothing that was there, even if it fails halfway. -/
theorem createDirectories_makesDirectories (p : Path) (fs : FileSystem) :
    MakesDirectories fs (createDirectories p fs).2 := fun k =>
  ((createDirectories_makesWay p fs).find? k).imp_right fun ⟨hfree, hmade, _⟩ => ⟨hfree, hmade⟩

/-! ## What is there already -/

namespace FileSystem

variable {fs : FileSystem} {p : Path} {l : Location}

/-- A directory is not made where a path leads already. -/
theorem makeDirectory_of_locate (h : fs.locate p = .ok l) :
    fs.makeDirectory p = .error .exists ∨ fs.makeDirectory p = .error .notDirectory := by
  unfold locate at h
  unfold makeDirectory locateParent
  cases hcheck : checkPath p with
  | error e => simp [hcheck] at h
  | ok _ =>
    simp only [hcheck] at h ⊢
    rcases List.eq_nil_or_concat p.names with hnames | ⟨names, name, hnames⟩
    · simp only [hnames, List.dropLast_nil, walk]
      by_cases hstart : fs.isDirectory (fs.start p)
      · simp [hstart]
      · simp [hstart]
    · rw [hnames, List.concat_eq_append, List.append_assoc, walk_append] at h
      simp only [hnames, List.concat_eq_append, List.dropLast_concat, List.getLast?_concat]
      cases hm : fs.walk (fs.start p) names with
      | error e => simp [hm] at h
      | ok m =>
        simp only [hm] at h ⊢
        rw [List.cons_append, walk] at h
        by_cases hdirectory : fs.isDirectory m
        · by_cases hdot : name = "."
          · simp [hdirectory, hdot, Option.filter]
          by_cases hdots : name = ".."
          · simp [hdirectory, hdots, Option.filter]
          simp only [hdirectory, Bool.not_true, Bool.false_eq_true, if_false, hdot, hdots] at h
          split at h
          · cases h
          · next hshort =>
            split at h
            · cases h
            · next hthere =>
              have hsome : (fs.find? (m ++ [name])).isSome := by
                simpa [Option.isSome_iff_ne_none] using hthere
              simp [hdirectory, hdot, hdots, Option.filter, hshort, hsome]
        · simp [hdirectory] at h

end FileSystem

theorem createDirectories_of_locate {fs : FileSystem} {p : Path} {l : Location}
    (h : fs.locate p = .ok l) : (createDirectories p fs).2 = fs := by
  unfold createDirectories
  split
  · rfl
  · obtain hmake | hmake := makeDirectory_of_locate h
    · simp [hmake]
    · simp [hmake]

/-! ## Preparing -/

section Prepare

variable {fs fs' : FileSystem} {p : Path}

theorem workDir_prepareDirectory (h : prepareDirectory p fs = (.ok (), fs')) :
    fs'.workDir = fs.workDir := by
  unfold prepareDirectory at h
  split at h
  · cases h
  · next fs₁ hempty =>
    have hway := createDirectories_makesWay p fs₁
    split at h
    · cases h
    · next hcreate =>
      cases h
      rw [hcreate] at hway
      exact hway.workDir.trans (workDir_emptyDirectory hempty)

/-- A directory that has been prepared holds nothing but directories, which have been made to reach
it. Whatever else was there is still there. -/
theorem find?_prepareDirectory (h : prepareDirectory p fs = (.ok (), fs')) (k : Location) :
    (fs.Holds p k → fs'.find? k = none ∨ fs'.find? k = some .directory) ∧
      (¬ fs.Holds p k → fs'.find? k = fs.find? k ∨
        fs.find? k = none ∧ fs'.find? k = some .directory) := by
  unfold prepareDirectory at h
  split at h
  · cases h
  · next fs₁ hempty =>
    obtain ⟨hbelow, helse⟩ := find?_emptyDirectory hempty k
    have hmade := createDirectories_makesDirectories p fs₁ k
    have hresult : (createDirectories p fs₁).2 = fs' := by
      split at h
      · cases h
      · next hcreate =>
        cases h
        rw [hcreate]
    rw [hresult] at hmade
    constructor
    · intro hk
      rw [hbelow hk] at hmade
      exact hmade.imp_right And.right
    · intro hk
      rw [helse hk] at hmade
      exact hmade

/-- Where things are gone or are as they were, apart from directories that were made, the files are
those that were there and are not gone. -/
theorem find?_file_iff_of_emptied {k : Location} {gone : Prop}
    (hgone : gone → fs'.find? k = none ∨ fs'.find? k = some .directory)
    (helse : ¬ gone → fs'.find? k = fs.find? k ∨
      fs.find? k = none ∧ fs'.find? k = some .directory) (bytes : ByteArray) :
    fs'.find? k = some (.file bytes) ↔ fs.find? k = some (.file bytes) ∧ ¬ gone := by
  by_cases hk : gone
  · obtain hnone | hdirectory := hgone hk
    · simp [hk, hnone]
    · simp [hk, hdirectory]
  · obtain hsame | ⟨hnone, hdirectory⟩ := helse hk
    · simp [hk, hsame]
    · simp [hnone, hdirectory]

/-- An empty directory is left as it is. -/
theorem prepareDirectory_of_empty {l : Location} (hlocate : fs.locate p = .ok l)
    (hempty : ∀ k, Below l k → fs.find? k = none) : (prepareDirectory p fs).2 = fs := by
  have hemptied : emptyDirectory p fs = (.ok (), fs) := by
    simp [emptyDirectory, hlocate, below_eq_nil hempty, removeAll]
  have hmade := createDirectories_of_locate hlocate
  unfold prepareDirectory
  rw [hemptied]
  split
  · next h => cases h
  · next h =>
    cases h
    split
    · next hcreate => simpa [hcreate] using hmade
    · next hcreate => simpa [hcreate] using hmade

end Prepare

end VocabPhp
