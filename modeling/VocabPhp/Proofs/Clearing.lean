import Mathlib.Data.List.Nodup
import VocabPhp.Proofs.Emptying
import VocabPhp.Proofs.Ways

/-!
# Clearing a directory

An output directory that is prepared is cleared: afterwards it is there and holds nothing, and
everything outside is as before, but for directories that lead to it. Every entry below it can be
removed when its turn comes, whatever the order, as long as the contents of a directory come before
the directory. Where a file is on the way, nothing is changed.

* `FileSystem.Traverses`, `FileSystem.below_traverses`: orders to remove what is below a location.
* `FileSystem.exists_removeAll_of_traverses`: a removal in such an order succeeds.
* `Clears`: what it means to clear a directory.
* `prepareDirectory_clears`: when a directory is cleared, and what happens if it is not.
-/

namespace VocabPhp

open FileSystem

variable {fs fs' fs₁ : FileSystem} {p : Path} {l k : Location} {e : Entry}
  {es : List (Location × Entry)}

namespace FileSystem

/-! ## Removing what is below -/

/-- An order to go through what is below a location: each entry comes once, and the contents of a
directory come before the directory. -/
structure Traverses (fs : FileSystem) (l : Location) (es : List (Location × Entry)) : Prop where
  once : (es.map Prod.fst).Nodup
  mem : ∀ k e, (k, e) ∈ es ↔ Below l k ∧ fs.find? k = some e
  inward : es.Pairwise fun a b => ¬ Below a.1 b.1

/-- What can be removed: a file, or a directory with nothing below. -/
theorem removeEntry_eq_ok (hk : fs.find? k = some e) (hbelow : ∀ m, Below k m → fs.find? m = none) :
    fs.removeEntry k = .ok (fs.remove k) := by
  rw [removeEntry, hk]
  cases e with
  | file bytes => rfl
  | directory => simp [below_eq_nil hbelow]

/-- The first entry of a traversal can be removed, and the others are a traversal of what is
left. -/
theorem Traverses.cons (h : fs.Traverses l ((k, e) :: es)) :
    fs.removeEntry k = .ok (fs.remove k) ∧ (fs.remove k).Traverses l es := by
  obtain ⟨hbelow, hfind⟩ := (h.mem k e).1 List.mem_cons_self
  obtain ⟨hk, honce⟩ := List.nodup_cons.1 h.once
  obtain ⟨hfirst, hinward⟩ := List.pairwise_cons.1 h.inward
  refine ⟨removeEntry_eq_ok hfind fun m hm => ?_, honce, fun m e' => ?_, hinward⟩
  · -- Whatever is below would come later, but nothing below comes later.
    by_contra hthere
    obtain ⟨e', he'⟩ := Option.ne_none_iff_exists'.1 hthere
    obtain heq | hlater := List.mem_cons.1 ((h.mem m e').2 ⟨hbelow.trans hm, he'⟩)
    · exact hm.2 (congrArg Prod.fst heq)
    · exact hfirst _ hlater hm
  · rw [find?_remove fs hbelow.ne_root]
    by_cases hm : m = k
    · subst hm
      simp only [if_true, reduceCtorEq, and_false, iff_false]
      exact fun hmem => hk (List.mem_map.2 ⟨_, hmem, rfl⟩)
    · rw [if_neg hm, ← h.mem, List.mem_cons, or_iff_right]
      exact fun heq => hm (congrArg Prod.fst heq)

/-- Everything below a location can be removed in the order of a traversal. Nothing else changes. -/
theorem exists_removeAll_of_traverses (h : fs.Traverses l es) :
    ∃ fs₁, removeAll es fs = (.ok (), fs₁) ∧ fs₁.workDir = fs.workDir ∧
      ∀ k, fs₁.find? k = if Below l k then none else fs.find? k := by
  obtain ⟨fs₁, hremove⟩ : ∃ fs₁, removeAll es fs = (.ok (), fs₁) := by
    induction es generalizing fs with
    | nil => exact ⟨fs, rfl⟩
    | cons entry es ih =>
      obtain ⟨hfirst, hrest⟩ := h.cons
      obtain ⟨fs₁, hremove⟩ := ih hrest
      exact ⟨fs₁, by rw [removeAll, hfirst]; exact hremove⟩
  refine ⟨fs₁, hremove, workDir_removeAll hremove, fun k => ?_⟩
  have hroot : ∀ entry ∈ es, entry.1 ≠ [] := fun entry hentry =>
    ((h.mem entry.1 entry.2).1 hentry).1.ne_root
  rw [find?_removeAll hroot hremove]
  by_cases hbelow : Below l k
  · rw [if_pos hbelow]
    split
    · rfl
    · next hk =>
      by_contra hthere
      obtain ⟨e, he⟩ := Option.ne_none_iff_exists'.1 hthere
      exact hk (List.mem_map_of_mem ((h.mem k e).2 ⟨hbelow, he⟩))
  · rw [if_neg hbelow, if_neg]
    intro hk
    obtain ⟨entry, hentry, rfl⟩ := List.mem_map.1 hk
    exact hbelow ((h.mem entry.1 entry.2).1 hentry).1

/-- A tree in which there is one thing at a location, with a working directory. -/
structure IsProper (fs : FileSystem) : Prop where
  tree : fs.IsTree
  once : (fs.entries.map Prod.fst).Nodup
  workDir : fs.find? fs.workDir = some .directory

theorem find?_eq_some_iff (h : (fs.entries.map Prod.fst).Nodup) (hk : k ≠ []) :
    fs.find? k = some e ↔ (k, e) ∈ fs.entries := by
  refine ⟨mem_entries_of_find? hk, fun hmem => ?_⟩
  obtain ⟨e', he'⟩ := Option.isSome_iff_exists.1 (find?_isSome_of_mem hk hmem)
  have heq := List.inj_on_of_nodup_map h hmem (mem_entries_of_find? hk he') rfl
  rw [he', (Prod.mk.inj heq).2]

/-- To go from the deepest entries upwards is to traverse. -/
theorem below_traverses (h : (fs.entries.map Prod.fst).Nodup) : fs.Traverses l (fs.below l) := by
  refine ⟨?_, fun k e => ?_, ?_⟩
  · refine ((List.mergeSort_perm _ _).map Prod.fst).nodup_iff.2 ?_
    exact h.sublist (List.filter_sublist.map Prod.fst)
  · rw [mem_below_iff, and_comm]
    exact and_congr_right fun hbelow => (find?_eq_some_iff h hbelow.ne_root).symm
  · refine (List.pairwise_mergeSort (fun a b c hab hbc => ?_) (fun a b => ?_) _).imp ?_
    · simp only [decide_eq_true_eq] at hab hbc ⊢
      exact Nat.le_trans hbc hab
    · simp only [Bool.or_eq_true, decide_eq_true_eq]
      exact Nat.le_total ..
    · intro a b hlength hbelow
      exact hbelow.2 (hbelow.1.eq_of_length_le (of_decide_eq_true hlength)).symm

end FileSystem

/-! ## Clearing -/

/-- A location is a directory that holds nothing, everything on the way to it is a directory, and
nothing else has changed. -/
structure Clears (l : Location) (fs fs' : FileSystem) : Prop where
  workDir : fs'.workDir = fs.workDir
  find? : ∀ k, fs'.find? k =
    if k <+: l then some .directory else if Below l k then none else fs.find? k

section Clear

/-- A path without two dots does not lead above where it starts. -/
theorem not_below_start (h : ".." ∉ p.names) : ¬ Below (fs.target p) (fs.start p) := fun hbelow =>
  hbelow.not_prefix (prefix_follow h)

/-- What is left without what is below a location is a tree. -/
theorem FileSystem.IsTree.of_emptied (htree : fs.IsTree)
    (h : ∀ k, fs₁.find? k = if Below l k then none else fs.find? k) : fs₁.IsTree := by
  intro k name hk
  rw [h] at hk ⊢
  split at hk
  · cases hk
  · next habove =>
    rw [if_neg fun hbelow => habove (hbelow.trans ⟨List.prefix_append k [name], by simp⟩)]
    exact htree k name hk

/-- Whatever the order in which what is below a directory is removed, the directory is cleared if it
is made afterwards. -/
theorem exists_clears_of_traverses (hfs : fs.IsProper) (hp : p.IsReduced)
    (hstay : ¬ Below (fs.target p) (fs.start p)) (hfree : ¬ fs.Blocked (fs.target p))
    (htakes : Takes p) (h : fs.Traverses (fs.target p) es) :
    ∃ fs₁ fs', removeAll es fs = (.ok (), fs₁) ∧ createDirectories p fs₁ = (.ok (), fs') ∧
      Clears (fs.target p) fs fs' := by
  obtain ⟨fs₁, hremove, hwork, hfind⟩ := exists_removeAll_of_traverses h
  have hstart : fs₁.find? (fs₁.start p) = some .directory := by
    rw [start_eq_of_workDir hwork, hfind, if_neg hstay]
    exact directory_start_of_workDir hfs.workDir
  have hfree₁ : ¬ fs₁.Blocked (fs₁.target p) := by
    rintro ⟨k, bytes, hk, hfile⟩
    rw [target_eq_of_workDir hwork] at hk
    rw [hfind, if_neg fun hbelow => hbelow.not_prefix hk] at hfile
    exact hfree ⟨k, bytes, hk, hfile⟩
  obtain ⟨fs', hcreate, hway⟩ :=
    createDirectories_of_free hp (hfs.tree.of_emptied hfind) hstart hfree₁ (.inr htakes)
  rw [target_eq_of_workDir hwork] at hway
  exact ⟨fs₁, fs', hremove, hcreate, hway.workDir.trans hwork, fun k => by rw [hway.find?, hfind]⟩

/-- Nothing lies below what is not a directory. -/
theorem FileSystem.IsTree.below_eq_nil (htree : fs.IsTree) (h : fs.find? l ≠ some .directory) :
    fs.below l = [] := by
  refine FileSystem.below_eq_nil fun k hbelow => ?_
  by_contra hthere
  exact h (htree.directory_of_below hbelow (Option.isSome_iff_ne_none.2 hthere))

/-- What is not a directory is not emptied. -/
theorem emptyDirectory_of_ne_directory (htree : fs.IsTree)
    (h : fs.find? (fs.target p) ≠ some .directory) : emptyDirectory p fs = (.ok (), fs) := by
  unfold emptyDirectory
  split
  · rfl
  · next l hlocate =>
    rw [eq_target_of_locate hlocate, htree.below_eq_nil h]
    rfl

/-- What the file system takes is emptied. -/
theorem emptyDirectory_of_takes (hfs : fs.IsProper) (hp : p.IsReduced) (htakes : Takes p) :
    emptyDirectory p fs = removeAll (fs.below (fs.target p)) fs := by
  by_cases hthere : fs.find? (fs.target p) = some .directory
  · have hway := hp.directories hfs.tree (directory_start_of_workDir hfs.workDir) hthere
    rw [emptyDirectory, (locate_of_directories hp htakes hway).1]
  · rw [emptyDirectory_of_ne_directory hfs.tree hthere, hfs.tree.below_eq_nil hthere]
    rfl

/-! ## Preparing -/

/-- Where no file is on the way, the directory is cleared. -/
theorem prepareDirectory_of_free (hfs : fs.IsProper) (hp : p.IsReduced)
    (hstay : ¬ Below (fs.target p) (fs.start p)) (hfree : ¬ fs.Blocked (fs.target p))
    (htakes : Takes p) :
    ∃ fs', prepareDirectory p fs = (.ok (), fs') ∧ Clears (fs.target p) fs fs' := by
  obtain ⟨fs₁, fs', hremove, hcreate, hclears⟩ :=
    exists_clears_of_traverses hfs hp hstay hfree htakes (below_traverses hfs.once)
  refine ⟨fs', ?_, hclears⟩
  rw [prepareDirectory, emptyDirectory_of_takes hfs hp htakes, hremove]
  simp only [hcreate]

/-- Where a file is on the way, nothing is changed. -/
theorem prepareDirectory_of_blocked (htree : fs.IsTree) (hp : p.IsReduced) (hchars : p.chars ≠ [])
    (hblocked : fs.Blocked (fs.target p)) :
    prepareDirectory p fs = (.error (.creation p), fs) := by
  have hempty := emptyDirectory_of_ne_directory htree (htree.ne_directory_of_blocked hblocked)
  obtain ⟨e, hcreate⟩ := createDirectories_of_blocked hp htree hblocked hchars
  rw [prepareDirectory, hempty]
  simp only [hcreate]

/-- A directory that has been prepared is where its path leads. -/
theorem locate_of_prepareDirectory (hchars : p.chars ≠ [])
    (h : prepareDirectory p fs = (.ok (), fs')) : fs'.locate p = .ok (fs.target p) := by
  unfold prepareDirectory at h
  split at h
  · cases h
  · next fs₁ hempty =>
    split at h
    · cases h
    · next hcreate =>
      cases h
      rw [← target_eq_of_workDir (workDir_emptyDirectory hempty)]
      exact (locate_of_createDirectories hchars hcreate).1

end Clear

/-- The preparation of a directory clears it exactly if no file is on the way and the file system
takes the path. Where a file is on the way, the message names the path and nothing is changed. The
order in which the directory is emptied does not matter. If the path begins with two dots, these
must not lead above the working directory: that would be removed. -/
theorem prepareDirectory_clears (hfs : fs.IsProper) (hp : p.IsReduced) (hchars : p.chars ≠ [])
    (hup : ".." ∈ p.names → ¬ Below (fs.target p) (fs.start p)) :
    ((∃ fs', prepareDirectory p fs = (.ok (), fs')) ↔ ¬ fs.Blocked (fs.target p) ∧ Takes p) ∧
    (∀ fs', prepareDirectory p fs = (.ok (), fs') →
      fs'.locate p = .ok (fs.target p) ∧ Clears (fs.target p) fs fs') ∧
    (∀ es, ¬ fs.Blocked (fs.target p) → Takes p → fs.Traverses (fs.target p) es →
      ∃ fs₁ fs', removeAll es fs = (.ok (), fs₁) ∧ createDirectories p fs₁ = (.ok (), fs') ∧
        Clears (fs.target p) fs fs') ∧
    (fs.Blocked (fs.target p) → ∃ e, prepareDirectory p fs = (.error e, fs) ∧
      e.message = "Failed to create output directory: " ++ p.text) := by
  have hstay : ¬ Below (fs.target p) (fs.start p) := by
    by_cases hdots : ".." ∈ p.names
    · exact hup hdots
    · exact not_below_start hdots
  have hblocked := prepareDirectory_of_blocked hfs.tree hp hchars
  have hok {fs' : FileSystem} (h : prepareDirectory p fs = (.ok (), fs')) :
      ¬ fs.Blocked (fs.target p) ∧ Takes p := by
    refine ⟨fun hfile => ?_, .of_locate (locate_of_prepareDirectory hchars h)⟩
    rw [hblocked hfile] at h
    cases h
  refine ⟨⟨?_, ?_⟩, fun fs' h => ?_,
    fun es hfree htakes => exists_clears_of_traverses hfs hp hstay hfree htakes,
    fun hfile => ⟨_, hblocked hfile, rfl⟩⟩
  · rintro ⟨fs', h⟩
    exact hok h
  · rintro ⟨hfree, htakes⟩
    obtain ⟨fs', h, -⟩ := prepareDirectory_of_free hfs hp hstay hfree htakes
    exact ⟨fs', h⟩
  · obtain ⟨hfree, htakes⟩ := hok h
    obtain ⟨fs₂, h₂, hclears⟩ := prepareDirectory_of_free hfs hp hstay hfree htakes
    obtain rfl : fs₂ = fs' := congrArg Prod.snd (h₂.symm.trans h)
    exact ⟨locate_of_prepareDirectory hchars h, hclears⟩

/-- A directory with a file two levels below, and a file beside it. -/
def clutteredDisk : FileSystem where
  entries := [(["home"], .directory), (["home", "out"], .directory),
    (["home", "out", "old"], .directory),
    (["home", "out", "old", "Thing.php"], .file "<?php".toUTF8),
    (["home", "notes"], .file "kept".toUTF8)]
  workDir := ["home"]

theorem isProper_clutteredDisk : clutteredDisk.IsProper :=
  ⟨isTree_of_entries (by decide +kernel), by decide +kernel, by decide +kernel⟩

theorem prepareDirectory_clears_cluttered : ∃ fs',
    prepareDirectory (Path.ofText "out") clutteredDisk = (.ok (), fs') ∧
      Clears ["home", "out"] clutteredDisk fs' := by
  have hproper := isProper_clutteredDisk
  have hreduced : (Path.ofText "out").IsReduced := by decide
  have hfree (hblocked : clutteredDisk.Blocked (clutteredDisk.target (Path.ofText "out"))) :
      False :=
    hproper.tree.ne_directory_of_blocked hblocked (by decide +kernel)
  have htakes : Takes (Path.ofText "out") := by decide +kernel
  obtain ⟨hok, hclears, -⟩ :=
    prepareDirectory_clears hproper hreduced (by decide) fun hdots => absurd hdots (by decide)
  obtain ⟨fs', h⟩ := hok.2 ⟨hfree, htakes⟩
  exact ⟨fs', h, (hclears fs' h).2⟩

theorem isEntryName_ofList_replicate {n : Nat} (h : 2 < n) :
    IsEntryName (String.ofList (List.replicate n 'a')) := by
  have hlong {text : String} (htext : text.length ≤ 2) :
      String.ofList (List.replicate n 'a') ≠ text := by
    rintro rfl
    rw [String.length_ofList, List.length_replicate] at htext
    omega
  refine ⟨hlong (by decide), hlong (by decide), hlong (by decide), ?_, ?_⟩
  · simp
  · simp

/-- A name that is too long for the file system. -/
def longName : String := String.ofList (List.replicate 256 'a')

theorem isEntryName_longName : IsEntryName longName := isEntryName_ofList_replicate (by decide)

/-- A file system that holds nothing. -/
def emptyDisk : FileSystem := ⟨[], []⟩

theorem find?_emptyDisk (k : Location) :
    emptyDisk.find? k = if k = [] then some .directory else none := rfl

theorem isProper_emptyDisk : emptyDisk.IsProper :=
  ⟨isTree_of_entries (by simp [emptyDisk]), by simp [emptyDisk], rfl⟩

theorem not_blocked_emptyDisk : ¬ emptyDisk.Blocked l := by
  rintro ⟨k, bytes, -, hfile⟩
  rw [find?_emptyDisk] at hfile
  split at hfile
  · cases hfile
  · cases hfile

theorem target_longName : emptyDisk.target (Path.ofText longName) = [longName] := by
  have hname := isEntryName_longName
  have hdowns : ∀ n ∈ [longName], n ≠ "." ∧ n ≠ ".." := by simp [hname.ne_dot, hname.ne_dots]
  rw [target, Path.names_ofText_name hname, follow_of_downs hdowns, start, emptyDisk, ite_self,
    List.nil_append]

theorem not_takes_of_longName (h : longName ∈ p.names) : ¬ Takes p := fun htakes =>
  htakes.short longName h (by decide +kernel)

/-- A directory with a name that is too long cannot be made, although nothing is on the way. -/
theorem not_prepareDirectory_longName : emptyDisk.IsProper ∧ (Path.ofText longName).IsReduced ∧
    (Path.ofText longName).chars ≠ [] ∧ ".." ∉ (Path.ofText longName).names ∧
    emptyDisk.find? (emptyDisk.target (Path.ofText longName)) = none ∧
    ¬ emptyDisk.Blocked (emptyDisk.target (Path.ofText longName)) ∧
    ¬ ∃ fs', prepareDirectory (Path.ofText longName) emptyDisk = (.ok (), fs') := by
  have hname := isEntryName_longName
  have hnames := Path.names_ofText_name hname
  have hchars : (Path.ofText longName).chars ≠ [] := by
    rw [Path.chars_ofText]
    exact fun hnil => hname.ne_empty (String.toList_inj.1 hnil)
  refine ⟨isProper_emptyDisk, Path.isReduced_name hname, hchars, ?_, ?_, not_blocked_emptyDisk, ?_⟩
  · rw [hnames, List.mem_singleton]
    exact hname.ne_dots.symm
  · rw [target_longName, find?_emptyDisk, if_neg (List.cons_ne_nil _ _)]
  · rintro ⟨fs', h⟩
    have hlong : longName ∈ (Path.ofText longName).names := hnames ▸ List.mem_singleton_self _
    exact not_takes_of_longName hlong (.of_locate (locate_of_prepareDirectory hchars h))

end VocabPhp
