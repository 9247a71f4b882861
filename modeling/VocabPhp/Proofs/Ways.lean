import VocabPhp.Proofs.Publishing
import VocabPhp.Proofs.ReducedPaths

/-!
# Ways to directories

The way to a directory can be made unless a file lies on it, if the file system takes its path. Then
everything on the way is a directory, and nothing else has changed. If a file lies on the way, then
nothing is made at all: what is missing lies below the file, and the file is found first.

* `FileSystem.Takes`, `FileSystem.Blocked`: paths that a file system takes, and files on the way.
* `FileSystem.walk_of_directories`, `FileSystem.walk_eq_missing`,
  `FileSystem.exists_missing_of_walk`: when names can be followed, and when the way ends in nothing.
* `OpensWay`: everything on the way to a location is a directory, and nothing else has changed.
* `createDirectories_of_free`, `createDirectories_of_blocked`: what making directories does.
-/

namespace VocabPhp

open FileSystem

variable {fs fs' fs₁ : FileSystem} {p q : Path} {l m k : Location} {name : String}
  {names front : List String}

namespace FileSystem

/-! ## Taking paths -/

/-- The file system takes a path: there is one, without the null character, and neither the path nor
any of its names is too long. -/
structure Takes (p : Path) : Prop where
  check : checkPath p = .ok ()
  short : ∀ name ∈ p.names, ¬ maxName < name.utf8ByteSize

instance : Decidable (Takes p) :=
  decidable_of_iff (checkPath p = .ok () ∧ ∀ name ∈ p.names, ¬ maxName < name.utf8ByteSize)
    ⟨fun ⟨hcheck, hshort⟩ => ⟨hcheck, hshort⟩, fun h => ⟨h.check, h.short⟩⟩

theorem checkPath_eq_ok_iff : checkPath p = .ok () ↔
    p.chars ≠ [] ∧ '\x00' ∉ p.chars ∧ p.text.utf8ByteSize < maxPath := by
  unfold checkPath
  split
  · simp_all
  · split
    · simp_all
    · split
      · simp_all
      · simp_all

theorem Takes.chars_ne_nil (h : Takes p) : p.chars ≠ [] := (checkPath_eq_ok_iff.1 h.check).1

/-- Names that can be followed are not too long. -/
theorem short_of_walk (h : fs.walk l names = .ok m) (hname : name ∈ names) :
    ¬ maxName < name.utf8ByteSize := by
  induction names generalizing l with
  | nil => exact absurd hname List.not_mem_nil
  | cons first names ih =>
    obtain ⟨-, hfirst, hrest⟩ := walk_cons_eq_ok_iff.1 h
    obtain rfl | hlater := List.mem_cons.1 hname
    · by_cases hdot : name = "."
      · subst hdot
        decide
      · by_cases hdots : name = ".."
        · subst hdots
          decide
        · exact (hfirst hdot hdots).1
    · exact ih hrest hlater

/-- A path that leads somewhere is taken. -/
theorem Takes.of_locate (h : fs.locate p = .ok l) : Takes p := by
  unfold locate at h
  split at h
  · cases h
  · next hcheck => exact ⟨hcheck, fun n hn => short_of_walk h (List.mem_append_left _ hn)⟩

/-- A path that begins another one is taken with it, unless it is empty. -/
theorem Takes.of_prefix (h : Takes p) (hchars : q.chars <+: p.chars)
    (hnames : ∀ n ∈ q.names, n ∈ p.names) : q.chars = [] ∨ Takes q := by
  refine or_iff_not_imp_left.2 fun hne => ⟨checkPath_eq_ok_iff.2 ⟨hne, ?_, ?_⟩, fun n hn =>
    h.short n (hnames n hn)⟩
  · exact fun hmem => (checkPath_eq_ok_iff.1 h.check).2.1 (hchars.subset hmem)
  · obtain ⟨rest, hrest⟩ := hchars
    have hsize : q.text.utf8ByteSize ≤ p.text.utf8ByteSize := by
      rw [Path.text, Path.text, ← hrest, String.ofList_append, String.utf8ByteSize_append]
      exact Nat.le_add_right _ _
    exact Nat.lt_of_le_of_lt hsize (checkPath_eq_ok_iff.1 h.check).2.2

/-! ## What is on the way -/

/-- A file lies at a location or above it. -/
def Blocked (fs : FileSystem) (l : Location) : Prop :=
  ∃ k bytes, k <+: l ∧ fs.find? k = some (.file bytes)

theorem IsTree.directory_of_prefix (h : fs.IsTree) (hl : fs.find? l = some .directory)
    (hk : k <+: l) : fs.find? k = some .directory := by
  by_cases heq : l = k
  · exact heq ▸ hl
  · exact h.directory_of_below ⟨hk, heq⟩ (by rw [hl]; rfl)

/-- What lies behind a file is no directory. -/
theorem IsTree.ne_directory_of_blocked (h : fs.IsTree) (hl : fs.Blocked l) :
    fs.find? l ≠ some .directory := by
  obtain ⟨k, bytes, hk, hfile⟩ := hl
  intro hdirectory
  rw [h.directory_of_prefix hdirectory hk] at hfile
  cases hfile

/-- Nothing lies below what is missing. -/
theorem IsTree.none_of_prefix (h : fs.IsTree) (hk : fs.find? k = none) (hkl : k <+: l) :
    fs.find? l = none := by
  by_contra hl
  by_cases heq : l = k
  · exact hl (heq ▸ hk)
  · have hdirectory := h.directory_of_below ⟨hkl, heq⟩ (Option.isSome_iff_ne_none.2 hl)
    rw [hk] at hdirectory
    cases hdirectory

/-! ## Following names -/

/-- Paths start at a directory. -/
theorem directory_start_of_workDir (h : fs.find? fs.workDir = some .directory) :
    fs.find? (fs.start p) = some .directory := by
  rw [start]
  split
  · rfl
  · exact h

/-- Names can be followed through directories. -/
theorem walk_of_directories
    (hway : ∀ front, front <+: names → fs.find? (follow l front) = some .directory)
    (hshort : ∀ n ∈ names, ¬ maxName < n.utf8ByteSize) :
    fs.walk l names = .ok (follow l names) := by
  induction names generalizing l with
  | nil => rfl
  | cons name names ih =>
    have hrest := ih (l := next l name)
      (fun front hfront => hway (name :: front) (List.cons_prefix_cons.2 ⟨rfl, hfront⟩))
      (fun n hn => hshort n (List.mem_cons_of_mem _ hn))
    refine walk_cons_eq_ok_iff.2 ⟨?_, fun hdot hdots => ⟨hshort name List.mem_cons_self, ?_⟩, hrest⟩
    · exact decide_eq_true (hway [] List.nil_prefix)
    · have hthere := hway [name] (List.cons_prefix_cons.2 ⟨rfl, List.nil_prefix⟩)
      rw [follow, List.foldl_cons, List.foldl_nil, next_of_ne hdot hdots] at hthere
      rw [hthere]
      rfl

/-- Names that lead down to nothing, with no file on the way, are missing. -/
theorem walk_eq_missing (hl : fs.find? l = some .directory)
    (hnames : ∀ n ∈ names, n ≠ "." ∧ n ≠ "..") (hshort : ∀ n ∈ names, ¬ maxName < n.utf8ByteSize)
    (hfree : ¬ fs.Blocked (l ++ names)) (hnone : fs.find? (l ++ names) = none) :
    fs.walk l names = .error .missing := by
  induction names generalizing l with
  | nil =>
    rw [List.append_nil, hl] at hnone
    cases hnone
  | cons name names ih =>
    obtain ⟨hdot, hdots⟩ := hnames name List.mem_cons_self
    have hcons : l ++ name :: names = l ++ [name] ++ names := by simp
    have hdirectory : fs.isDirectory l = true := decide_eq_true hl
    rw [hcons] at hfree hnone
    rw [walk, if_neg (by simp [hdirectory]), if_neg hdot, if_neg hdots,
      if_neg (hshort name List.mem_cons_self)]
    cases hfind : fs.find? (l ++ [name]) with
    | none => rfl
    | some e =>
      cases e with
      | file bytes => exact absurd ⟨_, bytes, List.prefix_append _ names, hfind⟩ hfree
      | directory =>
        exact ih hfind (fun n hn => hnames n (List.mem_cons_of_mem _ hn))
          (fun n hn => hshort n (List.mem_cons_of_mem _ hn)) hfree hnone

/-- Where names are missing, the first one is missing in a directory. -/
theorem exists_missing_of_walk (h : fs.walk l names = .error .missing) : ∃ front name,
    front ++ [name] <+: names ∧ name ≠ "." ∧ name ≠ ".." ∧
      fs.find? (follow l front) = some .directory ∧ fs.find? (follow l front ++ [name]) = none := by
  induction names generalizing l with
  | nil => cases h
  | cons name names ih =>
    have hlater (hrest : fs.walk (next l name) names = .error .missing) :
        ∃ front last, front ++ [last] <+: name :: names ∧ last ≠ "." ∧ last ≠ ".." ∧
          fs.find? (follow l front) = some .directory ∧
          fs.find? (follow l front ++ [last]) = none := by
      obtain ⟨front, last, hfront, hrest⟩ := ih hrest
      exact ⟨name :: front, last, List.cons_prefix_cons.2 ⟨rfl, hfront⟩, hrest⟩
    rw [walk] at h
    split at h
    · cases h
    · next hdirectory =>
      split at h
      · next hdot => exact hlater (by rwa [next, if_pos hdot])
      · next hdot =>
        split at h
        · next hdots => exact hlater (by rwa [next, if_neg hdot, if_pos hdots])
        · next hdots =>
          split at h
          · cases h
          · split at h
            · next hnone =>
              refine ⟨[], name, List.cons_prefix_cons.2 ⟨rfl, List.nil_prefix⟩, hdot, hdots, ?_, ?_⟩
              · have hthere : fs.isDirectory l = true := by simpa using hdirectory
                exact of_decide_eq_true hthere
              · exact Option.isNone_iff_eq_none.1 hnone
            · exact hlater (by rwa [next_of_ne hdot hdots])

/-- Where a directory cannot be made because something is missing, a name on its way is missing in a
directory. -/
theorem exists_missing_of_makeDirectory (hchars : p.chars ≠ [])
    (h : fs.makeDirectory p = .error .missing) : ∃ front name, front ++ [name] <+: p.names ∧
      name ≠ "." ∧ name ≠ ".." ∧ fs.find? (follow (fs.start p) front) = some .directory ∧
      fs.find? (follow (fs.start p) front ++ [name]) = none := by
  have hparent : fs.locateParent p = .error .missing := by
    unfold makeDirectory at h
    split at h
    · next hparent => rw [hparent, Except.error.inj h]
    · cases h
    · split at h
      · cases h
      · cases h
  have hcheck : checkPath p ≠ .error .missing := by
    rw [checkPath, if_neg hchars]
    split
    · simp
    · split
      · simp
      · simp
  unfold locateParent at hparent
  split at hparent
  · next hfails => exact absurd (Except.error.inj hparent ▸ hfails) hcheck
  · split at hparent
    · next hwalk =>
      obtain ⟨front, name, hfront, hrest⟩ :=
        exists_missing_of_walk (Except.error.inj hparent ▸ hwalk)
      exact ⟨front, name, hfront.trans (List.dropLast_prefix _), hrest⟩
    · dsimp only at hparent
      split at hparent
      · cases hparent
      · split at hparent
        · cases hparent
        · cases hparent

/-- Nothing is missing from a directory on the way to a file. -/
theorem IsTree.not_blocked (htree : fs.IsTree) (hl : fs.find? l = some .directory)
    (hnone : fs.find? (l ++ [name]) = none) (hm : l ++ [name] <+: m) : ¬ fs.Blocked m := by
  rintro ⟨k, bytes, hk, hfile⟩
  obtain hbelow | habove := List.prefix_or_prefix_of_prefix hm hk
  · rw [htree.none_of_prefix hnone hbelow] at hfile
    cases hfile
  · obtain rfl | habove := List.prefix_concat_iff.1 habove
    · rw [hnone] at hfile
      cases hfile
    · rw [htree.directory_of_prefix hl habove] at hfile
      cases hfile

end FileSystem

/-! ## Making one directory -/

section Make

/-- A path through directories leads to its target. -/
theorem locate_of_directories (hp : p.IsReduced) (htakes : Takes p)
    (hway : ∀ front, front <+: p.names → fs.find? (follow (fs.start p) front) = some .directory) :
    fs.locate p = .ok (fs.target p) ∧ fs.isDirectoryAt p = true := by
  have hlocate : fs.locate p = .ok (fs.target p) := by
    rw [locate, htakes.check, hp.endsInSlash_eq]
    simp only [Bool.false_eq_true, if_false, List.append_nil]
    exact walk_of_directories hway htakes.short
  refine ⟨hlocate, ?_⟩
  rw [isDirectoryAt, hlocate]
  exact decide_eq_true (hway p.names List.prefix_rfl)

/-- Where the last name of a path is looked for. -/
theorem locateParent_of_directories (htakes : Takes p) (hnames : p.names = front ++ [name])
    (hway : ∀ f, f <+: front → fs.find? (follow (fs.start p) f) = some .directory) :
    fs.locateParent p =
      .ok (follow (fs.start p) front, if name = "." ∨ name = ".." then none else some name) := by
  have hshort := htakes.short
  rw [hnames] at hshort
  have hwalk := walk_of_directories hway fun n hn => hshort n (List.mem_append_left _ hn)
  have hdirectory : fs.isDirectory (follow (fs.start p) front) = true :=
    decide_eq_true (hway front List.prefix_rfl)
  have hlast : ¬ maxName < name.utf8ByteSize := hshort name (by simp)
  rw [locateParent, htakes.check, hnames, List.dropLast_concat, hwalk, List.getLast?_concat]
  by_cases hdot : name = "."
  · simp [hdirectory, hdot, Option.filter]
  by_cases hdots : name = ".."
  · simp [hdirectory, hdots, Option.filter]
  simp [hdirectory, hdot, hdots, Option.filter, hlast]

/-- A directory is made in one that is there, if there is nothing with its name. -/
theorem makeDirectory_of_directories (htakes : Takes p) (hnames : p.names = front ++ [name])
    (hway : ∀ f, f <+: front → fs.find? (follow (fs.start p) f) = some .directory)
    (hdot : name ≠ ".") (hdots : name ≠ "..")
    (hnone : fs.find? (follow (fs.start p) front ++ [name]) = none) :
    fs.makeDirectory p = .ok (fs.put (follow (fs.start p) front ++ [name]) .directory) := by
  rw [makeDirectory, locateParent_of_directories htakes hnames hway, if_neg (by simp [hdot, hdots])]
  simp only [hnone, Option.isSome_none, Bool.false_eq_true, if_false]

/-- Nothing is made where the directory is there. -/
theorem createDirectories_of_directories (hp : p.IsReduced) (htakes : Takes p)
    (hway : ∀ front, front <+: p.names → fs.find? (follow (fs.start p) front) = some .directory) :
    createDirectories p fs = (.ok (), fs) := by
  obtain ⟨hlocate, hat⟩ := locate_of_directories hp htakes hway
  rw [createDirectories, if_neg htakes.chars_ne_nil]
  obtain hmake | hmake := makeDirectory_of_locate hlocate
  · simp only [hmake, hat, if_true]
  · simp only [hmake, hat, if_true]

theorem createDirectories_of_missing (hchars : p.chars ≠ [])
    (hmissing : fs.makeDirectory p = .error .missing) (hparent : p.parent? = some q)
    (hq : createDirectories q fs = (.ok (), fs₁)) (hmake : fs₁.makeDirectory p = .ok fs') :
    createDirectories p fs = (.ok (), fs') := by
  rw [createDirectories, if_neg hchars, hmissing]
  dsimp only
  split
  · next hnone =>
    rw [hparent] at hnone
    cases hnone
  · next parent hsome =>
    obtain rfl : q = parent := Option.some.inj (hparent.symm.trans hsome)
    rw [hq]
    simp only [hmake]

end Make

/-! ## Making the way -/

section Way

/-- On the way to a directory there are only directories. -/
theorem Path.IsReduced.directories (hp : p.IsReduced) (htree : fs.IsTree)
    (hstart : fs.find? (fs.start p) = some .directory)
    (hthere : fs.find? (fs.target p) = some .directory) :
    ∀ front, front <+: p.names → fs.find? (follow (fs.start p) front) = some .directory := by
  intro front hfront
  obtain habove | habove := hp.follow_prefix hfront
  · exact htree.directory_of_prefix hstart habove
  · exact htree.directory_of_prefix hthere habove

/-- A path whose target is missing ends in a name that leads down. -/
theorem Path.IsReduced.ne_dots_of_none (hp : p.IsReduced) (htree : fs.IsTree)
    (hstart : fs.find? (fs.start p) = some .directory) (hnone : fs.find? (fs.target p) = none)
    (hnames : p.names = front ++ [name]) : name ≠ ".." := by
  rintro rfl
  obtain ⟨ups, downs, hcut, hups, hdowns⟩ := hp.exists_cut
  obtain rfl | ⟨init, last, rfl⟩ := List.eq_nil_or_concat downs
  · -- All names are two dots, so the target lies above the start.
    have habove : fs.target p <+: fs.start p := by
      rw [target, hcut, List.append_nil]
      exact follow_prefix_of_ups hups
    rw [htree.directory_of_prefix hstart habove] at hnone
    cases hnone
  · rw [hnames, List.concat_eq_append, ← List.append_assoc] at hcut
    obtain ⟨-, hlast⟩ := List.append_inj' hcut rfl
    exact (hdowns last (by simp)).2 (List.singleton_inj.1 hlast).symm

/-- A way without files that leads to nothing is missing. -/
theorem Path.IsReduced.walk_of_none (hp : p.IsReduced) (htree : fs.IsTree)
    (hstart : fs.find? (fs.start p) = some .directory) (hfree : ¬ fs.Blocked (fs.target p))
    (hshort : ∀ n ∈ p.names, ¬ maxName < n.utf8ByteSize) (hnone : fs.find? (fs.target p) = none) :
    fs.walk (fs.start p) p.names = .error .missing := by
  obtain ⟨ups, downs, hcut, hups, hdowns⟩ := hp.exists_cut
  have hup {front : List String} (hfront : front <+: ups) :
      fs.find? (follow (fs.start p) front) = some .directory :=
    htree.directory_of_prefix hstart (follow_prefix_of_ups fun n hn => hups n (hfront.subset hn))
  rw [hcut] at hshort
  have hwalk := walk_of_directories (fun front => hup) fun n hn =>
    hshort n (List.mem_append_left _ hn)
  rw [target, hcut, follow_append, follow_of_downs hdowns] at hfree hnone
  rw [hcut, walk_append, hwalk]
  exact walk_eq_missing (hup List.prefix_rfl) hdowns (fun n hn =>
    hshort n (List.mem_append_right _ hn)) hfree hnone

theorem createDirectories_of_there (hp : p.IsReduced) (htree : fs.IsTree)
    (hstart : fs.find? (fs.start p) = some .directory)
    (hthere : fs.find? (fs.target p) = some .directory) (htakes : p.chars = [] ∨ Takes p) :
    createDirectories p fs = (.ok (), fs) := by
  obtain hnil | htakes := htakes
  · rw [createDirectories, if_pos hnil]
  · exact createDirectories_of_directories hp htakes (hp.directories htree hstart hthere)

/-! ### Opening a way -/

/-- Everything on the way to a location is a directory, and nothing else has changed. -/
structure OpensWay (l : Location) (fs fs' : FileSystem) : Prop where
  workDir : fs'.workDir = fs.workDir
  find? : ∀ k, fs'.find? k = if k <+: l then some .directory else fs.find? k

namespace OpensWay

/-- The way to a directory is open. -/
theorem refl (htree : fs.IsTree) (hthere : fs.find? l = some .directory) : OpensWay l fs fs := by
  refine ⟨rfl, fun k => ?_⟩
  split
  · next hk => exact htree.directory_of_prefix hthere hk
  · rfl

theorem directory_start (h : OpensWay l fs fs') (hstart : fs.find? (fs.start p) = some .directory) :
    fs'.find? (fs'.start p) = some .directory := by
  rw [start_eq_of_workDir h.workDir, h.find?]
  split
  · rfl
  · exact hstart

theorem isTree (h : OpensWay l fs fs') (htree : fs.IsTree) : fs'.IsTree := by
  intro k name hk
  rw [h.find?] at hk ⊢
  split
  · rfl
  · next habove =>
    rw [if_neg fun hname => habove ((List.prefix_append k [name]).trans hname)] at hk
    exact htree k name hk

/-- A way that has been opened is opened one name further by a directory with this name. -/
theorem concat (h : OpensWay l fs fs') :
    OpensWay (l ++ [name]) fs (fs'.put (l ++ [name]) .directory) := by
  refine ⟨h.workDir, fun k => ?_⟩
  rw [find?_put fs' (by simp), h.find?]
  by_cases hk : k = l ++ [name]
  · rw [if_pos hk, if_pos (hk ▸ List.prefix_rfl)]
  · simp only [List.prefix_concat_iff, hk, if_false, false_or]

end OpensWay

section Last

variable {lead : PathLead} {pieces : List (List Char)} {piece : List Char}

/-- A path whose target is missing leads there from where the path without its last piece leads. -/
theorem Path.IsReduced.target_concat (hp : (⟨lead, pieces ++ [piece]⟩ : Path).IsReduced)
    (htree : fs.IsTree) (hstart : fs.find? (fs.start ⟨lead, pieces ++ [piece]⟩) = some .directory)
    (hnone : fs.find? (fs.target ⟨lead, pieces ++ [piece]⟩) = none) :
    fs.target ⟨lead, pieces ++ [piece]⟩ = fs.target ⟨lead, pieces⟩ ++ [String.ofList piece] := by
  have hnames := hp.names_concat
  have hdot : String.ofList piece ≠ "." := hp.ne_dot (by simp [hnames])
  have hdots := hp.ne_dots_of_none htree hstart hnone hnames
  rw [target, hnames, follow_concat, next_of_ne hdot hdots]
  rfl

/-- A missing directory is made where the path without the last piece leads to a directory. -/
theorem makeDirectory_of_parent (hp : (⟨lead, pieces ++ [piece]⟩ : Path).IsReduced)
    (htree : fs.IsTree) (hstart : fs.find? (fs.start ⟨lead, pieces ++ [piece]⟩) = some .directory)
    (htakes : Takes ⟨lead, pieces ++ [piece]⟩)
    (hnone : fs.find? (fs.target ⟨lead, pieces ++ [piece]⟩) = none)
    (hparent : fs.find? (fs.target ⟨lead, pieces⟩) = some .directory) :
    fs.makeDirectory ⟨lead, pieces ++ [piece]⟩ =
      .ok (fs.put (fs.target ⟨lead, pieces ++ [piece]⟩) .directory) := by
  have hnames := hp.names_concat
  have htarget := hp.target_concat htree hstart hnone
  rw [htarget] at hnone ⊢
  exact makeDirectory_of_directories htakes hnames (hp.parent.directories htree hstart hparent)
    (hp.ne_dot (by simp [hnames])) (hp.ne_dots_of_none htree hstart (htarget ▸ hnone) hnames) hnone

/-- A directory is missing if the path without the last piece leads to nothing. -/
theorem makeDirectory_of_parent_none (hp : (⟨lead, pieces ++ [piece]⟩ : Path).IsReduced)
    (htree : fs.IsTree) (hstart : fs.find? (fs.start ⟨lead, pieces ++ [piece]⟩) = some .directory)
    (htakes : Takes ⟨lead, pieces ++ [piece]⟩) (hfree : ¬ fs.Blocked (fs.target ⟨lead, pieces⟩))
    (hnone : fs.find? (fs.target ⟨lead, pieces⟩) = none) :
    fs.makeDirectory ⟨lead, pieces ++ [piece]⟩ = .error .missing := by
  have hnames := hp.names_concat
  have hwalk := hp.parent.walk_of_none htree hstart hfree
    (fun n hn => htakes.short n (hnames ▸ List.mem_append_left _ hn)) hnone
  have hstartParent : fs.start ⟨lead, pieces⟩ = fs.start ⟨lead, pieces ++ [piece]⟩ := rfl
  rw [makeDirectory, locateParent, htakes.check, hnames, List.dropLast_concat, ← hstartParent,
    hwalk]

/-- A way that has been made without the last piece is made with it. -/
theorem exists_opensWay_of_parent (hp : (⟨lead, pieces ++ [piece]⟩ : Path).IsReduced)
    (htree : fs.IsTree) (hstart : fs.find? (fs.start ⟨lead, pieces ++ [piece]⟩) = some .directory)
    (htakes : Takes ⟨lead, pieces ++ [piece]⟩)
    (hnone : fs.find? (fs.target ⟨lead, pieces ++ [piece]⟩) = none)
    (hmissing : fs.makeDirectory ⟨lead, pieces ++ [piece]⟩ = .error .missing)
    (hcreate : createDirectories ⟨lead, pieces⟩ fs = (.ok (), fs₁))
    (hway : OpensWay (fs.target ⟨lead, pieces⟩) fs fs₁) :
    ∃ fs', createDirectories ⟨lead, pieces ++ [piece]⟩ fs = (.ok (), fs') ∧
      OpensWay (fs.target ⟨lead, pieces ++ [piece]⟩) fs fs' := by
  have htarget := hp.target_concat htree hstart hnone
  have hnone₁ : fs₁.find? (fs₁.target ⟨lead, pieces ++ [piece]⟩) = none := by
    rw [target_eq_of_workDir hway.workDir, hway.find?, if_neg, hnone]
    exact htarget ▸ not_prefix_of_ne_nil (by simp)
  have hparent : fs₁.find? (fs₁.target ⟨lead, pieces⟩) = some .directory := by
    rw [target_eq_of_workDir hway.workDir, hway.find?, if_pos List.prefix_rfl]
  have hmake := makeDirectory_of_parent hp (hway.isTree htree) (hway.directory_start hstart)
    htakes hnone₁ hparent
  rw [target_eq_of_workDir hway.workDir, htarget] at hmake
  exact ⟨_, createDirectories_of_missing hp.chars_ne_nil hmissing hp.parent?_eq hcreate hmake,
    htarget ▸ hway.concat⟩

end Last

/-- Where no file is on the way, the way is made. -/
theorem createDirectories_of_free (hp : p.IsReduced) (htree : fs.IsTree)
    (hstart : fs.find? (fs.start p) = some .directory) (hfree : ¬ fs.Blocked (fs.target p))
    (htakes : p.chars = [] ∨ Takes p) :
    ∃ fs', createDirectories p fs = (.ok (), fs') ∧ OpensWay (fs.target p) fs fs' := by
  obtain ⟨lead, body⟩ := p
  -- The parent of a path is the path without its last piece, so the induction is on the other ones.
  induction body using List.reverseRecOn with
  | nil => exact ⟨fs, createDirectories_of_there hp htree hstart hstart htakes, .refl htree hstart⟩
  | append_singleton pieces piece ih =>
    cases hfind : fs.find? (fs.target ⟨lead, pieces ++ [piece]⟩) with
    | some e =>
      cases e with
      | file bytes => exact absurd ⟨_, bytes, List.prefix_rfl, hfind⟩ hfree
      | directory =>
        exact ⟨fs, createDirectories_of_there hp htree hstart hfind htakes, .refl htree hfind⟩
    | none =>
      have htarget := hp.target_concat htree hstart hfind
      replace htakes := htakes.resolve_left hp.chars_ne_nil
      have hfreeParent : ¬ fs.Blocked (fs.target ⟨lead, pieces⟩) := by
        rintro ⟨k, bytes, hk, hfile⟩
        exact hfree ⟨k, bytes, hk.trans (htarget ▸ List.prefix_append _ _), hfile⟩
      cases hfindParent : fs.find? (fs.target ⟨lead, pieces⟩) with
      | some e =>
        cases e with
        | file bytes => exact absurd ⟨_, bytes, List.prefix_rfl, hfindParent⟩ hfreeParent
        | directory =>
          have hmake := makeDirectory_of_parent hp htree hstart htakes hfind hfindParent
          refine ⟨_, ?_, htarget ▸ (OpensWay.refl htree hfindParent).concat⟩
          rw [createDirectories, if_neg hp.chars_ne_nil, hmake, htarget]
      | none =>
        obtain ⟨fs₁, hcreate, hway⟩ := ih hp.parent hstart hfreeParent
          (htakes.of_prefix Path.chars_concat_prefix fun n hn =>
            hp.names_concat ▸ List.mem_append_left _ hn)
        have hmissing :=
          makeDirectory_of_parent_none hp htree hstart htakes hfreeParent hfindParent
        exact exists_opensWay_of_parent hp htree hstart htakes hfind hmissing hcreate hway

/-- Where a file is on the way, nothing is made. -/
theorem createDirectories_of_blocked (hp : p.IsReduced) (htree : fs.IsTree)
    (hblocked : fs.Blocked (fs.target p)) (hchars : p.chars ≠ []) :
    ∃ e, createDirectories p fs = (.error e, fs) := by
  have hat : fs.isDirectoryAt p = false := by
    rw [Bool.eq_false_iff]
    intro hat
    exact htree.ne_directory_of_blocked hblocked (locate_of_isDirectoryAt hat).2
  cases hmake : fs.makeDirectory p with
  | ok fs' =>
    obtain ⟨⟨l, name, hlooks⟩, hnone, -⟩ := makeDirectory_eq_ok hmake
    rw [hlooks.target_eq] at hnone hblocked
    have hl : fs.find? l = some .directory := of_decide_eq_true hlooks.directory
    exact absurd hblocked (htree.not_blocked hl hnone List.prefix_rfl)
  | error e =>
    refine ⟨e, ?_⟩
    have hne : e ≠ .missing := by
      rintro rfl
      obtain ⟨front, name, hfront, hdot, hdots, hl, hnone⟩ :=
        exists_missing_of_makeDirectory hchars hmake
      have hpasses : fs.Passes p (follow (fs.start p) front ++ [name]) :=
        ⟨front, name, hfront, hdot, hdots, rfl⟩
      exact htree.not_blocked hl hnone (Path.prefix_of_passes hp.upFirst hpasses) hblocked
    rw [createDirectories, if_neg hchars, hmake]
    cases e with
    | missing => exact absurd rfl hne
    | _ => simp [hat]

end Way

end VocabPhp
