import VocabPhp.Proofs.ClassNames
import VocabPhp.Proofs.FailedRuns
import VocabPhp.Proofs.FileNames
import VocabPhp.Proofs.ReducedPaths

/-!
# What a successful run publishes

After a run that succeeds the output directory holds the files that the run would put on an empty
shelf, and nothing else. Outside nothing has changed, but that directories above the output
directory were made if they were missing. No label leads anywhere else: a class name holds neither
slashes nor dots, so the name of a file never is more than the name of an entry.

* `isEntryName_of_mem_files`: the names of all files are names of entries.
* `FileSystem.IsTree`: whatever there is lies in a directory.
* `Publishes`: a directory holds the files of a shelf, and the rest is as before.
* `publishes_prepareDirectory`, `Publishes.save`, `Publishes.saveAll`: a prepared directory
  publishes an empty shelf, and every file that is saved is put on it.
* `command_publishes`: what a successful run leaves.
-/

namespace VocabPhp

/-! ## Names of files -/

theorem isEntryName_append_php {name : String}
    (h : ∀ c ∈ name.toList, Php.isNameChar c = true) : IsEntryName (name ++ ".php") := by
  have hlong {text : String} (htext : text.length < 4) : name ++ ".php" ≠ text := by
    rintro rfl
    rw [String.length_append] at htext
    exact absurd htext (Nat.not_lt.2 (Nat.le_add_left 4 _))
  have hchars {c : Char} (hc : c ∉ ".php".toList) (hname : Php.isNameChar c = false) :
      c ∉ (name ++ ".php").toList := by
    rw [String.toList_append]
    intro hmem
    rcases List.mem_append.1 hmem with hmem | hmem
    · rw [h c hmem] at hname
      cases hname
    · exact hc hmem
  exact ⟨hlong (by decide), hlong (by decide), hlong (by decide), hchars (by decide) (by decide),
    hchars (by decide) (by decide)⟩

/-- Every file that a run writes has the name of an entry, whatever the labels of the classes
are. -/
theorem isEntryName_of_mem_files {σ ε : Type} {s : Settings} {v : Vocabulary} {sink : Sink σ ε}
    {st st' : σ} {report : Report} (h : generate s v sink st = (.ok report, st'))
    (hlead : s.safeLead.toList.all Php.isNameChar = true) {name : String}
    (hname : name ∈ report.files) : IsEntryName name := by
  have hsafe (c : ClassDecl) (ending : String)
      (hending : ending.toList.all Php.isNameChar = true) :
      IsEntryName (Php.safeName c.name s.safeLead ++ ending ++ ".php") := by
    refine isEntryName_append_php fun c hc => ?_
    rw [String.toList_append] at hc
    rcases List.mem_append.1 hc with hc | hc
    · exact Php.isNameChar_of_mem_safeName hlead hc
    · exact List.all_eq_true.1 hending c hc
  rw [files_of_ok h] at hname
  rcases List.mem_append.1 hname with hname | hname
  · obtain ⟨c, -, hname⟩ := List.mem_flatMap.1 hname
    simp only [List.mem_cons, List.not_mem_nil, or_false] at hname
    rcases hname with rfl | rfl
    · exact hsafe c "Trait" (by decide)
    · exact hsafe c "Interface" (by decide)
  · obtain ⟨c, -, rfl⟩ := List.mem_map.1 hname
    simpa using hsafe c "" (by decide)

theorem isEntryName_of_find?_shelf {s : Settings} {v : Vocabulary} {report : Report} {shelf : Shelf}
    (h : generate (ε := Empty) s v Shelf.sink ∅ = (.ok report, shelf))
    (hlead : s.safeLead.toList.all Php.isNameChar = true) {name : String}
    (hname : (shelf.find? name).isSome) : IsEntryName name := by
  obtain rfl : shelf = _ := congrArg Prod.snd (h.symm.trans (generate_shelf_eq h))
  rw [Shelf.find?_ofArtifacts, Option.isSome_map, List.find?_isSome] at hname
  obtain ⟨a, ha, heq⟩ := hname
  refine isEntryName_of_mem_files h hlead ?_
  rw [files_eq_map_offers h, ← of_decide_eq_true heq]
  exact List.mem_map_of_mem (List.mem_reverse.1 ha)

/-! ## Trees -/

namespace FileSystem

variable {fs : FileSystem} {l k : Location}

/-- Whatever there is lies in a directory. -/
def IsTree (fs : FileSystem) : Prop :=
  ∀ l name, (fs.find? (l ++ [name])).isSome → fs.find? l = some .directory

theorem isTree_of_entries
    (h : ∀ e ∈ fs.entries, fs.find? e.1.dropLast = some .directory) : fs.IsTree := by
  intro l name hthere
  obtain ⟨e, he⟩ := Option.isSome_iff_exists.1 hthere
  have hparent := h _ (mem_entries_of_find? (by simp) he)
  rwa [List.dropLast_concat] at hparent

/-- What something lies below is a directory. -/
theorem IsTree.directory_of_below (h : fs.IsTree) (hbelow : Below l k)
    (hk : (fs.find? k).isSome) : fs.find? l = some .directory := by
  obtain ⟨⟨rest, rfl⟩, hne⟩ := hbelow
  induction rest using List.reverseRecOn with
  | nil => exact absurd (List.append_nil l) hne
  | append_singleton rest name ih =>
    rw [← List.append_assoc] at hk
    have hparent := h _ name hk
    rcases rest with _ | ⟨name', rest⟩
    · rwa [List.append_nil] at hparent
    · exact ih (by rw [hparent]; rfl) (by simp)

end FileSystem

open FileSystem

/-! ## Publishing a shelf -/

/-- Where a path leads, a directory holds the files of a shelf and nothing else. Everything outside
is as before, but for directories above that were missing. -/
structure Publishes (before : FileSystem) (p : Path) (l : Location) (shelf : Shelf)
    (after : FileSystem) : Prop where
  workDir : after.workDir = before.workDir
  leads : after.locate p = .ok l
  directory : after.find? l = some .directory
  files : ∀ name, after.find? (l ++ [name]) =
    (shelf.find? name).map fun content => .file content.toUTF8
  deeper : ∀ name rest, rest ≠ [] → after.find? (l ++ name :: rest) = none
  outside : ∀ k, ¬ l <+: k → after.find? k = before.find? k ∨
    before.find? k = none ∧ after.find? k = some .directory ∧ k <+: l

variable {fs fs' fs₁ : FileSystem} {out : String} {shelf : Shelf} {a : Artifact}

theorem not_prefix_of_ne_nil {l rest : Location} (h : rest ≠ []) : ¬ l ++ rest <+: l := by
  intro hprefix
  have hlength := hprefix.length_le
  rw [List.length_append] at hlength
  have := List.length_pos_iff.2 h
  omega

/-- Making way to a directory changes nothing in it. -/
theorem MakesWay.find?_append {p : Path} (hp : p.IsNormal) (h : MakesWay p fs fs')
    {rest : Location} (hrest : rest ≠ []) :
    fs'.find? (fs.target p ++ rest) = fs.find? (fs.target p ++ rest) := by
  obtain hsame | ⟨-, -, hpasses⟩ := h.find? (fs.target p ++ rest)
  · exact hsame
  · exact absurd (hp.prefix_of_passes hpasses) (not_prefix_of_ne_nil hrest)

/-- A directory that can be made where something lies below was there, and its path led to it. -/
theorem locate_of_below {p : Path} (hp : p.IsNormal) (hne : p.chars ≠ []) (htree : fs.IsTree)
    (h : createDirectories p fs = (.ok (), fs')) {rest : Location} (hrest : rest ≠ [])
    (hthere : (fs.find? (fs.target p ++ rest)).isSome) : fs.locate p = .ok (fs.target p) := by
  have hway := createDirectories_makesWay p fs
  rw [h] at hway
  have hdirectory {k : Location} (hk : k <+: fs.target p) : fs.find? k = some .directory := by
    refine htree.directory_of_below ⟨hk.trans (List.prefix_append _ rest), ?_⟩ hthere
    intro heq
    exact not_prefix_of_ne_nil hrest (heq ▸ hk)
  -- All that could have been made was there, so the path led where it leads now.
  have hsame (k : Location) : fs'.find? k = fs.find? k := by
    obtain hsame | ⟨hfree, -, hpasses⟩ := hway.find? k
    · exact hsame
    · rw [hdirectory (hp.prefix_of_passes hpasses)] at hfree
      cases hfree
  have hextends : Extends fs' fs :=
    ⟨hway.workDir.symm, fun k hk => hsame k ▸ hk, fun k hk => hsame k ▸ hk⟩
  exact hextends.locate (locate_of_createDirectories hne h).1

/-- A directory that has been emptied and then made holds nothing. -/
theorem find?_append_of_emptied {p : Path} (hp : p.IsNormal) (hne : p.chars ≠ [])
    (htree : fs.IsTree) (hempty : emptyDirectory p fs = (.ok (), fs₁))
    (hcreate : createDirectories p fs₁ = (.ok (), fs')) {rest : Location} (hrest : rest ≠ []) :
    fs₁.find? (fs.target p ++ rest) = none := by
  cases hlocate : fs.locate p with
  | ok l =>
    obtain rfl := eq_target_of_locate hlocate
    exact (find?_emptyDirectory hempty _).1
      ⟨_, hlocate, List.prefix_append _ rest, by simpa using hrest⟩
  | error e =>
    -- Nothing was removed, so there was nothing.
    obtain rfl : fs = fs₁ := by
      simp only [emptyDirectory, hlocate] at hempty
      exact (Prod.mk.inj hempty).2
    by_contra hthere
    have hfound := locate_of_below hp hne htree hcreate hrest (Option.isSome_iff_ne_none.2 hthere)
    rw [hfound] at hlocate
    cases hlocate

/-- A prepared directory publishes an empty shelf. -/
theorem publishes_prepareDirectory (htree : fs.IsTree) (hp : (Path.ofText out).IsNormal)
    (h : prepareDirectory (Path.ofText out) fs = (.ok (), fs')) :
    Publishes fs (Path.ofText out) (fs.target (Path.ofText out)) ∅ fs' := by
  unfold prepareDirectory at h
  split at h
  · cases h
  · next fs₁ hempty =>
    split at h
    · cases h
    · next fs₂ hcreate =>
      cases h
      have hway := createDirectories_makesWay (Path.ofText out) fs₁
      rw [hcreate] at hway
      have hwork := workDir_emptyDirectory hempty
      have htarget := target_eq_of_workDir hwork (Path.ofText out)
      obtain ⟨hleads, hdirectory⟩ := locate_of_createDirectories hp.chars_ne_nil hcreate
      rw [htarget] at hleads hdirectory
      have hbelow {rest : Location} (hrest : rest ≠ []) :
          fs'.find? (fs.target (Path.ofText out) ++ rest) = none := by
        have hsame := hway.find?_append hp hrest
        rw [htarget] at hsame
        rw [hsame]
        exact find?_append_of_emptied hp hp.chars_ne_nil htree hempty hcreate hrest
      refine ⟨hway.workDir.trans hwork, hleads, hdirectory, fun name => hbelow (by simp),
        fun name rest _ => hbelow (by simp), fun k hk => ?_⟩
      have hkept : fs₁.find? k = fs.find? k := by
        refine (find?_emptyDirectory hempty k).2 ?_
        rintro ⟨l, hlocate, hbelow, -⟩
        exact hk (eq_target_of_locate hlocate ▸ hbelow)
      rw [← hkept, ← htarget]
      rcases hway.find? k with hsame | ⟨hfree, hmade, hpasses⟩
      · exact .inl hsame
      · exact .inr ⟨hfree, hmade, hp.prefix_of_passes hpasses⟩

namespace Publishes

variable {p : Path} {l : Location} {name content : String}

/-- Making way to the directory changes nothing that matters. -/
theorem of_makesWay (h : Publishes fs p l shelf fs₁) (hp : p.IsNormal)
    (hway : MakesWay p fs₁ fs') : Publishes fs p l shelf fs' := by
  obtain rfl := eq_target_of_locate h.leads
  have hextends := hway.toExtends
  refine ⟨hway.workDir.trans h.workDir, hextends.locate h.leads,
    hextends.directory _ h.directory, fun name => ?_, fun name rest hrest => ?_, fun k hk => ?_⟩
  · rw [hway.find?_append hp (by simp), h.files]
  · rw [hway.find?_append hp (by simp), h.deeper name rest hrest]
  · obtain hsame | ⟨hfree, hmade, hpasses⟩ := hway.find? k
    · rw [hsame]
      exact h.outside k hk
    · obtain hkept | ⟨-, hthere, -⟩ := h.outside k hk
      · exact .inr ⟨hkept ▸ hfree, hmade, hp.prefix_of_passes hpasses⟩
      · rw [hthere] at hfree
        cases hfree

/-- A file written into the directory is put on the shelf. -/
theorem put (h : Publishes fs p l shelf fs₁) (name content : String) :
    Publishes fs p l (shelf.insert name content)
      (fs₁.put (l ++ [name]) (.file content.toUTF8)) := by
  have hfind := find?_put fs₁ (l := l ++ [name]) (by simp) (.file content.toUTF8)
  have hapart {k : Location} (hk : k ≠ l ++ [name]) :
      (fs₁.put (l ++ [name]) (.file content.toUTF8)).find? k = fs₁.find? k := by
    rw [hfind, if_neg hk]
  have hextends : Extends fs₁ (fs₁.put (l ++ [name]) (.file content.toUTF8)) := by
    refine ⟨rfl, fun k hk => ?_, fun k hk => ?_⟩
    · refine (hapart ?_).trans hk
      rintro rfl
      rw [h.files name] at hk
      obtain ⟨_, -, hfile⟩ := Option.map_eq_some_iff.1 hk
      cases hfile
    · rw [hfind]
      split
      · rfl
      · exact hk
  refine ⟨h.workDir, hextends.locate h.leads, hextends.directory _ h.directory, fun name' => ?_,
    fun name' rest hrest => ?_, fun k hk => ?_⟩
  · rw [hfind, Table.find?_insert]
    by_cases heq : name = name'
    · rw [if_pos (by rw [heq]), if_pos heq]
      rfl
    · rw [if_neg (by simpa using Ne.symm heq), if_neg heq, h.files]
  · rw [hapart (by simp [hrest]), h.deeper name' rest hrest]
  · rw [hapart]
    · exact h.outside k hk
    · rintro rfl
      exact hk (List.prefix_append l [name])

/-- A file that is saved is put on the shelf. -/
theorem save (h : Publishes fs (Path.ofText out) l shelf fs₁) (hp : (Path.ofText out).IsNormal)
    (ha : IsEntryName a.name)
    (hsave : directorySink (Path.ofText out) a fs₁ = (.ok (), fs')) :
    Publishes fs (Path.ofText out) l (shelf.insert a.name a.content) fs' := by
  unfold directorySink writeFile at hsave
  split at hsave
  · cases hsave
  · next fs₂ hparent =>
    have hway := createDirectories_makesWay (Path.ofText out) fs₁
    unfold createParent at hparent
    simp only [hp.parent?_join ha] at hparent
    split at hparent
    · cases hparent
    · next fs₃ hcreate =>
      cases hparent
      rw [hcreate] at hway
      have hmade := h.of_makesWay hp hway
      split at hsave
      · next hwrite =>
        cases hsave
        obtain rfl := eq_put_of_writeBytes hwrite
        rw [hp.target_join ha, ← eq_target_of_locate hmade.leads]
        exact hmade.put a.name a.content
      · cases hsave

/-- Files that are saved are put on the shelf, one after the other. -/
theorem saveAll {files : List Artifact} (h : Publishes fs (Path.ofText out) l shelf fs₁)
    (hp : (Path.ofText out).IsNormal) (hfiles : ∀ a ∈ files, IsEntryName a.name)
    (hsave : saveAll (directorySink (Path.ofText out)) files fs₁ = (.ok (), fs')) :
    Publishes fs (Path.ofText out) l
      (files.foldl (fun t a => t.insert a.name a.content) shelf) fs' := by
  induction files generalizing fs₁ shelf with
  | nil =>
    cases hsave
    exact h
  | cons a files ih =>
    rw [VocabPhp.saveAll] at hsave
    split at hsave
    · cases hsave
    · next fs₂ ha =>
      exact ih (h.save hp (hfiles a List.mem_cons_self) ha)
        (fun b hb => hfiles b (List.mem_cons_of_mem a hb)) hsave

end Publishes

/-! ## Runs -/

/-- A run into a directory that succeeds leaves it with the files that it would put on an empty
shelf. -/
theorem publishes_generateInto {s : Settings} {v : Vocabulary} {report : Report} {net : Network}
    (htree : fs.IsTree) (hp : (Path.ofText out).IsNormal)
    (hlead : s.safeLead.toList.all Php.isNameChar = true)
    (h : generateInto s v (Path.ofText out) false fs net = (.ok report, fs')) :
    ∃ shelf, generate (ε := Empty) s v Shelf.sink ∅ = (.ok report, shelf) ∧
      Publishes fs (Path.ofText out) (fs.target (Path.ofText out)) shelf fs' := by
  unfold generateInto at h
  split at h
  · cases h
  · next fs₁ hprepare =>
    rw [addTree_of_not_wanted] at h
    dsimp only at h
    split at h
    · cases h
    · next report fs₂ hrun =>
      cases h
      obtain ⟨plan, hplan, hsave, rfl⟩ := (generate_eq_ok_iff ..).1 hrun
      have hnames : ∀ a ∈ plan.artifacts, IsEntryName a.name := fun a ha =>
        isEntryName_of_mem_files hrun hlead (List.mem_map_of_mem ha)
      refine ⟨_, (generate_eq_ok_iff ..).2 ⟨plan, hplan, saveAll_shelf _ _, rfl⟩, ?_⟩
      exact (publishes_prepareDirectory htree hp hprepare).saveAll hp hnames hsave

theorem execute_eq_ok {a : Arguments} {net : Network} {report : Report}
    (h : execute a fs net = (.ok report, fs')) : ∃ text v,
      loadSource a.source fs net = .ok text ∧
      vocabularyOfText (a.runSettings net) text = .ok v ∧
      generateInto (a.runSettings net) v a.outputPath a.fetchTree fs net = (.ok report, fs') := by
  by_cases hloads : ∃ v, a.Loads fs net v
  · obtain ⟨v, hv⟩ := hloads
    obtain ⟨text, hsource, htext⟩ := id hv
    exact ⟨text, v, hsource, htext, execute_of_loads hv ▸ h⟩
  · obtain ⟨e, -, hfail⟩ := execute_of_not_loads (not_exists.1 hloads)
    rw [hfail] at h
    cases h

theorem command_of_execute_ok {args : List String} {a : Arguments} {net : Network} {report : Report}
    (hargs : Arguments.parse args = .ok a) (h : execute a fs net = (.ok report, fs')) :
    command args fs net = (.done, fs') := by
  simp [command, hargs, h]

namespace Arguments

/-- An argument that does not begin with a hyphen is a position. -/
theorem read_position {g : Given} {arg : String} (h : arg.toList.head? ≠ some '-')
    (rest : List String) : g.read (arg :: rest) = match g.position arg with
      | .error e => .error e
      | .ok g => g.read rest := by
  rw [Given.read]
  split
  · next heq => simp [heq] at h
  · next heq => simp [heq] at h
  · next heq => simp [heq] at h
  · rfl

/-- The last option of a command line gives the label of the release. -/
theorem read_release {g : Given} {r : String} (hr : r.toList.head? ≠ some '-')
    (hg : g.release = none) : g.read ["--release", r] = .ok { g with release := some r } := by
  have hchars : "--release".toList = ['-', '-', 'r', 'e', 'l', 'e', 'a', 's', 'e'] := by decide
  have hoption : Given.splitOption ['r', 'e', 'l', 'e', 'a', 's', 'e'] = ("release", none) := by
    decide
  have hwaits : g.longOption "release" none = .ok (.waits .label) := rfl
  have hvalue : Given.ownValue [r] = .ok (r, []) := by
    rw [Given.ownValue, if_neg fun h => hr h.1]
  rw [Given.read]
  simp only [hchars, hoption, hwaits]
  unfold Given.withOwnValue
  split
  · next h =>
    rw [hvalue] at h
    cases h
  · next h =>
    rw [hvalue] at h
    cases h
    simp only [Given.take, Given.label, hg, Option.isSome_none, Bool.false_eq_true, if_false]
    rw [Given.read]

/-- The arguments of a run for a release. -/
def forRelease (source out r : String) : Arguments where
  source := source
  outputDir := out
  skipSuperseded := false
  dialect := .craft3
  release := some r
  fetchTree := false

theorem parse_forRelease {source out r : String}
    (hargs : ∀ arg ∈ [source, out, r], arg.toList.head? ≠ some '-') (hout : out ≠ "") :
    parse [source, out, "--release", r] = .ok (forRelease source out r) := by
  have hsource := hargs source (by simp)
  have hdir := hargs out (by simp)
  have hr := hargs r (by simp)
  rw [parse, read_position hsource]
  simp only [Given.position]
  rw [read_position hdir]
  simp only [Given.position, if_neg hout]
  rw [read_release hr rfl]
  rfl

end Arguments

/-- What a run leaves that is called with a source, a directory and the label of a release, and that
succeeds. The source is a vocabulary that can be generated, and the directory holds the files that
it has with the settings for this release, each as an entry of the directory itself, and nothing
else. The rest of the file system is as it was, apart from missing directories above. Of the network
at most the source is fetched. -/
theorem command_publishes {source r : String} {net : Network} {outcome : Outcome}
    (htree : fs.IsTree)
    (hargs : ∀ arg ∈ [source, out, r], arg.toList.head? ≠ some '-')
    (hout : (Path.ofText out).IsNormal)
    (h : command [source, out, "--release", r] fs net = (outcome, fs'))
    (hcode : outcome.code = 0) :
    ∃ text v report shelf l, loadSource source fs net = .ok text ∧
      vocabularyOfText { release := r } text = .ok v ∧
      generate (ε := Empty) { release := r } v Shelf.sink ∅ = (.ok report, shelf) ∧
      (∀ name, (shelf.find? name).isSome → IsEntryName name) ∧
      Publishes fs (Path.ofText out) l shelf fs' := by
  have hne : out ≠ "" := by
    rintro rfl
    exact hout.nonempty rfl
  have hlead : ({ release := r } : Settings).safeLead.toList.all Php.isNameChar = true := by
    show "Schema".toList.all Php.isNameChar = true
    decide
  rw [command, Arguments.parse_forRelease hargs hne] at h
  dsimp only at h
  split at h
  · cases h
    cases hcode
  · next report fs₁ hexecute =>
    cases h
    obtain ⟨text, v, hsource, htext, hrun⟩ := execute_eq_ok hexecute
    obtain ⟨shelf, hshelf, hpublishes⟩ := publishes_generateInto htree hout hlead hrun
    exact ⟨text, v, report, shelf, _, hsource, htext, hshelf,
      fun name => isEntryName_of_find?_shelf hshelf hlead, hpublishes⟩

/-! ### Labels that look like paths -/

/-- Two classes whose labels are no names: one climbs, and one hides and holds a backslash and the
null character. -/
def pathlikeText : String :=
  "\x7b\"@graph\": [\x7b\"@id\": \"schema:First\", \"@type\": \"rdfs:Class\", " ++
    "\"rdfs:label\": \"../up\"\x7d, \x7b\"@id\": \"schema:Second\", " ++
    "\"@type\": \"rdfs:Class\", \"rdfs:label\": \".\\\\\\u0000\"\x7d]\x7d"

/-- The vocabulary of these classes. -/
def pathlikeLabels : Vocabulary := labelPair "../up" ".\\\x00"

/-- The plan for these classes. -/
def pathlikePlan : Plan :=
  .ofModels { release := "r" } pathlikeLabels
    (((pathlikeLabels.selected { release := "r" }).namespaced { release := "r" }).map fun c =>
      .resolve { release := "r" } c [c.name]
        ((pathlikeLabels.selected { release := "r" }).fieldSets { release := "r" }))

/-- A run on these labels fills the directory with six files, in place of the one that was there. -/
theorem command_publishes_pathlike : ∃ fs' report shelf l,
    command ["v.json", "out", "--release", "r"] (publishedDisk pathlikeText) = (.done, fs') ∧
      generate (ε := Empty) { release := "r" } pathlikeLabels Shelf.sink ∅ = (.ok report, shelf) ∧
      report.files = ["Schema___upTrait.php", "Schema___upInterface.php", "Schema___Trait.php",
        "Schema___Interface.php", "Schema___up.php", "Schema___.php"] ∧
      Publishes (publishedDisk pathlikeText) (Path.ofText "out") l shelf fs' := by
  have hsource : loadSource "v.json" (publishedDisk pathlikeText) = .ok pathlikeText :=
    eq_ok_of_toOption (by decide +kernel)
  have htext : vocabularyOfText { release := "r" } pathlikeText = .ok pathlikeLabels :=
    eq_ok_of_toOption (by decide +kernel)
  have hplan : Plan.ofVocabulary { release := "r" } pathlikeLabels = .ok pathlikePlan :=
    Plan.ofVocabulary_of_parentless (by decide +kernel)
  obtain ⟨fs₁, hprepare, hsaved⟩ : ∃ fs₁,
      prepareDirectory (Path.ofText "out") (publishedDisk pathlikeText) = (.ok (), fs₁) ∧
        (saveAll (directorySink (Path.ofText "out")) pathlikePlan.artifacts fs₁).1.toOption =
          some () :=
    ⟨(prepareDirectory (Path.ofText "out") (publishedDisk pathlikeText)).2,
      Prod.ext (eq_ok_of_toOption (by decide +kernel)) rfl, by decide +kernel⟩
  obtain ⟨report, fs', hrun⟩ : ∃ report fs', generate { release := "r" } pathlikeLabels
      (directorySink (Path.ofText "out")) fs₁ = (.ok report, fs') :=
    ⟨_, _, (generate_eq_ok_iff ..).2 ⟨_, hplan, Prod.ext (eq_ok_of_toOption hsaved) rfl, rfl⟩⟩
  have hinto : generateInto { release := "r" } pathlikeLabels (Path.ofText "out") false
      (publishedDisk pathlikeText) Network.unreachable = (.ok report, fs') := by
    rw [generateInto, hprepare]
    simp only [addTree_of_not_wanted, hrun]
  have hloads : releasedArguments.Loads (publishedDisk pathlikeText) Network.unreachable
      pathlikeLabels := ⟨pathlikeText, hsource, htext⟩
  have hexecute : execute releasedArguments (publishedDisk pathlikeText) Network.unreachable =
      (.ok report, fs') := (execute_of_loads hloads).trans hinto
  have hcommand : command ["v.json", "out", "--release", "r"] (publishedDisk pathlikeText) =
      (.done, fs') := command_of_execute_ok parse_releasedArguments hexecute
  have htree : (publishedDisk pathlikeText).IsTree := isTree_of_entries (by decide +kernel)
  have hnormal : (Path.ofText "out").IsNormal := by
    constructor <;> decide
  obtain ⟨text, v, report, shelf, l, hsource', htext', hshelf, -, hpublishes⟩ :=
    command_publishes htree (by decide) hnormal hcommand rfl
  obtain rfl := Except.ok.inj (hsource.symm.trans hsource')
  obtain rfl := Except.ok.inj (htext.symm.trans htext')
  exact ⟨fs', report, shelf, l, hcommand, hshelf, (files_of_ok hshelf).trans (by decide +kernel),
    hpublishes⟩

end VocabPhp
