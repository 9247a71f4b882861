import VocabPhp.CommandLine.Run
import VocabPhp.Proofs.Cycles
import VocabPhp.Proofs.Emptying

/-!
# Runs that fail by their vocabulary

A vocabulary is at fault if it cannot be read, if it is no document or has a node that cannot be
classified, or if its hierarchy is cyclic. All but the last are found before the output directory is
prepared. A cycle is found when the files are about to be saved, and then the directory has been
emptied, and the tree document has been put next to it if that was asked for.

* `Failure.OfVocabulary`: the failures that are the vocabulary's fault.
* `Arguments.Loads`: the vocabulary that a run reads.
* `Arguments.Prepares`, `Arguments.Adds`: what a run does before it generates.
* `Arguments.Prepares.find?_file_iff`, `Arguments.Prepares.files_iff`: the files that are left then.
* `execute_of_not_loads`: without a vocabulary, nothing changes.
* `Plan.exists_ofVocabulary_eq_error_iff`: a plan fails exactly by a cycle.
* `generateInto_eq_error_iff`: a cycle is reported after the directory has been prepared.
* `command_fails_by_vocabulary`: what a failed run leaves.
-/

namespace VocabPhp

variable {a : Arguments} {fs fs' fs₁ : FileSystem} {net : Network} {v : Vocabulary} {e : Failure}
  {k : Location} {bytes : ByteArray}

/-- The failures that are the vocabulary's fault. -/
def Failure.OfVocabulary : Failure → Prop
  | source _ | document _ | nodes _ | generation (.cycle _) => True
  | prepare _ | tree _ | generation (.save _ _) => False

namespace Arguments

/-- The settings of a run. -/
def runSettings (a : Arguments) (net : Network) : Settings := a.settings (a.releaseLabel net)

/-- The output directory of a run. -/
def outputPath (a : Arguments) : Path := Path.ofText a.outputDir

/-- A run reads a vocabulary. -/
def Loads (a : Arguments) (fs : FileSystem) (net : Network) (v : Vocabulary) : Prop :=
  ∃ text, loadSource a.source fs net = .ok text ∧
    vocabularyOfText (a.runSettings net) text = .ok v

/-- A vocabulary is cyclic for a run: the classes that it shows are. -/
def Cyclic (a : Arguments) (net : Network) (v : Vocabulary) : Prop :=
  ((v.selected (a.runSettings net)).hierarchy (a.runSettings net)).Cyclic

/-- A run prepares its output directory, and puts the tree document next to it if that is asked
for. -/
def Prepares (a : Arguments) (fs : FileSystem) (net : Network) (fs' : FileSystem) : Prop :=
  ∃ fs₁, prepareDirectory a.outputPath fs = (.ok (), fs₁) ∧
    addTree a.fetchTree a.outputPath fs₁ net = (.ok (), fs')

/-- A run adds a file at a location: the tree document, if that is asked for. -/
def Adds (a : Arguments) (fs : FileSystem) (net : Network) (k : Location) (bytes : ByteArray) :
    Prop :=
  a.fetchTree = true ∧ k = fs.target (treePath a.outputPath) ∧
    ∃ text, fetchText treeUrl net = .ok text ∧ bytes = text.toUTF8

end Arguments

/-! ## Before the files are generated -/

theorem addTree_of_not_wanted (dir : Path) (fs : FileSystem) (net : Network) :
    addTree false dir fs net = (.ok (), fs) := rfl

theorem addTree_of_wanted {dir : Path} (h : addTree true dir fs net = (.ok (), fs')) :
    ∃ text, fetchText treeUrl net = .ok text ∧
      WritesFile (treePath dir) text.toUTF8 fs fs' := by
  unfold addTree fetchTree at h
  rw [if_pos rfl] at h
  cases hfetch : fetchText treeUrl net with
  | error e => simp [hfetch] at h
  | ok text =>
    simp only [hfetch] at h
    rcases hwrite : writeFile (treePath dir) text fs with ⟨e | _, fs₁⟩
    · simp [hwrite] at h
    · simp only [hwrite] at h
      cases h
      exact ⟨text, rfl, writeFile_writesFile hwrite⟩

namespace Arguments

namespace Prepares

/-- Without the tree document there is only the directory. -/
theorem of_not_wanted (h : a.Prepares fs net fs') (hwanted : a.fetchTree = false) :
    prepareDirectory a.outputPath fs = (.ok (), fs') := by
  obtain ⟨fs₁, hprepare, htree⟩ := h
  rw [hwanted, addTree_of_not_wanted] at htree
  cases htree
  exact hprepare

/-- The tree document is written where its path leads, after the directory has been prepared. -/
theorem of_wanted (h : a.Prepares fs net fs') (hwanted : a.fetchTree = true) :
    ∃ fs₁ text, prepareDirectory a.outputPath fs = (.ok (), fs₁) ∧
      fetchText treeUrl net = .ok text ∧
      fs₁.target (treePath a.outputPath) = fs.target (treePath a.outputPath) ∧
      WritesFile (treePath a.outputPath) text.toUTF8 fs₁ fs' := by
  obtain ⟨fs₁, hprepare, htree⟩ := h
  rw [hwanted] at htree
  obtain ⟨text, htext, hwrites⟩ := addTree_of_wanted htree
  exact ⟨fs₁, text, hprepare, htext,
    FileSystem.target_eq_of_workDir (workDir_prepareDirectory hprepare) _, hwrites⟩

theorem exists_adds (h : a.Prepares fs net fs') (hwanted : a.fetchTree = true) :
    ∃ k bytes, a.Adds fs net k bytes := by
  obtain ⟨-, text, -, htext, -⟩ := h.of_wanted hwanted
  exact ⟨_, _, hwanted, rfl, text, htext, rfl⟩

/-- The file that a run adds is there. -/
theorem find?_of_adds (h : a.Prepares fs net fs') (hk : a.Adds fs net k bytes) :
    fs'.find? k = some (.file bytes) := by
  obtain ⟨hwanted, rfl, text, htext, rfl⟩ := hk
  obtain ⟨fs₁, text', -, htext', htarget, hwrites⟩ := h.of_wanted hwanted
  obtain rfl := Except.ok.inj (htext.symm.trans htext')
  rw [← htarget]
  exact hwrites.file

/-- Anywhere else, what the directory held is gone, and apart from directories that were made the
rest is as it was. -/
theorem find?_of_not_adds (h : a.Prepares fs net fs') (hk : ∀ bytes, ¬ a.Adds fs net k bytes) :
    (fs.Holds a.outputPath k → fs'.find? k = none ∨ fs'.find? k = some .directory) ∧
      (¬ fs.Holds a.outputPath k → fs'.find? k = fs.find? k ∨
        fs.find? k = none ∧ fs'.find? k = some .directory) := by
  cases hwanted : a.fetchTree with
  | false => exact find?_prepareDirectory (h.of_not_wanted hwanted) k
  | true =>
    obtain ⟨fs₁, text, hprepare, htext, htarget, hwrites⟩ := h.of_wanted hwanted
    have hne : k ≠ fs₁.target (treePath a.outputPath) := fun heq =>
      hk _ ⟨hwanted, heq.trans htarget, text, htext, rfl⟩
    obtain ⟨hbelow, helse⟩ := find?_prepareDirectory hprepare k
    obtain hsame | ⟨hfree, hmade, -⟩ := hwrites.find? k hne
    · rw [hsame]
      exact ⟨hbelow, helse⟩
    · refine ⟨fun _ => .inr hmade, fun hheld => ?_⟩
      -- Where nothing is now, nothing was before, since the directory did not hold it.
      obtain hkept | ⟨-, hthere⟩ := helse hheld
      · exact .inr ⟨hkept ▸ hfree, hmade⟩
      · rw [hfree] at hthere
        cases hthere

/-- The files that are there then: the one that was added, and those outside of the directory that
were there before. -/
theorem find?_file_iff (h : a.Prepares fs net fs') (k : Location) (bytes : ByteArray) :
    fs'.find? k = some (.file bytes) ↔ a.Adds fs net k bytes ∨
      (∀ bytes', ¬ a.Adds fs net k bytes') ∧ fs.find? k = some (.file bytes) ∧
        ¬ fs.Holds a.outputPath k := by
  by_cases hadds : ∃ bytes', a.Adds fs net k bytes'
  · obtain ⟨bytes', hadds⟩ := hadds
    have hadded := h.find?_of_adds hadds
    constructor
    · intro hfile
      cases hadded.symm.trans hfile
      exact .inl hadds
    · rintro (hadds' | ⟨hnone, -⟩)
      · exact h.find?_of_adds hadds'
      · exact absurd hadds (hnone bytes')
  · have hnone := not_exists.1 hadds
    obtain ⟨hgone, helse⟩ := h.find?_of_not_adds hnone
    rw [find?_file_iff_of_emptied hgone helse]
    exact ⟨fun hfile => .inr ⟨hnone, hfile⟩, Or.rec (absurd · (hnone bytes)) And.right⟩

/-- All files are as they were exactly if the directory held none and the tree document was there
already. -/
theorem files_iff (h : a.Prepares fs net fs') :
    (∀ k bytes, fs'.find? k = some (.file bytes) ↔ fs.find? k = some (.file bytes)) ↔
      (∀ k bytes, fs.find? k = some (.file bytes) → fs.Holds a.outputPath k →
        a.Adds fs net k bytes) ∧
      ∀ k bytes, a.Adds fs net k bytes → fs.find? k = some (.file bytes) := by
  simp only [h.find?_file_iff]
  constructor
  · intro hkept
    refine ⟨fun k bytes hfile hheld => ?_, fun k bytes hadds => (hkept k bytes).1 (.inl hadds)⟩
    obtain hadds | ⟨-, -, hnot⟩ := (hkept k bytes).2 hfile
    · exact hadds
    · exact absurd hheld hnot
  · rintro ⟨hheld, hadded⟩ k bytes
    constructor
    · rintro (hadds | ⟨-, hfile, -⟩)
      · exact hadded k bytes hadds
      · exact hfile
    · intro hfile
      by_cases hadds : ∃ bytes', a.Adds fs net k bytes'
      · obtain ⟨bytes', hadds⟩ := hadds
        cases hfile.symm.trans (hadded k bytes' hadds)
        exact .inl hadds
      · exact .inr ⟨not_exists.1 hadds, hfile, fun hk => hadds ⟨bytes, hheld k bytes hfile hk⟩⟩

/-- Nothing changes if the directory is there and holds nothing, and the tree document can be read
where it is put. -/
theorem find?_of_empty {l : Location} (h : a.Prepares fs net fs')
    (hlocate : fs.locate a.outputPath = .ok l) (hempty : ∀ k, Below l k → fs.find? k = none)
    (hread : ∀ k bytes, a.Adds fs net k bytes → fs.readBytes (treePath a.outputPath) = .ok bytes) :
    (a.fetchTree = false → fs' = fs) ∧ ∀ k, fs'.find? k = fs.find? k := by
  have hsame := prepareDirectory_of_empty hlocate hempty
  cases hwanted : a.fetchTree with
  | false =>
    rw [h.of_not_wanted hwanted] at hsame
    subst hsame
    exact ⟨fun _ => rfl, fun _ => rfl⟩
  | true =>
    refine ⟨nofun, fun k => ?_⟩
    obtain ⟨fs₁, text, hprepare, htext, -, hwrites⟩ := h.of_wanted hwanted
    rw [hprepare] at hsame
    subst hsame
    have hbefore := hread _ _ ⟨hwanted, rfl, text, htext, rfl⟩
    by_cases hk : k = fs₁.target (treePath a.outputPath)
    · rw [hk, hwrites.file, (FileSystem.find?_of_readBytes hbefore).2]
    · exact hwrites.find?_of_readBytes hbefore hk

end Prepares

end Arguments

/-! ## Runs -/

/-- A local source has the same text on every network. -/
theorem loadSource_of_local {source : String} (h : isRemote source = false) (fs : FileSystem)
    (net : Network) : loadSource source fs net = loadSource source fs := by
  simp [loadSource, h]

theorem vocabularyOfText_ofVocabulary {s : Settings} {text : String}
    (h : vocabularyOfText s text = .error e) : e.OfVocabulary := by
  unfold vocabularyOfText at h
  split at h
  · cases h
  · cases h
    trivial
  · cases h
    trivial

/-- A run without a vocabulary fails by it and changes nothing. -/
theorem execute_of_not_loads (h : ∀ v, ¬ a.Loads fs net v) :
    ∃ e, e.OfVocabulary ∧ execute a fs net = (.error e, fs) := by
  unfold execute
  cases hsource : loadSource a.source fs net with
  | error e => exact ⟨.source e, trivial, rfl⟩
  | ok text =>
    cases htext : vocabularyOfText (a.runSettings net) text with
    | error e =>
      have hfault := vocabularyOfText_ofVocabulary htext
      unfold Arguments.runSettings at htext
      exact ⟨e, hfault, by simp only [htext]⟩
    | ok v => exact absurd ⟨text, hsource, htext⟩ (h v)

theorem execute_of_loads (h : a.Loads fs net v) : execute a fs net =
    generateInto (a.runSettings net) v a.outputPath a.fetchTree fs net := by
  obtain ⟨text, hsource, htext⟩ := h
  unfold execute
  rw [hsource]
  unfold Arguments.runSettings at htext
  simp only [htext]
  rfl

/-- There is no plan for a vocabulary exactly if it is cyclic. -/
theorem Plan.exists_ofVocabulary_eq_error_iff (s : Settings) (v : Vocabulary) :
    (∃ cycle, Plan.ofVocabulary s v = .error cycle) ↔ ((v.selected s).hierarchy s).Cyclic := by
  constructor
  · rintro ⟨cycle, hplan⟩
    obtain ⟨-, c, -, -, -, hcycle⟩ := (Plan.ofVocabulary_eq_error_iff s v cycle).1 hplan
    obtain ⟨n, -, hn⟩ := (Hierarchy.exists_ancestors_error_iff c.name).1 ⟨cycle, hcycle⟩
    exact ⟨n, hn⟩
  · intro hcyclic
    obtain ⟨c, hc, hreach⟩ := Vocabulary.exists_reachesCycle_of_cyclic hcyclic
    cases hplan : Plan.ofVocabulary s v with
    | error cycle => exact ⟨cycle, rfl⟩
    | ok plan =>
      -- A plan would have walked from all classes, this one included.
      have hnames := (Plan.exists_ofVocabulary_iff s v).1 ⟨plan, hplan⟩ c hc
      exact absurd hreach ((Hierarchy.exists_ancestors_ok_iff c.name).1 hnames)

/-- The only failure after the directory has been prepared that is the vocabulary's fault. -/
theorem generateInto_eq_error_iff {s : Settings} {dir : Path} {treeWanted : Bool}
    (he : e.OfVocabulary) : generateInto s v dir treeWanted fs net = (.error e, fs') ↔
      (∃ fs₁, prepareDirectory dir fs = (.ok (), fs₁) ∧
        addTree treeWanted dir fs₁ net = (.ok (), fs')) ∧
      ∃ cycle, Plan.ofVocabulary s v = .error cycle ∧ e = .generation (.cycle cycle) := by
  unfold generateInto
  rcases prepareDirectory dir fs with ⟨fault | _, fs₁⟩
  · constructor
    · intro h
      cases h
      exact he.elim
    · rintro ⟨⟨_, ⟨⟩, -⟩, -⟩
  · rcases htree : addTree treeWanted dir fs₁ net with ⟨fault | _, fs₂⟩
    · constructor
      · intro h
        simp only [htree] at h
        cases h
        exact he.elim
      · rintro ⟨⟨_, ⟨⟩, hadded⟩, -⟩
        rw [htree] at hadded
        cases hadded
    · cases hplan : Plan.ofVocabulary s v with
      | error cycle =>
        obtain ⟨hrun, -⟩ := generate_of_plan_error hplan (directorySink dir) fs₂
        simp [hrun, htree, and_comm, eq_comm]
      | ok plan =>
        constructor
        · intro h
          simp only [htree] at h
          split at h
          · next fault _ hrun =>
            cases h
            cases fault with
            | cycle cycle =>
              exact absurd (congrArg Prod.fst hrun) (generate_ne_cycle hplan _ fs₂ cycle)
            | save _ _ => exact he.elim
          · cases h
        · rintro ⟨-, _, ⟨⟩, -⟩

/-- A run with a vocabulary fails by it only if that is cyclic, and after the output directory has
been prepared. -/
theorem execute_eq_error_iff (hv : a.Loads fs net v) (he : e.OfVocabulary) :
    execute a fs net = (.error e, fs') ↔ a.Prepares fs net fs' ∧
      ∃ cycle, Plan.ofVocabulary (a.runSettings net) v = .error cycle ∧
        e = .generation (.cycle cycle) := by
  rw [execute_of_loads hv]
  exact generateInto_eq_error_iff he

theorem command_of_execute_error {args : List String} (hargs : Arguments.parse args = .ok a)
    (h : execute a fs net = (.error e, fs')) : command args fs net = (.failed e.line, fs') := by
  simp [command, hargs, h]

/-- A run without a vocabulary fails, and everything is as it was. A run with a vocabulary fails by
it exactly if that is cyclic and the output directory could be prepared, with the tree document next
to it if that is asked for. Then this document is there. Elsewhere, what the directory held is gone,
and apart from directories that were made the rest is as it was. So the files are kept exactly if
none lay below the output directory and the tree document was there already, and everything is as it
was if besides the output directory was an empty one. -/
theorem command_fails_by_vocabulary {args : List String} (hargs : Arguments.parse args = .ok a)
    (fs : FileSystem) (net : Network) :
    ((∀ v, ¬ a.Loads fs net v) → ∃ e, e.OfVocabulary ∧ execute a fs net = (.error e, fs) ∧
      command args fs net = (.failed e.line, fs)) ∧
    ∀ v, a.Loads fs net v →
      (∀ fs', (∃ e, e.OfVocabulary ∧ execute a fs net = (.error e, fs')) ↔
        a.Cyclic net v ∧ a.Prepares fs net fs') ∧
      ∀ e fs', e.OfVocabulary → execute a fs net = (.error e, fs') →
        command args fs net = (.failed e.line, fs') ∧
        (∃ cycle, e = .generation (.cycle cycle)) ∧
        (a.fetchTree = true → ∃ k bytes, a.Adds fs net k bytes) ∧
        (∀ k bytes, a.Adds fs net k bytes → fs'.find? k = some (.file bytes)) ∧
        (∀ k, (∀ bytes, ¬ a.Adds fs net k bytes) →
          (fs.Holds a.outputPath k → fs'.find? k = none ∨ fs'.find? k = some .directory) ∧
          (¬ fs.Holds a.outputPath k → fs'.find? k = fs.find? k ∨
            fs.find? k = none ∧ fs'.find? k = some .directory)) ∧
        ((∀ k bytes, fs'.find? k = some (.file bytes) ↔ fs.find? k = some (.file bytes)) ↔
          (∀ k bytes, fs.find? k = some (.file bytes) → fs.Holds a.outputPath k →
            a.Adds fs net k bytes) ∧
          ∀ k bytes, a.Adds fs net k bytes → fs.find? k = some (.file bytes)) ∧
        ((∃ l, fs.locate a.outputPath = .ok l ∧ ∀ k, Below l k → fs.find? k = none) →
          (∀ k bytes, a.Adds fs net k bytes →
            fs.readBytes (treePath a.outputPath) = .ok bytes) →
          (a.fetchTree = false → fs' = fs) ∧ ∀ k, fs'.find? k = fs.find? k) := by
  constructor
  · intro hnone
    obtain ⟨e, he, hrun⟩ := execute_of_not_loads hnone
    exact ⟨e, he, hrun, command_of_execute_error hargs hrun⟩
  · intro v hv
    have hcyclic := Plan.exists_ofVocabulary_eq_error_iff (a.runSettings net) v
    constructor
    · intro fs'
      constructor
      · rintro ⟨e, he, hrun⟩
        obtain ⟨hprepares, cycle, hplan, -⟩ := (execute_eq_error_iff hv he).1 hrun
        exact ⟨hcyclic.1 ⟨cycle, hplan⟩, hprepares⟩
      · rintro ⟨hcycle, hprepares⟩
        obtain ⟨cycle, hplan⟩ := hcyclic.2 hcycle
        have he : (Failure.generation (.cycle cycle)).OfVocabulary := trivial
        exact ⟨_, he, (execute_eq_error_iff hv he).2 ⟨hprepares, cycle, hplan, rfl⟩⟩
    · intro e fs' he hrun
      obtain ⟨hprepares, cycle, -, hcycle⟩ := (execute_eq_error_iff hv he).1 hrun
      exact ⟨command_of_execute_error hargs hrun, ⟨cycle, hcycle⟩, hprepares.exists_adds,
        fun _ _ => hprepares.find?_of_adds, fun _ => hprepares.find?_of_not_adds,
        hprepares.files_iff, fun ⟨_, hlocate, hempty⟩ => hprepares.find?_of_empty hlocate hempty⟩

/-! ### A class that is its own parent, and no document at all -/

/-- A vocabulary of one class that is its own parent. -/
def ownParentText : String :=
  "\x7b\"@graph\": [\x7b\"@id\": \"schema:A\", \"@type\": \"rdfs:Class\", " ++
    "\"rdfs:label\": \"A\", \"rdfs:subClassOf\": [\x7b\"@id\": \"schema:A\"\x7d]\x7d]\x7d"

/-- A file system with a document and the output of an earlier run. -/
def publishedDisk (document : String) : FileSystem where
  entries := [(["v.json"], .file document.toUTF8), (["out"], .directory),
    (["out", "old"], .file "x".toUTF8)]
  workDir := []

/-- The arguments of a run with the label of a release. -/
def releasedArguments : Arguments where
  source := "v.json"
  outputDir := "out"
  skipSuperseded := false
  dialect := .craft3
  release := some "r"
  fetchTree := false

theorem parse_releasedArguments :
    Arguments.parse ["v.json", "out", "--release", "r"] = .ok releasedArguments :=
  eq_ok_of_toOption (by decide +kernel)

/-- The arguments of a run that also asks for the tree document. -/
def treeArguments : Arguments := { releasedArguments with fetchTree := true }

theorem parse_treeArguments :
    Arguments.parse ["v.json", "out", "--release", "r", "--fetch-tree"] = .ok treeArguments :=
  eq_ok_of_toOption (by decide +kernel)

/-- A network with the same text behind every URL. -/
def Network.answering (text : String) : Network := fun _ => .answer 200 (some text)

/-- The hierarchy of this vocabulary is a cycle. -/
theorem exists_vocabulary_ownParentText : ∃ v,
    vocabularyOfText { release := "r" } ownParentText = .ok v ∧
      Plan.ofVocabulary { release := "r" } v = .error ⟨"A", ["A", "A"]⟩ := by
  have hread : (vocabularyOfText { release := "r" } ownParentText).toOption.map
      (fun v => (((v.selected { release := "r" }).namespaced { release := "r" }).map ClassDecl.name,
        ((v.selected { release := "r" }).hierarchy { release := "r" }).parentsOf "A")) =
      some (["A"], ["A"]) := by
    decide +kernel
  obtain ⟨v, hv, hview⟩ := Option.map_eq_some_iff.1 hread
  obtain ⟨hnames, hparent⟩ := Prod.mk.inj hview
  obtain ⟨cycle, hplan⟩ := (Plan.exists_ofVocabulary_eq_error_iff { release := "r" } v).2
    ⟨"A", .single (by simp [Hierarchy.Parent, hparent])⟩
  have hwalk : ((v.selected { release := "r" }).hierarchy { release := "r" }).ancestors "A" =
      .error ⟨"A", ["A", "A"]⟩ := by
    simp [Hierarchy.ancestors, Hierarchy.walk, hparent]
  obtain rfl : cycle = ⟨"A", ["A", "A"]⟩ := by
    obtain ⟨before, c, after, hcut, -, hcycle⟩ := (Plan.ofVocabulary_eq_error_iff _ v cycle).1 hplan
    have hname : c.name ∈ ["A"] := by
      rw [← hnames, hcut]
      exact List.mem_map_of_mem (List.mem_append_right _ List.mem_cons_self)
    rw [List.mem_singleton.1 hname, hwalk] at hcycle
    exact (Except.error.inj hcycle).symm
  exact ⟨v, eq_ok_of_toOption hv, hplan⟩

/-- A run on it reports the cycle when all is prepared. -/
theorem exists_execute_ownParentText (hsource : a.source = "v.json")
    (hsettings : a.runSettings net = { release := "r" })
    (hprepares : a.Prepares (publishedDisk ownParentText) net fs') : ∃ v,
    a.Loads (publishedDisk ownParentText) net v ∧
      execute a (publishedDisk ownParentText) net =
        (.error (.generation (.cycle ⟨"A", ["A", "A"]⟩)), fs') := by
  obtain ⟨v, htext, hplan⟩ := exists_vocabulary_ownParentText
  rw [← hsettings] at htext hplan
  have hload : loadSource a.source (publishedDisk ownParentText) net = .ok ownParentText := by
    rw [hsource, loadSource_of_local (by decide)]
    exact eq_ok_of_toOption (by decide +kernel)
  have hv : a.Loads (publishedDisk ownParentText) net v := ⟨ownParentText, hload, htext⟩
  have hfault : (Failure.generation (.cycle ⟨"A", ["A", "A"]⟩)).OfVocabulary := trivial
  exact ⟨v, hv, (execute_eq_error_iff hv hfault).2 ⟨hprepares, _, hplan, rfl⟩⟩

theorem line_ownParentText : (Failure.generation (.cycle ⟨"A", ["A", "A"]⟩)).line =
    "error: class hierarchy cycle at `A`: A -> A" := by
  decide +kernel

/-- Without a document the earlier output stays. After a cycle it is gone, and the tree document is
there. -/
theorem command_fails_by_vocabulary_unread :
    (∃ line, command ["v.json", "out", "--release", "r"] (publishedDisk "[") =
      (.failed line, publishedDisk "[")) ∧
    ∃ fs', command ["v.json", "out", "--release", "r", "--fetch-tree"]
        (publishedDisk ownParentText) (Network.answering "[]") =
          (.failed "error: class hierarchy cycle at `A`: A -> A", fs') ∧
      fs'.find? ["tree.jsonld"] = some (.file "[]".toUTF8) ∧
      ∀ bytes, fs'.find? ["out", "old"] ≠ some (.file bytes) := by
  constructor
  · have hsource : loadSource "v.json" (publishedDisk "[") = .ok "[" :=
      eq_ok_of_toOption (by decide +kernel)
    have htext : (vocabularyOfText { release := "r" } "[").toOption.isNone := by decide +kernel
    have hnone : ∀ v, ¬ releasedArguments.Loads (publishedDisk "[") Network.unreachable v := by
      rintro v ⟨text, hload, hv⟩
      obtain rfl := Except.ok.inj (hsource.symm.trans hload)
      have hsettings : releasedArguments.runSettings Network.unreachable = { release := "r" } := rfl
      rw [hsettings] at hv
      rw [hv] at htext
      cases htext
    obtain ⟨e, -, -, hrun⟩ := (command_fails_by_vocabulary parse_releasedArguments
      (publishedDisk "[") Network.unreachable).1 hnone
    exact ⟨e.line, hrun⟩
  · obtain ⟨fs', hprepares⟩ : ∃ fs', treeArguments.Prepares (publishedDisk ownParentText)
        (Network.answering "[]") fs' :=
      ⟨_, (prepareDirectory (Path.ofText "out") (publishedDisk ownParentText)).2,
        Prod.ext (eq_ok_of_toOption (by decide +kernel)) rfl,
        Prod.ext (eq_ok_of_toOption (by decide +kernel)) rfl⟩
    obtain ⟨v, hv, hrun⟩ := exists_execute_ownParentText rfl rfl hprepares
    have hfault : (Failure.generation (.cycle ⟨"A", ["A", "A"]⟩)).OfVocabulary := trivial
    obtain ⟨hcommand, -, -, hadded, helse, -⟩ := ((command_fails_by_vocabulary parse_treeArguments
      (publishedDisk ownParentText) (Network.answering "[]")).2 v hv).2 _ fs' hfault hrun
    have htarget : (publishedDisk ownParentText).target (treePath treeArguments.outputPath) =
        ["tree.jsonld"] := by
      decide +kernel
    have hheld : (publishedDisk ownParentText).Holds treeArguments.outputPath ["out", "old"] :=
      ⟨["out"], eq_ok_of_toOption (by decide +kernel), by decide⟩
    refine ⟨fs', by rw [← line_ownParentText]; exact hcommand,
      hadded _ _ ⟨rfl, htarget.symm, "[]", rfl, rfl⟩, fun bytes hfile => ?_⟩
    have hnone : ∀ bytes, ¬ treeArguments.Adds (publishedDisk ownParentText)
        (Network.answering "[]") ["out", "old"] bytes := by
      rintro _ ⟨-, hk, -⟩
      rw [htarget] at hk
      simp at hk
    obtain ⟨hgone, hkept⟩ := helse _ hnone
    exact ((find?_file_iff_of_emptied hgone hkept bytes).1 hfile).2 hheld

/-- A cycle costs the earlier output. -/
theorem command_cycle_empties : ∃ fs',
    command ["v.json", "out", "--release", "r"] (publishedDisk ownParentText) =
      (.failed "error: class hierarchy cycle at `A`: A -> A", fs') ∧
    (publishedDisk ownParentText).find? ["out", "old"] = some (.file "x".toUTF8) ∧
    fs'.find? ["out", "old"] = none := by
  have hold : (prepareDirectory releasedArguments.outputPath
      (publishedDisk ownParentText)).2.find? ["out", "old"] = none := by decide +kernel
  obtain ⟨fs', hprepare⟩ : ∃ fs', prepareDirectory releasedArguments.outputPath
      (publishedDisk ownParentText) = (.ok (), fs') :=
    ⟨_, Prod.ext (eq_ok_of_toOption (by decide +kernel)) rfl⟩
  obtain ⟨-, -, hrun⟩ := exists_execute_ownParentText rfl rfl ⟨fs', hprepare, rfl⟩
  refine ⟨fs', ?_, by decide +kernel, ?_⟩
  · rw [← line_ownParentText]
    exact command_of_execute_error parse_releasedArguments hrun
  · rw [hprepare] at hold
    exact hold

end VocabPhp
