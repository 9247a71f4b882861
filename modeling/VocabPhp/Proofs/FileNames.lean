import VocabPhp.Proofs.ClassNames
import VocabPhp.Proofs.Closure
import VocabPhp.Proofs.Skipping

/-!
# Files that share a name

A run writes three files for each class, which are named after its PHP name. A file takes the place
of an earlier one with the same name, so files are lost where two of these names agree: where two
labels have one PHP name, and where a class is called like the trait or the interface of another.

* `generate_shelf_eq`: what is on a shelf after a run: of the files with one name, the last.
* `Vocabulary.NamesApart`, `Report.nodup_files_iff`: when no two files of a run share a name.
* `generate_files_nodup_iff`: exactly then every file of every class is kept.
* `generate_files_clash`: distinct labels are not enough.
-/

namespace VocabPhp

variable {σ ε : Type} {s : Settings} {v : Vocabulary} {sink : Sink σ ε} {st st' : σ}
  {report : Report}

/-! ## Shelves -/

/-- A shelf takes all files, each in place of an earlier one with its name. -/
theorem saveAll_shelf (files : List Artifact) (shelf : Shelf) :
    saveAll (ε := ε) Shelf.sink files shelf =
      (.ok (), files.foldl (fun t a => t.insert a.name a.content) shelf) := by
  induction files generalizing shelf with
  | nil => rfl
  | cons a files ih => exact ih (shelf.insert a.name a.content)

/-- A run that succeeds succeeds on an empty shelf, too, which then holds the files offered. -/
theorem generate_shelf_eq (h : generate s v sink st = (.ok report, st')) :
    generate (ε := Empty) s v Shelf.sink ∅ =
      (.ok report, .ofList ((offers s v sink st).map fun a => (a.name, a.content))) := by
  obtain ⟨plan, hplan, rfl, hoffers⟩ := offers_of_ok h
  refine (generate_eq_ok_iff s v _ _ _ _).2 ⟨plan, hplan, ?_, rfl⟩
  rw [saveAll_shelf, hoffers, Table.ofList, List.foldl_map]
  rfl

/-- Of the files with one name the last stays. -/
theorem Shelf.find?_ofArtifacts (files : List Artifact) (name : String) :
    Table.find? (.ofList (files.map fun a => (a.name, a.content))) name =
      (files.reverse.find? fun a => a.name = name).map Artifact.content := by
  rw [Table.find?_ofList, ← List.map_reverse]
  generalize files.reverse = fs
  induction fs with
  | nil => rfl
  | cons a fs ih =>
    by_cases h : a.name = name
    · simp [h]
    · simpa [h] using ih

/-! ## Names of files -/

/-- The classes of the namespace have different PHP names, and none has that of a trait or an
interface of one of them. -/
structure Vocabulary.NamesApart (s : Settings) (v : Vocabulary) : Prop where
  nodup : ((v.namespaced s).map fun c => Php.safeName c.name s.safeLead).Nodup
  ne_declared : ∀ c ∈ v.namespaced s, ∀ d ∈ v.namespaced s,
    Php.safeName c.name s.safeLead ≠ Php.traitName (Php.safeName d.name s.safeLead) ∧
      Php.safeName c.name s.safeLead ≠ Php.interfaceName (Php.safeName d.name s.safeLead)

/-- Traits and interfaces of names are called differently exactly if the names are different. -/
theorem nodup_declared_iff (names : List String) :
    (names.flatMap fun n => [Php.traitName n ++ ".php", Php.interfaceName n ++ ".php"]).Nodup ↔
      names.Nodup := by
  have hpair : ∀ n ∈ names, [Php.traitName n ++ ".php", Php.interfaceName n ++ ".php"].Nodup :=
    fun n _ => by simp [traitName_ne_interfaceName]
  have hdisjoint : (Function.onFun List.Disjoint fun n : String =>
      [Php.traitName n ++ ".php", Php.interfaceName n ++ ".php"]) = fun a b => a ≠ b := by
    funext a b
    simp [Function.onFun, traitName_inj, interfaceName_inj,
      (traitName_ne_interfaceName _ _).symm, eq_comm]
  rw [List.nodup_flatMap, hdisjoint]
  exact ⟨fun h => h.2, fun h => ⟨hpair, h⟩⟩

/-- No two files of a run share a name exactly if the names of the classes shown are apart. -/
theorem Report.nodup_files_iff (h : generate s v sink st = (.ok report, st')) :
    report.files.Nodup ↔ (v.selected s).NamesApart s := by
  have hfiles : report.files =
      (((v.selected s).namespaced s).map fun c => Php.safeName c.name s.safeLead).flatMap
          (fun n => [Php.traitName n ++ ".php", Php.interfaceName n ++ ".php"]) ++
        (((v.selected s).namespaced s).map fun c => Php.safeName c.name s.safeLead).map
          (· ++ ".php") := by
    rw [files_of_ok h, List.flatMap_map, List.map_map]
    rfl
  have hmodels : Function.Injective (fun n : String => n ++ ".php") :=
    fun a b hab => (String.append_left_inj _).1 hab
  rw [hfiles, List.nodup_append, nodup_declared_iff, List.nodup_map_iff hmodels]
  constructor
  · rintro ⟨hnames, -, hapart⟩
    refine ⟨hnames, fun c hc d hd => ⟨fun heq => ?_, fun heq => ?_⟩⟩
    · refine hapart (Php.traitName (Php.safeName d.name s.safeLead) ++ ".php") ?_ _
        (List.mem_map_of_mem (List.mem_map_of_mem hc)) (by rw [heq])
      exact List.mem_flatMap.2 ⟨_, List.mem_map_of_mem hd, by simp⟩
    · refine hapart (Php.interfaceName (Php.safeName d.name s.safeLead) ++ ".php") ?_ _
        (List.mem_map_of_mem (List.mem_map_of_mem hc)) (by rw [heq])
      exact List.mem_flatMap.2 ⟨_, List.mem_map_of_mem hd, by simp⟩
  · rintro ⟨hnames, hapart⟩
    refine ⟨hnames, hnames, fun f hf g hg heq => ?_⟩
    simp only [List.mem_flatMap, List.mem_map] at hf hg
    obtain ⟨-, ⟨d, hd, rfl⟩, hf⟩ := hf
    obtain ⟨-, ⟨c, hc, rfl⟩, rfl⟩ := hg
    simp only [heq, List.mem_cons, String.append_left_inj, List.not_mem_nil, or_false] at hf
    exact hf.elim (hapart c hc d hd).1 (hapart c hc d hd).2

/-- A run writes three files for each class shown. -/
theorem length_files (h : generate s v sink st = (.ok report, st')) :
    report.files.length = 3 * ((v.selected s).namespaced s).length := by
  rw [files_of_ok h, List.length_append, List.length_map, List.length_flatMap]
  induction (v.selected s).namespaced s with
  | nil => rfl
  | cons c cs ih =>
    simp only [List.map_cons, List.sum_cons, List.length_cons, List.length_nil] at ih ⊢
    omega

/-- A report names the files in the order in which they were offered. -/
theorem files_eq_map_offers (h : generate s v sink st = (.ok report, st')) :
    report.files = (offers s v sink st).map Artifact.name := by
  obtain ⟨plan, -, rfl, hoffers⟩ := offers_of_ok h
  rw [hoffers]
  rfl

/-- A file that shares its name with no other one is kept. -/
theorem find?_offers_of_nodup (h : generate s v sink st = (.ok report, st'))
    (hnodup : report.files.Nodup) {a : Artifact} (ha : a ∈ offers s v sink st) :
    Table.find? (.ofList ((offers s v sink st).map fun a => (a.name, a.content))) a.name =
      some a.content := by
  refine Table.find?_ofList_of_mem ?_
    (List.mem_map_of_mem (f := fun a : Artifact => (a.name, a.content)) ha)
  rw [List.map_map]
  exact files_eq_map_offers h ▸ hnodup

/-- Labels that are class names are apart exactly if they are distinct and none is another one with
`Trait` or `Interface` at its end. -/
theorem Vocabulary.namesApart_iff_of_isClassName
    (h : ∀ c ∈ v.namespaced s, Php.isClassName c.name = true) :
    v.NamesApart s ↔ v.DistinctLabels s ∧ ∀ c ∈ v.namespaced s, ∀ d ∈ v.namespaced s,
      c.name ≠ Php.traitName d.name ∧ c.name ≠ Php.interfaceName d.name := by
  have hsafe : ∀ c ∈ v.namespaced s, Php.safeName c.name s.safeLead = c.name :=
    fun c hc => safeName_of_isClassName (h c hc) _
  have hnames : (v.namespaced s).map (fun c => Php.safeName c.name s.safeLead) =
      (v.namespaced s).map ClassDecl.name := List.map_congr_left hsafe
  rw [DistinctLabels, ← hnames]
  constructor
  · rintro ⟨hnodup, hne⟩
    refine ⟨hnodup, fun c hc d hd => ?_⟩
    simpa only [hsafe c hc, hsafe d hd] using hne c hc d hd
  · rintro ⟨hnodup, hne⟩
    refine ⟨hnodup, fun c hc d hd => ?_⟩
    simpa only [hsafe c hc, hsafe d hd] using hne c hc d hd

/-- When a run loses no file. No two files share a name exactly if the PHP names of the classes
shown are apart; for labels that are class names as they stand, exactly if these are distinct and
none is another one with `Trait` or `Interface` at its end. On a shelf that was empty the last of
the files with one name stays, and the shelf holds three files for each class exactly if no two
share a name: then these are its trait, its interface and its model. -/
theorem generate_files_nodup_iff (h : generate s v sink st = (.ok report, st')) :
    (report.files.Nodup ↔ (v.selected s).NamesApart s) ∧
    ((∀ c ∈ (v.selected s).namespaced s, Php.isClassName c.name = true) →
      (report.files.Nodup ↔ (v.selected s).DistinctLabels s ∧
        ∀ c ∈ (v.selected s).namespaced s, ∀ d ∈ (v.selected s).namespaced s,
          c.name ≠ Php.traitName d.name ∧ c.name ≠ Php.interfaceName d.name)) ∧
    ∃ shelf, generate (ε := Empty) s v Shelf.sink ∅ = (.ok report, shelf) ∧
      (∀ name, shelf.find? name =
        ((offers s v sink st).reverse.find? fun a => a.name = name).map Artifact.content) ∧
      (report.files.Nodup ↔ shelf.size = 3 * ((v.selected s).namespaced s).length) ∧
      (report.files.Nodup → ∀ c ∈ (v.selected s).namespaced s, ∃ m,
        (v.selected s).model s c = .ok m ∧
        shelf.find? (Php.traitName (Php.safeName c.name s.safeLead) ++ ".php") =
          some (renderTrait s ((v.selected s).fieldSet s c)) ∧
        shelf.find? (Php.interfaceName (Php.safeName c.name s.safeLead) ++ ".php") =
          some (renderInterface s ((v.selected s).fieldSet s c)) ∧
        shelf.find? (Php.safeName c.name s.safeLead ++ ".php") = some (renderModel s m)) := by
  refine ⟨Report.nodup_files_iff h, fun hlabels => ?_, _, generate_shelf_eq h,
    Shelf.find?_ofArtifacts _, ?_, fun hnodup c hc => ?_⟩
  · rw [Report.nodup_files_iff h, Vocabulary.namesApart_iff_of_isClassName hlabels]
  · have hnames : ((offers s v sink st).map fun a => (a.name, a.content)).map (·.1) =
        report.files := by
      rw [files_eq_map_offers h, List.map_map]
      rfl
    have hlength : ((offers s v sink st).map fun a => (a.name, a.content)).length =
        3 * ((v.selected s).namespaced s).length := by
      rw [← length_files h, ← hnames, List.length_map, List.length_map, List.length_map]
    rw [← hnames, ← Table.size_ofList_eq_iff, hlength]
  · have hkept (a : Artifact) (ha : a ∈ offers s v sink st) := find?_offers_of_nodup h hnodup ha
    obtain ⟨m, hm, hfile⟩ := exists_model_of_ok h hc
    have hdeclared := declarations_mem_offers h hc
    have hmodel := hkept _ hfile
    rw [Plan.modelFile, Vocabulary.safeName_model hm] at hmodel
    exact ⟨m, hm, hkept _ (hdeclared _ (List.mem_cons_self ..)),
      hkept _ (hdeclared _ (List.mem_cons_of_mem _ (List.mem_singleton_self _))), hmodel⟩

/-! ### Two classes -/

/-- The nodes of two classes with given labels. -/
def pairNodes (a b : String) : List Json := [
  .object [("@id", .string "schema:First"), ("@type", .string "rdfs:Class"),
    ("rdfs:label", .string a)],
  .object [("@id", .string "schema:Second"), ("@type", .string "rdfs:Class"),
    ("rdfs:label", .string b)]]

/-- The vocabulary of two classes with given labels. -/
def labelPair (a b : String) : Vocabulary where
  classes := .ofList [("schema:First", plainClass "schema:First" a []),
    ("schema:Second", plainClass "schema:Second" b [])]
  attached := ∅
  members := ∅
  superseded := ∅

/-- A reserved word and a label that is no identifier: both are changed, and all six files are
kept. -/
theorem generate_files_nodup_iff_class : ∃ report shelf,
    generate (ε := Empty) {} (labelPair "Class" "3D Model") Shelf.sink ∅ = (.ok report, shelf) ∧
      report.files = ["SchemaClassTrait.php", "SchemaClassInterface.php",
        "Schema3D_ModelTrait.php", "Schema3D_ModelInterface.php", "SchemaClass.php",
        "Schema3D_Model.php"] ∧
      report.files.Nodup ∧ shelf.size = 6 := by
  obtain ⟨report, shelf, h⟩ : ∃ report shelf,
      generate (ε := Empty) {} (labelPair "Class" "3D Model") Shelf.sink ∅ = (.ok report, shelf) :=
    exists_generate_of_parentless (by decide)
  have hfiles := files_of_ok h
  obtain ⟨hapart, -, shelf', h', -, hsize, -⟩ := generate_files_nodup_iff h
  have hnodup : report.files.Nodup := hapart.2 (by
    constructor <;> decide)
  obtain rfl : shelf' = shelf := congrArg Prod.snd (h'.symm.trans h)
  refine ⟨report, shelf', h, hfiles.trans (by decide), hnodup, (hsize.1 hnodup).trans ?_⟩
  decide

/-- Two classes with distinct labels are generated into files of which a shelf keeps only some. -/
def KeepsOnly (a b : String) (files : List String) (kept : Nat) : Prop := ∃ v report shelf,
  Vocabulary.ofNodes .schemaOrg (pairNodes a b) = .ok v ∧ v.DistinctLabels {} ∧
    generate (ε := Empty) {} v Shelf.sink ∅ = (.ok report, shelf) ∧
    report.files = files ∧ ¬ report.files.Nodup ∧ shelf.size = kept

theorem keepsOnly_of {a b : String} {kept : Nat} {files : List String}
    (hread : (Vocabulary.ofNodes .schemaOrg (pairNodes a b)).toOption = some (labelPair a b))
    (hlabels : ((labelPair a b).namespaced {}).map ClassDecl.name = [a, b] ∧ a ≠ b)
    (hparents : ∀ c ∈ (labelPair a b).namespaced {},
      ((labelPair a b).hierarchy {}).parentsOf c.name = [])
    (hfiles : ((labelPair a b).namespaced {}).flatMap (fun c =>
        [Php.traitName (Php.safeName c.name "Schema") ++ ".php",
          Php.interfaceName (Php.safeName c.name "Schema") ++ ".php"]) ++
        ((labelPair a b).namespaced {}).map (fun c => Php.safeName c.name "Schema" ++ ".php") =
      files)
    (hnodup : ¬ files.Nodup) (hkept : files.dedup.length = kept) : KeepsOnly a b files kept := by
  obtain ⟨report, shelf, h⟩ := exists_generate_of_parentless hparents
  have hreported : report.files = files := (files_of_ok h).trans hfiles
  have hdistinct : (labelPair a b).DistinctLabels {} := by
    rw [Vocabulary.DistinctLabels, hlabels.1]
    simpa using hlabels.2
  obtain rfl : shelf = _ := congrArg Prod.snd (h.symm.trans (generate_shelf_eq h))
  refine ⟨_, report, _, eq_ok_of_toOption hread, hdistinct, h, hreported, hreported ▸ hnodup, ?_⟩
  rw [Table.size_ofList, List.map_map, ← hkept, ← hreported, files_eq_map_offers h]
  rfl

/-- A class that is called like the trait of another takes its place, and two labels that differ in
what no class name may hold have all files in common. -/
theorem generate_files_clash :
    KeepsOnly "Event" "EventTrait" ["EventTrait.php", "EventInterface.php",
      "EventTraitTrait.php", "EventTraitInterface.php", "Event.php", "EventTrait.php"] 5 ∧
    KeepsOnly "Web Page" "Web-Page" ["SchemaWeb_PageTrait.php", "SchemaWeb_PageInterface.php",
      "SchemaWeb_PageTrait.php", "SchemaWeb_PageInterface.php", "SchemaWeb_Page.php",
      "SchemaWeb_Page.php"] 3 := by
  constructor <;> exact keepsOnly_of (by decide +kernel) (by decide +kernel) (by decide +kernel)
    (by decide) (by decide) (by decide)

end VocabPhp
