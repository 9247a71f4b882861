import VocabPhp.Proofs.Inheritance

/-!
# Traits and interfaces that models mention

A model takes up the trait and the interface of every name on its chain. The run writes these files
for the classes that it shows, and a chain may also hold other names: a parent that the namespace
does not have, or that is left out as superseded, ends a line of ancestors but stays in it.

* `files_of_ok`: the names of the files of a run that succeeds, in their order.
* `Report.covers_iff`: for which PHP names a run writes trait and interface.
* `generate_covers_iff`: the models of a run mention only what it writes exactly if it covers every
  parent that the owner of a name refers to.
* `generate_missing_parent`: a parent that the namespace does not have is mentioned all the same.
-/

namespace VocabPhp

open Relation

variable {σ ε : Type} {s : Settings} {v : Vocabulary} {sink : Sink σ ε} {st st' : σ}
  {report : Report}

/-! ## File names -/

theorem traitName_inj {a b : String} : Php.traitName a = Php.traitName b ↔ a = b :=
  String.append_left_inj _

theorem interfaceName_inj {a b : String} : Php.interfaceName a = Php.interfaceName b ↔ a = b :=
  String.append_left_inj _

/-- No trait is named like an interface: their names end differently. -/
theorem traitName_ne_interfaceName (a b : String) : Php.traitName a ≠ Php.interfaceName b := by
  intro h
  have hlast := congrArg (·.toList.getLast?) h
  simp [Php.traitName, Php.interfaceName, List.getLast?_append] at hlast

theorem Vocabulary.safeName_model {c : ClassDecl} {m : ClassModel} (hm : v.model s c = .ok m) :
    m.safeName = Php.safeName c.name s.safeLead := by
  obtain ⟨names, -, rfl⟩ := (model_eq_ok_iff s v c m).1 hm
  rfl

theorem Vocabulary.safeChain_model {c : ClassDecl} {m : ClassModel} (hm : v.model s c = .ok m) :
    m.safeChain = m.chain.map fun n => Php.safeName n s.safeLead := by
  obtain ⟨names, -, rfl⟩ := (model_eq_ok_iff s v c m).1 hm
  rfl

/-- The names of the files of a run that succeeds: traits and interfaces, and then models. -/
theorem files_of_ok (h : generate s v sink st = (.ok report, st')) :
    report.files =
      ((v.selected s).namespaced s).flatMap (fun c =>
        [Php.traitName (Php.safeName c.name s.safeLead) ++ ".php",
          Php.interfaceName (Php.safeName c.name s.safeLead) ++ ".php"]) ++
        ((v.selected s).namespaced s).map fun c => Php.safeName c.name s.safeLead ++ ".php" := by
  obtain ⟨plan, hplan, rfl, -⟩ := offers_of_ok h
  obtain ⟨⟨models, hmodels, hplanned⟩, hdeclarations, -⟩ := Plan.eq_of_ofVocabulary hplan
  have hnames :
      ((v.selected s).namespaced s).map (fun c => Php.safeName c.name s.safeLead ++ ".php") =
        models.map fun m => m.safeName ++ ".php" := by
    rw [← List.forall₂_eq_eq_eq, List.forall₂_map_left_iff, List.forall₂_map_right_iff]
    exact hmodels.imp fun c m hm => by rw [Vocabulary.safeName_model hm]
  show plan.artifacts.map Artifact.name = _
  rw [Plan.artifacts, List.map_append, hdeclarations, hplanned, List.map_flatMap, List.map_map,
    hnames]
  rfl

/-! ## Covered names -/

/-- A class of the namespace has this PHP name. -/
def Vocabulary.Declares (s : Settings) (v : Vocabulary) (t : String) : Prop :=
  ∃ c ∈ v.namespaced s, t = Php.safeName c.name s.safeLead

/-- Trait and interface of a PHP name are among the files of a run. -/
def Report.Covers (report : Report) (t : String) : Prop :=
  Php.traitName t ++ ".php" ∈ report.files ∧ Php.interfaceName t ++ ".php" ∈ report.files

/-- A file is that of the trait, the interface or the model of a class. -/
theorem file_mem_iff (h : generate s v sink st = (.ok report, st')) (name : String) :
    name ++ ".php" ∈ report.files ↔
      (∃ c ∈ (v.selected s).namespaced s, name = Php.traitName (Php.safeName c.name s.safeLead) ∨
        name = Php.interfaceName (Php.safeName c.name s.safeLead)) ∨
      (v.selected s).Declares s name := by
  simp only [files_of_ok h, List.mem_append, List.mem_flatMap, List.mem_map, List.mem_cons,
    List.not_mem_nil, or_false, String.append_left_inj, Vocabulary.Declares,
    @eq_comm _ _ name]

/-- Trait and interface of a PHP name are written for a class that has it. Else both files can only
be models, of classes that are called like them. -/
theorem Report.covers_iff (h : generate s v sink st = (.ok report, st')) (t : String) :
    report.Covers t ↔ (v.selected s).Declares s t ∨
      (v.selected s).Declares s (Php.traitName t) ∧
        (v.selected s).Declares s (Php.interfaceName t) := by
  simp only [Covers, file_mem_iff h, traitName_inj, interfaceName_inj, traitName_ne_interfaceName,
    (traitName_ne_interfaceName _ _).symm, or_false, false_or]
  exact or_and_left.symm

/-- A run that succeeds writes trait and interface of every class that it shows. -/
theorem declarations_mem_offers (h : generate s v sink st = (.ok report, st')) {c : ClassDecl}
    (hc : c ∈ (v.selected s).namespaced s) :
    ∀ a ∈ Plan.declarationsOf s ((v.selected s).fieldSet s c), a ∈ offers s v sink st := by
  obtain ⟨plan, hplan, -, hoffers⟩ := offers_of_ok h
  intro a ha
  rw [hoffers, Plan.artifacts, (Plan.eq_of_ofVocabulary hplan).2.1, List.mem_append]
  exact .inl (List.mem_flatMap.2 ⟨c, hc, ha⟩)

/-- The models of a run that succeeds mention traits and interfaces of the names on their chains.
These are all written exactly if the run covers every parent that the owner of a name refers to; and
it covers the PHP names of the classes that it shows. -/
theorem generate_covers_iff (h : generate s v sink st = (.ok report, st')) :
    (∀ c ∈ (v.selected s).namespaced s, ∃ m, (v.selected s).model s c = .ok m ∧
      Plan.modelFile s m ∈ offers s v sink st ∧
      (∀ a ∈ Plan.declarationsOf s ((v.selected s).fieldSet s c), a ∈ offers s v sink st) ∧
      ∀ n ∈ m.chain, n = c.name ∨ ∃ k ∈ m.chain, (v.selected s).LabelStep s k n) ∧
    (∀ t, report.Covers t ↔ (v.selected s).Declares s t ∨
      (v.selected s).Declares s (Php.traitName t) ∧
        (v.selected s).Declares s (Php.interfaceName t)) ∧
    ((∀ c ∈ (v.selected s).namespaced s, ∀ m, (v.selected s).model s c = .ok m →
        ∀ t ∈ m.safeChain, report.Covers t) ↔
      ∀ k n, (v.selected s).LabelStep s k n → report.Covers (Php.safeName n s.safeLead)) := by
  refine ⟨fun c hc => ?_, Report.covers_iff h, ?_, ?_⟩
  · obtain ⟨m, hm, hfile⟩ := exists_model_of_ok h hc
    exact ⟨m, hm, hfile, declarations_mem_offers h hc, fun n => Vocabulary.mem_chain_cases hm⟩
  · -- The owner of a name is a class shown, and the name that it refers to is on its own chain.
    intro hclosed k n hkn
    obtain ⟨c, howns, hid⟩ := hkn
    have hc := howns.mem
    obtain rfl := howns.name_eq
    obtain ⟨m, hm, -⟩ := exists_model_of_ok h hc
    refine hclosed c hc m hm _ ?_
    rw [Vocabulary.safeChain_model hm]
    exact List.mem_map_of_mem ((Vocabulary.mem_chain_iff hm n).2 (.single ⟨c, howns, hid⟩))
  · -- What is on a chain is the name of the class or was referred to from the chain.
    intro hcovers c hc m hm t ht
    rw [Vocabulary.safeChain_model hm, List.mem_map] at ht
    obtain ⟨n, hn, rfl⟩ := ht
    rcases Vocabulary.mem_chain_cases hm hn with rfl | ⟨k, -, hkn⟩
    · exact (Report.covers_iff h _).2 (.inl ⟨c, hc, rfl⟩)
    · exact hcovers k n hkn

/-! ### A parent that is not there -/

/-- The node of a novel, which is a book. -/
def novelNodes : List Json := [
  .object [("@id", .string "schema:Novel"), ("@type", .string "rdfs:Class"),
    ("rdfs:label", .string "Novel"), ("rdfs:subClassOf", .object [("@id", .string "schema:Book")])]]

/-- The class of a novel. -/
def novelClass : ClassDecl := plainClass "schema:Novel" "Novel" ["schema:Book"]

/-- The vocabulary of this node. -/
def novels : Vocabulary where
  classes := .ofList [("schema:Novel", novelClass)]
  attached := ∅
  members := ∅
  superseded := ∅

theorem namespaced_novels : novels.namespaced {} = [novelClass] := by decide

theorem ancestors_novel : (novels.hierarchy {}).ancestors "Novel" = .ok ["Book"] := by
  have hnovel : (novels.hierarchy {}).parentsOf "Novel" = ["Book"] := by decide
  have hbook : (novels.hierarchy {}).parentsOf "Book" = [] := by decide
  simp [Hierarchy.ancestors, Hierarchy.walk, hnovel, hbook]

theorem exists_generate_novels : ∃ report shelf,
    generate (ε := Empty) {} novels Shelf.sink ∅ = (.ok report, shelf) := by
  refine exists_generate_eq_ok (fun _ _ => rfl) (fun c hc => ?_) ∅
  change c ∈ novels.namespaced {} at hc
  rw [namespaced_novels, List.mem_singleton] at hc
  subst hc
  exact ⟨["Book"], ancestors_novel⟩

/-- Trait and interface of a novel are written, and those of a book are not. -/
theorem generate_covers_iff_novel : ∃ report shelf,
    generate (ε := Empty) {} novels Shelf.sink ∅ = (.ok report, shelf) ∧
      report.Covers "Novel" ∧ ¬ report.Covers "Book" := by
  obtain ⟨report, shelf, h⟩ := exists_generate_novels
  have hcovers := (generate_covers_iff h).2.1
  have hshown : novels.selected {} = novels := rfl
  simp only [hshown, Vocabulary.Declares, namespaced_novels, List.mem_singleton,
    exists_eq_left] at hcovers
  exact ⟨report, shelf, h, (hcovers "Novel").2 (.inl (by decide +kernel)),
    fun hbook => absurd ((hcovers "Book").1 hbook) (by decide +kernel)⟩

/-- The model of a novel mentions trait and interface of a book, which the run does not write. -/
theorem generate_missing_parent : ∃ v report shelf m,
    Vocabulary.ofNodes .schemaOrg novelNodes = .ok v ∧
      generate (ε := Empty) {} v Shelf.sink ∅ = (.ok report, shelf) ∧
      report.files = ["NovelTrait.php", "NovelInterface.php", "Novel.php"] ∧
      v.model {} novelClass = .ok m ∧
      Plan.modelFile {} m ∈ offers (ε := Empty) {} v Shelf.sink ∅ ∧
      m.safeChain = ["Novel", "Book"] ∧ ¬ ∀ t ∈ m.safeChain, report.Covers t := by
  have hread : Vocabulary.ofNodes .schemaOrg novelNodes = .ok novels :=
    eq_ok_of_toOption (by decide +kernel)
  obtain ⟨report, shelf, h⟩ := exists_generate_novels
  have hfiles : report.files = ["NovelTrait.php", "NovelInterface.php", "Novel.php"] := by
    have hshown : novels.selected {} = novels := rfl
    rw [files_of_ok h, hshown, namespaced_novels]
    decide +kernel
  have hnovel : novelClass ∈ (novels.selected {}).namespaced {} := by
    show novelClass ∈ novels.namespaced {}
    rw [namespaced_novels]
    exact List.mem_singleton_self _
  obtain ⟨m, hm, hsaved⟩ := exists_model_of_ok h hnovel
  have hchain : m.safeChain = ["Novel", "Book"] := by
    obtain ⟨names, hnames, rfl⟩ := (Vocabulary.model_eq_ok_iff _ _ _ _).1 hm
    obtain rfl : names = ["Book"] := Except.ok.inj (hnames.symm.trans ancestors_novel)
    decide +kernel
  refine ⟨novels, report, shelf, m, hread, h, hfiles, hm, hsaved, hchain, fun hclosed => ?_⟩
  have hbook := (hclosed "Book" (by rw [hchain]; decide)).1
  rw [hfiles] at hbook
  exact absurd hbook (by decide +kernel)

end VocabPhp
