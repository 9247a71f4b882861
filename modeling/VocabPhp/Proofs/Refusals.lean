import VocabPhp.Proofs.Cycles

/-!
# Sinks that refuse a file

What a run is going to save does not depend on its sink. The run offers the files of its plan one
after the other, and the first one that the sink refuses is the last one that it offers.

* `Sink.after`, `Sink.Takes`, `Sink.Refuses`: the state of a sink that files were offered to, and
  which of them it takes.
* `Sink.takes_or_refuses`: a sink takes all files, or there is a first one that it refuses.
* `saveAll_of_takes`, `saveAll_of_refuses`: how far saving gets in either case.
* `generate_follows_plan`: every run on a vocabulary follows one plan, as far as its sink lets it.
-/

namespace VocabPhp

variable {σ ε : Type} {s : Settings} {v : Vocabulary} {sink : Sink σ ε} {st : σ}
  {before rest : List Artifact} {a : Artifact} {cause : ε}

/-! ## Files offered one after the other -/

namespace Sink

/-- The state of a sink that files were offered to, taken or not. -/
def after (sink : Sink σ ε) (st : σ) (files : List Artifact) : σ :=
  files.foldl (fun st a => (sink a st).2) st

/-- A sink takes every file when they are offered in their order. -/
def Takes (sink : Sink σ ε) : σ → List Artifact → Prop
  | _, [] => True
  | st, a :: files => (sink a st).1 = .ok () ∧ Takes sink (sink a st).2 files

/-- A sink takes some files and then refuses one. -/
def Refuses (sink : Sink σ ε) (st : σ) (before : List Artifact) (a : Artifact) (cause : ε) : Prop :=
  sink.Takes st before ∧ (sink a (sink.after st before)).1 = .error cause

/-- A sink takes all files, or there is a first one that it refuses. -/
theorem takes_or_refuses (sink : Sink σ ε) (st : σ) (files : List Artifact) :
    sink.Takes st files ∨
      ∃ before a rest cause, files = before ++ a :: rest ∧ sink.Refuses st before a cause := by
  induction files generalizing st with
  | nil => exact .inl trivial
  | cons a files ih =>
    rcases ha : (sink a st).1 with cause | _
    · exact .inr ⟨[], a, files, cause, rfl, trivial, ha⟩
    · rcases ih (sink a st).2 with htakes | ⟨before, b, rest, cause, rfl, htakes, hb⟩
      · exact .inl ⟨ha, htakes⟩
      · exact .inr ⟨a :: before, b, rest, cause, rfl, ⟨ha, htakes⟩, hb⟩

/-- A sink that refuses nothing takes all files. -/
theorem takes_of_never_refuses (h : ∀ a st, (sink a st).1 = .ok ()) (st : σ)
    (files : List Artifact) : sink.Takes st files := by
  induction files generalizing st with
  | nil => trivial
  | cons a files ih => exact ⟨h a st, ih (sink a st).2⟩

/-! ### Recording -/

theorem after_recording (log files : List Artifact) :
    sink.recording.after (st, log) files = (sink.after st files, log ++ files) := by
  induction files generalizing st log with
  | nil => simp [after]
  | cons a files ih =>
    unfold after at ih ⊢
    rw [List.foldl_cons, List.foldl_cons, recording, ih, List.append_assoc, List.singleton_append]

/-- A sink that records takes what it would take otherwise. -/
theorem takes_recording_iff (log files : List Artifact) :
    sink.recording.Takes (st, log) files ↔ sink.Takes st files := by
  induction files generalizing st log with
  | nil => rfl
  | cons a files ih => exact and_congr_right fun _ => ih (log ++ [a])

theorem refuses_recording_iff (log : List Artifact) :
    sink.recording.Refuses (st, log) before a cause ↔ sink.Refuses st before a cause := by
  unfold Refuses
  rw [takes_recording_iff, after_recording, recording]

end Sink

/-! ## Saving -/

theorem saveAll_of_takes {files : List Artifact} (h : sink.Takes st files) :
    saveAll sink files st = (.ok (), sink.after st files) := by
  induction files generalizing st with
  | nil => rfl
  | cons a files ih =>
    obtain ⟨ha, hfiles⟩ := h
    have hsaved := ih hfiles
    rw [saveAll, Sink.after, List.foldl_cons]
    rcases hs : sink a st with ⟨_ | _, next⟩
    · rw [hs] at ha
      cases ha
    · rw [hs] at hsaved
      exact hsaved

/-- Saving stops with the first file that is refused, and the error names it. -/
theorem saveAll_of_refuses (h : sink.Refuses st before a cause) (rest : List Artifact) :
    saveAll sink (before ++ a :: rest) st =
      (.error (.save a.name cause), sink.after st (before ++ [a])) := by
  induction before generalizing st with
  | nil =>
    obtain ⟨-, ha⟩ := h
    change (sink a st).1 = .error cause at ha
    rw [List.nil_append, saveAll, Sink.after, List.nil_append, List.foldl_cons, List.foldl_nil]
    rcases hs : sink a st with ⟨_ | _, next⟩
    · rw [hs] at ha
      cases ha
      rfl
    · rw [hs] at ha
      cases ha
  | cons b before ih =>
    obtain ⟨⟨hb, hbefore⟩, ha⟩ := h
    have hsaved := ih ⟨hbefore, ha⟩
    rw [List.cons_append, saveAll, List.cons_append, Sink.after, List.foldl_cons]
    rcases hs : sink b st with ⟨_ | _, next⟩
    · rw [hs] at hb
      cases hb
    · rw [hs] at hsaved
      exact hsaved

/-! ## Runs -/

/-- A sink that takes the files of the plan is offered all of them. -/
theorem generate_of_takes {plan : Plan} (hplan : Plan.ofVocabulary s v = .ok plan)
    (h : sink.Takes st plan.artifacts) :
    generate s v sink st = (.ok plan.report, sink.after st plan.artifacts) ∧
      offers s v sink st = plan.artifacts := by
  have hrun : ∀ {σ : Type} {sink : Sink σ ε} {st : σ}, sink.Takes st plan.artifacts →
      generate s v sink st = (.ok plan.report, sink.after st plan.artifacts) := by
    intro σ sink st h
    rw [generate_eq, hplan]
    simp only [saveAll_of_takes h]
  refine ⟨hrun h, ?_⟩
  rw [offers, hrun ((Sink.takes_recording_iff [] _).2 h), Sink.after_recording]
  rfl

/-- A sink that refuses one of them is offered those before it and that one. -/
theorem generate_of_refuses {plan : Plan} (hplan : Plan.ofVocabulary s v = .ok plan)
    (hfiles : plan.artifacts = before ++ a :: rest) (h : sink.Refuses st before a cause) :
    generate s v sink st = (.error (.save a.name cause), sink.after st (before ++ [a])) ∧
      offers s v sink st = before ++ [a] := by
  have hrun : ∀ {σ : Type} {sink : Sink σ ε} {st : σ}, sink.Refuses st before a cause →
      generate s v sink st = (.error (.save a.name cause), sink.after st (before ++ [a])) := by
    intro σ sink st h
    rw [generate_eq, hplan]
    simp only [hfiles, saveAll_of_refuses h]
  refine ⟨hrun h, ?_⟩
  rw [offers, hrun ((Sink.refuses_recording_iff []).2 h), Sink.after_recording]
  rfl

/-! ## The plan of all runs -/

/-- Above no name of an acyclic hierarchy is a cycle, so each has ancestors. -/
theorem Hierarchy.exists_ancestors_of_acyclic {h : Hierarchy} (hacyclic : ¬ h.Cyclic)
    (name : String) : ∃ names, h.ancestors name = .ok names := by
  apply (exists_ancestors_ok_iff name).2
  rintro ⟨n, -, hcycle⟩
  exact hacyclic ⟨n, hcycle⟩

/-- The classes of the namespace come in the order of the identifiers that they are kept under. -/
theorem Vocabulary.exists_ids_namespaced (s : Settings) (v : Vocabulary) :
    ∃ ids : List String, ids.Pairwise (· < ·) ∧
      List.Forall₂ (fun id c => v.classes.find? id = some c) ids (v.namespaced s) := by
  have hmem : ∀ e ∈ v.classes.entries, v.classes.find? e.1 = some e.2 := fun e he =>
    (Table.mem_entries_iff v.classes e.1 e.2).1 he
  have hnamespaced : v.namespaced s =
      (v.classes.entries.filter fun e => s.vocabulary.contains e.2.id).map (·.2) := by
    rw [namespaced, Hierarchy.namespaced, Table.values, List.filter_map]
    rfl
  refine ⟨(v.classes.entries.filter fun e => s.vocabulary.contains e.2.id).map (·.1), ?_, ?_⟩
  · exact List.pairwise_map.2 (v.classes.sorted.sublist List.filter_sublist)
  · rw [hnamespaced, List.forall₂_map_left_iff, List.forall₂_map_right_iff, List.forall₂_same]
    intro e he
    exact hmem e (List.mem_filter.1 he).1

/-- A vocabulary with an acyclic hierarchy has one plan for all sinks: trait and interface of every
class shown, in the order of the identifiers, and then the models in the same order. A sink that
takes all of these files is offered exactly them; the report lists their names in their order and
counts a trait, an interface and a model for each class. Any other sink refuses a first one. Then it
is offered the files before that one and that one, with the contents that they have in the plan, and
the run fails with an error that names it. -/
theorem generate_follows_plan (s : Settings) (v : Vocabulary)
    (hacyclic : ¬ ((v.selected s).hierarchy s).Cyclic) :
    ∃ (ids : List String) (models : List ClassModel) (files : List Artifact),
      ids.Pairwise (· < ·) ∧
      List.Forall₂ (fun id c => (v.selected s).classes.find? id = some c) ids
        ((v.selected s).namespaced s) ∧
      List.Forall₂ (fun c m => (v.selected s).model s c = .ok m) ((v.selected s).namespaced s)
        models ∧
      files = ((v.selected s).namespaced s).flatMap
        (fun c => Plan.declarationsOf s ((v.selected s).fieldSet s c)) ++
          models.map (Plan.modelFile s) ∧
      ∀ {σ ε : Type} (sink : Sink σ ε) (st : σ),
        (sink.Takes st files ∨
          ∃ before a rest cause, files = before ++ a :: rest ∧ sink.Refuses st before a cause) ∧
        (sink.Takes st files → offers s v sink st = files ∧
          generate s v sink st = (.ok {
            interfaces := ((v.selected s).namespaced s).length
            traits := ((v.selected s).namespaced s).length
            models := ((v.selected s).namespaced s).length
            superseded := v.superseded.size
            files := files.map Artifact.name }, sink.after st files)) ∧
        ∀ before a rest cause, files = before ++ a :: rest → sink.Refuses st before a cause →
          offers s v sink st = before ++ [a] ∧
          generate s v sink st =
            (.error (.save a.name cause), sink.after st (before ++ [a])) := by
  obtain ⟨plan, hplan⟩ := (Plan.exists_ofVocabulary_iff s v).2
    fun c _ => Hierarchy.exists_ancestors_of_acyclic hacyclic c.name
  obtain ⟨⟨models, hmodels, hplanned⟩, hdeclarations, hclasses, hsuperseded⟩ :=
    Plan.eq_of_ofVocabulary hplan
  obtain ⟨ids, hsorted, hids⟩ := (v.selected s).exists_ids_namespaced s
  refine ⟨ids, models, plan.artifacts, hsorted, hids, hmodels, ?_, fun sink st =>
    ⟨sink.takes_or_refuses st _, fun htakes => ?_, fun before a rest cause hfiles hrefuses => ?_⟩⟩
  · rw [Plan.artifacts, hdeclarations, hplanned]
  · obtain ⟨hrun, hoffers⟩ := generate_of_takes hplan htakes
    rw [Plan.report, hclasses, hsuperseded] at hrun
    exact ⟨hoffers, hrun⟩
  · obtain ⟨hrun, hoffers⟩ := generate_of_refuses hplan hfiles hrefuses
    exact ⟨hoffers, hrun⟩

/-! ### A shelf that refuses a file -/

/-- Puts files on a shelf, but none with a certain name. -/
def Shelf.refusing (name : String) : Sink Shelf String := fun a shelf =>
  if a.name = name then (.error "refused", shelf) else (.ok (), shelf.insert a.name a.content)

theorem acyclic_twoWorks : ¬ (twoWorks.hierarchy {}).Cyclic := by
  intro hcyclic
  obtain ⟨c, hc, hreach⟩ := Vocabulary.exists_reachesCycle_of_cyclic hcyclic
  exact (Hierarchy.exists_ancestors_ok_iff c.name).1 (exists_ancestors_twoWorks c hc) hreach

/-- The run stops at the interface of a work. The files that were offered before stay on the
shelf. -/
theorem generate_follows_plan_works :
    ¬ ((twoWorks.selected {}).hierarchy {}).Cyclic ∧ ∃ shelf,
      generate {} twoWorks (Shelf.refusing "WorkInterface.php") ∅ =
        (.error (.save "WorkInterface.php" "refused"), shelf) ∧
      (offers {} twoWorks (Shelf.refusing "WorkInterface.php") ∅).map Artifact.name =
        ["ArticleTrait.php", "ArticleInterface.php", "WorkTrait.php", "WorkInterface.php"] ∧
      ∀ name, name ∈ shelf.keys ↔
        name ∈ ["ArticleTrait.php", "ArticleInterface.php", "WorkTrait.php"] := by
  obtain ⟨-, models, files, -, -, -, hfiles, hruns⟩ :=
    generate_follows_plan {} twoWorks acyclic_twoWorks
  have hclasses : (twoWorks.selected {}).namespaced {} =
      [plainClass "schema:Article" "Article" ["schema:Work"],
        plainClass "schema:Opus" "Work" [], plainClass "schema:Work" "Work" []] := by
    decide +kernel
  have hdeclared (c : ClassDecl) (name : String) (h : Php.safeName c.name "Schema" = name) :
      ∃ x y, Plan.declarationsOf {} ((twoWorks.selected {}).fieldSet {} c) =
        [⟨Php.traitName name ++ ".php", x⟩, ⟨Php.interfaceName name ++ ".php", y⟩] := by
    subst h
    exact ⟨_, _, rfl⟩
  obtain ⟨x₁, y₁, harticle⟩ := hdeclared (plainClass "schema:Article" "Article" ["schema:Work"])
    "Article" (by decide +kernel)
  obtain ⟨x₂, y₂, hopus⟩ := hdeclared (plainClass "schema:Opus" "Work" [])
    "Work" (by decide +kernel)
  have hcut : ∃ rest, files = [⟨"ArticleTrait.php", x₁⟩, ⟨"ArticleInterface.php", y₁⟩,
      ⟨"WorkTrait.php", x₂⟩] ++ ⟨"WorkInterface.php", y₂⟩ :: rest := by
    rw [hfiles, hclasses, List.flatMap_cons, List.flatMap_cons, harticle, hopus]
    exact ⟨_, rfl⟩
  obtain ⟨rest, hcut⟩ := hcut
  obtain ⟨hoffers, hrun⟩ := (hruns (Shelf.refusing "WorkInterface.php") ∅).2.2 _ _ _ "refused" hcut
    (by simp [Sink.Refuses, Sink.Takes, Sink.after, Shelf.refusing])
  refine ⟨acyclic_twoWorks, _, hrun, ?_, ?_⟩
  · rw [hoffers]
    rfl
  · intro name
    have hempty : name ∉ (∅ : Shelf).keys := List.not_mem_nil
    simp [Sink.after, Shelf.refusing, Table.mem_keys_insert, hempty, or_comm, or_left_comm]

end VocabPhp
