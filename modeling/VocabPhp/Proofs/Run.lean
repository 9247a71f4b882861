import VocabPhp.Proofs.Saving
import VocabPhp.Proofs.Traversal

/-!
# What a run offers to its sink

* `Sink.recording`, `offers`: the files that a run offers, in their order, whatever sink it has.
* `offers_of_ok`: a run that succeeds offers exactly the files of the plan and reports them.
* `Vocabulary.model`: the model of a class, for its own chain.
* `Plan.ofModels`: the plan with given models.
* `Plan.exists_ofVocabulary_iff`, `Plan.eq_of_ofVocabulary`: when there is a plan, and which.
* `exists_generate_eq_ok`: a sink that refuses nothing takes the whole plan.
-/

namespace VocabPhp

variable {σ ε : Type}

/-- A result without its errors says what was computed. Options of results can be compared even when
errors cannot. -/
theorem eq_ok_of_toOption {α : Type} {result : Except ε α} {a : α}
    (h : result.toOption = some a) : result = .ok a := by
  cases result with
  | error e => cases h
  | ok b => exact congrArg Except.ok (Option.some.inj h)

/-! ## Recording -/

/-- A sink that also records every file that it is offered, taken or not. -/
def Sink.recording (sink : Sink σ ε) : Sink (σ × List Artifact) ε := fun a st =>
  ((sink a st.1).1, (sink a st.1).2, st.2 ++ [a])

/-- The files that a run offers to a sink, in their order. -/
def offers (s : Settings) (v : Vocabulary) (sink : Sink σ ε) (st : σ) : List Artifact :=
  (generate s v sink.recording (st, [])).2.2

/-- Recording changes nothing else. -/
theorem saveAll_recording (sink : Sink σ ε) (files : List Artifact) (st : σ)
    (log : List Artifact) :
    (saveAll sink.recording files (st, log)).1 = (saveAll sink files st).1 ∧
      (saveAll sink.recording files (st, log)).2.1 = (saveAll sink files st).2 := by
  induction files generalizing st log with
  | nil => exact ⟨rfl, rfl⟩
  | cons a files ih =>
    simp only [saveAll, Sink.recording]
    rcases h : sink a st with ⟨_ | _, next⟩
    · exact ⟨rfl, rfl⟩
    · exact ih next (log ++ [a])

/-- When no file is refused, all have been offered. -/
theorem saveAll_recording_of_ok (sink : Sink σ ε) (files : List Artifact) (st : σ)
    (log : List Artifact) (h : (saveAll sink files st).1 = .ok ()) :
    (saveAll sink.recording files (st, log)).2.2 = log ++ files := by
  induction files generalizing st log with
  | nil => simp [saveAll]
  | cons a files ih =>
    simp only [saveAll, Sink.recording] at h ⊢
    rcases hs : sink a st with ⟨_ | _, next⟩
    · rw [hs] at h
      cases h
    · rw [hs] at h
      have := ih next (log ++ [a]) h
      simpa using this

/-- A sink that refuses nothing takes all files. -/
theorem saveAll_of_never_refuses {sink : Sink σ ε} (h : ∀ a st, (sink a st).1 = .ok ())
    (files : List Artifact) (st : σ) : (saveAll sink files st).1 = .ok () := by
  induction files generalizing st with
  | nil => rfl
  | cons a files ih =>
    have ha := h a st
    simp only [saveAll]
    rcases hs : sink a st with ⟨_ | _, next⟩
    · rw [hs] at ha
      cases ha
    · exact ih next

/-- A run that succeeds has a plan, all files of which were taken. -/
theorem generate_eq_ok_iff (s : Settings) (v : Vocabulary) (sink : Sink σ ε) (st st' : σ)
    (report : Report) :
    generate s v sink st = (.ok report, st') ↔ ∃ plan, Plan.ofVocabulary s v = .ok plan ∧
      saveAll sink plan.artifacts st = (.ok (), st') ∧ report = plan.report := by
  rw [generate_eq]
  rcases hp : Plan.ofVocabulary s v with c | plan
  · simp
  · rcases hs : saveAll sink plan.artifacts st with ⟨e | _, next⟩
    · simp [hs]
    · simp [hs, eq_comm, and_comm]

/-- A run that succeeds offers exactly the files of the plan and reports them. -/
theorem offers_of_ok {s : Settings} {v : Vocabulary} {sink : Sink σ ε} {st st' : σ}
    {report : Report} (h : generate s v sink st = (.ok report, st')) :
    ∃ plan, Plan.ofVocabulary s v = .ok plan ∧ report = plan.report ∧
      offers s v sink st = plan.artifacts := by
  obtain ⟨plan, hplan, hsave, rfl⟩ := (generate_eq_ok_iff s v sink st st' report).1 h
  refine ⟨plan, hplan, rfl, ?_⟩
  have hok : (saveAll sink plan.artifacts st).1 = .ok () := by rw [hsave]
  have hrec := (saveAll_recording sink plan.artifacts st []).1
  rw [hok] at hrec
  have hlog := saveAll_recording_of_ok sink plan.artifacts st [] hok
  rw [offers, generate_eq, hplan]
  rcases hr : saveAll sink.recording plan.artifacts (st, []) with ⟨e | _, next⟩
  · rw [hr] at hrec
    cases hrec
  · rw [hr] at hlog
    simpa [hr] using hlog

/-! ## The plan -/

/-- When nothing is left out, all of a vocabulary is shown. -/
theorem Vocabulary.selected_eq {s : Settings} (h : s.skipSuperseded = false) (v : Vocabulary) :
    v.selected s = v := by
  rw [selected, h]
  rfl

/-- The model of a class, or the cycle that its name runs into. -/
def Vocabulary.model (s : Settings) (v : Vocabulary) (c : ClassDecl) : Except Cycle ClassModel :=
  match (v.hierarchy s).ancestors c.name with
  | .error e => .error e
  | .ok names => .ok (.resolve s c (c.name :: names) (v.fieldSets s))

/-- A class has a model exactly if its name has ancestors. -/
theorem Vocabulary.model_eq_ok_iff (s : Settings) (v : Vocabulary) (c : ClassDecl)
    (m : ClassModel) :
    v.model s c = .ok m ↔ ∃ names, (v.hierarchy s).ancestors c.name = .ok names ∧
      m = .resolve s c (c.name :: names) (v.fieldSets s) := by
  rw [model]
  rcases (v.hierarchy s).ancestors c.name with e | names
  · simp
  · simp [eq_comm]

namespace Plan

/-- The chains of classes are made one after the other, up to the first cycle. -/
theorem traversal_chains (h : Hierarchy) :
    Traversal (fun _ c => (h.ancestors c.name).map fun names => Chained.mk c (c.name :: names))
      fun _ => chains h where
  nil _ := rfl
  cons _ c cs := by
    rw [chains]
    rcases h.ancestors c.name with e | names
    · rfl
    · rcases chains h cs with e | rest <;> rfl

theorem chained_eq_ok_iff (h : Hierarchy) (c : ClassDecl) (chained : Chained) :
    ((h.ancestors c.name).map fun names => Chained.mk c (c.name :: names)) = .ok chained ↔
      ∃ names, h.ancestors c.name = .ok names ∧ chained = ⟨c, c.name :: names⟩ := by
  rcases h.ancestors c.name with e | names <;> simp [Except.map, eq_comm]

/-- Classes with their chains have the models for these chains. -/
theorem forall₂_model_of_chains {s : Settings} {v : Vocabulary} {chained : List Chained}
    (h : chains (v.hierarchy s) (v.namespaced s) = .ok chained) :
    List.Forall₂ (fun c m => v.model s c = .ok m) (v.namespaced s)
      (chained.map fun c => .resolve s c.decl c.chain (v.fieldSets s)) := by
  have hchained := ((traversal_chains _).eq_ok_iff (fun _ => chained_eq_ok_iff _) 0 _ _).1 h
  rw [List.forall₂_map_right_iff]
  refine hchained.imp ?_
  rintro c x ⟨names, hnames, rfl⟩
  exact (Vocabulary.model_eq_ok_iff s v c _).2 ⟨names, hnames, rfl⟩

/-- The plan for a vocabulary, with given models. -/
def ofModels (s : Settings) (v : Vocabulary) (models : List ClassModel) : Plan where
  declarations := ((v.selected s).namespaced s).flatMap fun c =>
    declarationsOf s ((v.selected s).fieldSet s c)
  models := models.map (modelFile s)
  classes := ((v.selected s).namespaced s).length
  superseded := v.superseded.size

/-- If no class runs into a cycle, the plan has the models for their chains. -/
theorem ofVocabulary_of_chains {s : Settings} {v : Vocabulary} {chained : List Chained}
    (h : chains ((v.selected s).hierarchy s) ((v.selected s).namespaced s) = .ok chained) :
    ofVocabulary s v = .ok (ofModels s v
      (chained.map fun c => .resolve s c.decl c.chain ((v.selected s).fieldSets s))) := by
  simp only [ofVocabulary, h, ofModels, List.map_map]
  rfl

/-- What the plan holds: the traits and interfaces of the classes shown and then their models, both
in the order of the classes. -/
theorem eq_of_ofVocabulary {s : Settings} {v : Vocabulary} {plan : Plan}
    (h : ofVocabulary s v = .ok plan) :
    (∃ models, List.Forall₂ (fun c m => (v.selected s).model s c = .ok m)
        ((v.selected s).namespaced s) models ∧ plan.models = models.map (modelFile s)) ∧
      plan.declarations = ((v.selected s).namespaced s).flatMap
        (fun c => declarationsOf s ((v.selected s).fieldSet s c)) ∧
      plan.classes = ((v.selected s).namespaced s).length ∧
      plan.superseded = v.superseded.size := by
  rcases hc : chains ((v.selected s).hierarchy s) ((v.selected s).namespaced s) with e | chained
  · simp [ofVocabulary, hc] at h
  · obtain rfl := Except.ok.inj ((ofVocabulary_of_chains hc).symm.trans h)
    exact ⟨⟨_, forall₂_model_of_chains hc, rfl⟩, rfl, rfl, rfl⟩

/-- There is a plan exactly if the name of every class shown has ancestors. -/
theorem exists_ofVocabulary_iff (s : Settings) (v : Vocabulary) :
    (∃ plan, ofVocabulary s v = .ok plan) ↔ ∀ c ∈ (v.selected s).namespaced s,
      ∃ names, ((v.selected s).hierarchy s).ancestors c.name = .ok names := by
  have hchains := (traversal_chains ((v.selected s).hierarchy s)).exists_eq_ok_iff
    (fun _ => chained_eq_ok_iff _) 0 ((v.selected s).namespaced s)
  simp only [exists_comm (α := Chained), exists_and_left, exists_eq, and_true] at hchains
  rw [← hchains, ofVocabulary]
  rcases chains ((v.selected s).hierarchy s) ((v.selected s).namespaced s) with e | chained <;> simp

/-- Trait and interface of every class come before all models. -/
theorem length_declarations {s : Settings} {v : Vocabulary} {plan : Plan}
    (h : ofVocabulary s v = .ok plan) :
    plan.declarations.length = 2 * ((v.selected s).namespaced s).length := by
  rw [(eq_of_ofVocabulary h).2.1, List.length_flatMap]
  induction (v.selected s).namespaced s with
  | nil => rfl
  | cons c cs ih =>
    rw [List.map_cons, List.sum_cons, ih, List.length_cons]
    simp only [declarationsOf, List.length_cons, List.length_nil]
    omega

/-- Every class has a model, and its place among the models is that of the class. -/
theorem getElem?_artifacts_model {s : Settings} {v : Vocabulary} {plan : Plan}
    (h : ofVocabulary s v = .ok plan) {i : Nat} {c : ClassDecl}
    (hc : ((v.selected s).namespaced s)[i]? = some c) :
    ∃ m, (v.selected s).model s c = .ok m ∧
      plan.artifacts[2 * ((v.selected s).namespaced s).length + i]? = some (modelFile s m) := by
  obtain ⟨⟨models, hmodels, hplan⟩, -⟩ := eq_of_ofVocabulary h
  obtain ⟨hi, rfl⟩ := List.getElem?_eq_some_iff.1 hc
  have him : i < models.length := hmodels.length_eq ▸ hi
  refine ⟨models[i], hmodels.get hi him, ?_⟩
  rw [artifacts, List.getElem?_append_right (by rw [length_declarations h]; omega),
    length_declarations h, Nat.add_sub_cancel_left, hplan, List.getElem?_map,
    List.getElem?_eq_getElem him]
  rfl

end Plan

/-- A run that succeeds offers a model of every class. -/
theorem exists_model_of_ok {s : Settings} {v : Vocabulary} {sink : Sink σ ε} {st st' : σ}
    {report : Report} (h : generate s v sink st = (.ok report, st')) {c : ClassDecl}
    (hc : c ∈ (v.selected s).namespaced s) :
    ∃ m, (v.selected s).model s c = .ok m ∧ Plan.modelFile s m ∈ offers s v sink st := by
  obtain ⟨plan, hplan, -, hoffers⟩ := offers_of_ok h
  obtain ⟨i, hi⟩ := List.getElem?_of_mem hc
  obtain ⟨m, hm, hfile⟩ := Plan.getElem?_artifacts_model hplan hi
  exact ⟨m, hm, hoffers ▸ List.mem_of_getElem? hfile⟩

/-- A run into a sink that refuses nothing succeeds if the name of every class shown has
ancestors. -/
theorem exists_generate_eq_ok {s : Settings} {v : Vocabulary} {sink : Sink σ ε}
    (hsink : ∀ a st, (sink a st).1 = .ok ())
    (hnames : ∀ c ∈ (v.selected s).namespaced s,
      ∃ names, ((v.selected s).hierarchy s).ancestors c.name = .ok names) (st : σ) :
    ∃ report st', generate s v sink st = (.ok report, st') := by
  obtain ⟨plan, hplan⟩ := (Plan.exists_ofVocabulary_iff s v).2 hnames
  have hsave := saveAll_of_never_refuses hsink plan.artifacts st
  rcases hs : saveAll sink plan.artifacts st with ⟨e | _, st'⟩
  · rw [hs] at hsave
    cases hsave
  · exact ⟨plan.report, st', (generate_eq_ok_iff s v sink st st' _).2 ⟨plan, hplan, hs, rfl⟩⟩

/-- A name without parents has no ancestors. -/
theorem Hierarchy.ancestors_of_parentless {h : Hierarchy} {name : String}
    (hparents : h.parentsOf name = []) : h.ancestors name = .ok [] := by
  rw [ancestors, hparents, walk]

theorem Plan.chains_of_parentless {h : Hierarchy} {cs : List ClassDecl}
    (hparents : ∀ c ∈ cs, h.parentsOf c.name = []) :
    chains h cs = .ok (cs.map fun c => ⟨c, [c.name]⟩) := by
  induction cs with
  | nil => rfl
  | cons c cs ih =>
    rw [chains, Hierarchy.ancestors_of_parentless (hparents c List.mem_cons_self),
      ih fun d hd => hparents d (List.mem_cons_of_mem c hd)]
    rfl

/-- Classes without parents have models for chains of their own names. -/
theorem Plan.ofVocabulary_of_parentless {s : Settings} {v : Vocabulary}
    (h : ∀ c ∈ (v.selected s).namespaced s, ((v.selected s).hierarchy s).parentsOf c.name = []) :
    ofVocabulary s v = .ok (ofModels s v (((v.selected s).namespaced s).map fun c =>
      .resolve s c [c.name] ((v.selected s).fieldSets s))) := by
  rw [ofVocabulary_of_chains (chains_of_parentless h), List.map_map]
  rfl

/-- Classes without parents can be generated onto a shelf. -/
theorem exists_generate_of_parentless {s : Settings} {v : Vocabulary}
    (h : ∀ c ∈ (v.selected s).namespaced s, ((v.selected s).hierarchy s).parentsOf c.name = []) :
    ∃ report shelf, generate (ε := Empty) s v Shelf.sink ∅ = (.ok report, shelf) := by
  exact exists_generate_eq_ok (fun _ _ => rfl)
    (fun c hc => ⟨[], Hierarchy.ancestors_of_parentless (h c hc)⟩) ∅

end VocabPhp
