import VocabPhp.Artifact.Generate

/-!
# Saving follows the plan

A run saves its files in two passes through the classes, and counts and lists them on the way. What
it does to a sink is known before: it offers the files of the plan one after the other, up to the
first that is refused.

* `saveAll`: offers files to a sink, in order and up to the first that it refuses.
* `Saves`: what a part of a run saves and what it then has.
* `Saves.bind`, `Saves.bind_pure`: parts one after the other.
* `saves_declare`, `saves_present`: what is saved for one class.
* `saves_foldlM_declare`, `saves_foldlM_present`: what is saved in a whole pass, and counted.
* `generate_eq`: a run saves the files of the plan.
-/

namespace VocabPhp

variable {σ ε α β : Type} {s : Settings} {v : Vocabulary} {sink : Sink σ ε}

/-- Offers files to a sink, in order and up to the first that it refuses. -/
def saveAll (sink : Sink σ ε) : List Artifact → σ → Except (GenerationError ε) Unit × σ
  | [], st => (.ok (), st)
  | a :: rest, st =>
    match sink a st with
    | (.error cause, st) => (.error (.save a.name cause), st)
    | (.ok (), st) => saveAll sink rest st

theorem saveAll_append (sink : Sink σ ε) (files more : List Artifact) (st : σ) :
    saveAll sink (files ++ more) st =
      match saveAll sink files st with
      | (.error e, st) => (.error e, st)
      | (.ok (), st) => saveAll sink more st := by
  induction files generalizing st with
  | nil => rfl
  | cons a files ih =>
    rw [List.cons_append, saveAll, saveAll]
    rcases sink a st with ⟨cause | _, next⟩
    · rfl
    · exact ih next

/-! ## Parts of a run -/

/-- `Saves sink part files result`: the part of a run offers the files to the sink, in order and up
to the first that is refused. If none is, it gives the result. -/
def Saves (sink : Sink σ ε) (part : Saving σ ε α) (files : List Artifact) (result : α) : Prop :=
  ∀ st, part.run.run st =
    match saveAll sink files st with
    | (.error e, st) => (.error e, st)
    | (.ok (), st) => (.ok result, st)

theorem saves_pure (sink : Sink σ ε) (result : α) : Saves sink (pure result) [] result :=
  fun _ => rfl

theorem Saves.bind {part : Saving σ ε α} {next : α → Saving σ ε β} {files more : List Artifact}
    {a : α} {b : β} (h : Saves sink part files a) (hnext : Saves sink (next a) more b) :
    Saves sink (part >>= next) (files ++ more) b := by
  intro st
  have hbind : (part >>= next).run.run st =
      match part.run.run st with
      | (.error e, st) => (.error e, st)
      | (.ok a, st) => (next a).run.run st := by
    rw [ExceptT.run_bind, StateT.run_bind]
    rcases part.run.run st with ⟨_ | _, _⟩ <;> rfl
  rw [hbind, h st, saveAll_append]
  rcases saveAll sink files st with ⟨e | _, mid⟩
  · rfl
  · exact hnext mid

/-- A part that only changes its result afterwards saves the same files. -/
theorem Saves.bind_pure {part : Saving σ ε α} {files : List Artifact} {a : α}
    (h : Saves sink part files a) (f : α → β) :
    Saves sink (part >>= fun a => pure (f a)) files (f a) := by
  have hbind : Saves sink (part >>= fun a => pure (f a)) (files ++ []) (f a) :=
    h.bind (saves_pure sink (f a))
  rwa [List.append_nil] at hbind

/-! ## Reports -/

/-- A report with more traits, interfaces and models, for more files. -/
def Report.plus (r : Report) (traits interfaces models : Nat) (files : List Artifact) : Report :=
  { r with
    traits := r.traits + traits
    interfaces := r.interfaces + interfaces
    models := r.models + models
    files := r.files ++ files.map Artifact.name }

theorem Report.plus_zero (r : Report) : r.plus 0 0 0 [] = r := by simp [plus]

theorem Report.plus_plus (r : Report) (t i m t' i' m' : Nat) (files more : List Artifact) :
    (r.plus t i m files).plus t' i' m' more =
      r.plus (t + t') (i + i') (m + m') (files ++ more) := by
  simp [plus, Nat.add_assoc]

/-- A file is saved and its name is noted. -/
theorem saves_save (sink : Sink σ ε) (r : Report) (a : Artifact) :
    Saves sink (r.save sink a) [a] (r.plus 0 0 0 [a]) := by
  intro st
  change Report.save sink r a st = _
  rw [Report.save, saveAll]
  rcases sink a st with ⟨cause | _, next⟩ <;> rfl

/-! ## The two passes -/

/-- For each class trait and interface are saved and counted, and its fields are kept. -/
theorem saves_declare (sink : Sink σ ε) (d : Declared) (c : ClassDecl) :
    Saves sink (declare s v sink d c) (Plan.declarationsOf s (v.fieldSet s c))
      ⟨d.report.plus 1 1 0 (Plan.declarationsOf s (v.fieldSet s c)),
        d.sets.insert c.name (v.fieldSet s c)⟩ := by
  have hreport : d.report.plus 1 1 0 (Plan.declarationsOf s (v.fieldSet s c)) =
      (d.report.plus 1 0 0 [Plan.traitFile s (v.fieldSet s c)]).plus 0 1 0
        [Plan.interfaceFile s (v.fieldSet s c)] := by
    rw [Report.plus_plus]
    rfl
  rw [hreport]
  apply (saves_save sink d.report (Plan.traitFile s (v.fieldSet s c))).bind
  exact (saves_save sink _ (Plan.interfaceFile s (v.fieldSet s c))).bind_pure fun report =>
    Declared.mk { report with interfaces := report.interfaces + 1 }
      (d.sets.insert c.name (v.fieldSet s c))

/-- The first pass saves traits and interfaces of all classes. Both counters go up by the number of
the classes, and the table has their fields. -/
theorem saves_foldlM_declare (s : Settings) (v : Vocabulary) (sink : Sink σ ε) (cs : List ClassDecl)
    (d : Declared) :
    Saves sink (cs.foldlM (declare s v sink) d)
      (cs.flatMap fun c => Plan.declarationsOf s (v.fieldSet s c))
      ⟨d.report.plus cs.length cs.length 0
          (cs.flatMap fun c => Plan.declarationsOf s (v.fieldSet s c)),
        cs.foldl (fun sets c => sets.insert c.name (v.fieldSet s c)) d.sets⟩ := by
  induction cs generalizing d with
  | nil =>
    rw [List.length_nil, List.flatMap_nil, Report.plus_zero]
    exact saves_pure sink d
  | cons c cs ih =>
    rw [List.foldlM_cons, List.flatMap_cons, List.length_cons, Nat.add_comm cs.length,
      ← Nat.zero_add 0, ← Report.plus_plus]
    exact (saves_declare sink d c).bind (ih _)

/-- For each class its model is saved and counted. -/
theorem saves_present (sink : Sink σ ε) (sets : Table FieldSet) (report : Report)
    (c : Plan.Chained) :
    Saves sink (present s sets sink report c)
      [Plan.modelFile s (.resolve s c.decl c.chain sets)]
      (report.plus 0 0 1 [Plan.modelFile s (.resolve s c.decl c.chain sets)]) :=
  (saves_save sink report _).bind_pure fun report =>
    ({ report with models := report.models + 1 } : Report)

/-- The second pass saves the models of all classes, for one table of fields. -/
theorem saves_foldlM_present (s : Settings) (sets : Table FieldSet) (sink : Sink σ ε)
    (cs : List Plan.Chained) (report : Report) :
    Saves sink (cs.foldlM (present s sets sink) report)
      (cs.map fun c => Plan.modelFile s (.resolve s c.decl c.chain sets))
      (report.plus 0 0 cs.length
        (cs.map fun c => Plan.modelFile s (.resolve s c.decl c.chain sets))) := by
  induction cs generalizing report with
  | nil =>
    rw [List.length_nil, List.map_nil, Report.plus_zero]
    exact saves_pure sink report
  | cons c cs ih =>
    rw [List.foldlM_cons, List.map_cons, List.length_cons, Nat.add_comm cs.length,
      ← List.singleton_append, ← Nat.zero_add 0, ← Report.plus_plus]
    exact (saves_present sink sets report c).bind (ih _)

/-- The table that the first pass has filled holds the fields of all classes. -/
theorem Vocabulary.foldl_insert_fieldSet (s : Settings) (v : Vocabulary) :
    (v.namespaced s).foldl (fun sets c => sets.insert c.name (v.fieldSet s c)) ∅ =
      v.fieldSets s := by
  rw [fieldSets, Table.ofList, List.foldl_map]
  rfl

/-- Both passes together. The second finds the fields of all classes, also of those that come
behind. -/
theorem saves_saveClasses (s : Settings) (v : Vocabulary) (sink : Sink σ ε)
    (chained : List Plan.Chained) (report : Report) :
    Saves sink (saveClasses s v sink chained report)
      ((v.namespaced s).flatMap (fun c => Plan.declarationsOf s (v.fieldSet s c)) ++
        chained.map fun c => Plan.modelFile s (.resolve s c.decl c.chain (v.fieldSets s)))
      (report.plus (v.namespaced s).length (v.namespaced s).length chained.length
        ((v.namespaced s).flatMap (fun c => Plan.declarationsOf s (v.fieldSet s c)) ++
          chained.map fun c => Plan.modelFile s (.resolve s c.decl c.chain (v.fieldSets s)))) := by
  have hdeclared := saves_foldlM_declare s v sink (v.namespaced s) ⟨report, ∅⟩
  rw [Vocabulary.foldl_insert_fieldSet] at hdeclared
  have hsum (n m : Nat) (files more : List Artifact) :
      report.plus n n m (files ++ more) = (report.plus n n 0 files).plus 0 0 m more := by
    rw [Report.plus_plus, Nat.zero_add, Nat.add_zero]
  rw [hsum]
  apply hdeclared.bind
  exact saves_foldlM_present s (v.fieldSets s) sink chained _

/-! ## Runs -/

/-- Every class has a chain, so there are as many of these. -/
theorem Plan.length_chains {h : Hierarchy} {cs : List ClassDecl} {chained : List Chained}
    (hchains : chains h cs = .ok chained) : chained.length = cs.length := by
  induction cs generalizing chained with
  | nil =>
    cases hchains
    rfl
  | cons c cs ih =>
    rw [chains] at hchains
    split at hchains
    · cases hchains
    · split at hchains
      · cases hchains
      · next rest hrest =>
        cases hchains
        rw [List.length_cons, List.length_cons, ih hrest]

/-- A run saves the files of the plan in their order, up to the first that is refused. If none is,
it gives the report of the plan. Without a plan it saves nothing. -/
theorem generate_eq (s : Settings) (v : Vocabulary) (sink : Sink σ ε) (st : σ) :
    generate s v sink st =
      match Plan.ofVocabulary s v with
      | .error c => (.error (.cycle c), st)
      | .ok plan =>
        match saveAll sink plan.artifacts st with
        | (.error e, st) => (.error e, st)
        | (.ok (), st) => (.ok plan.report, st) := by
  rw [generate, Plan.ofVocabulary]
  cases hchains : Plan.chains ((v.selected s).hierarchy s) ((v.selected s).namespaced s) with
  | error c => rfl
  | ok chained =>
    have hrun := saves_saveClasses s (v.selected s) sink chained
      { superseded := v.superseded.size } st
    rw [Plan.length_chains hchains] at hrun
    simp only [Report.plus, Nat.zero_add, List.nil_append] at hrun
    exact hrun

end VocabPhp
