import VocabPhp.Proofs.Run

/-!
# What a plan depends on

A plan is made from the part of a vocabulary that is shown: from the classes of the namespace, in
their order, and from the properties of these classes. The settings say whether superseded resources
are shown; for the rest they matter to the texts only.

* `Plan.ofShown`, `Plan.ofVocabulary_eq_ofShown`: the plan for what is shown.
* `Plan.ofShown_congr`: classes of the namespace and their properties determine it.
* `Settings.skipping`, `Plan.ofShown_skipping`: settings that differ in what they skip make the same
  plan of the same part.
* `generate_eq_of_plan_eq`, `generate_eq_of_plan_eq_map`: runs with the same plan, or with plans
  that differ in the number of superseded resources, do the same.
-/

namespace VocabPhp

variable {s t : Settings} {v w : Vocabulary}

/-! ## Plans -/

namespace Plan

/-- The plan for what is shown of a vocabulary with a number of superseded resources. -/
def ofShown (s : Settings) (shown : Vocabulary) (superseded : Nat) : Except Cycle Plan :=
  match chains (shown.hierarchy s) (shown.namespaced s) with
  | .error c => .error c
  | .ok chained => .ok {
      declarations := (shown.namespaced s).flatMap fun c => declarationsOf s (shown.fieldSet s c)
      models := chained.map fun c => modelFile s (.resolve s c.decl c.chain (shown.fieldSets s))
      classes := (shown.namespaced s).length
      superseded }

theorem ofVocabulary_eq_ofShown (s : Settings) (v : Vocabulary) :
    ofVocabulary s v = ofShown s (v.selected s) v.superseded.size := rfl

/-- Only the classes of the namespace and their properties matter. -/
theorem ofShown_congr (hclasses : v.namespaced s = w.namespaced s)
    (hproperties : ∀ c ∈ v.namespaced s, v.propertiesOf? c.id = w.propertiesOf? c.id) (n : Nat) :
    ofShown s v n = ofShown s w n := by
  have hset : ∀ c ∈ v.namespaced s, v.fieldSet s c = w.fieldSet s c := by
    intro c hc
    rw [Vocabulary.fieldSet, Vocabulary.fieldSet, hproperties c hc]
  have hhierarchy : v.hierarchy s = w.hierarchy s := by
    show Hierarchy.ofEdges ((v.namespaced s).map _) = Hierarchy.ofEdges ((w.namespaced s).map _)
    rw [hclasses]
  have hsets : v.fieldSets s = w.fieldSets s := by
    rw [Vocabulary.fieldSets, Vocabulary.fieldSets, ← hclasses]
    exact congrArg Table.ofList (List.map_congr_left fun c hc => by rw [hset c hc])
  have hdeclarations : (v.namespaced s).flatMap (fun c => declarationsOf s (v.fieldSet s c)) =
      (w.namespaced s).flatMap fun c => declarationsOf s (w.fieldSet s c) := by
    rw [← hclasses, List.flatMap, List.flatMap]
    exact congrArg List.flatten (List.map_congr_left fun c hc => by rw [hset c hc])
  rw [ofShown, ofShown, hhierarchy, hsets, hdeclarations, hclasses]

/-- The number of superseded resources is only reported. -/
theorem ofShown_eq_map (s : Settings) (v : Vocabulary) (n m : Nat) :
    ofShown s v n = (ofShown s v m).map fun p => { p with superseded := n } := by
  rw [ofShown, ofShown]
  rcases chains (v.hierarchy s) (v.namespaced s) with c | chained <;> rfl

end Plan

/-! ## Settings that differ in what they skip -/

/-- The settings, with the choice whether superseded resources are left out. -/
def Settings.skipping (s : Settings) (skip : Bool) : Settings := { s with skipSuperseded := skip }

theorem Vocabulary.selected_skipping_true (s : Settings) (v : Vocabulary) :
    v.selected (s.skipping true) = v.withoutSuperseded := rfl

theorem Vocabulary.selected_skipping_false (s : Settings) (v : Vocabulary) :
    v.selected (s.skipping false) = v := rfl

/-- Texts do not depend on what is skipped. -/
theorem Plan.ofShown_skipping (s : Settings) (skip : Bool) (v : Vocabulary) (n : Nat) :
    ofShown (s.skipping skip) v n = ofShown s v n := rfl

/-! ## Runs -/

variable {σ ε : Type}

/-- Runs with the same plan do the same. -/
theorem generate_eq_of_plan_eq (h : Plan.ofVocabulary s v = Plan.ofVocabulary t w)
    (sink : Sink σ ε) (st : σ) :
    generate s v sink st = generate t w sink st ∧ offers s v sink st = offers t w sink st := by
  have hrun : ∀ {σ : Type} (sink : Sink σ ε) (st : σ),
      generate s v sink st = generate t w sink st := by
    intro σ sink st
    rw [generate_eq, generate_eq, h]
  exact ⟨hrun sink st, by rw [offers, offers, hrun]⟩

/-- Runs with plans that differ in the number of superseded resources do the same and report that
number. -/
theorem generate_eq_of_plan_eq_map {n : Nat}
    (h : Plan.ofVocabulary s v = (Plan.ofVocabulary t w).map fun p => { p with superseded := n })
    (sink : Sink σ ε) (st : σ) :
    generate s v sink st =
        ((generate t w sink st).1.map fun r => { r with superseded := n },
          (generate t w sink st).2) ∧
      offers s v sink st = offers t w sink st := by
  have hrun : ∀ {σ : Type} (sink : Sink σ ε) (st : σ), generate s v sink st =
      ((generate t w sink st).1.map fun r => { r with superseded := n },
        (generate t w sink st).2) := by
    intro σ sink st
    rw [generate_eq, generate_eq, h]
    rcases Plan.ofVocabulary t w with c | plan
    · rfl
    · have hartifacts : { plan with superseded := n }.artifacts = plan.artifacts := rfl
      simp only [Except.map, hartifacts]
      rcases saveAll sink plan.artifacts st with ⟨e | _, next⟩ <;> rfl
  exact ⟨hrun sink st, by rw [offers, offers, hrun]⟩

end VocabPhp
