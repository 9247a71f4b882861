import VocabPhp.Proofs.Inheritance

/-!
# Lineages by identifier and by label

Classes refer to their parents by identifier, and the hierarchy knows them by label: a reference
leads to the class whose label is the local name of the identifier. The two agree only where classes
are labelled with their local names.

* `Vocabulary.Refers`: a class refers to another one as a parent, by its identifier.
* `Vocabulary.Inherits`: a model has the name and all handles of a class.
* `generate_inherits_iff`: models inherit from everything above them by identifier exactly if labels
  lead there (`Vocabulary.LabelsLead`), which they do if all classes are labelled with their local
  names.
* `generate_lineage_lost`: a parent that is not labelled with its local name is not inherited from.
-/

namespace VocabPhp

open Relation

variable {σ ε : Type} {s : Settings} {v : Vocabulary} {sink : Sink σ ε} {st st' : σ}
  {report : Report}

namespace Vocabulary

/-- A class refers to another one, both of the namespace, as a parent. -/
def Refers (s : Settings) (v : Vocabulary) (c d : ClassDecl) : Prop :=
  c ∈ v.namespaced s ∧ d ∈ v.namespaced s ∧ d.id ∈ c.parentIds

/-- Labels lead from a name to a handle: to the owner of some name, which has a property with that
handle. -/
def Reaches (s : Settings) (v : Vocabulary) (name handle : String) : Prop :=
  ∃ n d p, ReflTransGen (v.LabelStep s) name n ∧ v.Owns s d n ∧ v.Attaches d p ∧ p.handle = handle

/-- The name of a class is on the chain of a model, and the handles of all its properties are among
those of the model. -/
def Inherits (v : Vocabulary) (m : ClassModel) (d : ClassDecl) : Prop :=
  d.name ∈ m.chain ∧ ∀ p, v.Attaches d p → p.handle ∈ m.handles

/-- Models inherit from all classes above theirs by identifier. -/
def InheritsAll (s : Settings) (v : Vocabulary) : Prop :=
  ∀ c ∈ v.namespaced s, ∀ d m, ReflTransGen (v.Refers s) c d → v.model s c = .ok m → v.Inherits m d

/-- Labels lead across every reference, and from every class to the handles of its properties. -/
def LabelsLead (s : Settings) (v : Vocabulary) : Prop :=
  (∀ c d, v.Refers s c d → ReflTransGen (v.LabelStep s) c.name d.name) ∧
    ∀ d ∈ v.namespaced s, ∀ p, v.Attaches d p → v.Reaches s d.name p.handle

theorem mem_handles_iff_reaches {c : ClassDecl} {m : ClassModel} (hm : v.model s c = .ok m)
    (handle : String) : handle ∈ m.handles ↔ v.Reaches s c.name handle := by
  rw [mem_handles_model_iff hm]
  simp only [mem_chain_iff hm]
  constructor
  · rintro ⟨n, hn, d, hd, p, hp, hhandle⟩
    exact ⟨n, d, p, hn, hd, hp, hhandle⟩
  · rintro ⟨n, d, p, hn, hd, hp, hhandle⟩
    exact ⟨n, hn, d, hd, p, hp, hhandle⟩

theorem inherits_iff {c : ClassDecl} {m : ClassModel} (hm : v.model s c = .ok m) (d : ClassDecl) :
    v.Inherits m d ↔ ReflTransGen (v.LabelStep s) c.name d.name ∧
      ∀ p, v.Attaches d p → v.Reaches s c.name p.handle := by
  simp only [Inherits, mem_chain_iff hm, mem_handles_iff_reaches hm]

/-- What is reached from a name that labels lead to is reached from where they come from. -/
theorem Reaches.of_reflTransGen {name n handle : String} (h : v.Reaches s n handle)
    (hn : ReflTransGen (v.LabelStep s) name n) : v.Reaches s name handle := by
  obtain ⟨k, d, p, hk, hd, hp, hhandle⟩ := h
  exact ⟨k, d, p, hn.trans hk, hd, hp, hhandle⟩

/-- Labels that lead across every reference lead along all of them. -/
theorem reflTransGen_labelStep {c d : ClassDecl}
    (hstep : ∀ c d, v.Refers s c d → ReflTransGen (v.LabelStep s) c.name d.name)
    (h : ReflTransGen (v.Refers s) c d) : ReflTransGen (v.LabelStep s) c.name d.name := by
  induction h with
  | refl => exact .refl
  | tail _ hlast ih => exact ih.trans (hstep _ _ hlast)

/-- The end of a line of references from a class of the namespace lies in the namespace. -/
theorem mem_namespaced_of_refers {c d : ClassDecl} (hc : c ∈ v.namespaced s)
    (h : ReflTransGen (v.Refers s) c d) : d ∈ v.namespaced s := by
  rcases ReflTransGen.cases_tail h with rfl | ⟨e, -, hed⟩
  · exact hc
  · exact hed.2.1

/-- Where all classes have models, these inherit from all classes above exactly if labels lead
there. -/
theorem inheritsAll_iff (hmodels : ∀ c ∈ v.namespaced s, ∃ m, v.model s c = .ok m) :
    v.InheritsAll s ↔ v.LabelsLead s := by
  constructor
  · intro hall
    refine ⟨fun c d hcd => ?_, fun d hd p hp => ?_⟩
    · obtain ⟨m, hm⟩ := hmodels c hcd.1
      exact ((inherits_iff hm d).1 (hall c hcd.1 d m (.single hcd) hm)).1
    · obtain ⟨m, hm⟩ := hmodels d hd
      exact ((inherits_iff hm d).1 (hall d hd d m .refl hm)).2 p hp
  · rintro ⟨hstep, hown⟩ c hc d m hcd hm
    have hname := reflTransGen_labelStep hstep hcd
    have hd := mem_namespaced_of_refers hc hcd
    exact (inherits_iff hm d).2 ⟨hname, fun p hp => (hown d hd p hp).of_reflTransGen hname⟩

/-- Labels lead everywhere if every class owns its name and is labelled with its local name. -/
theorem labelsLead_of_local_names (h : ∀ d ∈ v.namespaced s,
    v.Owns s d d.name ∧ s.vocabulary.localName? d.id = some d.name) : v.LabelsLead s := by
  refine ⟨fun c d hcd => ?_, fun d hd p hp => ?_⟩
  · have hstep : v.LabelStep s c.name d.name :=
      ⟨c, (h c hcd.1).1, d.id, hcd.2.2, (h d hcd.2.1).2⟩
    exact .single hstep
  · exact ⟨d.name, d, p, .refl, (h d hd).1, hp, rfl⟩

end Vocabulary

/-- When a run that leaves nothing out makes every model inherit from all classes above it by
identifier: exactly if labels lead across every reference, and from every class to the handles of
its properties. In particular this is so if every class owns its name and is labelled with its local
name. -/
theorem generate_inherits_iff (h : generate s v sink st = (.ok report, st'))
    (hall : s.skipSuperseded = false) :
    (∀ c ∈ v.namespaced s, ∃ m, v.model s c = .ok m ∧ Plan.modelFile s m ∈ offers s v sink st) ∧
      (v.InheritsAll s ↔ v.LabelsLead s) ∧
      ((∀ d ∈ v.namespaced s, v.Owns s d d.name ∧ s.vocabulary.localName? d.id = some d.name) →
        v.InheritsAll s) := by
  have hmodels : ∀ c ∈ v.namespaced s,
      ∃ m, v.model s c = .ok m ∧ Plan.modelFile s m ∈ offers s v sink st := by
    intro c hc
    have hm := exists_model_of_ok h (c := c)
    rw [Vocabulary.selected_eq hall] at hm
    exact hm hc
  have hiff : v.InheritsAll s ↔ v.LabelsLead s := by
    refine Vocabulary.inheritsAll_iff fun c hc => ?_
    obtain ⟨m, hm, -⟩ := hmodels c hc
    exact ⟨m, hm⟩
  exact ⟨hmodels, hiff, fun hlabels => hiff.2 (Vocabulary.labelsLead_of_local_names hlabels)⟩

/-! ### One parent under two identifiers -/

/-- The nodes of a class labelled `Base`, of a class below it and of a property of the base. -/
def weighedNodes (id : String) : List Json := [
  .object [("@id", .string id), ("@type", .string "rdfs:Class"), ("rdfs:label", .string "Base")],
  .object [("@id", .string "schema:Child"), ("@type", .string "rdfs:Class"),
    ("rdfs:label", .string "Child"), ("rdfs:subClassOf", .object [("@id", .string id)])],
  .object [("@id", .string "schema:weight"), ("@type", .string "rdf:Property"),
    ("rdfs:label", .string "weight"), ("schema:domainIncludes", .object [("@id", .string id)]),
    ("schema:rangeIncludes", .object [("@id", .string "schema:Text")])]]

/-- The class labelled `Base`. -/
def baseClass (id : String) : ClassDecl := plainClass id "Base" []

/-- The class below it. -/
def childClass (id : String) : ClassDecl := plainClass "schema:Child" "Child" [id]

/-- The property of the base. -/
def baseWeight (id : String) : PropertyDecl := plainProperty "schema:weight" "weight" id

/-- The vocabulary of these nodes. -/
def weighed (id : String) : Vocabulary where
  classes := .ofList [(id, baseClass id), ("schema:Child", childClass id)]
  attached := .ofList [(id, .ofList [("schema:weight", baseWeight id)])]
  members := ∅
  superseded := ∅

/-- A run on a vocabulary whose classes are a base without ancestors and a child. -/
theorem exists_generate_weighed {id : String} {names : List String}
    (hclasses : (weighed id).namespaced {} = [baseClass id, childClass id])
    (hbase : ((weighed id).hierarchy {}).ancestors "Base" = .ok [])
    (hchild : ((weighed id).hierarchy {}).ancestors "Child" = .ok names) :
    ∃ report shelf, generate (ε := Empty) {} (weighed id) Shelf.sink ∅ = (.ok report, shelf) := by
  refine exists_generate_eq_ok (fun _ _ => rfl) (fun c hc => ?_) ∅
  change c ∈ (weighed id).namespaced {} at hc
  simp only [hclasses, List.mem_cons, List.not_mem_nil, or_false] at hc
  rcases hc with rfl | rfl
  · exact ⟨[], hbase⟩
  · exact ⟨names, hchild⟩

/-- With the local name of its identifier for a label, the base passes its property on. -/
theorem generate_inherits_iff_weighed : ∃ report shelf,
    generate (ε := Empty) {} (weighed "schema:Base") Shelf.sink ∅ = (.ok report, shelf) ∧
      ∀ m, (weighed "schema:Base").model {} (childClass "schema:Base") = .ok m →
        (weighed "schema:Base").Inherits m (baseClass "schema:Base") := by
  have hclasses : (weighed "schema:Base").namespaced {} =
      [baseClass "schema:Base", childClass "schema:Base"] := by decide +kernel
  have hbase : ((weighed "schema:Base").hierarchy {}).parentsOf "Base" = [] := by decide +kernel
  have hchild : ((weighed "schema:Base").hierarchy {}).parentsOf "Child" = ["Base"] := by
    decide +kernel
  have hchain : ((weighed "schema:Base").hierarchy {}).ancestors "Child" = .ok ["Base"] := by
    simp [Hierarchy.ancestors, Hierarchy.walk, hbase, hchild]
  have howns : ∀ d ∈ (weighed "schema:Base").namespaced {},
      (weighed "schema:Base").Owns {} d d.name ∧
        ({} : Settings).vocabulary.localName? d.id = some d.name := by
    simp only [hclasses, List.forall_mem_cons, ← Vocabulary.owner?_eq_some_iff]
    decide +kernel
  obtain ⟨report, shelf, h⟩ := exists_generate_weighed hclasses
    (by simp [Hierarchy.ancestors, Hierarchy.walk, hbase]) hchain
  have hrefers : (weighed "schema:Base").Refers {} (childClass "schema:Base")
      (baseClass "schema:Base") := by
    simp only [Vocabulary.Refers, hclasses]
    decide +kernel
  exact ⟨report, shelf, h, fun m hm =>
    (generate_inherits_iff h rfl).2.2 howns _ hrefers.1 _ m (.single hrefers) hm⟩

/-- Under another identifier it is lost: the child refers to it all the same, but its chain goes on
with the local name of that identifier, which no class is labelled with. -/
theorem generate_lineage_lost : ∃ v child base weight report shelf m,
    Vocabulary.ofNodes .schemaOrg (weighedNodes "schema:Ancestor") = .ok v ∧
      generate (ε := Empty) {} v Shelf.sink ∅ = (.ok report, shelf) ∧
      v.Refers {} child base ∧ v.Attaches base weight ∧ v.model {} child = .ok m ∧
      base.name = "Base" ∧ weight.handle = "weight" ∧ m.chain = ["Child", "Ancestor"] ∧
      m.handles = [] ∧ ¬ v.Inherits m base := by
  have hread : Vocabulary.ofNodes .schemaOrg (weighedNodes "schema:Ancestor") =
      .ok (weighed "schema:Ancestor") := eq_ok_of_toOption (by decide +kernel)
  have hclasses : (weighed "schema:Ancestor").namespaced {} =
      [baseClass "schema:Ancestor", childClass "schema:Ancestor"] := by decide +kernel
  have hbase : ((weighed "schema:Ancestor").hierarchy {}).parentsOf "Base" = [] := by
    decide +kernel
  have hancestor : ((weighed "schema:Ancestor").hierarchy {}).parentsOf "Ancestor" = [] := by
    decide +kernel
  have hchild : ((weighed "schema:Ancestor").hierarchy {}).parentsOf "Child" = ["Ancestor"] := by
    decide +kernel
  have hchain : ((weighed "schema:Ancestor").hierarchy {}).ancestors "Child" =
      .ok ["Ancestor"] := by
    simp [Hierarchy.ancestors, Hierarchy.walk, hchild, hancestor]
  obtain ⟨report, shelf, h⟩ := exists_generate_weighed hclasses
    (by simp [Hierarchy.ancestors, Hierarchy.walk, hbase]) hchain
  have hrefers : (weighed "schema:Ancestor").Refers {} (childClass "schema:Ancestor")
      (baseClass "schema:Ancestor") := by
    simp only [Vocabulary.Refers, hclasses]
    decide +kernel
  refine ⟨weighed "schema:Ancestor", childClass "schema:Ancestor", baseClass "schema:Ancestor",
    baseWeight "schema:Ancestor", report, shelf, _, hread, h, hrefers,
    ⟨_, "schema:weight", rfl, by decide +kernel⟩,
    (Vocabulary.model_eq_ok_iff _ _ _ _).2 ⟨_, hchain, rfl⟩, rfl, rfl, rfl, by decide +kernel, ?_⟩
  rintro ⟨hname, -⟩
  exact absurd hname (by decide +kernel)

end VocabPhp
