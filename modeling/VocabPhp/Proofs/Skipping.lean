import Mathlib.Data.List.Nodup
import VocabPhp.Proofs.Inheritance
import VocabPhp.Proofs.Superseded

/-!
# What skipping keeps

A run that skips what is superseded does not know superseded classes at all. Their names stay on the
chains of the classes that refer to them, but the lines of ancestors end there. What a model
inherits comes from the classes that references lead to without a superseded class in between.

* `Vocabulary.IsCurrent`, `Vocabulary.AttachesCurrent`: classes and properties that are not
  superseded.
* `Vocabulary.owns_withoutSuperseded_iff`, `Vocabulary.attaches_withoutSuperseded_iff`: they are
  what is left.
* `Vocabulary.CurrentStep`: a reference between classes that are not superseded.
* `Vocabulary.reflTransGen_labelStep_withoutSuperseded_iff`: labels lead where such references lead.
* `generate_skipping_handles_iff`: the handles of a model of a run that skips.
* `generate_skipping_cut`: a superseded class in between loses what is inherited through it.
-/

namespace VocabPhp

open Relation

namespace Vocabulary

variable {s : Settings} {v : Vocabulary} {c d : ClassDecl}

/-- No two classes of the namespace have one label. -/
def DistinctLabels (s : Settings) (v : Vocabulary) : Prop :=
  ((v.namespaced s).map ClassDecl.name).Nodup

/-- A class of the namespace that is not superseded. -/
def IsCurrent (s : Settings) (v : Vocabulary) (c : ClassDecl) : Prop :=
  ∃ id, v.classes.find? id = some c ∧ v.superseded.contains id = false ∧
    s.vocabulary.contains c.id = true

/-- A property that is not superseded is attached to a class. -/
def AttachesCurrent (v : Vocabulary) (c : ClassDecl) (p : PropertyDecl) : Prop :=
  ∃ ps id, v.propertiesOf? c.id = some ps ∧ ps.find? id = some p ∧
    v.superseded.contains id = false

/-- A class refers to the label of another one, and neither is superseded. -/
def CurrentStep (s : Settings) (v : Vocabulary) (c d : ClassDecl) : Prop :=
  v.IsCurrent s c ∧ v.IsCurrent s d ∧
    ∃ id ∈ c.parentIds, s.vocabulary.localName? id = some d.name

/-! ## What is left -/

theorem IsCurrent.mem_namespaced (hc : v.IsCurrent s c) : c ∈ v.namespaced s := by
  obtain ⟨id, hfind, -, hns⟩ := hc
  exact (mem_namespaced_iff c).2 ⟨⟨id, hfind⟩, hns⟩

/-- The classes that are left are those that are not superseded. -/
theorem mem_namespaced_withoutSuperseded_iff (c : ClassDecl) :
    c ∈ v.withoutSuperseded.namespaced s ↔ v.IsCurrent s c := by
  rw [mem_namespaced_iff, IsCurrent]
  simp only [find?_classes_withoutSuperseded, Option.ite_none_left_eq_some, Bool.not_eq_true]
  constructor
  · rintro ⟨⟨id, hcurrent, hfind⟩, hns⟩
    exact ⟨id, hfind, hcurrent, hns⟩
  · rintro ⟨id, hfind, hcurrent, hns⟩
    exact ⟨⟨id, hcurrent, hfind⟩, hns⟩

theorem attaches_iff (c : ClassDecl) (p : PropertyDecl) :
    v.Attaches c p ↔ ∃ id, attached? v.attached c.id id = some p := by
  simp only [Attaches, propertiesOf?, attached?, Option.bind_eq_some_iff]
  exact exists_comm

/-- The properties that a class is left with are those that are not superseded. -/
theorem attaches_withoutSuperseded_iff (c : ClassDecl) (p : PropertyDecl) :
    v.withoutSuperseded.Attaches c p ↔ v.AttachesCurrent c p := by
  rw [attaches_iff]
  simp only [attached?_withoutSuperseded, Option.ite_none_left_eq_some, Bool.not_eq_true]
  constructor
  · rintro ⟨id, hcurrent, hp⟩
    obtain ⟨ps, hps, hp⟩ := Option.bind_eq_some_iff.1 hp
    exact ⟨ps, id, hps, hp, hcurrent⟩
  · rintro ⟨ps, id, hps, hp, hcurrent⟩
    exact ⟨id, hcurrent, Option.bind_eq_some_iff.2 ⟨ps, hps, hp⟩⟩

/-! ## Distinct labels -/

theorem DistinctLabels.eq_of_name_eq (h : v.DistinctLabels s) (hc : c ∈ v.namespaced s)
    (hd : d ∈ v.namespaced s) (hname : c.name = d.name) : c = d :=
  List.inj_on_of_nodup_map h hc hd hname

/-- Among distinct labels every class owns its own. -/
theorem owns_of_mem (h : v.DistinctLabels s) (hc : c ∈ v.namespaced s) : v.Owns s c c.name := by
  obtain ⟨d, hd⟩ := exists_owns hc
  obtain rfl : d = c := h.eq_of_name_eq hd.mem hc hd.name_eq
  exact hd

/-- So does a class that is left, and no other class has its label. -/
theorem owns_withoutSuperseded_iff (h : v.DistinctLabels s) (c : ClassDecl) (name : String) :
    v.withoutSuperseded.Owns s c name ↔ v.IsCurrent s c ∧ c.name = name := by
  constructor
  · intro howns
    exact ⟨(mem_namespaced_withoutSuperseded_iff c).1 howns.mem, howns.name_eq⟩
  · rintro ⟨hc, rfl⟩
    obtain ⟨d, hd⟩ := exists_owns ((mem_namespaced_withoutSuperseded_iff c).2 hc)
    have hd' : v.IsCurrent s d := (mem_namespaced_withoutSuperseded_iff d).1 hd.mem
    obtain rfl : d = c := h.eq_of_name_eq hd'.mem_namespaced hc.mem_namespaced hd.name_eq
    exact hd

/-! ## Lines of ancestors -/

/-- The end of a line of references between classes that are not superseded is not, either. -/
theorem isCurrent_of_reflTransGen (hc : v.IsCurrent s c)
    (h : ReflTransGen (v.CurrentStep s) c d) : v.IsCurrent s d := by
  rcases ReflTransGen.cases_tail h with rfl | ⟨e, -, hed⟩
  · exact hc
  · exact hed.2.1

/-- What is left leads from a label to another one exactly if references between classes that are
not superseded do. -/
theorem reflTransGen_labelStep_withoutSuperseded_iff (h : v.DistinctLabels s)
    (hc : v.IsCurrent s c) (hd : v.IsCurrent s d) :
    ReflTransGen (v.withoutSuperseded.LabelStep s) c.name d.name ↔
      ReflTransGen (v.CurrentStep s) c d := by
  constructor
  · intro hline
    -- The classes are those of the labels, so the induction is on the line of labels.
    have hline' : ∀ n, ReflTransGen (v.withoutSuperseded.LabelStep s) c.name n →
        ∀ e, v.IsCurrent s e → e.name = n → ReflTransGen (v.CurrentStep s) c e := by
      intro n hn
      induction hn with
      | refl =>
        intro e he hname
        rw [h.eq_of_name_eq he.mem_namespaced hc.mem_namespaced hname]
      | tail _ hstep ih =>
        rintro e he rfl
        obtain ⟨k, howns, id, hid, hlocal⟩ := hstep
        obtain ⟨hk, hname⟩ := (owns_withoutSuperseded_iff h k _).1 howns
        exact (ih k hk hname).tail ⟨hk, he, id, hid, hlocal⟩
    exact hline' d.name hline d hd rfl
  · intro hline
    refine ReflTransGen.lift ClassDecl.name (fun k e hstep => ?_) c d hline
    obtain ⟨hk, -, id, hid, hlocal⟩ := hstep
    exact ⟨k, (owns_withoutSuperseded_iff h k _).2 ⟨hk, rfl⟩, id, hid, hlocal⟩

/-- References between classes that are not superseded are references when nothing is left out. -/
theorem reflTransGen_labelStep_of_current (h : v.DistinctLabels s)
    (hline : ReflTransGen (v.CurrentStep s) c d) :
    ReflTransGen (v.LabelStep s) c.name d.name := by
  refine ReflTransGen.lift ClassDecl.name (fun k e hstep => ?_) c d hline
  obtain ⟨hk, -, id, hid, hlocal⟩ := hstep
  exact ⟨k, owns_of_mem h hk.mem_namespaced, id, hid, hlocal⟩

/-- The handles of a model of what is left. -/
theorem mem_handles_withoutSuperseded_iff (h : v.DistinctLabels s) (hc : v.IsCurrent s c)
    {m : ClassModel} (hm : v.withoutSuperseded.model s c = .ok m) (handle : String) :
    handle ∈ m.handles ↔ ∃ d, ReflTransGen (v.CurrentStep s) c d ∧
      ∃ p, v.AttachesCurrent d p ∧ p.handle = handle := by
  rw [mem_handles_model_iff hm]
  simp only [mem_chain_iff hm, owns_withoutSuperseded_iff h, attaches_withoutSuperseded_iff]
  constructor
  · rintro ⟨n, hn, d, ⟨hd, rfl⟩, hp⟩
    exact ⟨d, (reflTransGen_labelStep_withoutSuperseded_iff h hc hd).1 hn, hp⟩
  · rintro ⟨d, hline, hp⟩
    have hd := isCurrent_of_reflTransGen hc hline
    exact ⟨d.name, (reflTransGen_labelStep_withoutSuperseded_iff h hc hd).2 hline, d, ⟨hd, rfl⟩, hp⟩

end Vocabulary

variable {σ ε σ' ε' : Type} {s : Settings} {v : Vocabulary} {c : ClassDecl}

/-- Where labels are distinct, a run that skips what is superseded and one that does not both save a
model of every class that is not superseded. The handles of the first are those of the properties
that are not superseded and are attached to classes on the chain of the second, as far as references
lead to these without a superseded class in between. If they lead to all classes on that chain that
are not superseded, nothing but what is superseded is lost. -/
theorem generate_skipping_handles_iff {sink : Sink σ ε} {st st₁ : σ} {sink' : Sink σ' ε'}
    {st' st₁' : σ'} {report report' : Report} (hlabels : v.DistinctLabels s)
    (hskip : generate (s.skipping true) v sink st = (.ok report, st₁))
    (hall : generate (s.skipping false) v sink' st' = (.ok report', st₁'))
    (hc : v.IsCurrent s c) :
    ∃ m m', v.withoutSuperseded.model s c = .ok m ∧
      Plan.modelFile s m ∈ offers (s.skipping true) v sink st ∧
      v.model s c = .ok m' ∧ Plan.modelFile s m' ∈ offers (s.skipping false) v sink' st' ∧
      (∀ handle, handle ∈ m.handles ↔ ∃ d, v.IsCurrent s d ∧ d.name ∈ m'.chain ∧
        ReflTransGen (v.CurrentStep s) c d ∧ ∃ p, v.AttachesCurrent d p ∧ p.handle = handle) ∧
      ((∀ d, v.IsCurrent s d → d.name ∈ m'.chain → ReflTransGen (v.CurrentStep s) c d) →
        ∀ handle, handle ∈ m.handles ↔ ∃ d, v.IsCurrent s d ∧ d.name ∈ m'.chain ∧
          ∃ p, v.AttachesCurrent d p ∧ p.handle = handle) := by
  obtain ⟨m, hm, hfile⟩ : ∃ m, v.withoutSuperseded.model s c = .ok m ∧
      Plan.modelFile s m ∈ offers (s.skipping true) v sink st :=
    exists_model_of_ok hskip ((Vocabulary.mem_namespaced_withoutSuperseded_iff c).2 hc)
  obtain ⟨m', hm', hfile'⟩ : ∃ m', v.model s c = .ok m' ∧
      Plan.modelFile s m' ∈ offers (s.skipping false) v sink' st' :=
    exists_model_of_ok hall hc.mem_namespaced
  have hhandles : ∀ handle, handle ∈ m.handles ↔ ∃ d, v.IsCurrent s d ∧ d.name ∈ m'.chain ∧
      ReflTransGen (v.CurrentStep s) c d ∧ ∃ p, v.AttachesCurrent d p ∧ p.handle = handle := by
    intro handle
    rw [Vocabulary.mem_handles_withoutSuperseded_iff hlabels hc hm]
    constructor
    · rintro ⟨d, hline, hp⟩
      have hchain : d.name ∈ m'.chain := (Vocabulary.mem_chain_iff hm' d.name).2
        (Vocabulary.reflTransGen_labelStep_of_current hlabels hline)
      exact ⟨d, Vocabulary.isCurrent_of_reflTransGen hc hline, hchain, hline, hp⟩
    · rintro ⟨d, -, -, hline, hp⟩
      exact ⟨d, hline, hp⟩
  refine ⟨m, m', hm, hfile, hm', hfile', hhandles, fun hreached handle => ?_⟩
  rw [hhandles]
  constructor
  · rintro ⟨d, hd, hchain, -, hp⟩
    exact ⟨d, hd, hchain, hp⟩
  · rintro ⟨d, hd, hchain, hp⟩
    exact ⟨d, hd, hchain, hreached d hd hchain, hp⟩

/-! ### A superseded class in between -/

/-- The nodes of a class that refers to a superseded class below a base and to a root, of the
property of the base and of two properties of the root, one of them superseded. -/
def bridgedNodes : List Json := [
  .object [("@id", .string "schema:Base"), ("@type", .string "rdfs:Class"),
    ("rdfs:label", .string "Base")],
  .object [("@id", .string "schema:Child"), ("@type", .string "rdfs:Class"),
    ("rdfs:label", .string "Child"), ("rdfs:subClassOf", .array [
      .object [("@id", .string "schema:Old")], .object [("@id", .string "schema:Root")]])],
  .object [("@id", .string "schema:Old"), ("@type", .string "rdfs:Class"),
    ("rdfs:label", .string "Old"), ("rdfs:subClassOf", .object [("@id", .string "schema:Base")]),
    ("schema:supersededBy", .object [("@id", .string "schema:Base")])],
  .object [("@id", .string "schema:Root"), ("@type", .string "rdfs:Class"),
    ("rdfs:label", .string "Root")],
  .object [("@id", .string "schema:weight"), ("@type", .string "rdf:Property"),
    ("rdfs:label", .string "weight"),
    ("schema:domainIncludes", .object [("@id", .string "schema:Base")]),
    ("schema:rangeIncludes", .object [("@id", .string "schema:Text")])],
  .object [("@id", .string "schema:alias"), ("@type", .string "rdf:Property"),
    ("rdfs:label", .string "alias"),
    ("schema:domainIncludes", .object [("@id", .string "schema:Root")]),
    ("schema:rangeIncludes", .object [("@id", .string "schema:Text")]),
    ("schema:supersededBy", .object [("@id", .string "schema:title")])],
  .object [("@id", .string "schema:title"), ("@type", .string "rdf:Property"),
    ("rdfs:label", .string "title"),
    ("schema:domainIncludes", .object [("@id", .string "schema:Root")]),
    ("schema:rangeIncludes", .object [("@id", .string "schema:Text")])]]

/-- The class below the superseded one and the root. -/
def bridgedClass : ClassDecl :=
  plainClass "schema:Child" "Child" ["schema:Old", "schema:Root"]

/-- The vocabulary of these nodes. -/
def bridged : Vocabulary where
  classes := .ofList [
    ("schema:Base", plainClass "schema:Base" "Base" []),
    ("schema:Child", bridgedClass),
    ("schema:Old", { plainClass "schema:Old" "Old" ["schema:Base"] with superseded := true }),
    ("schema:Root", plainClass "schema:Root" "Root" [])]
  attached := .ofList [
    ("schema:Base",
      .ofList [("schema:weight", plainProperty "schema:weight" "weight" "schema:Base")]),
    ("schema:Root", .ofList [
      ("schema:alias",
        { plainProperty "schema:alias" "alias" "schema:Root" with superseded := true }),
      ("schema:title", plainProperty "schema:title" "title" "schema:Root")])]
  members := ∅
  superseded := .ofList [("schema:Old", ()), ("schema:alias", ())]

theorem ofNodes_bridgedNodes : Vocabulary.ofNodes .schemaOrg bridgedNodes = .ok bridged :=
  eq_ok_of_toOption (by decide +kernel)

theorem distinctLabels_bridged : bridged.DistinctLabels {} := by
  have hnames : (bridged.namespaced {}).map ClassDecl.name = ["Base", "Child", "Old", "Root"] := by
    decide
  rw [Vocabulary.DistinctLabels, hnames]
  decide

/-- All names have ancestors when nothing is left out. -/
theorem ancestors_bridged :
    (bridged.hierarchy {}).ancestors "Base" = .ok [] ∧
      (bridged.hierarchy {}).ancestors "Child" = .ok ["Old", "Base", "Root"] ∧
      (bridged.hierarchy {}).ancestors "Old" = .ok ["Base"] ∧
      (bridged.hierarchy {}).ancestors "Root" = .ok [] := by
  have hbase : (bridged.hierarchy {}).parentsOf "Base" = [] := by decide
  have hchild : (bridged.hierarchy {}).parentsOf "Child" = ["Old", "Root"] := by decide
  have hold : (bridged.hierarchy {}).parentsOf "Old" = ["Base"] := by decide
  have hroot : (bridged.hierarchy {}).parentsOf "Root" = [] := by decide
  simp [Hierarchy.ancestors, Hierarchy.walk, hbase, hchild, hold, hroot]

/-- The line through the superseded class ends there when that is left out. -/
theorem ancestors_bridged_withoutSuperseded :
    (bridged.withoutSuperseded.hierarchy {}).ancestors "Base" = .ok [] ∧
      (bridged.withoutSuperseded.hierarchy {}).ancestors "Child" = .ok ["Old", "Root"] ∧
      (bridged.withoutSuperseded.hierarchy {}).ancestors "Root" = .ok [] := by
  have hbase : (bridged.withoutSuperseded.hierarchy {}).parentsOf "Base" = [] := by decide
  have hchild : (bridged.withoutSuperseded.hierarchy {}).parentsOf "Child" = ["Old", "Root"] := by
    decide
  have hold : (bridged.withoutSuperseded.hierarchy {}).parentsOf "Old" = [] := by decide
  have hroot : (bridged.withoutSuperseded.hierarchy {}).parentsOf "Root" = [] := by decide
  simp [Hierarchy.ancestors, Hierarchy.walk, hbase, hchild, hold, hroot]

theorem exists_generate_bridged (skip : Bool) : ∃ report shelf,
    generate (ε := Empty) (({} : Settings).skipping skip) bridged Shelf.sink ∅ =
      (.ok report, shelf) := by
  refine exists_generate_eq_ok (fun _ _ => rfl) (fun c hc => ?_) ∅
  cases skip with
  | true =>
    have hnames : (bridged.withoutSuperseded.namespaced {}).map ClassDecl.name =
        ["Base", "Child", "Root"] := by decide
    have hancestors : ∀ name ∈ ["Base", "Child", "Root"], ∃ names,
        (bridged.withoutSuperseded.hierarchy {}).ancestors name = .ok names := by
      simp [ancestors_bridged_withoutSuperseded]
    exact hancestors c.name (hnames ▸ List.mem_map_of_mem hc)
  | false =>
    have hnames : (bridged.namespaced {}).map ClassDecl.name =
        ["Base", "Child", "Old", "Root"] := by
      decide
    have hancestors : ∀ name ∈ ["Base", "Child", "Old", "Root"], ∃ names,
        (bridged.hierarchy {}).ancestors name = .ok names := by
      simp [ancestors_bridged]
    exact hancestors c.name (hnames ▸ List.mem_map_of_mem hc)

theorem isCurrent_bridgedClass : bridged.IsCurrent {} bridgedClass :=
  ⟨"schema:Child", by decide⟩

/-- The class keeps the title of the root, to which it refers. -/
theorem generate_skipping_handles_iff_title : ∃ report shelf m,
    generate (ε := Empty) (({} : Settings).skipping true) bridged Shelf.sink ∅ =
        (.ok report, shelf) ∧
      bridged.withoutSuperseded.model {} bridgedClass = .ok m ∧
      Plan.modelFile {} m ∈
        offers (ε := Empty) (({} : Settings).skipping true) bridged Shelf.sink ∅ ∧
      "title" ∈ m.handles := by
  obtain ⟨report, shelf, hskip⟩ := exists_generate_bridged true
  obtain ⟨report', shelf', hall⟩ := exists_generate_bridged false
  obtain ⟨m, m', hm, hfile, hm', -, hhandles, -⟩ :=
    generate_skipping_handles_iff distinctLabels_bridged hskip hall isCurrent_bridgedClass
  have hroot : bridged.IsCurrent {} (plainClass "schema:Root" "Root" []) :=
    ⟨"schema:Root", by decide +kernel⟩
  have hstep : bridged.CurrentStep {} bridgedClass (plainClass "schema:Root" "Root" []) :=
    ⟨isCurrent_bridgedClass, hroot, "schema:Root", by decide +kernel⟩
  have hchain : "Root" ∈ m'.chain := (Vocabulary.mem_chain_iff hm' "Root").2
    (Vocabulary.reflTransGen_labelStep_of_current distinctLabels_bridged (.single hstep))
  have htitle : bridged.AttachesCurrent (plainClass "schema:Root" "Root" [])
      (plainProperty "schema:title" "title" "schema:Root") :=
    ⟨_, "schema:title", rfl, by decide +kernel⟩
  exact ⟨report, shelf, m, hskip, hm, hfile,
    (hhandles "title").2 ⟨_, hroot, hchain, .single hstep, _, htitle, rfl⟩⟩

/-- It loses the weight, which is not superseded and is attached to a class that is not, either:
only the superseded class refers to that one. -/
theorem generate_skipping_cut : ∃ v child base weight report shelf report' shelf' m m',
    Vocabulary.ofNodes .schemaOrg bridgedNodes = .ok v ∧ v.DistinctLabels {} ∧
      generate (ε := Empty) (({} : Settings).skipping true) v Shelf.sink ∅ = (.ok report, shelf) ∧
      generate (ε := Empty) (({} : Settings).skipping false) v Shelf.sink ∅ =
        (.ok report', shelf') ∧
      v.IsCurrent {} child ∧ v.IsCurrent {} base ∧ v.AttachesCurrent base weight ∧
      v.withoutSuperseded.model {} child = .ok m ∧ v.model {} child = .ok m' ∧
      m.handles = ["title"] ∧ base.name ∈ m'.chain ∧ weight.handle = "weight" ∧
      ¬ ∀ handle, handle ∈ m.handles ↔ ∃ d, v.IsCurrent {} d ∧ d.name ∈ m'.chain ∧
        ∃ p, v.AttachesCurrent d p ∧ p.handle = handle := by
  obtain ⟨report, shelf, hskip⟩ := exists_generate_bridged true
  obtain ⟨report', shelf', hall⟩ := exists_generate_bridged false
  obtain ⟨-, hcut, -⟩ := ancestors_bridged_withoutSuperseded
  obtain ⟨-, hwhole, -⟩ := ancestors_bridged
  have hm := (Vocabulary.model_eq_ok_iff {} bridged.withoutSuperseded bridgedClass _).2
    ⟨_, hcut, rfl⟩
  have hm' := (Vocabulary.model_eq_ok_iff {} bridged bridgedClass _).2 ⟨_, hwhole, rfl⟩
  have hbase : bridged.IsCurrent {} (plainClass "schema:Base" "Base" []) :=
    ⟨"schema:Base", by decide +kernel⟩
  have hweight : bridged.AttachesCurrent (plainClass "schema:Base" "Base" [])
      (plainProperty "schema:weight" "weight" "schema:Base") :=
    ⟨_, "schema:weight", rfl, by decide +kernel⟩
  have hhandles : (ClassModel.resolve {} bridgedClass [bridgedClass.name, "Old", "Root"]
      (bridged.withoutSuperseded.fieldSets {})).handles = ["title"] := by decide +kernel
  refine ⟨bridged, bridgedClass, _, _, report, shelf, report', shelf', _, _, ofNodes_bridgedNodes,
    distinctLabels_bridged, hskip, hall, isCurrent_bridgedClass, hbase, hweight, hm, hm', hhandles,
    by decide, rfl, ?_⟩
  intro hclaim
  have hlost := (hclaim "weight").2 ⟨_, hbase, by decide, _, hweight, rfl⟩
  rw [hhandles] at hlost
  exact absurd hlost (by decide)

end VocabPhp
