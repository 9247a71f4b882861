import VocabPhp.Proofs.Hierarchy
import VocabPhp.Proofs.Ownership
import VocabPhp.Proofs.Run

/-!
# What models inherit

* `Vocabulary.LabelStep`, `Vocabulary.mem_chain_iff`: the chain of a class holds the names that its
  name leads to, from a name to the local names of what the owner of that name refers to.
* `generate_model_fields`: every class of the namespace gets a model for its own chain, with one
  field for each handle along the chain. The field comes from the first class on the chain that has
  one, and there from the property with the least identifier.
-/

namespace VocabPhp

open Relation

variable {σ ε : Type} {s : Settings} {v : Vocabulary} {sink : Sink σ ε} {st st' : σ}
  {report : Report}

/-- The identifiers that a class refers to as parents: its superclasses, and its type tag if that is
the only one. -/
def ClassDecl.parentIds (c : ClassDecl) : List String := c.superclasses ++ c.soleTag.toList

theorem mem_parentNames_iff (ns : Namespace) (c : ClassDecl) (name : String) :
    name ∈ Hierarchy.parentNames ns c ↔ ∃ id ∈ c.parentIds, ns.localName? id = some name := by
  simp only [Hierarchy.parentNames, ClassDecl.parentIds, List.mem_append, List.mem_filterMap,
    Option.mem_toList, Option.bind_eq_some_iff, or_and_right, exists_or]

namespace Vocabulary

/-- The step from a name to one of its parents: the local name of an identifier that the owner of
the name refers to. -/
def LabelStep (s : Settings) (v : Vocabulary) (name parent : String) : Prop :=
  ∃ c, v.Owns s c name ∧ ∃ id ∈ c.parentIds, s.vocabulary.localName? id = some parent

theorem parent_hierarchy_iff (name parent : String) :
    (v.hierarchy s).Parent name parent ↔ v.LabelStep s name parent := by
  simp only [Hierarchy.Parent, mem_parentsOf_hierarchy_iff, mem_parentNames_iff, LabelStep]

/-- The chain of a model holds the names that the name of the class leads to. -/
theorem mem_chain_iff {c : ClassDecl} {m : ClassModel} (hm : v.model s c = .ok m) (n : String) :
    n ∈ m.chain ↔ ReflTransGen (v.LabelStep s) c.name n := by
  obtain ⟨names, hnames, rfl⟩ := (model_eq_ok_iff s v c m).1 hm
  have hparent : (v.hierarchy s).Parent = v.LabelStep s := by
    funext name parent
    exact propext (parent_hierarchy_iff name parent)
  rw [ClassModel.resolve, List.mem_cons, Hierarchy.mem_ancestors_iff hnames, hparent,
    reflTransGen_iff_eq_or_transGen]

/-- A name on the chain of a model is that of the class, or another name on the chain refers to
it. -/
theorem mem_chain_cases {c : ClassDecl} {m : ClassModel} (hm : v.model s c = .ok m) {n : String}
    (hn : n ∈ m.chain) : n = c.name ∨ ∃ k ∈ m.chain, v.LabelStep s k n := by
  rcases ReflTransGen.cases_tail ((mem_chain_iff hm n).1 hn) with rfl | ⟨k, hk, hkn⟩
  · exact .inl rfl
  · exact .inr ⟨k, (mem_chain_iff hm k).2 hk, hkn⟩

/-- The handles of a model are those of the properties that are attached to the owners of the names
on its chain. -/
theorem mem_handles_model_iff {c : ClassDecl} {m : ClassModel} (hm : v.model s c = .ok m)
    (handle : String) :
    handle ∈ m.handles ↔ ∃ n ∈ m.chain, ∃ d, v.Owns s d n ∧
      ∃ p, v.Attaches d p ∧ p.handle = handle := by
  obtain ⟨names, -, rfl⟩ := (model_eq_ok_iff s v c m).1 hm
  exact mem_handles_iff (c.name :: names) handle

end Vocabulary

/-- A run that succeeds saves a model of every class, after all traits and interfaces and in the
order of the classes. Its chain is the name of the class with the ancestors of that name. Its fields
are strictly sorted by handle; there is one for every handle of a property that is attached to the
owner of a name on the chain, and it is that of the first such name and, of the properties of its
owner, of the one with the least identifier. -/
theorem generate_model_fields (h : generate s v sink st = (.ok report, st')) {i : Nat}
    {c : ClassDecl} (hc : ((v.selected s).namespaced s)[i]? = some c) :
    ∃ names m, ((v.selected s).hierarchy s).ancestors c.name = .ok names ∧
      (offers s v sink st)[2 * ((v.selected s).namespaced s).length + i]? =
        some ⟨Php.safeName c.name s.safeLead ++ ".php", renderModel s m⟩ ∧
      m.name = c.name ∧ m.chain = c.name :: names ∧
      m.fields.Pairwise (fun f g => f.handle < g.handle) ∧
      (∀ handle, handle ∈ m.handles ↔ ∃ n ∈ m.chain, ∃ d, (v.selected s).Owns s d n ∧
        ∃ p, (v.selected s).Attaches d p ∧ p.handle = handle) ∧
      ∀ f ∈ m.fields, ∃ before n after d p, m.chain = before ++ n :: after ∧
        (v.selected s).Owns s d n ∧ (v.selected s).Provides d p ∧ p.handle = f.handle ∧
        f = .ofProperty s.vocabulary p ∧
        ∀ n' ∈ before, ∀ d', (v.selected s).Owns s d' n' →
          ∀ q, (v.selected s).Attaches d' q → q.handle ≠ f.handle := by
  obtain ⟨plan, hplan, -, hoffers⟩ := offers_of_ok h
  obtain ⟨m, hm, hfile⟩ := Plan.getElem?_artifacts_model hplan hc
  have hhandles := Vocabulary.mem_handles_model_iff hm
  obtain ⟨names, hnames, rfl⟩ := (Vocabulary.model_eq_ok_iff _ _ c m).1 hm
  refine ⟨names, _, hnames, ?_, rfl, rfl, ?_, hhandles, ?_⟩
  · rw [hoffers, hfile]
    rfl
  · exact pairwise_mergeFields _ _
  · intro f hf
    exact Vocabulary.provider_of_mem hf

/-! ### Two classes with one name -/

/-- A class without a comment. -/
def plainClass (id name : String) (superclasses : List String) : ClassDecl :=
  { id, soleTag := some "rdfs:Class", name, description := "", rawDescription := "", superclasses,
    superseded := false }

/-- A property of texts without a comment. -/
def plainProperty (id handle domain : String) : PropertyDecl :=
  { id, handle, description := "", ranges := ["schema:Text"], domains := [domain],
    superseded := false }

/-- Articles are works, and two classes bear that name. The second of them has two properties for
one handle. -/
def twoWorks : Vocabulary where
  classes := .ofList [
    ("schema:Article", plainClass "schema:Article" "Article" ["schema:Work"]),
    ("schema:Opus", plainClass "schema:Opus" "Work" []),
    ("schema:Work", plainClass "schema:Work" "Work" [])]
  attached := .ofList [
    ("schema:Opus", .ofList [("schema:key", plainProperty "schema:key" "key" "schema:Opus")]),
    ("schema:Work", .ofList [
      ("schema:name", plainProperty "schema:name" "title" "schema:Work"),
      ("schema:title", plainProperty "schema:title" "title" "schema:Work")])]
  members := ∅
  superseded := ∅

theorem ancestors_article : (twoWorks.hierarchy {}).ancestors "Article" = .ok ["Work"] := by
  have harticle : (twoWorks.hierarchy {}).parentsOf "Article" = ["Work"] := by decide
  have hwork : (twoWorks.hierarchy {}).parentsOf "Work" = [] := by decide
  simp [Hierarchy.ancestors, Hierarchy.walk, harticle, hwork]

theorem ancestors_work : (twoWorks.hierarchy {}).ancestors "Work" = .ok [] := by
  have hwork : (twoWorks.hierarchy {}).parentsOf "Work" = [] := by decide
  simp [Hierarchy.ancestors, Hierarchy.walk, hwork]

/-- Walking up from any of the classes ends. -/
theorem exists_ancestors_twoWorks :
    ∀ c ∈ twoWorks.namespaced {},
      ∃ names, (twoWorks.hierarchy {}).ancestors c.name = .ok names := by
  intro c hc
  have hname : c.name ∈ (twoWorks.namespaced {}).map ClassDecl.name := List.mem_map_of_mem hc
  rw [show (twoWorks.namespaced {}).map ClassDecl.name = ["Article", "Work", "Work"] by
    decide +kernel] at hname
  simp only [List.mem_cons, List.not_mem_nil, or_false, or_self] at hname
  rcases hname with h | h <;> rw [h]
  · exact ⟨["Work"], ancestors_article⟩
  · exact ⟨[], ancestors_work⟩

/-- The model of an article has the title that the second class named a work gives it. -/
theorem generate_model_fields_article : ∃ report shelf m,
    generate (ε := Empty) {} twoWorks Shelf.sink ∅ = (.ok report, shelf) ∧
      (offers (ε := Empty) {} twoWorks Shelf.sink ∅)[6]? =
        some ⟨"Article.php", renderModel {} m⟩ ∧
      m.chain = ["Article", "Work"] ∧ "title" ∈ m.handles := by
  have hclasses : (twoWorks.namespaced {}).map ClassDecl.name = ["Article", "Work", "Work"] := by
    decide +kernel
  have hancestors : ∀ c ∈ twoWorks.namespaced {},
      ∃ names, (twoWorks.hierarchy {}).ancestors c.name = .ok names := by
    intro c hc
    have hname : c.name ∈ ["Article", "Work", "Work"] := hclasses ▸ List.mem_map_of_mem hc
    simp only [List.mem_cons, List.not_mem_nil, or_false, or_self] at hname
    rcases hname with h | h <;> rw [h]
    · exact ⟨["Work"], ancestors_article⟩
    · exact ⟨[], ancestors_work⟩
  obtain ⟨report, shelf, h⟩ : ∃ report shelf,
      generate (ε := Empty) {} twoWorks Shelf.sink ∅ = (.ok report, shelf) :=
    exists_generate_eq_ok (fun _ _ => rfl) hancestors ∅
  have hc : ((twoWorks.selected {}).namespaced {})[0]? =
      some (plainClass "schema:Article" "Article" ["schema:Work"]) := by decide +kernel
  obtain ⟨names, m, hnames, hsaved, -, hchain, -, hhandles, -⟩ := generate_model_fields h hc
  have hlength : ((twoWorks.selected {}).namespaced {}).length = 3 := by decide +kernel
  rw [hlength] at hsaved
  obtain rfl : names = ["Work"] := Except.ok.inj (hnames.symm.trans ancestors_article)
  refine ⟨report, shelf, m, h, hsaved, hchain, (hhandles "title").2 ⟨"Work", ?_, ?_⟩⟩
  · rw [hchain]
    exact List.mem_cons_of_mem _ (List.mem_singleton_self _)
  · refine ⟨plainClass "schema:Work" "Work" [],
      (Vocabulary.owner?_eq_some_iff _ _).1 (by decide +kernel),
      plainProperty "schema:name" "title" "schema:Work", ⟨_, "schema:name", rfl, ?_⟩, rfl⟩
    decide +kernel

end VocabPhp
