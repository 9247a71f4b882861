import VocabPhp.Proofs.Closure

/-!
# What is inherited through an ancestor

The chains of two classes are found by walks of their own. All the same, a class that has another
one on its chain inherits everything that this one inherits.

* `ClassModel.interfaces`, `ClassModel.traits`, `ClassModel.exists_renderModel_head`: what the head
  of a model lists.
* `Vocabulary.mem_chain_iff_subset`: a name is on a chain exactly if all names above it are.
* `SearchRules.ofChain_subset`: what a search engine asks for along a longer chain.
* `generate_monotone`: the models of a run inherit through each other.
-/

namespace VocabPhp

open Relation

variable {σ ε : Type} {s : Settings} {v : Vocabulary} {sink : Sink σ ε} {st st' : σ}
  {report : Report} {c d : ClassDecl} {m k : ClassModel}

/-! ## The head of a model -/

namespace ClassModel

/-- The interfaces that a model implements. -/
def interfaces (m : ClassModel) : List String := m.safeChain.map Php.interfaceName

/-- The traits that a model takes up. -/
def traits (m : ClassModel) : List String := m.safeChain.map Php.traitName

/-- The head of a class that implements interfaces and takes up traits, from the list of the
interfaces on. -/
def head (interfaces traits : List String) : String :=
  " implements " ++ ", ".intercalate interfaces ++ "\n\x7b\n" ++
    String.join (traits.map fun t => "    use " ++ t ++ ";\n") ++ "\n"

/-- The head of a model lists its interfaces and traits. -/
theorem exists_renderModel_head (s : Settings) (m : ClassModel) :
    ∃ before after, renderModel s m = before ++ head m.interfaces m.traits ++ after := by
  have hlayout : Layout.modelFile = Layout.modelFile.take 26 ++
      ([.text " implements ", .slot "schemaInterfaces", .text "\n", .text "\x7b\n",
        .slot "schemaTraits", .text "\n"] ++ Layout.modelFile.drop 32) := rfl
  have huse : (m.safeChain.map fun n => "    use " ++ Php.traitName n ++ ";\n") =
      m.safeChain.map useTrait := rfl
  have hbrace : "\n\x7b\n" = "\n" ++ "\x7b\n" := rfl
  have hhead : Template.fill (modelSlots s m) [.text " implements ", .slot "schemaInterfaces",
      .text "\n", .text "\x7b\n", .slot "schemaTraits", .text "\n"] =
        head m.interfaces m.traits := by
    simp only [head, interfaces, traits, List.map_map, Function.comp_def, huse, hbrace,
      modelSlots, Template.fill, List.map_cons, List.map_nil, Piece.fill, Table.find?_ofList]
    simp [-String.reduceAppend, String.append_assoc]
  rw [renderModel, hlayout, Template.fill_append, Template.fill_append, hhead,
    ← String.append_assoc]
  exact ⟨_, _, rfl⟩

end ClassModel

/-! ## Chains, handles and rules -/

namespace Vocabulary

/-- A name is on the chain of a model exactly if all names on the chain of the class with that name
are. -/
theorem mem_chain_iff_subset (hm : v.model s c = .ok m) (hk : v.model s d = .ok k) :
    d.name ∈ m.chain ↔ ∀ n ∈ k.chain, n ∈ m.chain := by
  constructor
  · intro hd n hn
    have hup := (mem_chain_iff hm d.name).1 hd
    have habove := (mem_chain_iff hk n).1 hn
    exact (mem_chain_iff hm n).2 (hup.trans habove)
  · intro hsubset
    apply hsubset
    exact (mem_chain_iff hk d.name).2 .refl

/-- Handles are inherited along a chain. -/
theorem handles_subset_of_chain (hm : v.model s c = .ok m) (hk : v.model s d = .ok k)
    (hchain : ∀ n ∈ k.chain, n ∈ m.chain) : ∀ handle ∈ k.handles, handle ∈ m.handles := by
  intro handle hhandle
  obtain ⟨n, hn, hprovided⟩ := (mem_handles_model_iff hk handle).1 hhandle
  exact (mem_handles_model_iff hm handle).2 ⟨n, hchain n hn, hprovided⟩

theorem rules_model (hm : v.model s c = .ok m) : m.rules = .ofChain m.chain := by
  obtain ⟨names, -, rfl⟩ := (model_eq_ok_iff s v c m).1 hm
  rfl

end Vocabulary

namespace SearchRules

theorem mem_sortedNames_iff (names : List String) (name : String) :
    name ∈ sortedNames names ↔ name ∈ names := by
  have hset : names.foldl NameSet.add (∅ : NameSet) = Table.ofList (names.map (·, ())) := by
    rw [Table.ofList, List.foldl_map]
    rfl
  rw [sortedNames, hset, Table.mem_keys_ofList, List.map_map]
  simp

/-- Along a chain that holds another one, a search engine asks for all that it asks for along that
one. -/
theorem ofChain_subset {chain chain' : List String} (h : ∀ n ∈ chain', n ∈ chain) :
    (∀ name ∈ (ofChain chain').required, name ∈ (ofChain chain).required) ∧
      ∀ name ∈ (ofChain chain').recommended, name ∈ (ofChain chain).recommended := by
  have hrules : ∀ rule ∈ chain'.filterMap forClass?, rule ∈ chain.filterMap forClass? := by
    intro rule hrule
    obtain ⟨n, hn, hforClass⟩ := List.mem_filterMap.1 hrule
    exact List.mem_filterMap.2 ⟨n, h n hn, hforClass⟩
  -- Required and recommended fields are collected from the rules in the same way.
  have hpart (part : SearchRules → List String) :
      ∀ name ∈ sortedNames ((chain'.filterMap forClass?).flatMap part),
        name ∈ sortedNames ((chain.filterMap forClass?).flatMap part) := by
    intro name hname
    rw [mem_sortedNames_iff, List.mem_flatMap] at hname ⊢
    obtain ⟨rule, hrule, hpart⟩ := hname
    exact ⟨rule, hrules rule hrule, hpart⟩
  exact ⟨hpart required, hpart recommended⟩

end SearchRules

/-! ## Runs -/

/-- A run that succeeds saves the models of all classes shown. A class has the name of another one
on its chain exactly if it has the whole chain of that one. Then the head of its model lists all
interfaces and traits that the model of the other class lists, and it has all handles and all
required and recommended fields of that model. -/
theorem generate_monotone (h : generate s v sink st = (.ok report, st'))
    (hc : c ∈ (v.selected s).namespaced s) (hd : d ∈ (v.selected s).namespaced s) :
    ∃ m k, (v.selected s).model s c = .ok m ∧ (v.selected s).model s d = .ok k ∧
      Plan.modelFile s m ∈ offers s v sink st ∧ Plan.modelFile s k ∈ offers s v sink st ∧
      (∃ before after, (Plan.modelFile s m).content =
        before ++ ClassModel.head m.interfaces m.traits ++ after) ∧
      (∃ before after, (Plan.modelFile s k).content =
        before ++ ClassModel.head k.interfaces k.traits ++ after) ∧
      (d.name ∈ m.chain ↔ ∀ n ∈ k.chain, n ∈ m.chain) ∧
      (d.name ∈ m.chain →
        (∀ i ∈ k.interfaces, i ∈ m.interfaces) ∧ (∀ t ∈ k.traits, t ∈ m.traits) ∧
        (∀ handle ∈ k.handles, handle ∈ m.handles) ∧
        (∀ handle ∈ k.rules.required, handle ∈ m.rules.required) ∧
        ∀ handle ∈ k.rules.recommended, handle ∈ m.rules.recommended) := by
  obtain ⟨m, hm, hmfile⟩ := exists_model_of_ok h hc
  obtain ⟨k, hk, hkfile⟩ := exists_model_of_ok h hd
  have hiff := Vocabulary.mem_chain_iff_subset hm hk
  refine ⟨m, k, hm, hk, hmfile, hkfile, m.exists_renderModel_head s, k.exists_renderModel_head s,
    hiff, fun hname => ?_⟩
  have hchain := hiff.1 hname
  have hsafe : k.safeChain ⊆ m.safeChain := by
    rw [Vocabulary.safeChain_model hm, Vocabulary.safeChain_model hk]
    exact List.map_subset _ hchain
  obtain ⟨hrequired, hrecommended⟩ := SearchRules.ofChain_subset hchain
  rw [← Vocabulary.rules_model hm, ← Vocabulary.rules_model hk] at hrequired hrecommended
  exact ⟨List.map_subset _ hsafe, List.map_subset _ hsafe,
    Vocabulary.handles_subset_of_chain hm hk hchain, hrequired, hrecommended⟩

/-- An article takes up what a work takes up and has the title that a work has. -/
theorem generate_monotone_article : ∃ report shelf m k,
    generate (ε := Empty) {} twoWorks Shelf.sink ∅ = (.ok report, shelf) ∧
      twoWorks.model {} (plainClass "schema:Article" "Article" ["schema:Work"]) = .ok m ∧
      twoWorks.model {} (plainClass "schema:Work" "Work" []) = .ok k ∧
      "WorkTrait" ∈ m.traits ∧ "title" ∈ k.handles ∧ "title" ∈ m.handles := by
  obtain ⟨report, shelf, h⟩ : ∃ report shelf,
      generate (ε := Empty) {} twoWorks Shelf.sink ∅ = (.ok report, shelf) :=
    exists_generate_eq_ok (fun _ _ => rfl) exists_ancestors_twoWorks ∅
  obtain ⟨m, k, hm, hk, -, -, -, -, -, hinherits⟩ := generate_monotone h
    (c := plainClass "schema:Article" "Article" ["schema:Work"])
    (d := plainClass "schema:Work" "Work" []) (by decide +kernel) (by decide +kernel)
  have hchain : m.chain = ["Article", "Work"] := by
    obtain ⟨names, hn, rfl⟩ := (Vocabulary.model_eq_ok_iff _ _ _ _).1 hm
    obtain rfl : names = ["Work"] := Except.ok.inj (hn.symm.trans ancestors_article)
    rfl
  have hkchain : k.chain = ["Work"] := by
    obtain ⟨names, hn, rfl⟩ := (Vocabulary.model_eq_ok_iff _ _ _ _).1 hk
    obtain rfl : names = [] := Except.ok.inj (hn.symm.trans ancestors_work)
    rfl
  have htitle : "title" ∈ k.handles := by
    refine (Vocabulary.mem_handles_model_iff hk "title").2 ⟨"Work", ?_, ?_⟩
    · rw [hkchain]
      exact List.mem_singleton_self _
    · refine ⟨plainClass "schema:Work" "Work" [],
        (Vocabulary.owner?_eq_some_iff _ _).1 (by decide +kernel),
        plainProperty "schema:name" "title" "schema:Work", ⟨_, "schema:name", rfl, ?_⟩, rfl⟩
      decide +kernel
  obtain ⟨-, htraits, hhandles, -⟩ := hinherits (by rw [hchain]; decide +kernel)
  refine ⟨report, shelf, m, k, h, hm, hk, htraits _ ?_, htitle, hhandles _ htitle⟩
  rw [ClassModel.traits, Vocabulary.safeChain_model hk, hkchain]
  decide +kernel

end VocabPhp
