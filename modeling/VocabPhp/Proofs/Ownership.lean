import VocabPhp.Artifact.Plan
import VocabPhp.Proofs.Fields

/-!
# The classes that names stand for

Hierarchy and field sets are kept by class name, and a vocabulary may give several classes one name.
Then the one with the greatest identifier owns it: the parents and the fields under a name are those
of its owner.

* `Vocabulary.Owns`, `Vocabulary.owner?_eq_some_iff`: the owner of a name.
* `Vocabulary.parentsOf_hierarchy`, `Vocabulary.find?_fieldSets`: parents and fields of a name.
* `Vocabulary.Attaches`, `Vocabulary.Provides`: the properties of a class, and those that become its
  fields.
* `Vocabulary.mem_handles_iff`, `Vocabulary.provider_of_mem`: which handles a chain has, and which
  class and property each of its fields comes from.
-/

namespace VocabPhp.Vocabulary

variable {s : Settings} {v : Vocabulary}

/-! ## Owners -/

/-- A class owns a name that it bears in the namespace if no class there that bears it has a greater
identifier. -/
def Owns (s : Settings) (v : Vocabulary) (c : ClassDecl) (name : String) : Prop :=
  ∃ id, v.classes.find? id = some c ∧ s.vocabulary.contains c.id = true ∧ c.name = name ∧
    ∀ id' d, v.classes.find? id' = some d → s.vocabulary.contains d.id = true → d.name = name →
      id' ≤ id

/-- The class that owns a name: the last one of the namespace that bears it. -/
def owner? (s : Settings) (v : Vocabulary) (name : String) : Option ClassDecl :=
  (v.namespaced s).reverse.find? fun c => c.name = name

theorem mem_namespaced_iff (c : ClassDecl) :
    c ∈ v.namespaced s ↔
      (∃ id, v.classes.find? id = some c) ∧ s.vocabulary.contains c.id = true := by
  rw [namespaced, Hierarchy.namespaced, List.mem_filter, Table.mem_values_iff]

theorem owner?_eq_some_iff (name : String) (c : ClassDecl) :
    v.owner? s name = some c ↔ v.Owns s c name := by
  rw [owner?, namespaced, Hierarchy.namespaced, ← List.filter_reverse, List.find?_filter,
    Table.find?_reverse_values_iff, Owns]
  simp only [Bool.decide_and, Bool.decide_eq_true, Bool.and_eq_true, decide_eq_true_eq, and_assoc,
    and_imp]

theorem Owns.mem {c : ClassDecl} {name : String} (h : v.Owns s c name) : c ∈ v.namespaced s := by
  obtain ⟨id, hc, hns, -⟩ := h
  exact (mem_namespaced_iff c).2 ⟨⟨id, hc⟩, hns⟩

theorem Owns.name_eq {c : ClassDecl} {name : String} (h : v.Owns s c name) : c.name = name := by
  obtain ⟨-, -, -, hname, -⟩ := h
  exact hname

/-- A name has at most one owner. -/
theorem Owns.unique {c d : ClassDecl} {name : String} (hc : v.Owns s c name)
    (hd : v.Owns s d name) : c = d := by
  rw [← owner?_eq_some_iff] at hc hd
  rw [hc] at hd
  exact Option.some.inj hd

/-- The name of a class of the namespace has an owner. -/
theorem exists_owns {c : ClassDecl} (hc : c ∈ v.namespaced s) : ∃ d, v.Owns s d c.name := by
  obtain ⟨d, hd⟩ : ∃ d, v.owner? s c.name = some d :=
    Option.isSome_iff_exists.1 (List.find?_isSome.2 ⟨c, by simpa using hc, by simp⟩)
  exact ⟨d, (owner?_eq_some_iff _ d).1 hd⟩

/-- What is put under the names of classes is found under a name for its owner. -/
theorem find?_ofList_named {α : Type} (f : ClassDecl → α) (name : String) :
    (Table.ofList ((v.namespaced s).map fun c => (c.name, f c))).find? name =
      (v.owner? s name).map f := by
  rw [Table.find?_ofList, owner?, ← List.map_reverse]
  generalize (v.namespaced s).reverse = cs
  induction cs with
  | nil => rfl
  | cons c cs ih =>
    by_cases h : c.name = name
    · simp [h]
    · simpa [h] using ih

theorem find?_fieldSets (name : String) :
    (v.fieldSets s).find? name = (v.owner? s name).map (v.fieldSet s) :=
  find?_ofList_named (v.fieldSet s) name

/-- The parents of a name are those that its owner declares. -/
theorem parentsOf_hierarchy (name : String) :
    (v.hierarchy s).parentsOf name =
      ((v.owner? s name).map (Hierarchy.parentNames s.vocabulary)).getD [] := by
  rw [Hierarchy.parentsOf]
  exact congrArg (Option.getD · []) (find?_ofList_named _ name)

theorem mem_parentsOf_hierarchy_iff (name parent : String) :
    parent ∈ (v.hierarchy s).parentsOf name ↔
      ∃ c, v.Owns s c name ∧ parent ∈ Hierarchy.parentNames s.vocabulary c := by
  rw [parentsOf_hierarchy]
  simp only [← owner?_eq_some_iff]
  rcases v.owner? s name with _ | c <;> simp

/-! ## Properties of a class -/

/-- A property is attached to a class. -/
def Attaches (v : Vocabulary) (c : ClassDecl) (p : PropertyDecl) : Prop :=
  ∃ ps id, v.propertiesOf? c.id = some ps ∧ ps.find? id = some p

/-- A property gives a class the field with its handle: of the properties attached to the class with
that handle it has the least identifier. -/
def Provides (v : Vocabulary) (c : ClassDecl) (p : PropertyDecl) : Prop :=
  ∃ ps id, v.propertiesOf? c.id = some ps ∧ ps.find? id = some p ∧
    ∀ id' q, ps.find? id' = some q → q.handle = p.handle → id ≤ id'

theorem mem_fields_fieldSet_iff (c : ClassDecl) (f : Field) :
    f ∈ (v.fieldSet s c).fields ↔ ∃ p, v.Attaches c p ∧ .ofProperty s.vocabulary p = f := by
  simp only [fieldSet, FieldSet.ofClass, sortByHandle, List.mem_mergeSort, List.mem_map, Attaches]
  rcases v.propertiesOf? c.id with _ | ps
  · simp
  · simp [Table.mem_values_iff]

/-- The first field of a class with a handle comes from the property that provides it. -/
theorem find?_fields_fieldSet_iff (c : ClassDecl) (handle : String) (f : Field) :
    (v.fieldSet s c).fields.find? (fun g => g.handle = handle) = some f ↔
      ∃ p, v.Provides c p ∧ p.handle = handle ∧ .ofProperty s.vocabulary p = f := by
  simp only [fieldSet, FieldSet.ofClass, find?_sortByHandle, List.find?_map,
    Option.map_eq_some_iff, Provides]
  have htest : ((fun g : Field => decide (g.handle = handle)) ∘ Field.ofProperty s.vocabulary) =
      fun p => decide (p.handle = handle) := rfl
  rw [htest]
  rcases v.propertiesOf? c.id with _ | ps
  · simp
  · simp only [Option.map_some, Option.getD_some, Table.find?_values_iff, decide_eq_true_eq,
      Option.some.injEq]
    constructor
    · rintro ⟨p, ⟨id, hp, rfl, hleast⟩, rfl⟩
      exact ⟨p, ⟨ps, id, rfl, hp, hleast⟩, rfl, rfl⟩
    · rintro ⟨p, ⟨ps', id, rfl, hp, hleast⟩, rfl, rfl⟩
      exact ⟨p, ⟨id, hp, rfl, hleast⟩, rfl⟩

/-! ## Fields along a chain -/

/-- A chain has the handles of the properties that are attached to the owners of its names. -/
theorem mem_handles_iff (chain : List String) (handle : String) :
    handle ∈ (mergeFields chain (v.fieldSets s)).map Field.handle ↔
      ∃ n ∈ chain, ∃ c, v.Owns s c n ∧ ∃ p, v.Attaches c p ∧ p.handle = handle := by
  rw [mem_handles_mergeFields_iff]
  simp only [mem_fieldsAlong_iff, find?_fieldSets, Option.map_eq_some_iff, owner?_eq_some_iff]
  constructor
  · rintro ⟨f, ⟨n, hn, set, ⟨c, hc, rfl⟩, hf⟩, rfl⟩
    obtain ⟨p, hp, rfl⟩ := (mem_fields_fieldSet_iff c f).1 hf
    exact ⟨n, hn, c, hc, p, hp, rfl⟩
  · rintro ⟨n, hn, c, hc, p, hp, rfl⟩
    exact ⟨.ofProperty s.vocabulary p,
      ⟨n, hn, v.fieldSet s c, ⟨c, hc, rfl⟩, (mem_fields_fieldSet_iff c _).2 ⟨p, hp, rfl⟩⟩, rfl⟩

/-- A field of a chain comes from the property that provides its handle to the owner of the first
name on the chain whose owner has a property with that handle. -/
theorem provider_of_mem {chain : List String} {f : Field}
    (hf : f ∈ mergeFields chain (v.fieldSets s)) :
    ∃ before n after c p, chain = before ++ n :: after ∧ v.Owns s c n ∧ v.Provides c p ∧
      p.handle = f.handle ∧ f = .ofProperty s.vocabulary p ∧
      ∀ n' ∈ before, ∀ d, v.Owns s d n' → ∀ q, v.Attaches d q → q.handle ≠ f.handle := by
  obtain ⟨before, n, after, set, hchain, hset, hfind, hbefore⟩ :=
    (find?_fieldsAlong_iff _ _ _ f).1 ((mem_mergeFields_iff _ _ f).1 hf)
  rw [find?_fieldSets, Option.map_eq_some_iff] at hset
  obtain ⟨c, hc, rfl⟩ := hset
  obtain ⟨p, hp, hhandle, rfl⟩ := (find?_fields_fieldSet_iff c _ f).1 hfind
  refine ⟨before, n, after, c, p, hchain, (owner?_eq_some_iff n c).1 hc, hp, hhandle, rfl, ?_⟩
  intro n' hn' d hd q hq hhandle'
  have hset' : (v.fieldSets s).find? n' = some (v.fieldSet s d) := by
    rw [find?_fieldSets, (owner?_eq_some_iff n' d).2 hd]
    rfl
  have := hbefore n' hn' _ hset' (.ofProperty s.vocabulary q)
    ((mem_fields_fieldSet_iff d _).2 ⟨q, hq, rfl⟩)
  exact of_decide_eq_false this hhandle'

end VocabPhp.Vocabulary
