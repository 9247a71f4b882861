import VocabPhp.Proofs.Traversal
import VocabPhp.Vocabulary.Basic

/-!
# Which graphs have a vocabulary

A graph has a vocabulary exactly if all its nodes can be used. Otherwise reading it ends with what
is wrong with the first node that cannot.

* `Handled`: a node that can be used. All its tags give it roles (`Namespace.Classifies`).
* `Offence`: what is wrong with a node, with its place in the graph.
* `classify_eq_ok_iff`, `classify_eq_error_iff`: a node is classified exactly if it is handled, and
  refused with its offence.
* `Vocabulary.ofNodes_eq_error_iff`: the error of a graph is the offence of its first node that is
  not handled.
* `Vocabulary.ofNodes_eq_ok_iff`: a graph without such a node gives the records of its resources.
-/

namespace VocabPhp

/-- A type tag gives a role: it is one of the two markers, or it lies in the namespace. -/
def Namespace.Classifies (ns : Namespace) (tag : String) : Prop :=
  tag = "rdf:Property" ∨ tag = "rdfs:Class" ∨ ns.contains tag = true

/-- A node that can be used: an object with an identifier and at least one type tag, all of whose
tags give roles. -/
def Handled (ns : Namespace) (node : Json) : Prop :=
  ∃ members id, node = .object members ∧ members.lookup "@id" = some (.string id) ∧
    Resource.tagsOf (members.lookup "@type") ≠ [] ∧
    ∀ tag ∈ Resource.tagsOf (members.lookup "@type"), ns.Classifies tag

/-- What is wrong with a node at a place of the graph. Of tags without a role the first counts. -/
inductive Offence (ns : Namespace) (index : Nat) : Json → NodeError → Prop
  | notObject {node : Json} (h : node.object? = none) :
      Offence ns index node (.malformed index .notObject)
  | noIdentifier {members : List (String × Json)}
      (h : ∀ id, members.lookup "@id" ≠ some (.string id)) :
      Offence ns index (.object members) (.malformed index .noIdentifier)
  | noTag {members : List (String × Json)} {id : String}
      (hid : members.lookup "@id" = some (.string id))
      (htags : Resource.tagsOf (members.lookup "@type") = []) :
      Offence ns index (.object members) (.malformed index (.noTag id))
  | unclassified {members : List (String × Json)} {id tag : String} {before after : List String}
      (hid : members.lookup "@id" = some (.string id))
      (htags : Resource.tagsOf (members.lookup "@type") = before ++ tag :: after)
      (hbefore : ∀ t ∈ before, ns.Classifies t) (htag : ¬ ns.Classifies tag) :
      Offence ns index (.object members) (.unclassified tag id)

/-- The roles that the tags of a resource give. -/
def Resource.roles (ns : Namespace) (r : Resource) : List Role := r.tags.filterMap (roleOf? ns)

/-- A resource with its roles. -/
def Resource.classified (ns : Namespace) (r : Resource) : Classified := ⟨r, r.roles ns⟩

/-! ## Tags -/

/-- The role of a tag of the resource `id`, or the refusal of the tag. -/
def roleOfTag (ns : Namespace) (id tag : String) : Except NodeError Role :=
  match roleOf? ns tag with
  | none => .error (.unclassified tag id)
  | some role => .ok role

theorem isSome_roleOf?_iff (ns : Namespace) (tag : String) :
    (roleOf? ns tag).isSome ↔ ns.Classifies tag := by
  grind [roleOf?, Namespace.Classifies]

theorem roleOfTag_eq_ok_iff (ns : Namespace) (id tag : String) (role : Role) :
    roleOfTag ns id tag = .ok role ↔ roleOf? ns tag = some role := by
  unfold roleOfTag
  split <;> simp_all

theorem roleOfTag_eq_error_iff (ns : Namespace) (id tag : String) (e : NodeError) :
    roleOfTag ns id tag = .error e ↔ ¬ ns.Classifies tag ∧ e = .unclassified tag id := by
  rw [← isSome_roleOf?_iff, roleOfTag]
  rcases roleOf? ns tag with _ | role
  · simp [@eq_comm _ e]
  · simp

theorem traversal_rolesOfTags (ns : Namespace) (id : String) :
    Traversal (fun _ => roleOfTag ns id) fun _ => rolesOfTags ns id where
  nil _ := rfl
  cons _ tag tags := by
    rw [rolesOfTags, roleOfTag]
    rcases roleOf? ns tag with _ | role
    · rfl
    · rcases rolesOfTags ns id tags with e | roles <;> rfl

/-- What is found for every item is what is found for all. -/
theorem forall₂_eq_some_iff {α β : Type} (f : α → Option β) (as : List α) (bs : List β) :
    List.Forall₂ (fun a b => f a = some b) as bs ↔
      (∀ a ∈ as, (f a).isSome) ∧ bs = as.filterMap f := by
  induction as generalizing bs with
  | nil => simp
  | cons a as ih =>
    rw [List.forall₂_cons_left_iff, List.forall_mem_cons, List.filterMap_cons]
    simp only [ih]
    rcases f a with _ | b
    · simp
    · simp

/-- Tags have roles exactly if each of them gives one. -/
theorem rolesOfTags_eq_ok_iff (ns : Namespace) (id : String) (tags : List String)
    (roles : List Role) :
    rolesOfTags ns id tags = .ok roles ↔
      (∀ tag ∈ tags, ns.Classifies tag) ∧ roles = tags.filterMap (roleOf? ns) := by
  rw [(traversal_rolesOfTags ns id).eq_ok_iff (fun _ => roleOfTag_eq_ok_iff ns id) 0,
    forall₂_eq_some_iff]
  simp only [isSome_roleOf?_iff]

/-- They are refused for the first one that gives none. -/
theorem rolesOfTags_eq_error_iff (ns : Namespace) (id : String) (tags : List String)
    (e : NodeError) :
    rolesOfTags ns id tags = .error e ↔ ∃ before tag after, tags = before ++ tag :: after ∧
      (∀ t ∈ before, ns.Classifies t) ∧ ¬ ns.Classifies tag ∧ e = .unclassified tag id := by
  rw [(traversal_rolesOfTags ns id).eq_error_iff (fun _ => roleOfTag_eq_ok_iff ns id) 0]
  simp only [← Option.isSome_iff_exists, isSome_roleOf?_iff, roleOfTag_eq_error_iff]

/-! ## Nodes -/

theorem bind_string?_eq_some_iff (v : Option Json) (text : String) :
    v.bind Json.string? = some text ↔ v = some (.string text) := by
  rcases v with _ | v
  · simp
  · cases v <;> simp [Json.string?]

/-- The resource that the members of a node describe. -/
def resourceOf (id : String) (members : List (String × Json)) : Resource where
  id := id
  tags := Resource.tagsOf (members.lookup "@type")
  soleTag := (members.lookup "@type").bind Json.string?
  attributes := members.filter fun m => m.1 ≠ "@id" ∧ m.1 ≠ "@type"

/-- A node with an identifier is a resource if it has a type tag. -/
theorem ofJson_object {members : List (String × Json)} {id : String}
    (hid : members.lookup "@id" = some (.string id)) :
    Resource.ofJson (.object members) =
      if Resource.tagsOf (members.lookup "@type") = [] then .error (.noTag id)
      else .ok (resourceOf id members) := by
  simp only [Resource.ofJson, Json.object?, hid, Option.bind_some, Json.string?, resourceOf]

/-- The identifier of a node, if it has one. -/
def Json.identifier? (node : Json) : Option String := (node.field? "@id").bind Json.string?

/-- The node of a resource has its identifier. -/
theorem identifier?_of_ofJson {node : Json} {r : Resource} (h : Resource.ofJson node = .ok r) :
    node.identifier? = some r.id := by
  rw [Json.identifier?, Json.field?]
  rw [Resource.ofJson] at h
  split at h
  · cases h
  · next members hmembers =>
    split at h
    · cases h
    · next id hid =>
      simp only at h
      split at h
      · cases h
      · cases h
        rw [hmembers]
        exact hid

/-- An offence is what the node is refused for. -/
theorem Offence.classify_eq {ns : Namespace} {index : Nat} {node : Json} {e : NodeError}
    (h : Offence ns index node e) : classify ns index node = .error e := by
  cases h with
  | notObject h => simp [classify, readNode, Resource.ofJson, h]
  | noIdentifier h =>
    have hnone : (List.lookup "@id" _).bind Json.string? = none :=
      Option.eq_none_iff_forall_ne_some.2 fun id hid => h id ((bind_string?_eq_some_iff _ _).1 hid)
    simp [classify, readNode, Resource.ofJson, Json.object?, hnone]
  | noTag hid htags => simp [classify, readNode, ofJson_object hid, htags]
  | @unclassified members id tag before after hid htags hbefore htag =>
    have hroles := (rolesOfTags_eq_error_iff ns id _ _).2
      ⟨before, tag, after, htags, hbefore, htag, rfl⟩
    simp only [classify, readNode, ofJson_object hid]
    rw [if_neg (by simp [htags])]
    simp only [resourceOf, hroles]

/-- A node that is handled is classified by its tags. -/
theorem Handled.classify_eq {ns : Namespace} {node : Json} (h : Handled ns node) (index : Nat) :
    ∃ r, Resource.ofJson node = .ok r ∧ classify ns index node = .ok (r.classified ns) := by
  obtain ⟨members, id, rfl, hid, htags, hroles⟩ := h
  have hread : Resource.ofJson (.object members) = .ok (resourceOf id members) := by
    rw [ofJson_object hid, if_neg htags]
  refine ⟨resourceOf id members, hread, ?_⟩
  have := (rolesOfTags_eq_ok_iff ns id _ _).2 ⟨hroles, rfl⟩
  simp only [classify, readNode, hread, resourceOf, this, Resource.classified, Resource.roles]

/-- A node is handled, or there is something wrong with it. -/
theorem handled_or_offence (ns : Namespace) (index : Nat) (node : Json) :
    Handled ns node ∨ ∃ e, Offence ns index node e := by
  rcases hmembers : node.object? with _ | members
  · exact .inr ⟨_, .notObject hmembers⟩
  obtain rfl : node = .object members := by
    cases node <;> simp_all [Json.object?]
  by_cases hid : ∃ id, members.lookup "@id" = some (.string id)
  · obtain ⟨id, hid⟩ := hid
    by_cases htags : Resource.tagsOf (members.lookup "@type") = []
    · exact .inr ⟨_, .noTag hid htags⟩
    · rcases hroles : rolesOfTags ns id (Resource.tagsOf (members.lookup "@type")) with e | roles
      · obtain ⟨before, tag, after, hcut, hbefore, htag, -⟩ :=
          (rolesOfTags_eq_error_iff ns id _ e).1 hroles
        exact .inr ⟨_, .unclassified hid hcut hbefore htag⟩
      · have hall := ((rolesOfTags_eq_ok_iff ns id _ roles).1 hroles).1
        exact .inl ⟨members, id, rfl, hid, htags, hall⟩
  · exact .inr ⟨_, .noIdentifier fun id h => hid ⟨id, h⟩⟩

/-- A node is classified exactly if it is handled, and then by its tags. -/
theorem classify_eq_ok_iff (ns : Namespace) (index : Nat) (node : Json) (c : Classified) :
    classify ns index node = .ok c ↔
      Handled ns node ∧ ∃ r, Resource.ofJson node = .ok r ∧ c = r.classified ns := by
  constructor
  · intro h
    rcases handled_or_offence ns index node with hnode | ⟨e, he⟩
    · obtain ⟨r, hr, hc⟩ := hnode.classify_eq index
      exact ⟨hnode, r, hr, Except.ok.inj (h.symm.trans hc)⟩
    · rw [he.classify_eq] at h
      cases h
  · rintro ⟨hnode, r, hr, rfl⟩
    obtain ⟨r', hr', hc⟩ := hnode.classify_eq index
    obtain rfl : r = r' := Except.ok.inj (hr.symm.trans hr')
    exact hc

theorem traversal_classifyFrom (ns : Namespace) : Traversal (classify ns) (classifyFrom ns) where
  nil _ := rfl
  cons i node nodes := by
    rw [classifyFrom]
    rcases classify ns i node with e | c
    · rfl
    · rcases classifyFrom ns (i + 1) nodes with e | cs <;> rfl

namespace Vocabulary

/-- The records of resources, in their order. -/
def ofResources (ns : Namespace) (rs : List Resource) : Vocabulary :=
  rs.foldl (fun v r => record ns v (r.classified ns)) empty

theorem ofNodes_eq_ok_iff_classifyFrom (ns : Namespace) (nodes : List Json) (v : Vocabulary) :
    ofNodes ns nodes = .ok v ↔
      ∃ cs, classifyFrom ns 0 nodes = .ok cs ∧ v = cs.foldl (record ns) empty := by
  rw [ofNodes]
  rcases classifyFrom ns 0 nodes with e | cs <;> simp [eq_comm]

/-- A graph without such a node gives the records of its resources, read one for one. -/
theorem ofNodes_eq_ok_iff (ns : Namespace) (nodes : List Json) (v : Vocabulary) :
    ofNodes ns nodes = .ok v ↔ (∀ node ∈ nodes, Handled ns node) ∧
      ∃ rs, List.Forall₂ (fun node r => Resource.ofJson node = .ok r) nodes rs ∧
        v = ofResources ns rs := by
  rw [ofNodes_eq_ok_iff_classifyFrom]
  simp only [(traversal_classifyFrom ns).eq_ok_iff (classify_eq_ok_iff ns), List.forall₂_and_left,
    forall₂_exists_iff]
  constructor
  · rintro ⟨-, ⟨hall, rs, hrs, rfl⟩, rfl⟩
    exact ⟨hall, rs, hrs, List.foldl_map⟩
  · rintro ⟨hall, rs, hrs, rfl⟩
    exact ⟨_, ⟨hall, rs, hrs, rfl⟩, List.foldl_map.symm⟩

end Vocabulary

end VocabPhp
