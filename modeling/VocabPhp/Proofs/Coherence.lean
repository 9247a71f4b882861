import Mathlib.Logic.Function.Iterate
import VocabPhp.Proofs.Superseded

/-!
# The tables of a vocabulary fit together

A vocabulary keeps classes, properties, members and superseded identifiers in four tables, and says
twice what is superseded: by the flag of a declaration and by the set of identifiers. Reading a
graph writes the tables role by role, and leaving out what is superseded thins them one by one, by
the set alone. The tables agree all the same.

* `Vocabulary.Coherent`: how the tables fit together. `Vocabulary.Coherent.record`: recording one
  more resource keeps it so; `Vocabulary.Coherent.withoutSuperseded`: so does leaving out what is
  superseded.
* `Vocabulary.Purged`: nothing in the tables is superseded, by neither account.
* `ofNodes_coherent`: both of them for the vocabulary of a graph, however often what is superseded
  is left out.
-/

namespace VocabPhp

namespace Vocabulary

variable {ns : Namespace} {v : Vocabulary}

/-- The tables of a vocabulary fit together. -/
structure Coherent (v : Vocabulary) : Prop where
  class_id {id : String} {c : ClassDecl} (h : v.classes.find? id = some c) : c.id = id
  property_id {domain id : String} {p : PropertyDecl}
    (h : attached? v.attached domain id = some p) : p.id = id
  /-- A class has only properties that name it as a domain. -/
  property_domain {domain id : String} {p : PropertyDecl}
    (h : attached? v.attached domain id = some p) : domain ∈ p.domains
  filled : Filled v.attached
  members_ne_nil {tag : String} {ids : List String} (h : v.members.find? tag = some ids) : ids ≠ []
  members_nodup {tag : String} {ids : List String} (h : v.members.find? tag = some ids) : ids.Nodup
  /-- A member of an enumeration is a class. -/
  member_class {tag : String} {ids : List String} (h : v.members.find? tag = some ids) :
    ∀ id ∈ ids, id ∈ v.classes.keys
  /-- The set knows every class that is flagged. -/
  class_superseded {id : String} {c : ClassDecl} (h : v.classes.find? id = some c)
    (hflag : c.superseded = true) : v.superseded.contains c.id = true
  /-- The set knows every property of a class that is flagged. -/
  property_superseded {domain id : String} {p : PropertyDecl}
    (h : attached? v.attached domain id = some p) (hflag : p.superseded = true) :
    v.superseded.contains p.id = true

/-- Nothing in the tables of a vocabulary is superseded: no declaration is flagged, and the set has
no identifier in common with the other tables. -/
structure Purged (v : Vocabulary) : Prop where
  class_flag {id : String} {c : ClassDecl} (h : v.classes.find? id = some c) :
    c.superseded = false
  property_flag {domain id : String} {p : PropertyDecl}
    (h : attached? v.attached domain id = some p) : p.superseded = false
  class_key {id : String} (h : id ∈ v.classes.keys) : v.superseded.contains id = false
  property_key {domain id : String} {p : PropertyDecl}
    (h : attached? v.attached domain id = some p) : v.superseded.contains id = false
  member {tag : String} {ids : List String} (h : v.members.find? tag = some ids) :
    ∀ id ∈ ids, v.superseded.contains id = false

/-! ## Reading a graph -/

theorem coherent_empty : empty.Coherent where
  class_id h := by cases h
  property_id h := by cases h
  property_domain h := by cases h
  filled _ _ h := by cases h
  members_ne_nil h := by cases h
  members_nodup h := by cases h
  member_class h := by cases h
  class_superseded h := by cases h
  property_superseded h := by cases h

theorem mem_keys_classes_record (v : Vocabulary) (r : Resource) (id : String) :
    id ∈ (record ns v (r.classified ns)).classes.keys ↔
      r.id = id ∧ r.IsClass ns ∨ id ∈ v.classes.keys := by
  rw [Table.mem_keys_iff, Table.mem_keys_iff, find?_classes_record]
  split
  · next h => simp [h]
  · next h => simp [h]

/-- Recording a resource adds its identifier to the set if it is marked, and takes none away. -/
theorem contains_superseded_record (v : Vocabulary) (r : Resource) (id : String) :
    (record ns v (r.classified ns)).superseded.contains id = true ↔
      r.id = id ∧ r.isSuperseded ns = true ∨ v.superseded.contains id = true := by
  rw [Table.contains, Table.contains, find?_superseded_record]
  split
  · next h => simp [h]
  · next h => simp [h]

theorem mem_joined_iff (id id' : String) (ids : List String) :
    id' ∈ joined id ids ↔ id' = id ∨ id' ∈ ids := by
  unfold joined
  split
  · next h =>
    constructor
    · exact .inr
    · rintro (rfl | h')
      · exact h
      · exact h'
  · simp [or_comm]

/-- A member of an enumeration is a class in its own right. -/
theorem isClass_of_isMember {r : Resource} {tag : String} (h : r.IsMember ns tag) :
    r.IsClass ns :=
  ⟨tag, h.1, .inr ⟨h.2.1, h.2.2.1⟩⟩

/-- An enumeration after one more resource: the list that it had, or that list joined by the
resource, which is then a class. -/
theorem members_record_cases {r : Resource} {tag : String} {ids : List String}
    (h : (record ns v (r.classified ns)).members.find? tag = some ids) :
    v.members.find? tag = some ids ∨
      r.IsClass ns ∧ ids = joined r.id ((v.members.find? tag).getD []) := by
  rw [find?_members_record] at h
  split at h
  · next hr => exact .inr ⟨isClass_of_isMember hr, (Option.some.inj h).symm⟩
  · exact .inl h

/-- Recording one more resource keeps the tables fitting together. -/
theorem Coherent.record (hv : v.Coherent) (r : Resource) :
    (record ns v (r.classified ns)).Coherent where
  class_id h := by
    rw [find?_classes_record] at h
    split at h
    · next hr => cases h; exact hr.1
    · exact hv.class_id h
  property_id h := by
    rw [attached?_record] at h
    split at h
    · next hr => cases h; exact hr.1
    · exact hv.property_id h
  property_domain h := by
    rw [attached?_record] at h
    split at h
    · next hr => cases h; exact hr.2.2
    · exact hv.property_domain h
  filled := filled_record hv.filled
  members_ne_nil h := by
    rcases members_record_cases h with hold | ⟨-, rfl⟩
    · exact hv.members_ne_nil hold
    · exact joined_ne_nil _ _
  members_nodup {tag ids} h := by
    rcases members_record_cases h with hold | ⟨-, rfl⟩
    · exact hv.members_nodup hold
    · refine nodup_joined ?_
      rcases hids : v.members.find? tag with _ | ids
      · exact List.nodup_nil
      · exact hv.members_nodup hids
  member_class {tag ids} h id hid := by
    rw [mem_keys_classes_record]
    rcases members_record_cases h with hold | ⟨hclass, rfl⟩
    · exact .inr (hv.member_class hold id hid)
    · rcases (mem_joined_iff _ _ _).1 hid with rfl | hid
      · exact .inl ⟨rfl, hclass⟩
      · rcases hids : v.members.find? tag with _ | ids
        · simp [hids] at hid
        · exact .inr (hv.member_class hids id (by simpa [hids] using hid))
  class_superseded h hflag := by
    rw [contains_superseded_record]
    rw [find?_classes_record] at h
    split at h
    · cases h; exact .inl ⟨rfl, hflag⟩
    · exact .inr (hv.class_superseded h hflag)
  property_superseded h hflag := by
    rw [contains_superseded_record]
    rw [attached?_record] at h
    split at h
    · cases h; exact .inl ⟨rfl, hflag⟩
    · exact .inr (hv.property_superseded h hflag)

/-- The tables of resources fit together. -/
theorem coherent_ofResources (ns : Namespace) (rs : List Resource) :
    (ofResources ns rs).Coherent :=
  foldl_invariant Coherent (fun _ r hv => hv.record r) coherent_empty rs

/-! ## Leaving out what is superseded -/

/-- A class that is left was there, and the set does not know it. -/
theorem find?_classes_withoutSuperseded_eq_some_iff {id : String} {c : ClassDecl} :
    v.withoutSuperseded.classes.find? id = some c ↔
      v.superseded.contains id = false ∧ v.classes.find? id = some c := by
  rw [find?_classes_withoutSuperseded]
  rcases v.superseded.contains id <;> simp

/-- A property that is left was there, and the set does not know it. -/
theorem attached?_withoutSuperseded_eq_some_iff {domain id : String} {p : PropertyDecl} :
    attached? v.withoutSuperseded.attached domain id = some p ↔
      v.superseded.contains id = false ∧ attached? v.attached domain id = some p := by
  rw [attached?_withoutSuperseded]
  rcases v.superseded.contains id <;> simp

/-- An enumeration that is left has those of its members that the set does not know, and there are
some. -/
theorem find?_members_withoutSuperseded_eq_some_iff {tag : String} {ids : List String} :
    v.withoutSuperseded.members.find? tag = some ids ↔ ids ≠ [] ∧
      ∃ all, v.members.find? tag = some all ∧
        all.filter (fun id => !v.superseded.contains id) = ids := by
  rw [find?_members_withoutSuperseded, Option.filter_eq_some_iff, Option.map_eq_some_iff, and_comm]
  simp

theorem mem_keys_classes_withoutSuperseded_iff {id : String} :
    id ∈ v.withoutSuperseded.classes.keys ↔
      v.superseded.contains id = false ∧ id ∈ v.classes.keys := by
  simp only [Table.mem_keys_iff, Option.isSome_iff_exists,
    find?_classes_withoutSuperseded_eq_some_iff, exists_and_left]

/-- Leaving out what is superseded keeps the tables fitting together: each is thinned by the same
set, which stays. -/
theorem Coherent.withoutSuperseded (hv : v.Coherent) : v.withoutSuperseded.Coherent where
  class_id h := hv.class_id (find?_classes_withoutSuperseded_eq_some_iff.1 h).2
  property_id h := hv.property_id (attached?_withoutSuperseded_eq_some_iff.1 h).2
  property_domain h := hv.property_domain (attached?_withoutSuperseded_eq_some_iff.1 h).2
  filled := filled_withoutSuperseded v
  members_ne_nil h := (find?_members_withoutSuperseded_eq_some_iff.1 h).1
  members_nodup h := by
    obtain ⟨-, all, hall, rfl⟩ := find?_members_withoutSuperseded_eq_some_iff.1 h
    exact (hv.members_nodup hall).filter _
  member_class h id hid := by
    obtain ⟨-, all, hall, rfl⟩ := find?_members_withoutSuperseded_eq_some_iff.1 h
    obtain ⟨hid, hstays⟩ := List.mem_filter.1 hid
    have hknown : v.superseded.contains id = false := by simpa using hstays
    exact mem_keys_classes_withoutSuperseded_iff.2 ⟨hknown, hv.member_class hall id hid⟩
  class_superseded h := hv.class_superseded (find?_classes_withoutSuperseded_eq_some_iff.1 h).2
  property_superseded h := hv.property_superseded (attached?_withoutSuperseded_eq_some_iff.1 h).2

/-- What is left is not superseded. The flags need no look: the set knows whatever is flagged. -/
theorem Coherent.purged_withoutSuperseded (hv : v.Coherent) : v.withoutSuperseded.Purged where
  class_flag {id c} h := by
    obtain ⟨hstays, hc⟩ := find?_classes_withoutSuperseded_eq_some_iff.1 h
    by_contra hflag
    have hknown := hv.class_superseded hc (by simpa using hflag)
    rw [hv.class_id hc, hstays] at hknown
    cases hknown
  property_flag {domain id p} h := by
    obtain ⟨hstays, hp⟩ := attached?_withoutSuperseded_eq_some_iff.1 h
    by_contra hflag
    have hknown := hv.property_superseded hp (by simpa using hflag)
    rw [hv.property_id hp, hstays] at hknown
    cases hknown
  class_key h := (mem_keys_classes_withoutSuperseded_iff.1 h).1
  property_key h := (attached?_withoutSuperseded_eq_some_iff.1 h).1
  member {tag ids} h id hid := by
    obtain ⟨-, all, -, rfl⟩ := find?_members_withoutSuperseded_eq_some_iff.1 h
    have hstays : v.superseded.contains id = false := by simpa using (List.mem_filter.1 hid).2
    exact hstays

/-- The tables fit together however often what is superseded is left out. -/
theorem Coherent.iterate_withoutSuperseded (hv : v.Coherent) (n : Nat) :
    (Vocabulary.withoutSuperseded^[n] v).Coherent := by
  induction n with
  | zero => exact hv
  | succ n ih =>
    rw [Function.iterate_succ_apply']
    exact ih.withoutSuperseded

end Vocabulary

variable {ns : Namespace} {v : Vocabulary}

/-- The tables of the vocabulary of a graph fit together, however often what is superseded is left
out. Once it has been left out, nothing in the tables is superseded, by neither account. -/
theorem ofNodes_coherent {nodes : List Json} (hv : Vocabulary.ofNodes ns nodes = .ok v) (n : Nat) :
    (Vocabulary.withoutSuperseded^[n] v).Coherent ∧
      (0 < n → (Vocabulary.withoutSuperseded^[n] v).Purged) := by
  obtain ⟨-, rs, -, rfl⟩ := (Vocabulary.ofNodes_eq_ok_iff ns nodes v).1 hv
  have hread := Vocabulary.coherent_ofResources ns rs
  refine ⟨hread.iterate_withoutSuperseded n, fun hn => ?_⟩
  obtain ⟨n, rfl⟩ := Nat.exists_eq_succ_of_ne_zero (Nat.ne_of_gt hn)
  rw [Function.iterate_succ_apply']
  exact (hread.iterate_withoutSuperseded n).purged_withoutSuperseded

/-! ### Resources with several roles -/

/-- The nodes of a class that only the first of its nodes marks, of a marked member of an
enumeration with the tag of the enumeration twice, of another member that is also a property of the
first one, and of a marked property of that other member. -/
def entangledNodes : List Json := [
  .object [("@id", .string "schema:Old"), ("@type", .string "rdfs:Class"),
    ("rdfs:label", .string "Old"), ("schema:supersededBy", .string "schema:Monday")],
  .object [("@id", .string "schema:Old"), ("@type", .string "rdfs:Class"),
    ("rdfs:label", .string "Old")],
  .object [("@id", .string "schema:Monday"), ("@type", .array [
      .string "schema:Day", .string "rdfs:Class", .string "schema:Day"]),
    ("rdfs:label", .string "Monday"), ("schema:supersededBy", .string "schema:Tuesday")],
  .object [("@id", .string "schema:Tuesday"), ("@type", .array [
      .string "schema:Day", .string "rdf:Property"]),
    ("rdfs:label", .string "Tuesday"),
    ("schema:domainIncludes", .object [("@id", .string "schema:Monday")])],
  .object [("@id", .string "schema:alias"), ("@type", .string "rdf:Property"),
    ("rdfs:label", .string "alias"), ("schema:supersededBy", .string "schema:Tuesday"),
    ("schema:domainIncludes", .string "schema:Tuesday")]]

/-- The group of the second member is gone; that of the first, which is gone itself, is not. -/
theorem ofNodes_coherent_entangled : ∃ v,
    Vocabulary.ofNodes .schemaOrg entangledNodes = .ok v ∧
      v.superseded.keys = ["schema:Monday", "schema:Old", "schema:alias"] ∧
      v.members.values = [["schema:Monday", "schema:Tuesday"]] ∧
      (Vocabulary.withoutSuperseded^[2] v).classes.keys = ["schema:Tuesday"] ∧
      (Vocabulary.withoutSuperseded^[2] v).attached.keys = ["schema:Monday"] ∧
      (Vocabulary.withoutSuperseded^[2] v).members.values = [["schema:Tuesday"]] ∧
      v.Coherent ∧ (Vocabulary.withoutSuperseded^[2] v).Coherent ∧
      (Vocabulary.withoutSuperseded^[2] v).Purged := by
  have hread : ((Vocabulary.ofNodes .schemaOrg entangledNodes).toOption.map fun v =>
      (v.superseded.keys, v.members.values, (Vocabulary.withoutSuperseded^[2] v).classes.keys,
        (Vocabulary.withoutSuperseded^[2] v).attached.keys,
        (Vocabulary.withoutSuperseded^[2] v).members.values)) =
      some (["schema:Monday", "schema:Old", "schema:alias"],
        [["schema:Monday", "schema:Tuesday"]], ["schema:Tuesday"],
        ["schema:Monday"], [["schema:Tuesday"]]) := by
    decide +kernel
  obtain ⟨v, hv, hkeys⟩ := Option.map_eq_some_iff.1 hread
  simp only [Prod.mk.injEq] at hkeys
  obtain ⟨hsuperseded, hmembers, hclasses, hattached, hleft⟩ := hkeys
  have hv := eq_ok_of_toOption hv
  obtain ⟨hcoherent, hpurged⟩ := ofNodes_coherent hv 2
  exact ⟨v, hv, hsuperseded, hmembers, hclasses, hattached, hleft, (ofNodes_coherent hv 0).1,
    hcoherent, hpurged (by decide)⟩

end VocabPhp
