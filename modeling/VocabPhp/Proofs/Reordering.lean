import VocabPhp.Proofs.Recording
import VocabPhp.Proofs.Shown
import Mathlib.Data.List.Perm.Basic

/-!
# Graphs in another order

A vocabulary records the last resource with an identifier. Where identifiers do not repeat there is
only one, and the order of the graph shows in nothing but the order of the members of enumerations,
which no plan reads.

* `Vocabulary.lastWith_iff_mem`: among distinct identifiers, the last resource with a property of
  its identifier is the only one.
* `Vocabulary.Reordered`: vocabularies that differ in the order of members only.
* `Vocabulary.reordered_ofResources`: resources in another order have such vocabularies.
* `Plan.ofVocabulary_eq_of_reordered`: these have the same plan.
* `ofNodes_perm`: graphs with the same nodes in another order have such vocabularies, and runs on
  these do the same.
-/

namespace VocabPhp

variable {ns : Namespace} {rs rs' : List Resource} {v w : Vocabulary}

namespace Vocabulary

/-! ## Distinct identifiers -/

/-- Of resources with distinct identifiers, the last with a property that belongs to one identifier
is the only one. -/
theorem lastWith_iff_mem (hids : (rs.map Resource.id).Nodup) {p : Resource → Prop} {id : String}
    (hp : ∀ r, p r → r.id = id) (r : Resource) : LastWith rs p r ↔ r ∈ rs ∧ p r := by
  constructor
  · rintro ⟨before, after, rfl, hr, -⟩
    exact ⟨by simp, hr⟩
  · rintro ⟨hmem, hr⟩
    obtain ⟨before, after, rfl⟩ := List.append_of_mem hmem
    refine ⟨before, after, rfl, hr, fun r' hr' hpr' => ?_⟩
    rw [List.map_append, List.map_cons, List.nodup_append, List.nodup_cons] at hids
    have hfresh : r.id ∉ after.map Resource.id := hids.2.1.1
    exact hfresh (List.mem_map.2 ⟨r', hr', (hp r' hpr').trans (hp r hr).symm⟩)

/-- So it stays the last one in another order. -/
theorem lastWith_perm (hperm : rs.Perm rs') (hids : (rs.map Resource.id).Nodup)
    {p : Resource → Prop} {id : String} (hp : ∀ r, p r → r.id = id) (r : Resource) :
    LastWith rs p r ↔ LastWith rs' p r := by
  have hids' : (rs'.map Resource.id).Nodup := (hperm.map Resource.id).nodup_iff.1 hids
  rw [lastWith_iff_mem hids hp, lastWith_iff_mem hids' hp, hperm.mem_iff]

/-! ## Vocabularies that differ in the order of members -/

/-- Two vocabularies differ at most in the order of the members of enumerations. -/
structure Reordered (v w : Vocabulary) : Prop where
  classes : v.classes = w.classes
  attached : v.attached = w.attached
  superseded : v.superseded = w.superseded
  members (tag : String) : Option.Rel List.Perm (v.members.find? tag) (w.members.find? tag)

theorem membersOf_perm (hperm : rs.Perm rs') (tag : String) :
    (membersOf ns rs tag).Perm (membersOf ns rs' tag) := by
  rw [List.perm_ext_iff_of_nodup (nodup_membersOf rs tag) (nodup_membersOf rs' tag)]
  intro id
  simp only [mem_membersOf_iff, hperm.mem_iff]

/-- Resources with distinct identifiers have vocabularies alike in every order. -/
theorem reordered_ofResources (hperm : rs.Perm rs') (hids : (rs.map Resource.id).Nodup) :
    (ofResources ns rs).Reordered (ofResources ns rs') where
  classes := by
    refine Table.ext_find? fun id => Option.ext fun c => ?_
    rw [(records_ofResources rs).classes, (records_ofResources rs').classes]
    exact exists_congr fun r => and_congr_left' (lastWith_perm hperm hids (fun _ h => h.1) r)
  attached := by
    have hrecords : (ofResources ns rs).Records ns rs := records_ofResources rs
    have hrecords' : (ofResources ns rs').Records ns rs' := records_ofResources rs'
    refine eq_of_attached?_eq hrecords.filled hrecords'.filled fun domain id =>
      Option.ext fun p => ?_
    rw [hrecords.attached, hrecords'.attached]
    exact exists_congr fun r => and_congr_left' (lastWith_perm hperm hids (fun _ h => h.1) r)
  superseded := by
    refine Table.ext_find? fun id => Option.ext fun u => ?_
    have hiff : (ofResources ns rs).superseded.contains id = true ↔
        (ofResources ns rs').superseded.contains id = true := by
      rw [(records_ofResources rs).superseded, (records_ofResources rs').superseded]
      simp only [hperm.mem_iff]
    rwa [Table.contains, Table.contains, ← eq_some_unit_iff, ← eq_some_unit_iff] at hiff
  members tag := by
    have hmembers : (membersOf ns rs tag).Perm (membersOf ns rs' tag) := membersOf_perm hperm tag
    rw [find?_members_ofResources, find?_members_ofResources]
    by_cases hnil : membersOf ns rs tag = []
    · have hnil' : membersOf ns rs' tag = [] := (hnil ▸ hmembers).symm.eq_nil
      rw [if_pos hnil, if_pos hnil']
      exact .none
    · have hnil' : membersOf ns rs' tag ≠ [] := fun h => hnil (h ▸ hmembers).eq_nil
      rw [if_neg hnil, if_neg hnil']
      exact .some hmembers

/-- They show the same classes with the same properties. -/
theorem Reordered.selected (h : v.Reordered w) (s : Settings) :
    (v.selected s).classes = (w.selected s).classes ∧
      (v.selected s).attached = (w.selected s).attached := by
  rw [Vocabulary.selected, Vocabulary.selected]
  split
  · simp only [withoutSuperseded, h.classes, h.attached, h.superseded, and_self]
  · exact ⟨h.classes, h.attached⟩

end Vocabulary

/-- The order of members does not matter to plans. -/
theorem Plan.ofVocabulary_eq_of_reordered (h : v.Reordered w) (s : Settings) :
    ofVocabulary s v = ofVocabulary s w := by
  obtain ⟨hclasses, hattached⟩ := h.selected s
  have hshown : (v.selected s).namespaced s = (w.selected s).namespaced s := by
    rw [Vocabulary.namespaced, Vocabulary.namespaced, hclasses]
  rw [ofVocabulary_eq_ofShown, ofVocabulary_eq_ofShown, h.superseded]
  refine ofShown_congr hshown (fun c _ => ?_) _
  rw [Vocabulary.propertiesOf?, Vocabulary.propertiesOf?, hattached]

/-! ## Graphs -/

/-- The resources of nodes have the identifiers of these. -/
theorem map_id_eq {nodes : List Json}
    (h : List.Forall₂ (fun node r => Resource.ofJson node = .ok r) nodes rs) :
    rs.map Resource.id = nodes.filterMap Json.identifier? := by
  induction h with
  | nil => rfl
  | cons hr _ ih => rw [List.map_cons, List.filterMap_cons, identifier?_of_ofJson hr, ih]

/-- The vocabulary of a graph in another order. -/
theorem exists_reordered_ofNodes {nodes nodes' : List Json} (hperm : nodes.Perm nodes')
    (hids : (nodes.filterMap Json.identifier?).Nodup) (hv : Vocabulary.ofNodes ns nodes = .ok v) :
    ∃ w, Vocabulary.ofNodes ns nodes' = .ok w ∧ v.Reordered w := by
  obtain ⟨hall, rs, hrs, rfl⟩ := (Vocabulary.ofNodes_eq_ok_iff ns nodes v).1 hv
  obtain ⟨rs', hrs', hperm'⟩ := List.perm_comp_forall₂ hperm.symm hrs
  refine ⟨_, (Vocabulary.ofNodes_eq_ok_iff ns nodes' _).2
    ⟨fun node hnode => hall node (hperm.mem_iff.2 hnode), rs', hrs', rfl⟩, ?_⟩
  exact Vocabulary.reordered_ofResources hperm'.symm (map_id_eq hrs ▸ hids)

/-- Graphs with the same nodes in another order, whose identifiers do not repeat: either both have
vocabularies or none. The vocabularies have the same classes, properties and superseded resources,
and the same members of enumerations in some order. Runs on them with the same settings offer the
same files to a sink, in the same order, and end alike. -/
theorem ofNodes_perm (ns : Namespace) {nodes nodes' : List Json} (hperm : nodes.Perm nodes')
    (hids : (nodes.filterMap Json.identifier?).Nodup) :
    ((∃ v, Vocabulary.ofNodes ns nodes = .ok v) ↔ ∃ w, Vocabulary.ofNodes ns nodes' = .ok w) ∧
      ∀ v w, Vocabulary.ofNodes ns nodes = .ok v → Vocabulary.ofNodes ns nodes' = .ok w →
        v.Reordered w ∧
          ∀ (s : Settings) {σ ε : Type} (sink : Sink σ ε) (st : σ),
            generate s v sink st = generate s w sink st ∧
              offers s v sink st = offers s w sink st := by
  have hids' : (nodes'.filterMap Json.identifier?).Nodup :=
    (hperm.filterMap Json.identifier?).nodup_iff.1 hids
  refine ⟨⟨?_, ?_⟩, ?_⟩
  · rintro ⟨v, hv⟩
    obtain ⟨w, hw, -⟩ := exists_reordered_ofNodes hperm hids hv
    exact ⟨w, hw⟩
  · rintro ⟨w, hw⟩
    obtain ⟨v, hv, -⟩ := exists_reordered_ofNodes hperm.symm hids' hw
    exact ⟨v, hv⟩
  · intro v w hv hw
    obtain ⟨w', hw', hreordered⟩ := exists_reordered_ofNodes hperm hids hv
    obtain rfl : w = w' := Except.ok.inj (hw.symm.trans hw')
    exact ⟨hreordered, fun s _ _ sink st =>
      generate_eq_of_plan_eq (Plan.ofVocabulary_eq_of_reordered hreordered s) sink st⟩

/-! ### A week that begins with its end -/

/-- The nodes of the days of the weekend and of a property. -/
def weekendNodes : List Json := [
  .object [("@id", .string "schema:Sunday"), ("@type", .string "schema:Day"),
    ("rdfs:label", .string "Sunday")],
  .object [("@id", .string "schema:name"), ("@type", .string "rdf:Property"),
    ("rdfs:label", .string "name"), ("schema:domainIncludes", .array [
      .object [("@id", .string "schema:Day")], .object [("@id", .string "schema:Sunday")]])]]

/-- The nodes of the class of days and of a day that is a class, too. -/
def weekdayNodes : List Json := [
  .object [("@id", .string "schema:Monday"), ("@type", .array [
      .string "schema:Day", .string "rdfs:Class"]), ("rdfs:label", .string "Monday")],
  .object [("@id", .string "schema:Day"), ("@type", .string "rdfs:Class"),
    ("rdfs:label", .string "Day")]]

/-- The members are listed in the order of the graph, and runs do the same. -/
theorem ofNodes_perm_week : ∃ v w,
    Vocabulary.ofNodes .schemaOrg (weekdayNodes ++ weekendNodes) = .ok v ∧
      Vocabulary.ofNodes .schemaOrg (weekendNodes ++ weekdayNodes) = .ok w ∧
      v.members.find? "schema:Day" = some ["schema:Monday", "schema:Sunday"] ∧
      w.members.find? "schema:Day" = some ["schema:Sunday", "schema:Monday"] ∧
      v.Reordered w ∧
      generate (ε := Empty) {} v Shelf.sink ∅ = generate {} w Shelf.sink ∅ := by
  have hv : ((Vocabulary.ofNodes .schemaOrg (weekdayNodes ++ weekendNodes)).toOption.bind
      fun v => v.members.find? "schema:Day") = some ["schema:Monday", "schema:Sunday"] := by
    decide +kernel
  have hw : ((Vocabulary.ofNodes .schemaOrg (weekendNodes ++ weekdayNodes)).toOption.bind
      fun w => w.members.find? "schema:Day") = some ["schema:Sunday", "schema:Monday"] := by
    decide +kernel
  obtain ⟨v, hread, hmembers⟩ := Option.bind_eq_some_iff.1 hv
  obtain ⟨w, hread', hmembers'⟩ := Option.bind_eq_some_iff.1 hw
  have hread := eq_ok_of_toOption hread
  have hread' := eq_ok_of_toOption hread'
  obtain ⟨hreordered, hruns⟩ := (ofNodes_perm .schemaOrg List.perm_append_comm
    (by decide +kernel)).2 v w hread hread'
  exact ⟨v, w, hread, hread', hmembers, hmembers', hreordered, (hruns {} Shelf.sink ∅).1⟩

end VocabPhp
