import VocabPhp.Proofs.Recording
import VocabPhp.Proofs.Shown

/-!
# Vocabularies without superseded resources

To leave out what is superseded is to read the graph without the nodes of superseded resources. An
identifier is superseded as soon as one of its nodes says so, and then all its nodes go.

* `Vocabulary.find?_classes_withoutSuperseded`, `Vocabulary.attached?_withoutSuperseded`,
  `Vocabulary.find?_members_withoutSuperseded`: what is left.
* `Vocabulary.withoutSuperseded_idem`: to leave it out again changes nothing.
* `Vocabulary.lastWith_filter`, `Vocabulary.membersOf_filter`: what resources declare that are
  chosen by their identifiers.
* `Vocabulary.Records.withoutSuperseded`: the rest is the vocabulary of the other resources.
* `ofNodes_retained`: the graph without superseded nodes has this vocabulary, and a run that skips
  what is superseded does what a run on it does.
-/

namespace VocabPhp

variable {ns : Namespace} {rs : List Resource}

/-! ## What is left -/

theorem Table.isEmpty_iff {α : Type} (t : Table α) : t.isEmpty = true ↔ ∀ k, t.find? k = none := by
  rw [isEmpty, List.isEmpty_iff]
  constructor
  · intro h k
    rw [find?, h]
    rfl
  · intro h
    refine List.eq_nil_iff_forall_not_mem.2 fun e hmem => ?_
    have hfind := (mem_entries_iff t e.1 e.2).1 hmem
    rw [h e.1] at hfind
    cases hfind

/-- A selection of names drops the entries of all other names. -/
theorem Table.find?_filter_not {α : Type} (drop : String → Bool) (t : Table α) (k : String) :
    (t.filter fun k _ => !drop k).find? k = if drop k then none else t.find? k := by
  rw [find?_filter]
  rcases t.find? k with _ | x
  · simp
  · cases drop k <;> simp [Option.filter]

namespace Vocabulary

variable {v : Vocabulary}

theorem find?_classes_withoutSuperseded (v : Vocabulary) (id : String) :
    v.withoutSuperseded.classes.find? id =
      if v.superseded.contains id then none else v.classes.find? id :=
  Table.find?_filter_not v.superseded.contains v.classes id

/-- The group of a class is left with the properties that are not superseded, unless it is empty. -/
theorem find?_attached_withoutSuperseded (v : Vocabulary) (domain : String) :
    v.withoutSuperseded.attached.find? domain =
      ((v.attached.find? domain).map fun ps =>
        ps.filter fun id _ => !v.superseded.contains id).filter fun ps => !ps.isEmpty := by
  rw [withoutSuperseded, Table.find?_filter, Table.find?_mapValues]

theorem attached?_withoutSuperseded (v : Vocabulary) (domain id : String) :
    attached? v.withoutSuperseded.attached domain id =
      if v.superseded.contains id then none else attached? v.attached domain id := by
  rw [attached?, attached?, find?_attached_withoutSuperseded]
  rcases v.attached.find? domain with _ | ps
  · simp
  · have hfind := Table.find?_filter_not v.superseded.contains ps id
    -- A group that is left empty has no property to be found either.
    by_cases hempty : (ps.filter fun id _ => !v.superseded.contains id).isEmpty = true
    · have hnone := (Table.isEmpty_iff _).1 hempty id
      rw [hnone] at hfind
      simpa [Option.filter, hempty] using hfind
    · simpa [Option.filter, hempty] using hfind

theorem filled_withoutSuperseded (v : Vocabulary) : Filled v.withoutSuperseded.attached := by
  intro domain ps hps
  rw [find?_attached_withoutSuperseded, Option.filter_eq_some_iff] at hps
  by_contra hnone
  have hempty : ps.isEmpty = true := by
    rw [Table.isEmpty_iff]
    intro id
    by_contra hsome
    obtain ⟨p, hp⟩ := Option.ne_none_iff_exists'.1 hsome
    exact hnone ⟨id, p, hp⟩
  simp [hempty] at hps

/-- An enumeration is left with the members that are not superseded, unless there are none. -/
theorem find?_members_withoutSuperseded (v : Vocabulary) (tag : String) :
    v.withoutSuperseded.members.find? tag =
      ((v.members.find? tag).map fun ids =>
        ids.filter fun id => !v.superseded.contains id).filter fun ids => !ids.isEmpty := by
  rw [withoutSuperseded, Table.find?_filter, Table.find?_mapValues]

/-- To leave out what is superseded again changes nothing. -/
theorem withoutSuperseded_idem (v : Vocabulary) :
    v.withoutSuperseded.withoutSuperseded = v.withoutSuperseded := by
  have hsuperseded : v.withoutSuperseded.superseded = v.superseded := rfl
  have hclasses : v.withoutSuperseded.withoutSuperseded.classes = v.withoutSuperseded.classes := by
    refine Table.ext_find? fun id => ?_
    rw [find?_classes_withoutSuperseded, find?_classes_withoutSuperseded, hsuperseded]
    split <;> rfl
  have hattached : v.withoutSuperseded.withoutSuperseded.attached =
      v.withoutSuperseded.attached := by
    refine eq_of_attached?_eq (filled_withoutSuperseded _) (filled_withoutSuperseded _)
      fun domain id => ?_
    rw [attached?_withoutSuperseded, attached?_withoutSuperseded, hsuperseded]
    split <;> rfl
  have hmembers : v.withoutSuperseded.withoutSuperseded.members = v.withoutSuperseded.members := by
    refine Table.ext_find? fun tag => ?_
    rw [find?_members_withoutSuperseded, find?_members_withoutSuperseded, hsuperseded]
    rcases v.members.find? tag with _ | ids
    · rfl
    · by_cases hnil : ids.filter (fun id => !v.superseded.contains id) = []
      · simp [Option.filter, hnil]
      · simp [Option.filter, hnil]
  calc v.withoutSuperseded.withoutSuperseded
      = ⟨v.withoutSuperseded.withoutSuperseded.classes,
          v.withoutSuperseded.withoutSuperseded.attached,
          v.withoutSuperseded.withoutSuperseded.members, v.superseded⟩ := rfl
    _ = v.withoutSuperseded := by rw [hclasses, hattached, hmembers]; rfl

/-! ## Resources chosen by their identifiers -/

/-- Where resources are chosen by their identifiers, the last one with a property that belongs to
one identifier stays the last one if that is chosen. -/
theorem lastWith_filter (keep : String → Bool) (rs : List Resource) {p : Resource → Prop}
    {id : String} (hp : ∀ r, p r → r.id = id) (r : Resource) :
    LastWith (rs.filter fun r => keep r.id) p r ↔ keep id = true ∧ LastWith rs p r := by
  constructor
  · rintro ⟨before, after, hcut, hr, hafter⟩
    have hmem : r ∈ rs.filter fun r => keep r.id := by simp [hcut]
    have hkeep : keep id = true := hp r hr ▸ (List.mem_filter.1 hmem).2
    obtain ⟨front, rest, rfl, rfl, hrest⟩ := List.filter_eq_append_iff.1 hcut
    obtain ⟨gap, back, rfl, -, -, rfl⟩ := List.filter_eq_cons_iff.1 hrest
    refine ⟨hkeep, front ++ gap, back, by simp, hr, fun r' hr' hpr' => ?_⟩
    exact hafter r' (List.mem_filter.2 ⟨hr', hp r' hpr' ▸ hkeep⟩) hpr'
  · rintro ⟨hkeep, before, after, rfl, hr, hafter⟩
    refine ⟨before.filter fun r => keep r.id, after.filter fun r => keep r.id, ?_, hr, ?_⟩
    · rw [List.filter_append, List.filter_cons_of_pos (by rw [hp r hr]; exact hkeep)]
    · exact fun r' hr' => hafter r' (List.mem_filter.1 hr').1

theorem filter_joined (keep : String → Bool) (id : String) (ids : List String) :
    (joined id ids).filter keep =
      if keep id then joined id (ids.filter keep) else ids.filter keep := by
  by_cases hid : id ∈ ids <;> by_cases hkeep : keep id = true <;> simp [joined, hid, hkeep]

/-- The members among chosen resources are the chosen members. -/
theorem membersOf_filter (keep : String → Bool) (rs : List Resource) (tag : String) :
    membersOf ns (rs.filter fun r => keep r.id) tag = (membersOf ns rs tag).filter keep := by
  induction rs using List.reverseRecOn with
  | nil => simp [membersOf]
  | append_singleton rs r ih =>
    rw [List.filter_append, membersOf_concat]
    by_cases hkeep : keep r.id = true
    · have hlast : [r].filter (fun r => keep r.id) = [r] := by simp [hkeep]
      rw [hlast, membersOf_concat, ih]
      split
      · rw [filter_joined, if_pos hkeep]
      · rfl
    · have hlast : [r].filter (fun r => keep r.id) = [] := by simp [hkeep]
      rw [hlast, List.append_nil, ih]
      split
      · rw [filter_joined, if_neg hkeep]
      · rfl

/-- What is left of a vocabulary is that of the resources that are not superseded; none of these is
marked. -/
theorem Records.withoutSuperseded (hv : v.Records ns rs) :
    { v.withoutSuperseded with superseded := ∅ }.Records ns
      (rs.filter fun r => !v.superseded.contains r.id) where
  classes id c := by
    have hlast (r : Resource) := lastWith_filter (fun id => !v.superseded.contains id) rs
      (fun r (hr : r.id = id ∧ r.IsClass ns) => hr.1) r
    simp only [find?_classes_withoutSuperseded, hlast, and_assoc, exists_and_left, ← hv.classes]
    rcases v.superseded.contains id <;> simp
  attached domain id p := by
    have hlast (r : Resource) := lastWith_filter (fun id => !v.superseded.contains id) rs
      (fun r (hr : r.id = id ∧ r.HasDomain ns domain) => hr.1) r
    simp only [attached?_withoutSuperseded, hlast, and_assoc, exists_and_left, ← hv.attached]
    rcases v.superseded.contains id <;> simp
  filled := filled_withoutSuperseded v
  members tag ids := by
    rw [membersOf_filter fun id => !v.superseded.contains id]
    show v.withoutSuperseded.members.find? tag = some ids ↔ _
    rw [find?_members_withoutSuperseded, Option.filter_eq_some_iff, Option.map_eq_some_iff]
    constructor
    · rintro ⟨⟨all, hall, rfl⟩, hne⟩
      obtain ⟨rfl, -⟩ := (hv.members tag all).1 hall
      exact ⟨rfl, by simpa using hne⟩
    · rintro ⟨rfl, hne⟩
      have hall : membersOf ns rs tag ≠ [] := fun hnil => hne (by rw [hnil]; rfl)
      exact ⟨⟨_, (hv.members tag _).2 ⟨rfl, hall⟩, rfl⟩, by simpa using hne⟩
  superseded id := by
    have hempty : (∅ : NameSet).contains id = false := rfl
    simp only [hempty, Bool.false_eq_true, false_iff]
    rintro ⟨r, hr, -, hmarked⟩
    obtain ⟨hmem, hkeep⟩ := List.mem_filter.1 hr
    have hsuperseded := (hv.superseded r.id).2 ⟨r, hmem, rfl, hmarked⟩
    simp [hsuperseded] at hkeep

/-- Tells whether a node is not that of a superseded resource. -/
def retains (v : Vocabulary) (node : Json) : Bool :=
  node.identifier?.all fun id => !v.superseded.contains id

/-- The graph without superseded nodes has the vocabulary that is left. -/
theorem ofNodes_filter_retains {nodes : List Json} (hv : ofNodes ns nodes = .ok v) :
    ofNodes ns (nodes.filter v.retains) = .ok { v.withoutSuperseded with superseded := ∅ } := by
  obtain ⟨hall, rs, hrs, rfl⟩ := (ofNodes_eq_ok_iff ns nodes v).1 hv
  have hrecords : (ofResources ns rs).Records ns rs := records_ofResources rs
  rw [ofNodes_eq_ok_iff]
  refine ⟨fun node hnode => hall node (List.mem_filter.1 hnode).1, _, ?_,
    hrecords.withoutSuperseded.unique (records_ofResources _)⟩
  refine List.rel_filter (fun node r hr => ?_) hrs
  show (node.identifier?.all fun id => !(ofResources ns rs).superseded.contains id) = true ↔ _
  rw [identifier?_of_ofJson hr]
  rfl

end Vocabulary

variable {v : Vocabulary}

/-- To skip what is superseded is to plan for the graph without superseded nodes; only the number of
superseded resources is that of the whole graph. -/
theorem Plan.ofVocabulary_skipping (s : Settings) (v : Vocabulary) :
    ofVocabulary (s.skipping true) v =
      (ofVocabulary (s.skipping false) { v.withoutSuperseded with superseded := ∅ }).map
        fun p => { p with superseded := v.superseded.size } := by
  rw [ofVocabulary_eq_ofShown, ofVocabulary_eq_ofShown, Vocabulary.selected_skipping_true,
    Vocabulary.selected_skipping_false, ofShown_skipping, ofShown_skipping, ← ofShown_eq_map]
  exact ofShown_congr rfl (fun _ _ => rfl) _

/-- A graph with a vocabulary, read without the nodes of superseded resources, has the vocabulary
without what is superseded. To leave that out again changes nothing, and the set of what is
superseded stays. With any settings, a run that skips what is superseded offers the same files to a
sink as a run on the graph without superseded nodes, and ends alike; it reports the number of
superseded resources of the whole graph. -/
theorem ofNodes_retained {nodes : List Json} (hv : Vocabulary.ofNodes ns nodes = .ok v) :
    v.withoutSuperseded.withoutSuperseded = v.withoutSuperseded ∧
      v.withoutSuperseded.superseded = v.superseded ∧
      ∃ w, Vocabulary.ofNodes ns (nodes.filter v.retains) = .ok w ∧
        w.classes = v.withoutSuperseded.classes ∧ w.attached = v.withoutSuperseded.attached ∧
        w.members = v.withoutSuperseded.members ∧ w.superseded = ∅ ∧
        ∀ (s : Settings) {σ ε : Type} (sink : Sink σ ε) (st : σ),
          generate (s.skipping true) v sink st =
              ((generate (s.skipping false) w sink st).1.map fun r =>
                  { r with superseded := v.superseded.size },
                (generate (s.skipping false) w sink st).2) ∧
            offers (s.skipping true) v sink st = offers (s.skipping false) w sink st :=
  ⟨v.withoutSuperseded_idem, rfl, _, Vocabulary.ofNodes_filter_retains hv, rfl, rfl, rfl, rfl,
    fun s _ _ sink st => generate_eq_of_plan_eq_map (Plan.ofVocabulary_skipping s v) sink st⟩

/-! ### A class that only one of its nodes marks -/

/-- The nodes of a class, of another class with and without the mark, of a marked member of an
enumeration, and of two properties, one of them marked. -/
def datedNodes : List Json := [
  .object [("@id", .string "schema:Thing"), ("@type", .string "rdfs:Class"),
    ("rdfs:label", .string "Thing")],
  .object [("@id", .string "schema:Old"), ("@type", .string "rdfs:Class"),
    ("rdfs:label", .string "Old"),
    ("schema:supersededBy", .object [("@id", .string "schema:Thing")])],
  .object [("@id", .string "schema:Old"), ("@type", .string "rdfs:Class"),
    ("rdfs:label", .string "Old"), ("rdfs:subClassOf", .object [("@id", .string "schema:Thing")])],
  .object [("@id", .string "schema:Monday"), ("@type", .string "schema:Day"),
    ("rdfs:label", .string "Monday"), ("schema:supersededBy", .string "schema:Thing")],
  .object [("@id", .string "schema:name"), ("@type", .string "rdf:Property"),
    ("rdfs:label", .string "name"), ("schema:domainIncludes", .array [
      .object [("@id", .string "schema:Thing")], .object [("@id", .string "schema:Old")]])],
  .object [("@id", .string "schema:alias"), ("@type", .string "rdf:Property"),
    ("rdfs:label", .string "alias"), ("schema:supersededBy", .string "schema:name"),
    ("schema:domainIncludes", .array [
      .object [("@id", .string "schema:Thing")], .object [("@id", .string "schema:Monday")]])]]

/-- The groups of the enumeration and of its member are gone, that of the class is not. -/
theorem ofNodes_retained_dated : ∃ v w,
    Vocabulary.ofNodes .schemaOrg datedNodes = .ok v ∧
      v.attached.keys = ["schema:Monday", "schema:Old", "schema:Thing"] ∧
      v.members.keys = ["schema:Day"] ∧
      Vocabulary.ofNodes .schemaOrg (datedNodes.filter v.retains) = .ok w ∧
      w.classes.keys = ["schema:Thing"] ∧ w.attached.keys = ["schema:Old", "schema:Thing"] ∧
      w.members.keys = [] ∧
      offers (ε := Empty) { skipSuperseded := true } v Shelf.sink ∅ =
        offers (ε := Empty) {} w Shelf.sink ∅ := by
  have hv : ((Vocabulary.ofNodes .schemaOrg datedNodes).toOption.map fun v =>
      (v.attached.keys, v.members.keys, v.withoutSuperseded.classes.keys,
        v.withoutSuperseded.attached.keys, v.withoutSuperseded.members.keys)) =
      some (["schema:Monday", "schema:Old", "schema:Thing"], ["schema:Day"], ["schema:Thing"],
        ["schema:Old", "schema:Thing"], []) := by
    decide +kernel
  obtain ⟨v, hread, hkeys⟩ := Option.map_eq_some_iff.1 hv
  simp only [Prod.mk.injEq] at hkeys
  obtain ⟨hattached, hmembers, hclasses', hattached', hmembers'⟩ := hkeys
  have hread := eq_ok_of_toOption hread
  obtain ⟨-, -, w, hw, hclasses, hattach, hmember, -, hruns⟩ := ofNodes_retained hread
  rw [← hclasses] at hclasses'
  rw [← hattach] at hattached'
  rw [← hmember] at hmembers'
  exact ⟨v, w, hread, hattached, hmembers, hw, hclasses', hattached', hmembers',
    (hruns {} Shelf.sink ∅).2⟩

end VocabPhp
