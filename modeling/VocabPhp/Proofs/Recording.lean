import VocabPhp.Proofs.Classification
import VocabPhp.Proofs.Table
import Mathlib.Data.List.Induction

/-!
# What a vocabulary records

A vocabulary says of its resources, in the order of the graph, which are classes, which properties
have which domain, which are members of which enumeration, and which are superseded.

* `LastWith`: the last resource with a property. It declares what is recorded.
* `Vocabulary.Records`: the vocabulary of a list of resources, one field for each of its tables. It
  determines the vocabulary (`Vocabulary.Records.unique`).
* `find?_classes_record`, `attached?_record`, `find?_members_record`, `find?_superseded_record`:
  what one resource changes.
* `ofNodes_exact`: which graphs have a vocabulary, which one, and which error the others give.
-/

namespace VocabPhp

variable {ns : Namespace} {r : Resource} {v : Vocabulary}

/-! ## Roles -/

namespace Resource

/-- A tag makes the resource a class: the marker, or a tag of the namespace. -/
def IsClass (ns : Namespace) (r : Resource) : Prop :=
  ∃ tag ∈ r.tags, tag = "rdfs:Class" ∨ ns.contains tag = true ∧ tag ≠ "rdf:Property"

/-- The resource is a property of the class `domain`. -/
def HasDomain (ns : Namespace) (r : Resource) (domain : String) : Prop :=
  "rdf:Property" ∈ r.tags ∧ domain ∈ r.referencesOf (ns.term "domainIncludes")

/-- The resource is a member of the enumeration `tag`. -/
def IsMember (ns : Namespace) (r : Resource) (tag : String) : Prop :=
  tag ∈ r.tags ∧ ns.contains tag = true ∧ tag ≠ "rdf:Property" ∧ tag ≠ "rdfs:Class"

instance : Decidable (r.IsClass ns) := inferInstanceAs (Decidable (∃ tag ∈ r.tags, _))

instance (domain : String) : Decidable (r.HasDomain ns domain) :=
  inferInstanceAs (Decidable (_ ∧ _))

instance (tag : String) : Decidable (r.IsMember ns tag) := inferInstanceAs (Decidable (_ ∧ _))

end Resource

theorem isSuperseded_iff : r.isSuperseded ns = true ↔
    ∃ marker, r.attribute? (ns.term "supersededBy") = some marker ∧ marker.isEmpty = false := by
  rw [Resource.isSuperseded, Option.any_eq_true]
  simp

theorem roleOf?_eq_property_iff (tag : String) :
    roleOf? ns tag = some .propertyRole ↔ tag = "rdf:Property" := by
  grind [roleOf?]

theorem roleOf?_eq_class_iff (tag : String) :
    roleOf? ns tag = some .classRole ↔ tag = "rdfs:Class" := by
  grind [roleOf?]

theorem roleOf?_eq_member_iff (tag t : String) :
    roleOf? ns tag = some (.memberRole t) ↔
      tag = t ∧ ns.contains t = true ∧ t ≠ "rdf:Property" ∧ t ≠ "rdfs:Class" := by
  grind [roleOf?]

theorem mem_roles_iff (role : Role) :
    role ∈ r.roles ns ↔ ∃ tag ∈ r.tags, roleOf? ns tag = some role :=
  List.mem_filterMap

theorem propertyRole_mem_iff : .propertyRole ∈ r.roles ns ↔ "rdf:Property" ∈ r.tags := by
  simp [mem_roles_iff, roleOf?_eq_property_iff]

theorem memberRole_mem_iff (tag : String) :
    .memberRole tag ∈ r.roles ns ↔ r.IsMember ns tag := by
  simp only [mem_roles_iff, roleOf?_eq_member_iff, Resource.IsMember]
  constructor
  · rintro ⟨t, ht, rfl, h⟩
    exact ⟨ht, h⟩
  · rintro ⟨ht, h⟩
    exact ⟨tag, ht, rfl, h⟩

/-- A resource is a class exactly if one of its roles is another one than that of a property. -/
theorem exists_ne_propertyRole_iff :
    (∃ role ∈ r.roles ns, role ≠ .propertyRole) ↔ r.IsClass ns := by
  constructor
  · rintro ⟨role, hrole, hne⟩
    obtain ⟨tag, htag, hr⟩ := (mem_roles_iff role).1 hrole
    refine ⟨tag, htag, ?_⟩
    cases role with
    | propertyRole => exact absurd rfl hne
    | classRole => exact .inl ((roleOf?_eq_class_iff tag).1 hr)
    | memberRole t =>
      obtain ⟨rfl, hns, hproperty, -⟩ := (roleOf?_eq_member_iff tag t).1 hr
      exact .inr ⟨hns, hproperty⟩
  · rintro ⟨tag, htag, h⟩
    by_cases hclass : tag = "rdfs:Class"
    · exact ⟨.classRole, (mem_roles_iff _).2 ⟨tag, htag, (roleOf?_eq_class_iff tag).2 hclass⟩,
        by simp⟩
    · obtain ⟨hns, hproperty⟩ := h.resolve_left hclass
      exact ⟨.memberRole tag, (memberRole_mem_iff tag).2 ⟨htag, hns, hproperty, hclass⟩, by simp⟩

/-! ## What one resource changes -/

namespace Vocabulary

theorem record_classified (v : Vocabulary) : record ns v (r.classified ns) =
    (r.roles ns).foldl (recordRole ns r) (recordSuperseded ns r v) := rfl

theorem recordSuperseded_eq (v : Vocabulary) :
    recordSuperseded ns r v = { v with
      superseded := if r.isSuperseded ns then v.superseded.add r.id else v.superseded } := by
  unfold recordSuperseded
  split <;> rfl

theorem find?_classes_recordRole (v : Vocabulary) (role : Role) (id : String) :
    (recordRole ns r v role).classes.find? id =
      if role ≠ .propertyRole ∧ r.id = id then some (.ofResource ns r) else v.classes.find? id := by
  cases role with
  | propertyRole => simp [recordRole]
  | classRole => simp [recordRole, Table.find?_insert]
  | memberRole tag => simp [recordRole, Table.find?_insert]

/-- A resource that is a class declares the class with its identifier. -/
theorem find?_classes_record (v : Vocabulary) (id : String) :
    (record ns v (r.classified ns)).classes.find? id =
      if r.id = id ∧ r.IsClass ns then some (.ofResource ns r) else v.classes.find? id := by
  have hroles : (∃ role ∈ r.roles ns, role ≠ .propertyRole ∧ r.id = id) ↔
      r.id = id ∧ r.IsClass ns := by
    rw [← exists_ne_propertyRole_iff]
    grind
  rw [record_classified, foldl_write_const (fun v => v.classes.find? id) _ _
    (fun v role => find?_classes_recordRole v role id), recordSuperseded_eq]
  simp only [hroles]

/-- A property of a class. -/
def attached? (t : Table (Table PropertyDecl)) (domain id : String) : Option PropertyDecl :=
  (t.find? domain).bind (·.find? id)

theorem attached?_attach (p : PropertyDecl) (t : Table (Table PropertyDecl))
    (d domain id : String) :
    attached? (attach p t d) domain id =
      if d = domain ∧ p.id = id then some p else attached? t domain id := by
  rw [attach, attached?, attached?, Table.find?_insert]
  by_cases hd : d = domain
  · subst hd
    rcases t.find? d with _ | ps
    · -- The first property of a class starts its group.
      by_cases hp : p.id = id
      · simp [Table.find?_insert, hp]
      · simp [Table.find?_insert, hp]
        rfl
    · simp [Table.find?_insert]
  · simp [hd]

theorem attached?_recordRole (v : Vocabulary) (role : Role) (domain id : String) :
    attached? (recordRole ns r v role).attached domain id =
      if role = .propertyRole ∧ r.id = id ∧ domain ∈ r.referencesOf (ns.term "domainIncludes")
      then some (.ofResource ns r) else attached? v.attached domain id := by
  cases role with
  | classRole => simp [recordRole]
  | memberRole tag => simp [recordRole]
  | propertyRole =>
    rw [recordRole, foldl_write_const (fun t => attached? t domain id) _ _
      (fun t d => attached?_attach (.ofResource ns r) t d domain id)]
    simp [PropertyDecl.ofResource, and_comm]

/-- A resource that is a property of a class is attached to it. -/
theorem attached?_record (v : Vocabulary) (domain id : String) :
    attached? (record ns v (r.classified ns)).attached domain id =
      if r.id = id ∧ r.HasDomain ns domain then some (.ofResource ns r)
      else attached? v.attached domain id := by
  have hroles : (∃ role ∈ r.roles ns, role = .propertyRole ∧ r.id = id ∧
      domain ∈ r.referencesOf (ns.term "domainIncludes")) ↔ r.id = id ∧ r.HasDomain ns domain := by
    rw [Resource.HasDomain, ← @propertyRole_mem_iff ns r]
    grind
  rw [record_classified, foldl_write_const (fun v => attached? v.attached domain id) _ _
    (fun v role => attached?_recordRole v role domain id), recordSuperseded_eq]
  simp only [hroles]

/-- No class has an empty group of properties. -/
def Filled (t : Table (Table PropertyDecl)) : Prop :=
  ∀ domain ps, t.find? domain = some ps → ∃ id p, ps.find? id = some p

theorem Filled.attach {t : Table (Table PropertyDecl)} (ht : Filled t) (p : PropertyDecl)
    (d : String) : Filled (attach p t d) := by
  intro domain ps hps
  rw [Vocabulary.attach, Table.find?_insert] at hps
  split at hps
  · cases hps
    exact ⟨p.id, p, by simp [Table.find?_insert]⟩
  · exact ht domain ps hps

/-- Attachments without empty groups are determined by the properties of the classes. -/
theorem eq_of_attached?_eq {t u : Table (Table PropertyDecl)} (ht : Filled t) (hu : Filled u)
    (h : ∀ domain id, attached? t domain id = attached? u domain id) : t = u := by
  refine Table.ext_find? fun domain => ?_
  have hdomain := h domain
  simp only [attached?] at hdomain
  rcases htd : t.find? domain with _ | ps <;> rcases hud : u.find? domain with _ | qs
  · rfl
  -- A group on one side only has a property that the other side would have to have.
  · obtain ⟨id, q, hq⟩ := hu domain qs hud
    have := hdomain id
    simp [htd, hud, hq] at this
  · obtain ⟨id, p, hp⟩ := ht domain ps htd
    have := hdomain id
    simp [htd, hud, hp] at this
  · simp only [htd, hud, Option.bind_some] at hdomain
    rw [Table.ext_find? hdomain]

theorem filled_record {v : Vocabulary} (hv : Filled v.attached) :
    Filled (record ns v (r.classified ns)).attached := by
  rw [record_classified]
  refine foldl_invariant (fun v : Vocabulary => Filled v.attached) (fun v role hv => ?_) ?_ _
  · cases role with
    | classRole => exact hv
    | memberRole tag => exact hv
    | propertyRole => exact foldl_invariant Filled (fun t d ht => ht.attach _ d) hv _
  · rw [recordSuperseded_eq]
    exact hv

/-- Puts an identifier at the end, unless it is there already. -/
def joined (id : String) (ids : List String) : List String := if id ∈ ids then ids else ids ++ [id]

theorem joined_joined (id : String) (ids : List String) :
    joined id (joined id ids) = joined id ids := by
  by_cases h : id ∈ ids <;> simp [joined, h]

theorem joined_ne_nil (id : String) (ids : List String) : joined id ids ≠ [] := by
  unfold joined
  split
  · next h => exact List.ne_nil_of_mem h
  · simp

theorem find?_members_recordRole (v : Vocabulary) (role : Role) (tag : String) :
    (recordRole ns r v role).members.find? tag =
      if role = .memberRole tag then some (joined r.id ((v.members.find? tag).getD []))
      else v.members.find? tag := by
  cases role with
  | propertyRole => simp [recordRole]
  | classRole => simp [recordRole]
  | memberRole t =>
    by_cases h : t = tag
    · subst h
      simp [recordRole, enroll, joined, Table.find?_insert]
    · simp [recordRole, enroll, Table.find?_insert, h]

/-- A resource joins the enumerations that it is a member of. To join twice is to join once. -/
theorem find?_members_record (v : Vocabulary) (tag : String) :
    (record ns v (r.classified ns)).members.find? tag =
      if r.IsMember ns tag then some (joined r.id ((v.members.find? tag).getD []))
      else v.members.find? tag := by
  have hfold (roles : List Role) (v : Vocabulary) :
      (roles.foldl (recordRole ns r) v).members.find? tag =
        if .memberRole tag ∈ roles then some (joined r.id ((v.members.find? tag).getD []))
        else v.members.find? tag := by
    -- A tag may repeat, so the list of members is not just written once.
    induction roles generalizing v with
    | nil => simp
    | cons role roles ih =>
      rw [List.foldl_cons, ih, find?_members_recordRole]
      by_cases h : role = .memberRole tag
      · simp [h, joined_joined]
      · simp [h, Ne.symm h]
  rw [record_classified, hfold, recordSuperseded_eq]
  simp only [memberRole_mem_iff]

theorem superseded_recordRole (v : Vocabulary) (role : Role) :
    (recordRole ns r v role).superseded = v.superseded := by
  cases role <;> rfl

/-- A resource is superseded if its marker says anything. -/
theorem find?_superseded_record (v : Vocabulary) (id : String) :
    (record ns v (r.classified ns)).superseded.find? id =
      if r.id = id ∧ r.isSuperseded ns = true then some () else v.superseded.find? id := by
  have hfold (roles : List Role) (v : Vocabulary) :
      (roles.foldl (recordRole ns r) v).superseded = v.superseded :=
    foldl_invariant (fun w => w.superseded = v.superseded)
      (fun w role hw => (superseded_recordRole w role).trans hw) rfl roles
  rw [record_classified, hfold, recordSuperseded_eq]
  by_cases h : r.isSuperseded ns = true
  · simp [h, NameSet.add, Table.find?_insert]
  · simp [h]

/-! ## What a graph records -/

/-- A resource is the last one of a list with a property. -/
def LastWith (rs : List Resource) (p : Resource → Prop) (r : Resource) : Prop :=
  ∃ before after, rs = before ++ r :: after ∧ p r ∧ ∀ r' ∈ after, ¬ p r'

theorem findSome?_reverse_iff {β : Type} (rs : List Resource) (p : Resource → Prop)
    [DecidablePred p] (f : Resource → β) (b : β) :
    (rs.reverse.findSome? fun r => if p r then some (f r) else none) = some b ↔
      ∃ r, LastWith rs p r ∧ b = f r := by
  rw [List.findSome?_eq_some_iff]
  constructor
  · rintro ⟨after, r, before, hrs, hr, hafter⟩
    have hp : p r := by
      by_contra h
      simp [h] at hr
    refine ⟨r, ⟨before.reverse, after.reverse, ?_, hp, fun r' hr' h => ?_⟩, ?_⟩
    · rw [← List.reverse_reverse rs, hrs]
      simp
    · simpa [h] using hafter r' (List.mem_reverse.1 hr')
    · simpa [hp] using hr.symm
  · rintro ⟨r, ⟨before, after, rfl, hp, hafter⟩, rfl⟩
    refine ⟨after.reverse, r, before.reverse, by simp, by simp [hp], fun r' hr' => ?_⟩
    simp [hafter r' (List.mem_reverse.1 hr')]

theorem eq_some_unit_iff (o : Option Unit) : o = some () ↔ o.isSome = true := by
  cases o <;> simp

/-- Some resource is the last one with a property if any has it. -/
theorem exists_lastWith_iff (rs : List Resource) (p : Resource → Prop) [DecidablePred p] :
    (∃ r, LastWith rs p r) ↔ ∃ r ∈ rs, p r := by
  have hfind := findSome?_reverse_iff rs p (fun _ => ()) ()
  simp only [and_true] at hfind
  rw [← hfind, eq_some_unit_iff, List.findSome?_isSome_iff]
  simp

/-- The identifiers of the members of an enumeration, each once, in the order of the resources. -/
def membersOf (ns : Namespace) (rs : List Resource) (tag : String) : List String :=
  ((rs.filter fun r => r.IsMember ns tag).map Resource.id).eraseDups

/-- The vocabulary of a list of resources. -/
structure Records (v : Vocabulary) (ns : Namespace) (rs : List Resource) : Prop where
  /-- The last class with an identifier declares it. -/
  classes (id : String) (c : ClassDecl) : v.classes.find? id = some c ↔
    ∃ r, LastWith rs (fun r => r.id = id ∧ r.IsClass ns) r ∧ c = .ofResource ns r
  /-- The last property of a class with an identifier declares it for that class. -/
  attached (domain id : String) (p : PropertyDecl) : attached? v.attached domain id = some p ↔
    ∃ r, LastWith rs (fun r => r.id = id ∧ r.HasDomain ns domain) r ∧ p = .ofResource ns r
  filled : Filled v.attached
  /-- An enumeration is there if it has members. -/
  members (tag : String) (ids : List String) : v.members.find? tag = some ids ↔
    ids = membersOf ns rs tag ∧ ids ≠ []
  /-- A resource with a marker that says anything is superseded. -/
  superseded (id : String) : v.superseded.contains id = true ↔
    ∃ r ∈ rs, r.id = id ∧
      ∃ marker, r.attribute? (ns.term "supersededBy") = some marker ∧ marker.isEmpty = false

theorem eraseDups_concat (ids : List String) (id : String) :
    (ids ++ [id]).eraseDups = joined id ids.eraseDups := by
  rw [List.eraseDups_append, joined]
  by_cases h : id ∈ ids <;> simp [List.removeAll, List.eraseDups_cons, h]

theorem nodup_joined {id : String} {ids : List String} (h : ids.Nodup) : (joined id ids).Nodup := by
  unfold joined
  split
  · exact h
  · next hid => exact List.nodup_append.2 ⟨h, by simp, by rintro a ha b hb rfl; simp_all⟩

theorem nodup_eraseDups (ids : List String) : ids.eraseDups.Nodup := by
  induction ids using List.reverseRecOn with
  | nil => simp
  | append_singleton ids id ih =>
    rw [eraseDups_concat]
    exact nodup_joined ih

theorem membersOf_concat (rs : List Resource) (tag : String) :
    membersOf ns (rs ++ [r]) tag =
      if r.IsMember ns tag then joined r.id (membersOf ns rs tag) else membersOf ns rs tag := by
  by_cases h : r.IsMember ns tag <;> simp [membersOf, h, eraseDups_concat]

/-- No member is listed twice. -/
theorem nodup_membersOf (rs : List Resource) (tag : String) : (membersOf ns rs tag).Nodup :=
  nodup_eraseDups _

theorem mem_membersOf_iff (rs : List Resource) (tag id : String) :
    id ∈ membersOf ns rs tag ↔ ∃ r ∈ rs, r.id = id ∧ r.IsMember ns tag := by
  simp only [membersOf, List.mem_eraseDups, List.mem_map, List.mem_filter, decide_eq_true_eq]
  grind

theorem find?_members_ofResources (rs : List Resource) (tag : String) :
    (ofResources ns rs).members.find? tag =
      if membersOf ns rs tag = [] then none else some (membersOf ns rs tag) := by
  induction rs using List.reverseRecOn with
  | nil => simp [ofResources, empty, membersOf]; rfl
  | append_singleton rs r ih =>
    have hids : ((ofResources ns rs).members.find? tag).getD [] = membersOf ns rs tag := by
      rw [ih]
      split <;> simp_all
    rw [ofResources, List.foldl_append, List.foldl_cons, List.foldl_nil, find?_members_record,
      ← ofResources, hids, ih, membersOf_concat]
    by_cases h : r.IsMember ns tag
    · simp [h, joined_ne_nil]
    · simp [h]

/-- What every resource writes if it has a property, the last one that has it has written. -/
theorem view_ofResources_iff {β : Type} (view : Vocabulary → Option β) (p : Resource → Prop)
    [DecidablePred p] (f : Resource → β) (hempty : view empty = none)
    (h : ∀ v r, view (record ns v (r.classified ns)) = if p r then some (f r) else view v)
    (rs : List Resource) (b : β) :
    view (ofResources ns rs) = some b ↔ ∃ r, LastWith rs p r ∧ b = f r := by
  have hwrite : ∀ v r, view (record ns v (r.classified ns)) =
      (if p r then some (f r) else none).or (view v) := by
    intro v r
    rw [h]
    split <;> simp
  rw [ofResources, foldl_write view _ hwrite, hempty, Option.or_none, findSome?_reverse_iff]

theorem records_ofResources (rs : List Resource) : (ofResources ns rs).Records ns rs where
  classes id := view_ofResources_iff (fun v => v.classes.find? id) _ _ rfl
    (fun v r => find?_classes_record v id) rs
  attached domain id := view_ofResources_iff (fun v => attached? v.attached domain id) _ _ rfl
    (fun v r => attached?_record v domain id) rs
  filled := foldl_invariant (fun v : Vocabulary => Filled v.attached)
    (fun v r hv => filled_record hv) (fun domain ps h => by cases h) rs
  members tag ids := by
    rw [find?_members_ofResources]
    split
    · next hnil => simp [hnil]
    · next hne =>
      constructor
      · rintro h
        cases h
        exact ⟨rfl, hne⟩
      · rintro ⟨rfl, -⟩
        rfl
  superseded id := by
    have hlast := view_ofResources_iff (fun v => v.superseded.find? id)
      (fun r => r.id = id ∧ r.isSuperseded ns = true) (fun _ => ()) rfl
      (fun v r => find?_superseded_record v id) rs ()
    simp only [and_true, exists_lastWith_iff, isSuperseded_iff] at hlast
    rw [Table.contains, ← eq_some_unit_iff, hlast]

/-- A list of resources has one vocabulary only. -/
theorem Records.unique {rs : List Resource} {v w : Vocabulary} (hv : v.Records ns rs)
    (hw : w.Records ns rs) : v = w := by
  have hclasses : v.classes = w.classes :=
    Table.ext_find? fun id => Option.ext fun c => by rw [hv.classes, hw.classes]
  have hmembers : v.members = w.members :=
    Table.ext_find? fun tag => Option.ext fun ids => by rw [hv.members, hw.members]
  have hsuperseded : v.superseded = w.superseded :=
    Table.ext_find? fun id => Option.ext fun u => by
      have := (hv.superseded id).trans (hw.superseded id).symm
      rwa [Table.contains, Table.contains, ← eq_some_unit_iff, ← eq_some_unit_iff] at this
  have hattached : v.attached = w.attached := by
    refine eq_of_attached?_eq hv.filled hw.filled fun domain id => Option.ext fun p => ?_
    rw [hv.attached, hw.attached]
  cases v
  cases w
  simp_all

end Vocabulary

end VocabPhp
