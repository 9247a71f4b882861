import VocabPhp.Proofs.Comments
import VocabPhp.Proofs.Merging

/-!
# The fields that a trait declares

A trait declares a field for every property of its class, sorted by handle. Merging along the chain
of the class alone keeps one field for each handle. Where two properties have the same handle, the
trait therefore declares it twice, and the model shows it once.

* `Php.declared`: reads the fields that members declare.
* `declared_traitMembers`: a trait declares the fields of its class, in their order.
* `mem_mergeFields_singleton_iff`: of the properties with a handle, the first one counts.
* `ofClass_agrees_iff`: a trait declares each handle once, and what the model shows, exactly if no
  two properties have the same handle.
* `ofClass_repeats_handle`: two properties with the same handle.
-/

namespace VocabPhp

/-! ## Reading declarations -/

namespace Php

/-- Where a reader of declarations is. -/
inductive Place
  | code
  | comment
  /-- In the name of a field, with the characters that have been read, the last one first. -/
  | name (read : List Char)

/-- The names of the fields that members declare. Outside comments, a dollar sign begins the name of
a field, and a semicolon ends it. -/
def declared : Place → List Char → List String
  | _, [] => []
  | .code, '/' :: '*' :: cs => declared .comment cs
  | .code, '$' :: cs => declared (.name []) cs
  | .code, _ :: cs => declared .code cs
  | .comment, '*' :: '/' :: cs => declared .code cs
  | .comment, _ :: cs => declared .comment cs
  | .name read, ';' :: cs => String.ofList read.reverse :: declared .code cs
  | .name read, c :: cs => declared (.name (c :: read)) cs

/-- In a comment nothing is declared. -/
theorem declared_comment {cs content rest : List Char} (h : comment? cs = some (content, rest)) :
    declared .comment cs = declared .code rest := by
  induction cs using comment?.induct generalizing content with
  | case1 => simp [comment?] at h
  | case2 rest' =>
    rw [comment?, Option.some.injEq, Prod.mk.injEq] at h
    rw [declared, h.2]
  | case3 c cs hend ih =>
    rw [comment?.eq_3 _ _ hend, Option.map_eq_some_iff] at h
    obtain ⟨⟨content', rest'⟩, hcs, heq⟩ := h
    obtain ⟨-, rfl⟩ := Prod.mk.inj heq
    rw [declared, ih hcs]
    exact hend

/-- A name reaches to the first semicolon. -/
theorem declared_name {name : List Char} (h : ';' ∉ name) (read rest : List Char) :
    declared (.name read) (name ++ ';' :: rest) =
      String.ofList (read.reverse ++ name) :: declared .code rest := by
  induction name generalizing read with
  | nil => simp [declared]
  | cons c name ih =>
    obtain ⟨hc, hname⟩ := not_or.1 (mt List.mem_cons.2 h)
    rw [List.cons_append, declared, ih hname]
    · simp
    · exact Ne.symm hc

/-- Other code declares nothing. -/
theorem declared_code {text : List Char} (hslash : '/' ∉ text) (hdollar : '$' ∉ text)
    (rest : List Char) : declared .code (text ++ rest) = declared .code rest := by
  induction text with
  | nil => rfl
  | cons c text ih =>
    obtain ⟨hc, hslash⟩ := not_or.1 (mt List.mem_cons.2 hslash)
    obtain ⟨hc', hdollar⟩ := not_or.1 (mt List.mem_cons.2 hdollar)
    rw [List.cons_append, declared, ih hslash hdollar]
    · rintro cs rfl
      exact absurd rfl hc
    · exact Ne.symm hc'

end Php

/-- What a field shows can be read where it is declared: its description and its types do not end
the comment, and its handle does not end the declaration. -/
structure Field.IsDeclarable (f : Field) : Prop where
  description : ¬ Php.commentEnd <:+: f.description.toList
  types : ¬ Php.commentEnd <:+: f.typeUnion.toList
  handle : ';' ∉ f.handle.toList

/-- The declaration of a field declares its handle. -/
theorem declared_declaration {f : Field} (hf : f.IsDeclarable) (rest : List Char) :
    Php.declared .code ((declaration f).toList ++ rest) =
      f.handle :: Php.declared .code ('\n' :: rest) := by
  have hcontent : ¬ Php.commentEnd <:+: '*' :: (fieldComment f).toList := by
    rw [List.infix_cons_iff, infix_fieldComment_iff, not_or, not_or]
    refine ⟨?_, hf.description, hf.types⟩
    rw [toList_fieldComment, commentOf]
    simp [Php.commentEnd]
  have hparts : (declaration f).toList ++ rest = "    ".toList ++ '/' :: '*' ::
      ('*' :: (fieldComment f).toList ++ Php.commentEnd ++
        ("\n    public ".toList ++ '$' :: (f.handle.toList ++ ';' :: '\n' :: rest))) := by
    simp [declaration_eq, Php.commentEnd]
  rw [hparts, Php.declared_code (by decide) (by decide), Php.declared,
    Php.declared_comment ((Php.comment?_append_iff _ _).2 hcontent),
    Php.declared_code (by decide) (by decide), Php.declared, Php.declared_name hf.handle,
    List.reverse_nil, List.nil_append, String.ofList_toList]

/-- The members of a trait: the declarations of its fields, with a blank line between each two. -/
def traitMembers (set : FieldSet) : String := "\n".intercalate (set.fields.map declaration)

theorem declared_traitMembers {set : FieldSet} (h : ∀ f ∈ set.fields, f.IsDeclarable) :
    Php.declared .code (traitMembers set).toList = set.fields.map Field.handle := by
  rw [traitMembers]
  generalize set.fields = fields at h
  induction fields with
  | nil => rfl
  | cons f fields ih =>
    obtain ⟨hf, hfields⟩ := List.forall_mem_cons.1 h
    cases fields with
    | nil =>
      rw [List.map_singleton, String.intercalate_singleton,
        ← List.append_nil (declaration f).toList, declared_declaration hf]
      rfl
    | cons g fields =>
      have hblank (rest : List Char) : Php.declared .code ('\n' :: ("\n".toList ++ rest)) =
          Php.declared .code rest := rfl
      rw [List.map_cons, List.map_cons, String.intercalate_cons_cons, String.append_assoc,
        String.toList_append, declared_declaration hf, String.toList_append, hblank,
        ← List.map_cons, ih hfields]
      rfl

/-! ## Fields of a class and merged fields -/

/-- Sorted fields are strictly sorted exactly if no two have the same handle. -/
theorem pairwise_lt_iff_nodup {fields : List Field}
    (h : fields.Pairwise fun f g => f.handle ≤ g.handle) :
    fields.Pairwise (fun f g => f.handle < g.handle) ↔ (fields.map Field.handle).Nodup := by
  rw [List.nodup_iff_pairwise_ne, List.pairwise_map]
  constructor
  · refine fun hlt => hlt.imp fun {f g} hfg heq => ?_
    rw [heq] at hfg
    exact String.lt_irrefl _ hfg
  · refine fun hne => (h.and hne).imp fun {f g} hfg => ?_
    by_contra hnot
    exact hfg.2 (String.le_antisymm hfg.1 (String.not_lt.1 hnot))

section

variable {s : Settings} {c : ClassDecl} {ps : List PropertyDecl} {sets : Table FieldSet}

theorem perm_fields_ofClass (s : Settings) (c : ClassDecl) (ps : List PropertyDecl) :
    (FieldSet.ofClass s c ps).fields.Perm (ps.map (.ofProperty s.vocabulary)) :=
  List.mergeSort_perm _ _

theorem handles_ofClass_perm (s : Settings) (c : ClassDecl) (ps : List PropertyDecl) :
    ((FieldSet.ofClass s c ps).fields.map Field.handle).Perm (ps.map PropertyDecl.handle) := by
  have h := (perm_fields_ofClass s c ps).map Field.handle
  rwa [List.map_map] at h

/-- Along a chain of one name, its own fields are merged. -/
theorem fieldsAlong_singleton {n : String} {set : FieldSet} (h : sets.find? n = some set) :
    fieldsAlong [n] sets = set.fields := by
  simp [fieldsAlong, h]

/-- Of the properties of a class with the same handle, the first one counts. -/
theorem mem_mergeFields_singleton_iff (h : sets.find? c.name = some (.ofClass s c ps)) (f : Field) :
    f ∈ mergeFields [c.name] sets ↔
      ∃ p, ps.find? (fun q => q.handle = f.handle) = some p ∧ .ofProperty s.vocabulary p = f := by
  have htest : ((fun g : Field => decide (g.handle = f.handle)) ∘ Field.ofProperty s.vocabulary) =
      fun p => decide (p.handle = f.handle) := rfl
  rw [mem_mergeFields_iff, fieldsAlong_singleton h, FieldSet.ofClass, find?_sortByHandle,
    List.find?_map, htest, Option.map_eq_some_iff]

/-- Merging the fields of one class leaves them alone exactly if no two have the same handle. -/
theorem mergeFields_singleton_eq_iff {n : String} {set : FieldSet} (h : sets.find? n = some set)
    (hsorted : set.fields.Pairwise fun f g => f.handle ≤ g.handle) :
    mergeFields [n] sets = set.fields ↔ (set.fields.map Field.handle).Nodup := by
  constructor
  · intro heq
    exact (pairwise_lt_iff_nodup hsorted).1 (heq ▸ pairwise_mergeFields [n] sets)
  · intro hnodup
    have hmem (f : Field) : f ∈ mergeFields [n] sets ↔ f ∈ set.fields := by
      rw [mem_mergeFields_iff, fieldsAlong_singleton h]
      refine ⟨List.mem_of_find?_eq_some, fun hf => ?_⟩
      obtain ⟨g, hg⟩ : ∃ g, set.fields.find? (fun g => g.handle = f.handle) = some g :=
        Option.isSome_iff_exists.1 (List.find?_isSome.2 ⟨f, hf, by simp⟩)
      have hhandle : g.handle = f.handle := by simpa using List.find?_some hg
      rw [hg, List.inj_on_of_nodup_map hnodup (List.mem_of_find?_eq_some hg) hf hhandle]
    have hantisymm (f g : Field) (_ : f ∈ mergeFields [n] sets) (_ : g ∈ set.fields)
        (hfg : f.handle < g.handle) (hgf : g.handle < f.handle) : f = g :=
      absurd hfg (String.lt_asymm hgf)
    exact List.Perm.eq_of_pairwise hantisymm (pairwise_mergeFields [n] sets)
      ((pairwise_lt_iff_nodup hsorted).2 hnodup)
      ((List.perm_ext_iff_of_nodup (nodup_mergeFields _ _) hnodup.of_map).2 hmem)

/-- A trait declares the fields of the properties of its class, all of them and sorted by handle;
the model shows, along the chain of the class alone, the first one with each handle. The handles of
the trait are strictly increasing, and declared once each, and its fields are those of the model,
exactly if no two properties have the same handle. -/
theorem ofClass_agrees_iff (s : Settings) (c : ClassDecl) (ps : List PropertyDecl)
    {sets : Table FieldSet} {set : FieldSet} (hset : set = .ofClass s c ps)
    (hfind : sets.find? c.name = some set) :
    (set.fields.Perm (ps.map (.ofProperty s.vocabulary)) ∧
      set.fields.Pairwise (fun f g => f.handle ≤ g.handle)) ∧
    (∀ f, f ∈ mergeFields [c.name] sets ↔
      ∃ p, ps.find? (fun q => q.handle = f.handle) = some p ∧ .ofProperty s.vocabulary p = f) ∧
    (set.fields.Pairwise (fun f g => f.handle < g.handle) ↔
      (ps.map PropertyDecl.handle).Nodup) ∧
    (mergeFields [c.name] sets = set.fields ↔ (ps.map PropertyDecl.handle).Nodup) ∧
    renderTrait s set = traitOpening s set ++ traitMembers set ++ "\x7d\n" ∧
    ((∀ f ∈ set.fields, f.IsDeclarable) →
      Php.declared .code (traitMembers set).toList = set.fields.map Field.handle ∧
      ((Php.declared .code (traitMembers set).toList).Nodup ↔
        (ps.map PropertyDecl.handle).Nodup)) := by
  subst hset
  have hsorted : (FieldSet.ofClass s c ps).fields.Pairwise fun f g => f.handle ≤ g.handle :=
    pairwise_sortByHandle _
  have hhandles := (handles_ofClass_perm s c ps).nodup_iff
  refine ⟨⟨perm_fields_ofClass s c ps, hsorted⟩, mem_mergeFields_singleton_iff hfind, ?strict,
    ?merged, renderTrait_eq s _, fun hdeclarable => ?declared⟩
  case strict => rw [pairwise_lt_iff_nodup hsorted, hhandles]
  case merged => rw [mergeFields_singleton_eq_iff hfind hsorted, hhandles]
  case declared =>
    have hdeclared := declared_traitMembers hdeclarable
    exact ⟨hdeclared, by rw [hdeclared, hhandles]⟩

end

/-! ### Properties of works -/

/-- The class of works. -/
def workClass : ClassDecl := plainClass "schema:Work" "Work" []

/-- Two properties of works. The handle of the first one is `title`. -/
def workProperties (handle : String) : List PropertyDecl := [
  plainProperty "schema:name" "title" "schema:Work",
  plainProperty "schema:title" handle "schema:Work"]

/-- The fields of works. -/
def workFields (handle : String) : FieldSet := .ofClass {} workClass (workProperties handle)

/-- Fields of properties that come in the order of their handles stay in this order. -/
theorem fields_workFields {handle : String} (h : "title" ≤ handle) :
    (workFields handle).fields = [plainField "title", plainField handle] := by
  refine List.mergeSort_of_pairwise ?_
  simpa [workProperties, plainProperty, Field.ofProperty] using h

theorem find?_workFields (handle : String) :
    Table.find? (.ofList [("Work", workFields handle)]) "Work" = some (workFields handle) := by
  simp [Table.find?_ofList]

theorem isDeclarable_plainField {handle : String} (h : ';' ∉ handle.toList) :
    (plainField handle).IsDeclarable := by
  refine ⟨?_, ?_, h⟩ <;> simp only [plainField, Field.typeUnion] <;> decide

/-- Properties with different handles are declared and shown once each. -/
theorem ofClass_agrees_iff_work :
    (workFields "url").fields.Pairwise (fun f g => f.handle < g.handle) ∧
      mergeFields ["Work"] (.ofList [("Work", workFields "url")]) = (workFields "url").fields ∧
      Php.declared .code (traitMembers (workFields "url")).toList = ["title", "url"] := by
  obtain ⟨-, -, hstrict, hmerged, -, hdeclared⟩ :=
    ofClass_agrees_iff {} workClass (workProperties "url")
      (rfl : workFields "url" = .ofClass {} workClass (workProperties "url"))
      (find?_workFields "url")
  have hfields : (workFields "url").fields = [plainField "title", plainField "url"] :=
    fields_workFields (by decide)
  have hdeclarable : ∀ f ∈ (workFields "url").fields, f.IsDeclarable := by
    rw [hfields, List.forall_mem_cons, List.forall_mem_singleton]
    exact ⟨isDeclarable_plainField (by decide), isDeclarable_plainField (by decide)⟩
  have hnodup : ((workProperties "url").map PropertyDecl.handle).Nodup := by decide
  refine ⟨hstrict.2 hnodup, hmerged.2 hnodup, ?_⟩
  rw [(hdeclared hdeclarable).1, hfields]
  rfl

/-- Two properties with different identifiers and one handle, in the order of their identifiers. The
trait declares the handle twice, and the model shows it once. -/
theorem ofClass_repeats_handle :
    (workProperties "title").Pairwise (fun p q => p.id < q.id) ∧
      ¬ (workFields "title").fields.Pairwise (fun f g => f.handle < g.handle) ∧
      Php.declared .code (traitMembers (workFields "title")).toList = ["title", "title"] ∧
      mergeFields ["Work"] (.ofList [("Work", workFields "title")]) = [plainField "title"] := by
  have hfields : (workFields "title").fields = [plainField "title", plainField "title"] :=
    fields_workFields (String.le_refl _)
  refine ⟨by decide, ?_, ?_, ?_⟩
  · rw [hfields]
    decide
  · rw [traitMembers, hfields]
    decide +kernel
  · rw [mergeFields, fieldsAlong_singleton (find?_workFields "title"), hfields]
    decide +kernel

end VocabPhp
