import VocabPhp.Model.Field
import VocabPhp.Proofs.Table

/-!
# Sorted and merged fields

* `pairwise_sortByHandle`, `find?_sortByHandle`: sorting puts fields in the order of their handles,
  and keeps the first field with a handle the first one.
* `pairwise_mergeFields`: merged fields are strictly sorted by handle.
* `mem_mergeFields_iff`: a field stays exactly if it is the first with its handle along the chain.
* `find?_fieldsAlong_iff`: that first field is the first one of the first class on the chain that
  has one with the handle.
-/

namespace VocabPhp

/-! ## Sorting -/

theorem handle_le_trans (f g h : Field) (hfg : decide (f.handle ≤ g.handle) = true)
    (hgh : decide (g.handle ≤ h.handle) = true) : decide (f.handle ≤ h.handle) = true := by
  simp only [decide_eq_true_eq] at *
  exact String.le_trans hfg hgh

theorem handle_le_total (f g : Field) :
    (decide (f.handle ≤ g.handle) || decide (g.handle ≤ f.handle)) = true := by
  rcases String.le_total f.handle g.handle with h | h <;> simp [h]

theorem pairwise_sortByHandle (fields : List Field) :
    (sortByHandle fields).Pairwise fun f g => f.handle ≤ g.handle :=
  (List.pairwise_mergeSort handle_le_trans handle_le_total fields).imp of_decide_eq_true

/-- Fields with the same handle keep their order. -/
theorem filter_sortByHandle (fields : List Field) (handle : String) :
    (sortByHandle fields).filter (fun f => f.handle = handle) =
      fields.filter fun f => f.handle = handle := by
  have hequal : (fields.filter fun f => f.handle = handle).Pairwise
      fun a b => decide (a.handle ≤ b.handle) = true := by
    rw [List.pairwise_iff_forall_sublist]
    intro a b hab
    have hmem : ∀ f ∈ [a, b], f.handle = handle := fun f hf => by
      simpa using (List.mem_filter.1 (hab.subset hf)).2
    rw [hmem a (by simp), hmem b (by simp)]
    simp
  have hsub := (List.sublist_mergeSort handle_le_trans handle_le_total hequal
    List.filter_sublist).filter fun f => f.handle = handle
  rw [List.filter_filter] at hsub
  simp only [Bool.and_self] at hsub
  refine (hsub.eq_of_length ?_).symm
  exact ((List.mergeSort_perm fields _).filter _).length_eq.symm

theorem find?_sortByHandle (fields : List Field) (handle : String) :
    (sortByHandle fields).find? (fun f => f.handle = handle) =
      fields.find? fun f => f.handle = handle := by
  rw [← List.head?_filter, filter_sortByHandle, List.head?_filter]

/-! ## Merging -/

/-- The table that fields are merged in keeps the first field with a handle. -/
theorem find?_foldl_addField (t : Table Field) (fields : List Field) (handle : String) :
    (fields.foldl addField t).find? handle =
      (t.find? handle).or (fields.find? fun f => f.handle = handle) := by
  induction fields generalizing t with
  | nil => simp
  | cons f fields ih =>
    rw [List.foldl_cons, ih, addField, List.find?_cons, Table.contains]
    cases hf : t.find? f.handle with
    | some g =>
      by_cases h : f.handle = handle
      · subst h
        simp [hf]
      · simp [h]
    | none =>
      by_cases h : f.handle = handle
      · subst h
        simp [hf, Table.find?_insert]
      · simp [h, Table.find?_insert]

theorem find?_merged (chain : List String) (sets : Table FieldSet) (handle : String) :
    ((fieldsAlong chain sets).foldl addField ∅).find? handle =
      (fieldsAlong chain sets).find? fun f => f.handle = handle := by
  rw [find?_foldl_addField]
  rfl

/-- Merged fields are strictly sorted by handle. -/
theorem pairwise_mergeFields (chain : List String) (sets : Table FieldSet) :
    (mergeFields chain sets).Pairwise fun f g => f.handle < g.handle := by
  have hkey : ∀ e ∈ ((fieldsAlong chain sets).foldl addField ∅).entries, e.2.handle = e.1 := by
    intro e he
    have h := (Table.mem_entries_iff _ e.1 e.2).1 he
    rw [find?_merged] at h
    simpa using List.find?_some h
  refine List.pairwise_map.2 (List.Pairwise.imp_of_mem ?_ (Table.sorted _))
  intro e e' he he' hlt
  rwa [hkey e he, hkey e' he']

/-- A field stays exactly if it is the first along the chain with its handle. -/
theorem mem_mergeFields_iff (chain : List String) (sets : Table FieldSet) (f : Field) :
    f ∈ mergeFields chain sets ↔
      (fieldsAlong chain sets).find? (fun g => g.handle = f.handle) = some f := by
  rw [mergeFields, Table.mem_values_iff]
  constructor
  · rintro ⟨handle, hf⟩
    rw [find?_merged] at hf
    obtain rfl : f.handle = handle := by simpa using List.find?_some hf
    exact hf
  · intro hf
    exact ⟨f.handle, by rw [find?_merged]; exact hf⟩

/-- The handles of merged fields are those of the fields along the chain. -/
theorem mem_handles_mergeFields_iff (chain : List String) (sets : Table FieldSet)
    (handle : String) :
    handle ∈ (mergeFields chain sets).map Field.handle ↔
      ∃ f ∈ fieldsAlong chain sets, f.handle = handle := by
  rw [List.mem_map]
  constructor
  · rintro ⟨f, hf, rfl⟩
    exact ⟨f, List.mem_of_find?_eq_some ((mem_mergeFields_iff chain sets f).1 hf), rfl⟩
  · rintro ⟨f, hf, rfl⟩
    obtain ⟨g, hg⟩ : ∃ g, (fieldsAlong chain sets).find? (fun g => g.handle = f.handle) = some g :=
      Option.isSome_iff_exists.1 (List.find?_isSome.2 ⟨f, hf, by simp⟩)
    have heq : g.handle = f.handle := by simpa using List.find?_some hg
    refine ⟨g, (mem_mergeFields_iff chain sets g).2 ?_, heq⟩
    rw [heq]
    exact hg

theorem mem_fieldsAlong_iff (chain : List String) (sets : Table FieldSet) (f : Field) :
    f ∈ fieldsAlong chain sets ↔ ∃ n ∈ chain, ∃ set, sets.find? n = some set ∧ f ∈ set.fields := by
  simp only [fieldsAlong, List.mem_flatMap, List.mem_filterMap]
  constructor
  · rintro ⟨set, ⟨n, hn, hset⟩, hf⟩
    exact ⟨n, hn, set, hset, hf⟩
  · rintro ⟨n, hn, set, hset, hf⟩
    exact ⟨set, ⟨n, hn, hset⟩, hf⟩

/-- The first field that a test accepts is the first accepted one of the first class on the chain
that has any. -/
theorem find?_fieldsAlong_iff (chain : List String) (sets : Table FieldSet) (p : Field → Bool)
    (f : Field) :
    (fieldsAlong chain sets).find? p = some f ↔
      ∃ before n after set, chain = before ++ n :: after ∧ sets.find? n = some set ∧
        set.fields.find? p = some f ∧
        ∀ m ∈ before, ∀ set', sets.find? m = some set' → ∀ g ∈ set'.fields, p g = false := by
  rw [fieldsAlong, List.find?_flatMap, ← List.head?_filterMap, List.filterMap_filterMap,
    List.head?_filterMap, List.findSome?_eq_some_iff]
  simp only [Option.bind_eq_some_iff, Option.bind_eq_none_iff, List.find?_eq_none,
    Bool.not_eq_true]
  constructor
  · rintro ⟨before, n, after, hchain, ⟨set, hset, hf⟩, hbefore⟩
    exact ⟨before, n, after, set, hchain, hset, hf, hbefore⟩
  · rintro ⟨before, n, after, set, hchain, hset, hf, hbefore⟩
    exact ⟨before, n, after, hchain, ⟨set, hset, hf⟩, hbefore⟩

end VocabPhp
