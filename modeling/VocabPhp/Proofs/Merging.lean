import VocabPhp.Proofs.Fields

/-!
# Merging along chains

What is merged along a chain is left-biased: the fields of an earlier name stand, and a later name
adds those with handles that are still free. So a name that comes again adds nothing, and fields of
names that are not on the chain have no part in it.

* `mergeFields_eq_of_find?`: merged fields are determined by what comes first with each handle.
* `mergeFields_append_perm`: the fields of a chain in two parts.
* `mergeFields_repeat`: names that come again.
* `mergeFields_left_biased`: the laws of merging together.
-/

namespace VocabPhp

variable {chain chain' : List String} {sets sets' : Table FieldSet}

/-! ## Fields along chains -/

theorem fieldsAlong_append (chain chain' : List String) (sets : Table FieldSet) :
    fieldsAlong (chain ++ chain') sets = fieldsAlong chain sets ++ fieldsAlong chain' sets := by
  simp [fieldsAlong]

/-- Only the fields of names on the chain count. -/
theorem fieldsAlong_congr (h : ∀ n ∈ chain, sets'.find? n = sets.find? n) :
    fieldsAlong chain sets' = fieldsAlong chain sets := by
  rw [fieldsAlong, fieldsAlong, List.filterMap_congr h]

theorem fieldsAlong_subset (h : chain' ⊆ chain) :
    fieldsAlong chain' sets ⊆ fieldsAlong chain sets := by
  intro f hf
  obtain ⟨n, hn, set, hset, hmem⟩ := (mem_fieldsAlong_iff chain' sets f).1 hf
  exact (mem_fieldsAlong_iff chain sets f).2 ⟨n, h hn, set, hset, hmem⟩

/-- No field along a chain has a handle exactly if the merged fields lack it. -/
theorem find?_fieldsAlong_eq_none_iff (handle : String) :
    (fieldsAlong chain sets).find? (fun f => f.handle = handle) = none ↔
      handle ∉ (mergeFields chain sets).map Field.handle := by
  rw [mem_handles_mergeFields_iff, List.find?_eq_none]
  simp

/-! ## Merged fields -/

/-- Chains and tables give the same fields if they have the same first field with each handle. -/
theorem mergeFields_eq_of_find? (h : ∀ handle,
    (fieldsAlong chain' sets').find? (fun f => f.handle = handle) =
      (fieldsAlong chain sets).find? fun f => f.handle = handle) :
    mergeFields chain' sets' = mergeFields chain sets := by
  refine congrArg Table.values (Table.ext_find? fun handle => ?_)
  rw [find?_merged, find?_merged, h]

theorem mergeFields_congr (h : ∀ n ∈ chain, sets'.find? n = sets.find? n) :
    mergeFields chain sets' = mergeFields chain sets := by
  rw [mergeFields, mergeFields, fieldsAlong_congr h]

/-- Of merged fields no two have one handle, so none comes twice. -/
theorem nodup_mergeFields (chain : List String) (sets : Table FieldSet) :
    (mergeFields chain sets).Nodup := by
  refine (pairwise_mergeFields chain sets).imp fun {f g} hlt heq => ?_
  subst heq
  exact String.lt_irrefl _ hlt

/-- A field of a chain in two parts is one of the first part, or one of the second part with a
handle that the first part lacks. -/
theorem mem_mergeFields_append_iff (f : Field) :
    f ∈ mergeFields (chain ++ chain') sets ↔ f ∈ mergeFields chain sets ∨
      f ∈ mergeFields chain' sets ∧ f.handle ∉ (mergeFields chain sets).map Field.handle := by
  rw [mem_mergeFields_iff, mem_mergeFields_iff, mem_mergeFields_iff, fieldsAlong_append,
    List.find?_append, Option.or_eq_some_iff, find?_fieldsAlong_eq_none_iff, and_comm]

theorem mergeFields_append_perm (chain chain' : List String) (sets : Table FieldSet) :
    (mergeFields (chain ++ chain') sets).Perm (mergeFields chain sets ++
      (mergeFields chain' sets).filter
        fun f => f.handle ∉ (mergeFields chain sets).map Field.handle) := by
  have hright : (mergeFields chain sets ++ (mergeFields chain' sets).filter
      fun f => f.handle ∉ (mergeFields chain sets).map Field.handle).Nodup := by
    refine List.Nodup.append (nodup_mergeFields _ _) ((nodup_mergeFields _ _).filter _) ?_
    intro f hf hf'
    have hfree := (List.mem_filter.1 hf').2
    exact of_decide_eq_true hfree (List.mem_map_of_mem hf)
  refine (List.perm_ext_iff_of_nodup (nodup_mergeFields _ _) hright).2 fun f => ?_
  rw [mem_mergeFields_append_iff, List.mem_append, List.mem_filter, decide_eq_true_eq]

/-- Names that come again add nothing. -/
theorem mergeFields_repeat {before again : List String} (h : again ⊆ before)
    (after : List String) (sets : Table FieldSet) :
    mergeFields (before ++ again ++ after) sets = mergeFields (before ++ after) sets := by
  refine mergeFields_eq_of_find? fun handle => ?_
  rw [fieldsAlong_append, fieldsAlong_append, fieldsAlong_append, List.find?_append,
    List.find?_append, List.find?_append]
  cases hbefore : (fieldsAlong before sets).find? fun f => f.handle = handle with
  | some f => rfl
  | none =>
    have hagain : (fieldsAlong again sets).find? (fun f => f.handle = handle) = none := by
      rw [List.find?_eq_none] at hbefore ⊢
      exact fun f hf => hbefore f (fieldsAlong_subset h hf)
    rw [hagain]
    rfl

/-- Merging is left-biased, for chains on which names may come again or have no fields. Merged
fields are strictly sorted by handle. Their handles are those of the fields of the names on the
chain, and each is the first field with its handle along the chain. A chain in two parts has the
fields of its first part, and of those of its second part the ones with handles that the first part
lacks. Names that are not on the chain, and names that come again, have no influence. -/
theorem mergeFields_left_biased (sets : Table FieldSet) :
    (∀ chain, (mergeFields chain sets).Pairwise fun f g => f.handle < g.handle) ∧
    (∀ chain handle, handle ∈ (mergeFields chain sets).map Field.handle ↔
      ∃ n ∈ chain, ∃ set, sets.find? n = some set ∧ ∃ f ∈ set.fields, f.handle = handle) ∧
    (∀ chain f, f ∈ mergeFields chain sets ↔
      (fieldsAlong chain sets).find? (fun g => g.handle = f.handle) = some f) ∧
    (∀ chain chain', (mergeFields (chain ++ chain') sets).Perm (mergeFields chain sets ++
      (mergeFields chain' sets).filter
        fun f => f.handle ∉ (mergeFields chain sets).map Field.handle)) ∧
    (∀ chain sets', (∀ n ∈ chain, sets'.find? n = sets.find? n) →
      mergeFields chain sets' = mergeFields chain sets) ∧
    ∀ before again after, again ⊆ before →
      mergeFields (before ++ again ++ after) sets = mergeFields (before ++ after) sets := by
  refine ⟨fun chain => pairwise_mergeFields chain sets, fun chain handle => ?handles,
    fun chain f => mem_mergeFields_iff chain sets f,
    fun chain chain' => mergeFields_append_perm chain chain' sets,
    fun chain sets' h => mergeFields_congr h,
    fun before again after h => mergeFields_repeat h after sets⟩
  case handles =>
    rw [mem_handles_mergeFields_iff]
    constructor
    · rintro ⟨f, hf, hhandle⟩
      obtain ⟨n, hn, set, hset, hmem⟩ := (mem_fieldsAlong_iff chain sets f).1 hf
      exact ⟨n, hn, set, hset, f, hmem, hhandle⟩
    · rintro ⟨n, hn, set, hset, f, hmem, hhandle⟩
      exact ⟨f, (mem_fieldsAlong_iff chain sets f).2 ⟨n, hn, set, hset, hmem⟩, hhandle⟩

/-- A field of texts without a description. -/
def plainField (handle : String) : Field :=
  { handle, description := "", ranges := ["Text"], phpTypes := ["string"] }

/-- The fields of a class under some handles. -/
def plainFields (name : String) (handles : List String) : FieldSet :=
  { name, safeName := name, description := "", scope := "", fields := handles.map plainField }

/-- The fields of articles and works, and of another class. -/
def articleFields (other : FieldSet) : Table FieldSet := .ofList [
  ("Article", plainFields "Article" ["headline", "name"]),
  ("Other", other),
  ("Work", plainFields "Work" ["author", "name"])]

/-- An article that is a work, then an article again and something unknown: the fields are the same
whatever the fields of other classes are. -/
theorem mergeFields_left_biased_article :
    (∀ n ∈ ["Article", "Work"], (articleFields (plainFields "Other" ["key"])).find? n =
      (articleFields (plainFields "Other" [])).find? n) ∧
    mergeFields ["Article", "Work"] (articleFields (plainFields "Other" ["key"])) =
      mergeFields ["Article", "Work"] (articleFields (plainFields "Other" [])) ∧
    ["Article"] ⊆ ["Article", "Work"] ∧
    mergeFields (["Article", "Work"] ++ ["Article"] ++ ["Unknown"])
        (articleFields (plainFields "Other" [])) =
      mergeFields (["Article", "Work"] ++ ["Unknown"]) (articleFields (plainFields "Other" [])) ∧
    "author" ∈ (mergeFields ["Article", "Work"] (articleFields (plainFields "Other" []))).map
      Field.handle := by
  obtain ⟨-, hhandles, -, -, hsets, hagain⟩ :=
    mergeFields_left_biased (articleFields (plainFields "Other" []))
  have hsame : ∀ n ∈ ["Article", "Work"], (articleFields (plainFields "Other" ["key"])).find? n =
      (articleFields (plainFields "Other" [])).find? n := by decide +kernel
  have hsubset : ["Article"] ⊆ ["Article", "Work"] := by decide
  refine ⟨hsame, hsets _ _ hsame, hsubset, hagain _ _ ["Unknown"] hsubset, ?_⟩
  refine (hhandles ["Article", "Work"] "author").2
    ⟨"Work", by decide, plainFields "Work" ["author", "name"], by decide +kernel,
      plainField "author", by decide, rfl⟩

end VocabPhp
