/-!
# Tables ordered by name

A `Table α` holds at most one value of `α` under each name, in strictly increasing order of the
names (by code point). The order is part of the type, so two tables that answer every look-up alike
are equal.

* `Table.find?_insert`: an insertion changes the answer under its own name only.
* `Table.find?_filter`: a selection keeps an entry exactly if the test accepts it.
* `Table.ext_find?`: a table is determined by its look-ups.
* `Table.mem_entries_iff`: an entry is in the table exactly if looking its name up finds its value.
-/

namespace VocabPhp

/-- A finite map from names to values, in increasing order of the names. -/
structure Table (α : Type) where
  entries : List (String × α)
  sorted : entries.Pairwise fun a b => a.1 < b.1

namespace Table

variable {α β : Type}

instance [DecidableEq α] : DecidableEq (Table α) := fun s t =>
  decidable_of_iff (s.entries = t.entries)
    ⟨fun h => by cases s; cases t; simp_all, fun h => h ▸ rfl⟩

instance [Repr α] : Repr (Table α) := ⟨fun t => reprPrec t.entries⟩

/-- The table without entries. -/
def empty : Table α := ⟨[], .nil⟩

instance : EmptyCollection (Table α) := ⟨empty⟩

instance : Inhabited (Table α) := ⟨empty⟩

/-- The value of the first entry under a name. -/
def findIn (k : String) : List (String × α) → Option α
  | [] => none
  | (k', v) :: rest => if k' = k then some v else findIn k rest

/-- The value under a name. -/
def find? (t : Table α) (k : String) : Option α := findIn k t.entries

/-- Tells whether a name has a value. -/
def contains (t : Table α) (k : String) : Bool := (t.find? k).isSome

/-- The names, in increasing order. -/
def keys (t : Table α) : List String := t.entries.map (·.1)

/-- The values, in the order of their names. -/
def values (t : Table α) : List α := t.entries.map (·.2)

/-- The number of entries. -/
def size (t : Table α) : Nat := t.entries.length

/-- Tells whether there is no entry. -/
def isEmpty (t : Table α) : Bool := t.entries.isEmpty

/-- Puts an entry at its place among sorted entries, in place of one with the same name. -/
def insertIn (k : String) (v : α) : List (String × α) → List (String × α)
  | [] => [(k, v)]
  | (k', v') :: rest =>
    if k < k' then (k, v) :: (k', v') :: rest
    else if k = k' then (k, v) :: rest
    else (k', v') :: insertIn k v rest

theorem fst_of_mem_insertIn {k : String} {v : α} {e : String × α} {l : List (String × α)}
    (h : e ∈ insertIn k v l) : e.1 = k ∨ e ∈ l := by
  induction l with
  | nil => simp_all [insertIn]
  | cons hd tl ih =>
    obtain ⟨k', v'⟩ := hd
    rw [insertIn] at h
    split at h
    · simp only [List.mem_cons] at h ⊢; rcases h with rfl | h <;> simp_all
    · split at h
      · simp only [List.mem_cons] at h ⊢; rcases h with rfl | h <;> simp_all
      · simp only [List.mem_cons] at h ⊢
        rcases h with rfl | h
        · simp
        · rcases ih h with h | h <;> simp [h]

theorem pairwise_insertIn (k : String) (v : α) {l : List (String × α)}
    (h : l.Pairwise fun a b => a.1 < b.1) :
    (insertIn k v l).Pairwise fun a b => a.1 < b.1 := by
  induction l with
  | nil => simp [insertIn]
  | cons hd tl ih =>
    obtain ⟨k', v'⟩ := hd
    rw [List.pairwise_cons] at h
    rw [insertIn]
    split
    · next hlt =>
      refine List.pairwise_cons.2 ⟨fun e he => ?_, List.pairwise_cons.2 h⟩
      rcases List.mem_cons.1 he with rfl | he
      · exact hlt
      · exact String.lt_trans hlt (h.1 e he)
    · next hnlt =>
      split
      · next heq => subst heq; exact List.pairwise_cons.2 h
      · next hne =>
        refine List.pairwise_cons.2 ⟨fun e he => ?_, ih h.2⟩
        rcases fst_of_mem_insertIn he with hk | he
        · rw [hk]
          rcases String.le_total k k' with hle | hle
          · exact absurd (String.le_antisymm hle (String.not_lt.1 hnlt)) hne
          · exact Decidable.byContradiction fun hn =>
              hne (String.le_antisymm (String.not_lt.1 hn) hle)
        · exact h.1 e he

/-- Puts a value under a name, in place of an earlier one. -/
def insert (t : Table α) (k : String) (v : α) : Table α :=
  ⟨insertIn k v t.entries, pairwise_insertIn k v t.sorted⟩

/-- The table of some entries; of entries with one name the last stays. -/
def ofList (l : List (String × α)) : Table α := l.foldl (fun t e => t.insert e.1 e.2) empty

/-- The entries that a test on name and value accepts. -/
def filter (p : String → α → Bool) (t : Table α) : Table α :=
  ⟨t.entries.filter fun e => p e.1 e.2, t.sorted.sublist List.filter_sublist⟩

/-- Changes every value, knowing its name. -/
def mapValues (f : String → α → β) (t : Table α) : Table β :=
  ⟨t.entries.map fun e => (e.1, f e.1 e.2), t.sorted.map _ fun _ _ h => h⟩

/-! ## Look-ups -/

@[simp] theorem find?_empty (k : String) : (empty : Table α).find? k = none := rfl

theorem findIn_insertIn (k k' : String) (v : α) (l : List (String × α)) :
    findIn k' (insertIn k v l) = if k = k' then some v else findIn k' l := by
  induction l with
  | nil => simp [insertIn, findIn]
  | cons hd tl ih =>
    obtain ⟨k'', v''⟩ := hd
    rw [insertIn]
    split
    · simp [findIn]
    · split
      · next heq => subst heq; by_cases h : k = k' <;> simp [findIn, h]
      · next hne =>
        by_cases h : k'' = k'
        · subst h; simp [findIn, hne]
        · simp [findIn, h, ih]

/-- An insertion answers under its own name and leaves the other names alone. -/
theorem find?_insert (t : Table α) (k k' : String) (v : α) :
    (t.insert k v).find? k' = if k = k' then some v else t.find? k' :=
  findIn_insertIn k k' v t.entries

theorem findIn_eq_none {k : String} {l : List (String × α)} (h : ∀ e ∈ l, e.1 ≠ k) :
    findIn k l = none := by
  induction l with
  | nil => rfl
  | cons hd tl ih =>
    obtain ⟨k', v'⟩ := hd
    have h1 : k' ≠ k := h (k', v') (by simp)
    simp [findIn, h1, ih fun e he => h e (by simp [he])]

theorem mem_of_findIn {k : String} {v : α} {l : List (String × α)} (h : findIn k l = some v) :
    (k, v) ∈ l := by
  induction l with
  | nil => simp [findIn] at h
  | cons hd tl ih =>
    obtain ⟨k', v'⟩ := hd
    rw [findIn] at h
    split at h
    · next heq => simp_all
    · exact List.mem_cons_of_mem _ (ih h)

theorem findIn_of_mem {k : String} {v : α} {l : List (String × α)}
    (hs : l.Pairwise fun a b => a.1 < b.1) (h : (k, v) ∈ l) : findIn k l = some v := by
  induction l with
  | nil => simp at h
  | cons hd tl ih =>
    obtain ⟨k', v'⟩ := hd
    rw [List.pairwise_cons] at hs
    rcases List.mem_cons.1 h with heq | h
    · simp_all [findIn]
    · have hlt := hs.1 _ h
      have hne : k' ≠ k := fun he => String.lt_irrefl k (he ▸ hlt)
      simp [findIn, hne, ih hs.2 h]

/-- An entry is in the table exactly if looking its name up finds its value. -/
theorem mem_entries_iff (t : Table α) (k : String) (v : α) :
    (k, v) ∈ t.entries ↔ t.find? k = some v :=
  ⟨findIn_of_mem t.sorted, mem_of_findIn⟩

theorem mem_keys_iff (t : Table α) (k : String) : k ∈ t.keys ↔ (t.find? k).isSome := by
  rw [Option.isSome_iff_exists]
  simp only [keys, List.mem_map, Prod.exists, exists_and_right, exists_eq_right, mem_entries_iff]

/-- A selection keeps a name's value exactly if the test accepts both. -/
theorem find?_filter (p : String → α → Bool) (t : Table α) (k : String) :
    (t.filter p).find? k = (t.find? k).filter (p k) := by
  cases h : t.find? k with
  | none =>
    refine findIn_eq_none fun e he hk => ?_
    obtain ⟨hm, -⟩ := List.mem_filter.1 he
    have := (mem_entries_iff t e.1 e.2).1 hm
    simp_all
  | some v =>
    have hm := (mem_entries_iff t k v).2 h
    cases hp : p k v with
    | true =>
      rw [Option.filter_some, if_pos hp]
      exact findIn_of_mem (t.filter p).sorted (List.mem_filter.2 ⟨hm, hp⟩)
    | false =>
      simp only [Option.filter, hp]
      refine findIn_eq_none fun e he hk => ?_
      obtain ⟨hm', hp'⟩ := List.mem_filter.1 he
      have := (mem_entries_iff t e.1 e.2).1 hm'
      simp_all

theorem find?_mapValues (f : String → α → β) (t : Table α) (k : String) :
    (t.mapValues f).find? k = (t.find? k).map (f k) := by
  simp only [find?, mapValues]
  induction t.entries with
  | nil => rfl
  | cons hd tl ih =>
    obtain ⟨k', v'⟩ := hd
    by_cases h : k' = k
    · subst h; simp [findIn]
    · simpa [findIn, h] using ih

/-- Sorted entries with the same members are the same list. -/
theorem eq_of_mem_iff {l m : List (String × α)} (hl : l.Pairwise fun a b => a.1 < b.1)
    (hm : m.Pairwise fun a b => a.1 < b.1) (h : ∀ e, e ∈ l ↔ e ∈ m) : l = m := by
  induction l generalizing m with
  | nil => cases m with
    | nil => rfl
    | cons b m => exact absurd ((h b).2 (by simp)) (by simp)
  | cons a l ih => cases m with
    | nil => exact absurd ((h a).1 (by simp)) (by simp)
    | cons b m =>
      rw [List.pairwise_cons] at hl hm
      have hab : a = b := by
        rcases List.mem_cons.1 ((h a).1 (by simp)) with hab | ham
        · exact hab
        · rcases List.mem_cons.1 ((h b).2 (by simp)) with hba | hbl
          · exact hba.symm
          · exact absurd (hm.1 a ham) (String.lt_asymm (hl.1 b hbl))
      subst hab
      congr 1
      refine ih hl.2 hm.2 fun e => ?_
      have irr : ∀ {n : List (String × α)}, (∀ c ∈ n, a.1 < c.1) → e ∈ n → e ≠ a := by
        rintro n hn he rfl
        exact String.lt_irrefl _ (hn e he)
      constructor <;> intro he
      · exact (List.mem_cons.1 ((h e).1 (List.mem_cons_of_mem _ he))).resolve_left (irr hl.1 he)
      · exact (List.mem_cons.1 ((h e).2 (List.mem_cons_of_mem _ he))).resolve_left (irr hm.1 he)

/-- A table is determined by its look-ups. -/
theorem ext_find? {s t : Table α} (h : ∀ k, s.find? k = t.find? k) : s = t := by
  have he : s.entries = t.entries := eq_of_mem_iff s.sorted t.sorted fun (k, v) => by
    rw [mem_entries_iff, mem_entries_iff, h]
  cases s; cases t; simp_all

end Table

/-- A finite set of names. -/
abbrev NameSet := Table Unit

namespace NameSet

/-- Adds a name. -/
def add (s : NameSet) (k : String) : NameSet := s.insert k ()

end NameSet

end VocabPhp
