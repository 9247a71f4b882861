import Mathlib.Data.List.Dedup
import VocabPhp.Table

/-!
# Laws of tables

How a table answers after many insertions, and which of its values comes first or last.

* `foldl_write`: a view of a state that every step of a fold either writes or leaves alone shows
  the last write.
* `Table.find?_ofList`: of the entries of a list the last with a name answers its look-up.
* `Table.size_ofList_eq_iff`: all entries of a list are kept exactly if their names are distinct.
* `Table.find?_values_iff`, `Table.find?_reverse_values_iff`: the first value that a test accepts
  is the one with the least name, and the last one that with the greatest.
-/

namespace VocabPhp

/-- What every step of a fold preserves holds after the fold. -/
theorem foldl_invariant {σ α : Type} (P : σ → Prop) {step : σ → α → σ}
    (h : ∀ s a, P s → P (step s a)) {s : σ} (hs : P s) (l : List α) : P (l.foldl step s) := by
  induction l generalizing s with
  | nil => exact hs
  | cons a l ih => exact ih (h s a hs)

/-- A view that every step of a fold either writes or leaves alone shows the last write. -/
theorem foldl_write {σ α β : Type} (view : σ → Option β) (write : α → Option β) {step : σ → α → σ}
    (h : ∀ s a, view (step s a) = (write a).or (view s)) (s : σ) (l : List α) :
    view (l.foldl step s) = (l.reverse.findSome? write).or (view s) := by
  induction l generalizing s with
  | nil => rfl
  | cons a l ih =>
    rw [List.foldl_cons, ih, h, List.reverse_cons, List.findSome?_append, Option.or_assoc]
    simp

/-- A view that the steps of a fold write one value to, or leave alone, shows that value after any
of them. -/
theorem foldl_write_const {σ α β : Type} (view : σ → Option β) (p : α → Prop) [DecidablePred p]
    (b : β) {step : σ → α → σ} (h : ∀ s a, view (step s a) = if p a then some b else view s) (s : σ)
    (l : List α) : view (l.foldl step s) = if ∃ a ∈ l, p a then some b else view s := by
  induction l generalizing s with
  | nil => simp
  | cons a l ih =>
    rw [List.foldl_cons, ih, h]
    by_cases ha : p a
    · simp [ha]
    · simp [ha]

/-- Of sorted members, the first that a test accepts comes before all others that it accepts. -/
theorem find?_iff_of_pairwise {α : Type} {R : α → α → Prop} (hR : ∀ a b, R a b → ¬ R b a)
    {l : List α} (hl : l.Pairwise R) {q : α → Bool} {a : α} :
    l.find? q = some a ↔ a ∈ l ∧ q a = true ∧ ∀ b ∈ l, q b = true → b = a ∨ R a b := by
  -- What is found comes before all others.
  have first : ∀ c, l.find? q = some c →
      c ∈ l ∧ q c = true ∧ ∀ b ∈ l, q b = true → b = c ∨ R c b := by
    intro c hc
    obtain ⟨hq, before, after, rfl, hno⟩ := List.find?_eq_some_iff_append.1 hc
    refine ⟨by simp, hq, fun b hb hqb => ?_⟩
    obtain ⟨-, hafter, -⟩ := List.pairwise_append.1 hl
    rcases List.mem_append.1 hb with hb | hb
    · have := hno b hb
      simp [hqb] at this
    · rcases List.mem_cons.1 hb with rfl | hb
      · exact .inl rfl
      · exact .inr ((List.pairwise_cons.1 hafter).1 b hb)
  constructor
  · exact first a
  · rintro ⟨ha, hq, hfirst⟩
    obtain ⟨c, hc⟩ : ∃ c, l.find? q = some c :=
      Option.isSome_iff_exists.1 (List.find?_isSome.2 ⟨a, ha, hq⟩)
    obtain ⟨hcl, hqc, hcfirst⟩ := first c hc
    rcases hfirst c hcl hqc with rfl | hac
    · exact hc
    · rcases hcfirst a ha hq with rfl | hca
      · exact hc
      · exact absurd hca (hR a c hac)

namespace Table

variable {α : Type}

/-- Of several entries with one name the last answers the look-up. -/
theorem find?_ofList (l : List (String × α)) (k : String) :
    (ofList l).find? k = l.reverse.findSome? fun e => if e.1 = k then some e.2 else none := by
  have hstep (t : Table α) (e : String × α) : (t.insert e.1 e.2).find? k =
      (if e.1 = k then some e.2 else none).or (t.find? k) := by
    rw [find?_insert]
    split <;> simp
  have h := foldl_write (fun t : Table α => t.find? k) _ hstep empty l
  simpa [ofList] using h

theorem mem_keys_ofList (l : List (String × α)) (k : String) :
    k ∈ (ofList l).keys ↔ k ∈ l.map (·.1) := by
  rw [mem_keys_iff, find?_ofList, List.findSome?_isSome_iff]
  simp only [List.mem_reverse, List.mem_map]
  constructor
  · rintro ⟨e, he, hk⟩
    refine ⟨e, he, Decidable.byContradiction fun hne => ?_⟩
    simp [hne] at hk
  · rintro ⟨e, he, rfl⟩
    exact ⟨e, he, by simp⟩

theorem mem_keys_insert (t : Table α) (k k' : String) (a : α) :
    k ∈ (t.insert k' a).keys ↔ k = k' ∨ k ∈ t.keys := by
  rw [mem_keys_iff, mem_keys_iff, find?_insert]
  by_cases hk : k' = k
  · simp [hk]
  · simp [hk, Ne.symm hk]

theorem nodup_keys (t : Table α) : t.keys.Nodup :=
  List.pairwise_map.2 <| t.sorted.imp fun {a b} hab heq => by
    rw [heq] at hab
    exact String.lt_irrefl _ hab

/-- A table has as many entries as there are different names among those that it is made of. -/
theorem size_ofList (l : List (String × α)) :
    (ofList l).size = (l.map (·.1)).dedup.length := by
  have hperm : (ofList l).keys.Perm (l.map (·.1)).dedup :=
    (List.perm_ext_iff_of_nodup (nodup_keys _) (List.nodup_dedup _)).2 fun k => by
      rw [mem_keys_ofList, List.mem_dedup]
  rw [← hperm.length_eq, keys, List.length_map, size]

/-- It keeps all of them exactly if their names are distinct. -/
theorem size_ofList_eq_iff (l : List (String × α)) :
    (ofList l).size = l.length ↔ (l.map (·.1)).Nodup := by
  have hlength : (l.map (·.1)).length = l.length := List.length_map _
  rw [size_ofList, ← hlength]
  constructor
  · intro hlength
    exact List.dedup_eq_self.1 ((List.dedup_sublist _).eq_of_length hlength)
  · intro hnodup
    rw [List.dedup_eq_self.2 hnodup]

/-- Then every entry is found under its name. -/
theorem find?_ofList_of_mem {l : List (String × α)} (hnodup : (l.map (·.1)).Nodup) {k : String}
    {a : α} (h : (k, a) ∈ l) : (ofList l).find? k = some a := by
  rw [find?_ofList, List.findSome?_eq_some_iff]
  obtain ⟨before, after, hl⟩ := List.append_of_mem (List.mem_reverse.2 h)
  refine ⟨before, (k, a), after, hl, by simp, fun e he => ?_⟩
  have hne : e.1 ≠ k := by
    have hrev : (l.reverse.map (·.1)).Nodup := by
      rw [List.map_reverse]
      exact List.nodup_reverse.2 hnodup
    rw [hl, List.map_append, List.nodup_append] at hrev
    exact hrev.2.2 e.1 (List.mem_map_of_mem he) k (by simp)
  simp [hne]

theorem entries_ofList (l : List (String × α)) :
    (ofList l).entries = l.foldl (fun entries e => insertIn e.1 e.2 entries) [] := by
  have hfold (t : Table α) : (l.foldl (fun t e => t.insert e.1 e.2) t).entries =
      l.foldl (fun entries e => insertIn e.1 e.2 entries) t.entries := by
    induction l generalizing t with
    | nil => rfl
    | cons e l ih => exact ih _
  exact hfold empty

theorem lookup_eq_findIn (l : List (String × α)) (k : String) : l.lookup k = findIn k l := by
  induction l with
  | nil => rfl
  | cons e l ih =>
    obtain ⟨k', a⟩ := e
    by_cases hk : k = k'
    · simp [findIn, hk]
    · simp [findIn, List.lookup_cons, beq_eq_false_iff_ne.2 hk, Ne.symm hk, ih]

/-- The only entry under a name is found. -/
theorem find?_ofList_of_filter {l : List (String × α)} {k : String} {a : α}
    (h : l.filter (·.1 = k) = [(k, a)]) : (ofList l).find? k = some a := by
  obtain ⟨before, after, rfl, -, -, hafter⟩ := List.filter_eq_cons_iff.1 h
  rw [find?_ofList, List.findSome?_eq_some_iff]
  refine ⟨after.reverse, (k, a), before.reverse, by simp, by simp, fun e he => ?_⟩
  have hne : e.1 ≠ k := by simpa using List.filter_eq_nil_iff.1 hafter e (List.mem_reverse.1 he)
  simp [hne]

/-- Values are selected before or after they are taken out of the table. -/
theorem values_filter (p : α → Bool) (t : Table α) :
    (t.filter fun _ a => p a).values = t.values.filter p := by
  rw [values, values, List.filter_map]
  rfl

/-- Two selections can be made in either order. -/
theorem filter_comm (p q : String → α → Bool) (t : Table α) :
    (t.filter p).filter q = (t.filter q).filter p := by
  refine ext_find? fun k => ?_
  rw [find?_filter, find?_filter, find?_filter, find?_filter, Option.filter_filter,
    Option.filter_filter]
  simp only [Bool.and_comm]

theorem mem_values_iff (t : Table α) (v : α) : v ∈ t.values ↔ ∃ k, t.find? k = some v := by
  simp only [values, List.mem_map, Prod.exists, exists_eq_right, mem_entries_iff]

theorem name_le_iff {a b : String} : a ≤ b ↔ a = b ∨ a < b := by
  constructor
  · intro hle
    rw [Decidable.or_iff_not_imp_right]
    intro hlt
    exact String.le_antisymm hle (String.not_lt.1 hlt)
  · rintro (rfl | hlt)
    · exact String.le_refl a
    · exact String.not_lt.1 (String.lt_asymm hlt)

/-- Entries of a table with one name are the same entry. -/
theorem eq_of_fst_eq {t : Table α} {e e' : String × α} (he : e ∈ t.entries) (he' : e' ∈ t.entries)
    (h : e.1 = e'.1) : e = e' := by
  obtain ⟨k, v⟩ := e
  obtain ⟨k', v'⟩ := e'
  obtain rfl : k = k' := h
  have hv := (mem_entries_iff t k v).1 he
  rw [(mem_entries_iff t k v').1 he'] at hv
  simp_all

/-- The first value that a test accepts, among entries that a relation on their names sorts. -/
theorem find?_map_snd_iff {R : String → String → Prop} (hR : ∀ a b, R a b → ¬ R b a)
    {l : List (String × α)} (hl : l.Pairwise fun a b => R a.1 b.1)
    (hkey : ∀ e ∈ l, ∀ e' ∈ l, e.1 = e'.1 → e = e') {p : α → Bool} {v : α} :
    (l.map (·.2)).find? p = some v ↔ ∃ k, (k, v) ∈ l ∧ p v = true ∧
      ∀ k' v', (k', v') ∈ l → p v' = true → k = k' ∨ R k k' := by
  have hfind (e : String × α) := find?_iff_of_pairwise (q := fun e : String × α => p e.2) (a := e)
    (fun a b => hR a.1 b.1) hl
  rw [List.find?_map, Option.map_eq_some_iff]
  constructor
  · rintro ⟨e, he, rfl⟩
    obtain ⟨hmem, hp, hfirst⟩ := (hfind e).1 he
    refine ⟨e.1, hmem, hp, fun k' v' hv' hp' => ?_⟩
    rcases hfirst (k', v') hv' hp' with rfl | h
    · exact .inl rfl
    · exact .inr h
  · rintro ⟨k, hv, hp, hfirst⟩
    refine ⟨(k, v), (hfind _).2 ⟨hv, hp, fun b hb hpb => ?_⟩, rfl⟩
    rcases hfirst b.1 b.2 hb hpb with h | h
    · exact .inl (hkey b hb _ hv h.symm)
    · exact .inr h

/-- The first value that a test accepts is the one with the least name. -/
theorem find?_values_iff (t : Table α) (p : α → Bool) (v : α) :
    t.values.find? p = some v ↔ ∃ k, t.find? k = some v ∧ p v = true ∧
      ∀ k' v', t.find? k' = some v' → p v' = true → k ≤ k' := by
  rw [values, find?_map_snd_iff (R := (· < ·)) (fun _ _ => String.lt_asymm) t.sorted
    fun _ he _ he' => eq_of_fst_eq he he']
  simp only [mem_entries_iff, name_le_iff]

/-- The last value that a test accepts is the one with the greatest name. -/
theorem find?_reverse_values_iff (t : Table α) (p : α → Bool) (v : α) :
    t.values.reverse.find? p = some v ↔ ∃ k, t.find? k = some v ∧ p v = true ∧
      ∀ k' v', t.find? k' = some v' → p v' = true → k' ≤ k := by
  have hsorted : t.entries.reverse.Pairwise fun a b => b.1 < a.1 :=
    List.pairwise_reverse.2 t.sorted
  rw [values, ← List.map_reverse, find?_map_snd_iff (R := fun a b => b < a)
    (fun _ _ => String.lt_asymm) hsorted fun e he e' he' =>
      eq_of_fst_eq (List.mem_reverse.1 he) (List.mem_reverse.1 he')]
  simp only [List.mem_reverse, mem_entries_iff, name_le_iff, eq_comm]

end Table

end VocabPhp
