import VocabPhp.Proofs.Collapsing

/-!
# Three replacements at once

The three replacements that collapse a text run one after the other, each on what the one before has
left. They do what one replacement of all breaks of the text itself does. This is so because no
break begins within another one: the breaks of a text lie apart, and each place of the text shows by
itself what becomes of it.

* `breaks_apart`: two breaks of a text are the same, or one ends before the other begins.
* `NoneAcross`: no break lies across a cut.
* `shownAt`: what a place of a text shows. `Collapsed.eq_shown`: a collapsed text is what its places
  show.
* `Collapsed.append_row`: a row of breaks becomes a row of spaces.
* `collapse_simultaneous`: all of this for every text, and that the single pass is `replaceAny`.
-/

namespace VocabPhp.Text.Breaks

/-! ## Breaks lie apart -/

/-- The first character tells which break it is. -/
theorem eq_of_head?_eq : ∀ b ∈ breaks, ∀ b' ∈ breaks, b.head? = b'.head? → b = b' := by decide

/-- No break goes on with a character that a break begins with. -/
theorem head?_not_mem_tail : ∀ b ∈ breaks, ∀ b' ∈ breaks, b'.head? ∉ b.tail.map some := by decide

theorem getElem?_of_prefix_drop {b cs : List Char} {i k : Nat} (h : b <+: cs.drop i)
    (hk : k < b.length) : cs[i + k]? = b[k]? := by
  rw [← List.getElem?_drop, List.prefix_iff_getElem?.1 h k hk, List.getElem?_eq_getElem hk]

/-- Two breaks of a text are the same one, or the first ends before the second begins. -/
theorem breaks_apart {cs b b' : List Char} {i j : Nat} (hb : b ∈ breaks) (hi : b <+: cs.drop i)
    (hb' : b' ∈ breaks) (hj : b' <+: cs.drop j) (hij : i ≤ j) :
    i = j ∧ b = b' ∨ i + b.length ≤ j := by
  have hpos := List.length_pos_iff.2 (ne_nil_of_mem_breaks b hb)
  have hpos' := List.length_pos_iff.2 (ne_nil_of_mem_breaks b' hb')
  have hhead : cs[j]? = b'.head? := by
    rw [List.head?_eq_getElem?, ← getElem?_of_prefix_drop hj hpos', Nat.add_zero]
  obtain ⟨k, rfl⟩ := Nat.exists_eq_add_of_le hij
  by_cases hk : k < b.length
  · rw [getElem?_of_prefix_drop hi hk] at hhead
    rcases k with _ | k
    · rw [← List.head?_eq_getElem?] at hhead
      exact .inl ⟨rfl, eq_of_head?_eq b hb b' hb' hhead⟩
    · -- The second break would begin within the first one.
      rw [← List.getElem?_tail] at hhead
      obtain ⟨c, hc⟩ : ∃ c, b'.head? = some c :=
        Option.isSome_iff_exists.1 (List.isSome_head?.2 (ne_nil_of_mem_breaks b' hb'))
      have hwithin : c ∈ b.tail := List.mem_iff_getElem?.2 ⟨k, hhead.trans hc⟩
      exact absurd (hc ▸ List.mem_map_of_mem hwithin) (head?_not_mem_tail b hb b' hb')
  · exact .inr (by omega)

/-- A break that begins in another one, at the front of a text, is that one. -/
theorem eq_of_begins_in {b b' rest : List Char} {j : Nat} (hb : b ∈ breaks) (hb' : b' ∈ breaks)
    (hj : j < b.length) (hbegins : b' <+: (b ++ rest).drop j) : j = 0 ∧ b = b' := by
  have hfirst : b <+: (b ++ rest).drop 0 := List.prefix_append b rest
  rcases breaks_apart hb hfirst hb' hbegins (Nat.zero_le j) with ⟨rfl, rfl⟩ | hbehind
  · exact ⟨rfl, rfl⟩
  · omega

/-- No break lies across the cut between two texts. -/
def NoneAcross (cs₁ cs₂ : List Char) : Prop :=
  ∀ j < cs₁.length, ∀ b ∈ breaks, b <+: (cs₁ ++ cs₂).drop j → j + b.length ≤ cs₁.length

theorem noneAcross_break {b : List Char} (hb : b ∈ breaks) (rest : List Char) :
    NoneAcross b rest := by
  intro j hj b' hb' hbegins
  obtain ⟨rfl, rfl⟩ := eq_of_begins_in hb hb' hj hbegins
  rw [Nat.zero_add]

theorem noneAcross_singleton {c : Char} {rest : List Char}
    (hnone : ∀ b ∈ breaks, ¬ b <+: c :: rest) : NoneAcross [c] rest := by
  intro j hj b hb hbegins
  obtain rfl : j = 0 := Nat.lt_one_iff.1 hj
  exact absurd hbegins (hnone b hb)

/-! ## What a place shows -/

/-- A break begins at a place of a text. -/
def BreakBegins (cs : List Char) (i : Nat) : Prop := ∃ b ∈ breaks, b <+: cs.drop i

/-- A break that began before a place of a text goes on there. -/
def BreakGoesOn (cs : List Char) (i : Nat) : Prop :=
  ∃ j < i, ∃ b ∈ breaks, b <+: cs.drop j ∧ i < j + b.length

instance (cs : List Char) (i : Nat) : Decidable (BreakBegins cs i) :=
  inferInstanceAs (Decidable (∃ b ∈ breaks, _))

instance (cs : List Char) (i : Nat) : Decidable (BreakGoesOn cs i) :=
  inferInstanceAs (Decidable (∃ j < i, ∃ b ∈ breaks, _))

/-- What a place of a text shows when all breaks are replaced at once: a space where a break begins,
nothing where one goes on, and otherwise the character that stands there. -/
def shownAt (cs : List Char) (i : Nat) : Option Char :=
  if BreakBegins cs i then some ' ' else if BreakGoesOn cs i then none else cs[i]?

/-- What the places of a text show, from the first to the last. -/
def shown (cs : List Char) : List Char := (List.range cs.length).filterMap (shownAt cs)

/-- Behind a cut that no break lies across, the places show what they show without the text in front
of it. -/
theorem shownAt_append {cs₁ cs₂ : List Char} (hcut : NoneAcross cs₁ cs₂) (i : Nat) :
    shownAt (cs₁ ++ cs₂) (cs₁.length + i) = shownAt cs₂ i := by
  have hbegins : BreakBegins (cs₁ ++ cs₂) (cs₁.length + i) ↔ BreakBegins cs₂ i := by
    simp only [BreakBegins, List.drop_length_add_append]
  have hgoesOn : BreakGoesOn (cs₁ ++ cs₂) (cs₁.length + i) ↔ BreakGoesOn cs₂ i := by
    constructor
    · rintro ⟨j, hj, b, hb, hbegins, hlong⟩
      by_cases hfront : j < cs₁.length
      · have := hcut j hfront b hb hbegins
        omega
      · obtain ⟨j, rfl⟩ := Nat.exists_eq_add_of_le (Nat.le_of_not_lt hfront)
        rw [List.drop_length_add_append] at hbegins
        exact ⟨j, by omega, b, hb, hbegins, by omega⟩
    · rintro ⟨j, hj, b, hb, hbegins, hlong⟩
      refine ⟨cs₁.length + j, by omega, b, hb, ?_, by omega⟩
      rwa [List.drop_length_add_append]
  have hchar : (cs₁ ++ cs₂)[cs₁.length + i]? = cs₂[i]? := by
    rw [List.getElem?_append_right (Nat.le_add_right _ _), Nat.add_sub_cancel_left]
  simp only [shownAt, hbegins, hgoesOn, hchar]

theorem shown_append {cs₁ cs₂ : List Char} (hcut : NoneAcross cs₁ cs₂) :
    shown (cs₁ ++ cs₂) =
      (List.range cs₁.length).filterMap (shownAt (cs₁ ++ cs₂)) ++ shown cs₂ := by
  rw [shown, List.length_append, List.range_add, List.filterMap_append, List.filterMap_map, shown]
  congr 2
  funext i
  exact shownAt_append hcut i

/-- Within a break nothing shows. -/
theorem shownAt_within {b : List Char} {i : Nat} (hb : b ∈ breaks) (rest : List Char) (hi : 0 < i)
    (hib : i < b.length) : shownAt (b ++ rest) i = none := by
  have hnone : ¬ BreakBegins (b ++ rest) i := by
    rintro ⟨b', hb', hbegins⟩
    exact absurd (eq_of_begins_in hb hb' hib hbegins).1 (Nat.ne_of_gt hi)
  have hgoesOn : BreakGoesOn (b ++ rest) i :=
    ⟨0, hi, b, hb, List.prefix_append b rest, by omega⟩
  rw [shownAt, if_neg hnone, if_pos hgoesOn]

/-- A break shows one space. -/
theorem shown_break {b : List Char} (hb : b ∈ breaks) (rest : List Char) :
    shown (b ++ rest) = ' ' :: shown rest := by
  obtain ⟨n, hn⟩ := Nat.exists_eq_succ_of_ne_zero
    (Nat.ne_of_gt (List.length_pos_iff.2 (ne_nil_of_mem_breaks b hb)))
  have hfirst : shownAt (b ++ rest) 0 = some ' ' := if_pos ⟨b, hb, List.prefix_append b rest⟩
  have hothers : ∀ i ∈ (List.range n).map Nat.succ, shownAt (b ++ rest) i = none := by
    intro i hi
    obtain ⟨k, hk, rfl⟩ := List.mem_map.1 hi
    have hkb : k + 1 < b.length := by
      have := List.mem_range.1 hk
      omega
    exact shownAt_within hb rest (Nat.succ_pos k) hkb
  rw [shown_append (noneAcross_break hb rest), hn, List.range_succ_eq_map,
    List.filterMap_cons_some hfirst, List.filterMap_eq_nil_iff.2 hothers, List.singleton_append]

/-- A character that no break begins with shows itself. -/
theorem shown_cons {c : Char} {rest : List Char} (hnone : ∀ b ∈ breaks, ¬ b <+: c :: rest) :
    shown (c :: rest) = c :: shown rest := by
  have hbegins : ¬ BreakBegins (c :: rest) 0 := fun ⟨b, hb, hbegins⟩ => hnone b hb hbegins
  have hgoesOn : ¬ BreakGoesOn (c :: rest) 0 := fun ⟨j, hj, _⟩ => Nat.not_lt_zero j hj
  have hfirst : shownAt (c :: rest) 0 = some c := by
    rw [shownAt, if_neg hbegins, if_neg hgoesOn, List.getElem?_cons_zero]
  have hsplit := shown_append (noneAcross_singleton hnone)
  rwa [List.singleton_append, List.length_singleton, List.range_one,
    List.filterMap_cons_some hfirst] at hsplit

/-- A collapsed text is what the places of the text show. -/
theorem Collapsed.eq_shown {cs out : List Char} (h : Collapsed cs out) : out = shown cs := by
  induction h with
  | nil => rfl
  | space hb _ ih => rw [shown_break hb, ih]
  | other hnone _ ih => rw [shown_cons hnone, ih]

/-! ## Breaks in a row -/

theorem collapsed_row {row : List (List Char)} (hrow : ∀ b ∈ row, b ∈ breaks)
    {after out : List Char} (h : Collapsed after out) :
    Collapsed (row.flatten ++ after) (List.replicate row.length ' ' ++ out) := by
  induction row with
  | nil => exact h
  | cons b row ih =>
    rw [List.flatten_cons, List.append_assoc]
    exact .space (hrow b List.mem_cons_self) (ih fun b hb => hrow b (List.mem_cons_of_mem _ hb))

/-- A row of breaks becomes as many spaces, and the texts around it are collapsed by themselves. -/
theorem Collapsed.append_row {row : List (List Char)} (hne : row ≠ [])
    (hrow : ∀ b ∈ row, b ∈ breaks) {before out₁ after out₂ : List Char}
    (h₁ : Collapsed before out₁) (h₂ : Collapsed after out₂) :
    Collapsed (before ++ (row.flatten ++ after))
      (out₁ ++ (List.replicate row.length ' ' ++ out₂)) := by
  have hspaces := collapsed_row hrow h₂
  obtain ⟨b, row, rfl⟩ := List.exists_cons_of_ne_nil hne
  have hb := hrow b List.mem_cons_self
  obtain ⟨c, tail, rfl⟩ := List.exists_cons_of_ne_nil (ne_nil_of_mem_breaks b hb)
  have hwithin : ∀ b' ∈ breaks, c ∉ b'.tail := fun b' hb' hc =>
    head?_not_mem_tail b' hb' _ hb (List.mem_map_of_mem hc)
  exact h₁.append hwithin hspaces

/-- The three replacements that collapse a text are one. They do what a single pass over the text
does that replaces each of its breaks by a space and copies every other character. The breaks of the
text lie apart, and each place of the text shows by itself what becomes of it: a space, nothing, or
the character that stands there. So breaks in a row become as many spaces, whatever stands around
them. -/
theorem collapse_simultaneous (text : String) :
    (collapse text).toList = replaceAny breaks ' ' text.toList ∧
      (∀ b ∈ breaks, ∀ b' ∈ breaks, ∀ i j, b <+: text.toList.drop i → b' <+: text.toList.drop j →
        i ≤ j → i = j ∧ b = b' ∨ i + b.length ≤ j) ∧
      (collapse text).toList = shown text.toList ∧
      ∀ before row after, row ≠ [] → (∀ b ∈ row, b ∈ breaks) →
        text.toList = before ++ (row.flatten ++ after) →
        (collapse text).toList =
          collapseChars before ++ (List.replicate row.length ' ' ++ collapseChars after) := by
  have hpass : Collapsed text.toList (collapse text).toList := by
    rw [collapse, String.toList_ofList]
    exact collapsed_iff.2 rfl
  refine ⟨?_, fun b hb b' hb' i j hi hj => breaks_apart hb hi hb' hj, hpass.eq_shown, ?_⟩
  · rw [← hpass.collapseChars_eq, (collapsed_replaceAny text.toList).collapseChars_eq]
  · intro before row after hne hrow htext
    have hbefore : Collapsed before (collapseChars before) := collapsed_iff.2 rfl
    have hafter : Collapsed after (collapseChars after) := collapsed_iff.2 rfl
    have hparts := hbefore.append_row hne hrow hafter
    rw [← htext] at hparts
    rw [← hpass.collapseChars_eq, hparts.collapseChars_eq]

/-- All three breaks stand in place of the space of a `<br />`. Each becomes a space of its own. -/
theorem collapse_simultaneous_interrupted :
    "one<br<br />\\n\n/>two".toList = "one<br".toList ++ (breaks.flatten ++ "/>two".toList) ∧
      collapse "one<br<br />\\n\n/>two" = "one<br   />two" ∧
      shown "one<br<br />\\n\n/>two".toList = "one<br   />two".toList := by
  obtain ⟨-, -, hshown, hrow⟩ := collapse_simultaneous "one<br<br />\\n\n/>two"
  have htext : "one<br<br />\\n\n/>two".toList =
      "one<br".toList ++ (breaks.flatten ++ "/>two".toList) := by decide +kernel
  have hparts := hrow _ breaks _ (by decide) (fun _ hb => hb) htext
  have hcollapsed : (collapse "one<br<br />\\n\n/>two").toList = "one<br   />two".toList := by
    rw [hparts]
    decide +kernel
  exact ⟨htext, String.toList_inj.1 hcollapsed, hshown ▸ hcollapsed⟩

end VocabPhp.Text.Breaks
